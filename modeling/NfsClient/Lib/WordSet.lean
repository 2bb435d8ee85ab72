import Mathlib.Data.List.Basic

/-!
# Sets of numbers as lists of words

A finite set of numbers is kept in a list of words of `w` bits each: a number `a` is in the set
if bit `a % w` of word `a / w` is set.  Words are of any type; `bit x b` tells whether bit `b` of
the word `x` is set.

The set does not change when words without bits are appended, and that is the only freedom: lists
that hold the same numbers are equal up to such words (`eqUpTo_of_has`).
-/

namespace NfsClient.Lib.WordSet

variable {α : Type} (bit : α → ℕ → Bool) (w : ℕ)

/-- The number `a` is in the set. -/
def has (ws : List α) (a : ℕ) : Bool :=
  match ws[a / w]? with
  | none => false
  | some x => bit x (a % w)

/-- The numbers in the set, word by word and bit by bit. -/
def members (ws : List α) : List ℕ :=
  ws.zipIdx.flatMap fun (x, i) => ((List.range w).filter (bit x)).map (i * w + ·)

/-- Lists of words that are equal up to trailing words `z`. -/
def EqUpTo (z : α) (us vs : List α) : Prop :=
  ∃ k l, us ++ List.replicate k z = vs ++ List.replicate l z

variable {bit w} {ws us vs : List α}

lemma has_eq_true_iff {a : ℕ} :
    has bit w ws a = true ↔ ∃ x, ws[a / w]? = some x ∧ bit x (a % w) = true := by
  unfold has
  cases ws[a / w]? <;> simp

lemma has_word_bit {i b : ℕ} (hb : b < w) :
    has bit w ws (i * w + b) = (ws[i]?.elim false (bit · b)) := by
  have hi : (i * w + b) / w = i := by
    rw [Nat.mul_comm, Nat.mul_add_div (by omega), Nat.div_eq_of_lt hb, Nat.add_zero]
  have hm : (i * w + b) % w = b := by
    rw [Nat.mul_comm, Nat.mul_add_mod, Nat.mod_eq_of_lt hb]
  rw [has, hi, hm]
  cases ws[i]? <;> rfl

/-- A word that is missing is like one without bits. -/
lemma has_word_bit_getD {z : α} (hz : ∀ b, bit z b = false) {i b : ℕ} (hb : b < w) :
    has bit w ws (i * w + b) = bit (ws[i]?.getD z) b := by
  rw [has_word_bit hb]
  cases ws[i]? with
  | none => exact (hz b).symm
  | some x => rfl

lemma mem_members_iff (hw : 0 < w) {a : ℕ} : a ∈ members bit w ws ↔ has bit w ws a = true := by
  simp only [members, List.mem_flatMap, List.mem_map, List.mem_filter, List.mem_range,
    has_eq_true_iff]
  constructor
  · rintro ⟨⟨x, i⟩, hx, b, ⟨hb, hbit⟩, rfl⟩
    have h : has bit w ws (i * w + b) = ws[i]?.elim false (bit · b) := has_word_bit hb
    rw [List.mem_zipIdx_iff_getElem?.mp hx] at h
    exact has_eq_true_iff.mp (h.trans hbit)
  · rintro ⟨x, hx, hbit⟩
    refine ⟨(x, a / w), List.mem_zipIdx_iff_getElem?.mpr hx, a % w, ⟨Nat.mod_lt a hw, hbit⟩, ?_⟩
    rw [Nat.mul_comm]
    exact Nat.div_add_mod a w

/-- The numbers are enumerated in increasing order. -/
lemma pairwise_members : (members bit w ws).Pairwise (· < ·) := by
  refine List.pairwise_flatMap.mpr ⟨fun ⟨x, i⟩ _ => ?_, ?_⟩
  · -- the bits of one word
    rw [List.pairwise_map]
    refine (List.pairwise_lt_range.filter _).imp fun {b c} h => ?_
    omega
  · -- the words
    have hidx : (ws.zipIdx.map Prod.snd).Pairwise (· < ·) := by
      rw [List.zipIdx_map_snd]
      exact List.pairwise_lt_range'
    refine (List.pairwise_map.mp hidx).imp fun {p q} hpq a ha c hc => ?_
    simp only [List.mem_map, List.mem_filter, List.mem_range] at ha hc
    obtain ⟨b, ⟨hb, -⟩, rfl⟩ := ha
    obtain ⟨b', -, rfl⟩ := hc
    have hstep : (p.2 + 1) * w ≤ q.2 * w := Nat.mul_le_mul_right w hpq
    rw [Nat.add_mul, Nat.one_mul] at hstep
    omega

lemma lt_of_has (hw : 0 < w) {a : ℕ} (h : has bit w ws a = true) : a < ws.length * w := by
  obtain ⟨x, hx, -⟩ := has_eq_true_iff.mp h
  have hlt : a / w < ws.length := (List.getElem?_eq_some_iff.mp hx).1
  exact (Nat.div_lt_iff_lt_mul hw).mp hlt

/-- Setting one bit adds one number. -/
lemma has_modify (hw : 0 < w) {set : α → ℕ → α}
    (hset : ∀ x b c, b < w → c < w → bit (set x c) b = (bit x b || decide (b = c))) {n : ℕ}
    (hn : n / w < ws.length) (a : ℕ) :
    has bit w (ws.modify (n / w) (set · (n % w))) a = (has bit w ws a || decide (a = n)) := by
  unfold has
  rw [List.getElem?_modify]
  by_cases hword : n / w = a / w
  · have hx := List.getElem?_eq_getElem (hword ▸ hn)
    have hiff : a % w = n % w ↔ a = n := by
      constructor
      · intro hmod
        rw [← Nat.div_add_mod a w, ← Nat.div_add_mod n w, hword, hmod]
      · rintro rfl
        rfl
    rw [hx]
    simp only [Option.map_eq_map, Option.map_some, hword, if_true,
      hset _ _ _ (Nat.mod_lt a hw) (Nat.mod_lt n hw), hiff]
  · have hne : a ≠ n := by
      rintro rfl
      exact hword rfl
    simp only [hword, if_false, hne, decide_false, Bool.or_false]
    cases ws[a / w]? <;> rfl

lemma has_replicate {z : α} (hz : ∀ b, bit z b = false) (k a : ℕ) :
    has bit w (List.replicate k z) a = false := by
  unfold has
  rw [List.getElem?_replicate]
  by_cases hk : a / w < k
  · rw [if_pos hk]
    exact hz _
  · rw [if_neg hk]

lemma getElem?_append_replicate (us : List α) (z : α) (k i : ℕ) :
    (us ++ List.replicate k z)[i]? = if i < us.length + k then some (us[i]?.getD z) else none := by
  rw [List.getElem?_append, List.getElem?_replicate]
  by_cases hi : i < us.length
  · rw [if_pos hi, if_pos (by omega), List.getElem?_eq_getElem hi]
    rfl
  · rw [if_neg hi, List.getElem?_eq_none (by omega)]
    split <;> split <;> first | rfl | omega

/-- Lists that hold the same numbers are equal up to trailing words without bits. -/
lemma eqUpTo_of_has {z : α} (hz : ∀ b, bit z b = false)
    (hinj : ∀ x y, (∀ b < w, bit x b = bit y b) → x = y)
    (h : ∀ a, has bit w us a = has bit w vs a) : EqUpTo z us vs := by
  have hword : ∀ i : ℕ, us[i]?.getD z = vs[i]?.getD z := by
    intro i
    refine hinj _ _ fun b hb => ?_
    rw [← has_word_bit_getD hz hb, ← has_word_bit_getD hz hb]
    exact h (i * w + b)
  -- both are brought to the same length
  refine ⟨vs.length, us.length, List.ext_getElem? fun i => ?_⟩
  rw [getElem?_append_replicate, getElem?_append_replicate, hword i, Nat.add_comm]

end NfsClient.Lib.WordSet
