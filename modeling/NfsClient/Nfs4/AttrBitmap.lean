import Mathlib.Data.Nat.Bitwise
import NfsClient.Lib.WordSet
import NfsClient.Nfs4.Attr
import NfsClient.Nfs4.Encode
import NfsClient.Nfs4.ReplyDecoding

/-!
# Attribute bitmaps are finite sets

Attribute `n` is represented by bit `n % 32` of word `n / 32`.  `BitmapFor` builds a bitmap from
attribute numbers, `Has` looks one of them up, and `SetAttrs` enumerates them; the order of the
enumeration is the order of the values in an `attrlist4`.

Attribute numbers have 32 bits, so a bitmap of more than `2 ^ 27` words has bits that stand for no
attribute; on such a bitmap `SetAttrs` would wrap around.
-/

namespace NfsClient.Nfs4.Attr

open NfsClient.Lib NfsClient.Xdr NfsClient.Xdr.Decoder

/-- `Has` reports whether an attribute is set. -/
def has (b : Bitmap) (a : AttrNum) : Bool :=
  let word := (a / 32).toNat
  match b[word]? with
  | none => false
  | some w => w &&& (1 <<< (a % 32)) ≠ 0

/-- `Bitmap.Encode` of the package `attr`. -/
def encodeBitmap (b : Bitmap) : Bytes :=
  [Encoder.uint32 (UInt32.ofNat b.length), b.flatMap Encoder.uint32].flatten

/-- `DecodeBitmap` of the package `attr`. -/
def decodeBitmap : Dec Bitmap := fun d =>
  match uint32 d with
  | (n, d₁) => if d₁.err.isSome then ([], d₁) else decodeWords n.toNat d₁

/-! ## Bits of a word -/

/-- Bit `b` of a word. -/
def bit (x : UInt32) (b : ℕ) : Bool := x.toNat.testBit b

lemma bit_zero (b : ℕ) : bit 0 b = false := Nat.zero_testBit b

lemma toNat_one_shiftLeft {c : UInt32} (h : c.toNat < 32) :
    ((1 : UInt32) <<< c).toNat = 2 ^ c.toNat := by
  have hlt : 2 ^ c.toNat < 2 ^ 32 := Nat.pow_lt_pow_right (by decide) h
  rw [UInt32.toNat_shiftLeft, Nat.mod_eq_of_lt h]
  show 1 <<< c.toNat % 2 ^ 32 = 2 ^ c.toNat
  rw [Nat.one_shiftLeft, Nat.mod_eq_of_lt hlt]

/-- Looking at a bit through a mask. -/
lemma and_shiftLeft_ne_zero_iff (x : UInt32) {c : UInt32} (h : c.toNat < 32) :
    x &&& (1 <<< c) ≠ 0 ↔ bit x c.toNat = true := by
  rw [ne_eq, ← UInt32.toNat_inj, UInt32.toNat_and, toNat_one_shiftLeft h, Nat.and_two_pow, bit]
  cases x.toNat.testBit c.toNat <;> simp

/-- Setting a bit. -/
lemma bit_or_shiftLeft (x : UInt32) {c : UInt32} (h : c.toNat < 32) (b : ℕ) :
    bit (x ||| (1 <<< c)) b = (bit x b || decide (b = c.toNat)) := by
  rw [bit, UInt32.toNat_or, toNat_one_shiftLeft h, Nat.testBit_or, Nat.testBit_two_pow, bit]
  simp only [eq_comm]

/-- Words with the same bits are equal. -/
lemma eq_of_bit {x y : UInt32} (h : ∀ b < 32, bit x b = bit y b) : x = y := by
  refine UInt32.toNat_inj.mp (Nat.eq_of_testBit_eq fun b => ?_)
  by_cases hb : b < 32
  · exact h b hb
  · have hpow : 2 ^ 32 ≤ 2 ^ b := Nat.pow_le_pow_right (by decide) (by omega)
    rw [Nat.testBit_lt_two_pow (lt_of_lt_of_le x.toNat_lt hpow),
      Nat.testBit_lt_two_pow (lt_of_lt_of_le y.toNat_lt hpow)]

/-! ## The set of a bitmap -/

lemma toNat_div_32 (a : AttrNum) : (a / 32).toNat = a.toNat / 32 := UInt32.toNat_div a 32

lemma toNat_mod_32 (a : AttrNum) : (a % 32).toNat = a.toNat % 32 := UInt32.toNat_mod a 32

lemma toNat_mod_32_lt (a : AttrNum) : (a % 32).toNat < 32 := by
  rw [toNat_mod_32]
  exact Nat.mod_lt _ (by decide)

lemma has_eq (b : Bitmap) (a : AttrNum) : has b a = WordSet.has bit 32 b a.toNat := by
  simp only [has, WordSet.has, toNat_div_32]
  cases b[a.toNat / 32]? with
  | none => rfl
  | some w =>
      rw [← toNat_mod_32, Bool.eq_iff_iff, decide_eq_true_iff]
      exact and_shiftLeft_ne_zero_iff w (toNat_mod_32_lt a)

lemma filterMap_ite {α β : Type} (p : α → Bool) (f : α → β) (l : List α) :
    l.filterMap (fun a => if p a then some (f a) else none) = (l.filter p).map f := by
  induction l with
  | nil => rfl
  | cons a l ih => cases h : p a <;> simp [h, ih]

lemma setAttrs_eq (b : Bitmap) : setAttrs b = (WordSet.members bit 32 b).map UInt32.ofNat := by
  have hword : ∀ (w : UInt32) (word : ℕ), ((List.range 32).filterMap fun i =>
      if w &&& (1 <<< UInt32.ofNat i) ≠ 0 then some (UInt32.ofNat (word * 32 + i)) else none)
        = (((List.range 32).filter (bit w)).map (word * 32 + ·)).map UInt32.ofNat := by
    intro w word
    rw [List.map_map, ← filterMap_ite]
    refine List.filterMap_congr fun i hi => ?_
    have hi32 : i < 32 := List.mem_range.mp hi
    have htoNat : (UInt32.ofNat i).toNat = i :=
      UInt32.toNat_ofNat_of_lt' (lt_trans hi32 (by decide))
    have hbit := and_shiftLeft_ne_zero_iff w (show (UInt32.ofNat i).toNat < 32 by rwa [htoNat])
    rw [htoNat] at hbit
    simp only [hbit, Function.comp]
  simp only [setAttrs, WordSet.members, List.map_flatMap, hword]

section Enumeration

variable {b : Bitmap} (hb : b.length ≤ 2 ^ 27)

include hb

lemma lt_of_mem_members {n : ℕ} (h : n ∈ WordSet.members bit 32 b) : n < 2 ^ 32 := by
  have hlt := WordSet.lt_of_has (by decide) ((WordSet.mem_members_iff (by decide)).mp h)
  omega

lemma mem_setAttrs_iff (a : AttrNum) : a ∈ setAttrs b ↔ has b a = true := by
  rw [setAttrs_eq, has_eq, ← WordSet.mem_members_iff (by decide), List.mem_map]
  constructor
  · rintro ⟨n, hn, rfl⟩
    rwa [UInt32.toNat_ofNat_of_lt' (lt_of_mem_members hb hn)]
  · intro h
    exact ⟨a.toNat, h, UInt32.ofNat_toNat⟩

/-- The attributes are enumerated in increasing order. -/
lemma pairwise_setAttrs : (setAttrs b).Pairwise (· < ·) := by
  rw [setAttrs_eq, List.pairwise_map]
  refine WordSet.pairwise_members.imp_of_mem fun {m n} hm hn hlt => ?_
  rw [UInt32.lt_iff_toNat_lt, UInt32.toNat_ofNat_of_lt' (lt_of_mem_members hb hm),
    UInt32.toNat_ofNat_of_lt' (lt_of_mem_members hb hn)]
  exact hlt

end Enumeration

/-! ## Building a bitmap -/

/-- `BitmapFor` sets the bit of one attribute. -/
def insert (bm : Bitmap) (a : AttrNum) : Bitmap :=
  bm.modify (a / 32).toNat (· ||| (1 <<< (a % 32)))

lemma has_insert {bm : Bitmap} {n : AttrNum} (hn : n.toNat / 32 < bm.length) (a : AttrNum) :
    has (insert bm n) a = (has bm a || decide (a = n)) := by
  have hset : ∀ x b c, b < 32 → c < 32 →
      bit ((fun x c => x ||| (1 <<< UInt32.ofNat c)) x c) b = (bit x b || decide (b = c)) := by
    intro x b c _ hc
    have htoNat : (UInt32.ofNat c).toNat = c :=
      UInt32.toNat_ofNat_of_lt' (lt_trans hc (by decide))
    have h := bit_or_shiftLeft x (show (UInt32.ofNat c).toNat < 32 by rwa [htoNat]) b
    rwa [htoNat] at h
  have hmod : UInt32.ofNat (n.toNat % 32) = n % 32 := by
    rw [← toNat_mod_32, UInt32.ofNat_toNat]
  have h := WordSet.has_modify (by decide) hset hn a.toNat
  rw [hmod, ← toNat_div_32] at h
  rw [has_eq, has_eq, insert, h, decide_eq_decide.mpr UInt32.toNat_inj]

lemma length_foldl_insert (xs : List AttrNum) (bm : Bitmap) :
    (xs.foldl insert bm).length = bm.length := by
  induction xs generalizing bm with
  | nil => rfl
  | cons x xs ih => rw [List.foldl_cons, ih, insert, List.length_modify]

lemma has_foldl_insert {xs : List AttrNum} {bm : Bitmap}
    (hxs : ∀ x ∈ xs, x.toNat / 32 < bm.length) (a : AttrNum) :
    has (xs.foldl insert bm) a = (has bm a || decide (a ∈ xs)) := by
  induction xs generalizing bm with
  | nil => simp
  | cons x xs ih =>
      have hlen : (insert bm x).length = bm.length := List.length_modify ..
      rw [List.foldl_cons, ih (fun y hy => by rw [hlen]; exact hxs y (List.mem_cons_of_mem _ hy)),
        has_insert (hxs x (List.mem_cons_self ..))]
      simp [Bool.or_assoc]

/-- The largest of the numbers. -/
def maxAttr (xs : List AttrNum) : AttrNum := xs.foldl (fun max a => if max < a then a else max) 0

lemma bitmapFor_eq (xs : List AttrNum) :
    bitmapFor xs = xs.foldl insert (List.replicate ((maxAttr xs / 32).toNat + 1) 0) := rfl

lemma le_foldl_max {xs : List AttrNum} {max a : AttrNum} (h : a ≤ max ∨ a ∈ xs) :
    a ≤ xs.foldl (fun max a => if max < a then a else max) max := by
  induction xs generalizing max with
  | nil => simpa using h
  | cons x xs ih =>
      have hmax : max ≤ (if max < x then x else max) ∧ x ≤ (if max < x then x else max) := by
        split
        · next hlt => exact ⟨UInt32.le_of_lt hlt, UInt32.le_refl x⟩
        · next hlt => exact ⟨UInt32.le_refl max, UInt32.not_lt.mp hlt⟩
      refine ih ?_
      rcases h with h | h
      · exact Or.inl (UInt32.le_trans h hmax.1)
      · rcases List.mem_cons.mp h with rfl | h
        · exact Or.inl hmax.2
        · exact Or.inr h

lemma le_maxAttr {xs : List AttrNum} {a : AttrNum} (h : a ∈ xs) : a ≤ maxAttr xs :=
  le_foldl_max (Or.inr h)

lemma length_bitmapFor_le (xs : List AttrNum) : (bitmapFor xs).length ≤ 2 ^ 27 := by
  have hlt := (maxAttr xs).toNat_lt
  rw [bitmapFor_eq, length_foldl_insert, List.length_replicate, toNat_div_32]
  omega

lemma has_bitmapFor (xs : List AttrNum) (a : AttrNum) : has (bitmapFor xs) a = decide (a ∈ xs) := by
  have hzero : has (List.replicate ((maxAttr xs / 32).toNat + 1) 0) a = false := by
    rw [has_eq]
    exact WordSet.has_replicate bit_zero _ _
  rw [bitmapFor_eq, has_foldl_insert, hzero, Bool.false_or]
  intro x hx
  have hle := UInt32.le_iff_toNat_le.mp (le_maxAttr hx)
  rw [List.length_replicate, toNat_div_32]
  omega

/-- Enumerating a bitmap and building it again gives the bitmap up to zero words at its end. -/
lemma eqUpTo_bitmapFor_setAttrs {b : Bitmap} (hb : b.length ≤ 2 ^ 27) :
    WordSet.EqUpTo 0 (bitmapFor (setAttrs b)) b := by
  refine WordSet.eqUpTo_of_has (w := 32) bit_zero (fun x y => eq_of_bit) fun n => ?_
  by_cases hn : n < 2 ^ 32
  · have htoNat : (UInt32.ofNat n).toNat = n := UInt32.toNat_ofNat_of_lt' hn
    rw [← htoNat, ← has_eq, ← has_eq, has_bitmapFor, Bool.eq_iff_iff, decide_eq_true_iff,
      mem_setAttrs_iff hb]
  · -- no bit of the two bitmaps stands for a larger number
    have hclear : ∀ c : Bitmap, c.length ≤ 2 ^ 27 → WordSet.has bit 32 c n = false := by
      intro c hc
      by_contra h
      have hlt := WordSet.lt_of_has (by decide) (Bool.not_eq_false _ ▸ h)
      omega
    rw [hclear b hb, hclear _ (length_bitmapFor_le _)]

/-! ## The two codecs -/

lemma encodeBitmap_eq (b : Bitmap) : encodeBitmap b = b.encode := rfl

lemma decodeBitmap_eq : decodeBitmap = Nfs4.decodeBitmap := rfl

lemma decodes_encode {m : UInt32} {b : Bitmap} (hb : b.length ≤ 2 ^ 27) :
    Decodes m Nfs4.decodeBitmap b.encode b :=
  Format.decodes_bitmap (lt_of_le_of_lt hb (by decide))

/-- **Attribute bitmaps represent finite sets.**  `BitmapFor` builds the set of its arguments, and
`SetAttrs` enumerates it in increasing order.  The enumeration of any bitmap whose bits are
attribute numbers is increasing, it lists what `Has` finds, and it determines the bitmap up to zero
words at its end.  Each of the two encodings is read back by each of the two decoders, which stop
at its last byte. -/
theorem bitmap_represents_set :
    (∀ xs : List AttrNum,
      (∀ a, has (bitmapFor xs) a = true ↔ a ∈ xs) ∧
      (setAttrs (bitmapFor xs)).Pairwise (· < ·) ∧
      ∀ a, a ∈ setAttrs (bitmapFor xs) ↔ a ∈ xs) ∧
    ∀ b : Bitmap, b.length ≤ 2 ^ 27 →
      (setAttrs b).Pairwise (· < ·) ∧
      (∀ a, a ∈ setAttrs b ↔ has b a = true) ∧
      WordSet.EqUpTo 0 (bitmapFor (setAttrs b)) b ∧
      ∀ enc ∈ [encodeBitmap, Bitmap.encode], ∀ dec ∈ [decodeBitmap, Nfs4.decodeBitmap],
        ∀ (m : UInt32) (rest : Bytes), dec (input m (enc b ++ rest)) = (b, input m rest) := by
  have hhas : ∀ (xs : List AttrNum) a, has (bitmapFor xs) a = true ↔ a ∈ xs := by
    intro xs a
    rw [has_bitmapFor, decide_eq_true_iff]
  refine ⟨fun xs => ⟨hhas xs, pairwise_setAttrs (length_bitmapFor_le xs), fun a => ?_⟩,
    fun b hb => ⟨pairwise_setAttrs hb, mem_setAttrs_iff hb, eqUpTo_bitmapFor_setAttrs hb, ?_⟩⟩
  · rw [mem_setAttrs_iff (length_bitmapFor_le xs), hhas]
  · intro enc henc dec hdec m rest
    have hencode : enc b = b.encode := by
      rcases List.mem_pair.mp henc with rfl | rfl
      · exact encodeBitmap_eq b
      · rfl
    have hdecode : dec = Nfs4.decodeBitmap := by
      rcases List.mem_pair.mp hdec with rfl | rfl
      · exact decodeBitmap_eq
      · rfl
    rw [hencode, hdecode]
    exact (decodes_encode hb).reads rest

end NfsClient.Nfs4.Attr
