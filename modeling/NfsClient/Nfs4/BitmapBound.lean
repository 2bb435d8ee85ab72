import NfsClient.Nfs4.AttrBitmap
import NfsClient.Nfs4.Resops
import NfsClient.Xdr.Consumes

/-!
# The size of decoded bitmaps

`DecodeBitmap` allocates as many words as the input declares and fills them from the input.  The
count is not compared with the limit of the decoder, and when the input ends early the words that
could not be read stay zero: a bitmap always has as many words as declared.  In a READDIR result
such a bitmap is dropped together with its entry.  The results of GETATTR, OPEN, CREATE and SETATTR
keep it.
-/

namespace NfsClient.Nfs4

open NfsClient.Lib NfsClient.Xdr NfsClient.Xdr.Decoder

/-! ## One bitmap -/

/-- The count in front of a `bitmap4`, if there are bytes enough for it. -/
def declaredCount (r : Bytes) : Option ℕ := if r.length < 4 then none else some (beNat (r.take 4))

/-- The number of words that the input holds behind the count. -/
def heldWords (r : Bytes) : ℕ := (r.length - 4) / 4

/-- On this input the decoder returns no more words than the input holds, and a count beyond what
the input holds or beyond the limit gives no words and an error. -/
structure CountBounded (dec : Dec Bitmap) (m : UInt32) (r : Bytes) : Prop where
  words : (dec (input m r)).1.length ≤ r.length / 4
  refused : ∀ n, declaredCount r = some n →
    heldWords r < n ∨ (input m r).effMaxLen.toNat < n →
      (dec (input m r)).1 = [] ∧ Failed (dec (input m r)).2

lemma length_decodeWords (n : ℕ) (d : Decoder) : (decodeWords n d).1.length = n := by
  induction n generalizing d with
  | zero => rfl
  | succ n ih => simp [decodeWords, ih]

/-- A number that cannot be read is zero. -/
lemma uint32_of_failed {d : Decoder} (h : Failed (uint32 d).2) : (uint32 d).1 = 0 := by
  rw [uint32_eq, bind_run, unlessFailed] at h ⊢
  split at h
  · next hread => rw [if_pos hread]
  · next hread => exact absurd h hread

lemma decodeBitmap_run (d : Decoder) :
    decodeBitmap d = unlessFailed [] (decodeWords (uint32 d).1.toNat) (uint32 d).2 := rfl

/-- A bitmap has as many words as declared, whether or not they could be read. -/
lemma length_decodeBitmap (d : Decoder) : (decodeBitmap d).1.length = (uint32 d).1.toNat := by
  rw [decodeBitmap_run, unlessFailed]
  split
  · next h =>
      rw [uint32_of_failed h]
      rfl
  · exact length_decodeWords _ _

lemma consumes_decodeWords (n : ℕ) : Consumes (4 * n) (decodeWords n) := by
  induction n with
  | zero => exact .pure []
  | succ n ih =>
      exact (consumes_uint32.bind fun _ => ih.bind fun _ => .pure _).of_eq (by omega)

/-- A bitmap that was read without an error was in the input. -/
lemma length_decodeBitmap_le {d : Decoder} (h : (decodeBitmap d).2.err = none) :
    4 * (decodeBitmap d).1.length ≤ d.r.length := by
  have hwords : (decodeBitmap d).2.r.length + 4 * (uint32 d).1.toNat = (uint32 d).2.r.length :=
    ((consumes_decodeWords (uint32 d).1.toNat).unlessFailed []).length _ h
  have hcount := shrinks_uint32 d
  rw [length_decodeBitmap]
  omega

lemma uint32_input {m : UInt32} {r : Bytes} (h : 4 ≤ r.length) :
    uint32 (input m r) = (UInt32.ofNat (beNat (r.take 4)), input m (r.drop 4)) := by
  simp [uint32, Decoder.read, input, h]

/-- The decoder returns a bitmap within these bounds exactly if the count is within them. -/
lemma countBounded_iff (m : UInt32) (r : Bytes) :
    CountBounded decodeBitmap m r ↔
      ∀ n, declaredCount r = some n → n ≤ heldWords r ∧ n ≤ (input m r).effMaxLen.toNat := by
  by_cases hlen : r.length < 4
  · -- there is no count, and no word is returned
    have hnone : declaredCount r = none := if_pos hlen
    have hwords : (decodeBitmap (input m r)).1.length = 0 := by
      rw [length_decodeBitmap, uint32_of_failed]
      · rfl
      · simp [uint32, Decoder.read, input, Nat.not_le.mpr hlen, Failed]
    simp only [hnone, reduceCtorEq, false_implies, implies_true, iff_true]
    exact ⟨by rw [hwords]; exact Nat.zero_le _, by simp [hnone]⟩
  · have hsome : declaredCount r = some (beNat (r.take 4)) := if_neg hlen
    have hlt : beNat (r.take 4) < 2 ^ 32 := by
      have h := beNat_lt (r.take 4)
      rwa [List.length_take, Nat.min_eq_left (Nat.not_lt.mp hlen)] at h
    have hwords : (decodeBitmap (input m r)).1.length = beNat (r.take 4) := by
      rw [length_decodeBitmap, uint32_input (Nat.not_lt.mp hlen),
        UInt32.toNat_ofNat_of_lt' hlt]
    constructor
    · rintro ⟨-, hrefused⟩ n hn
      by_contra hbeyond
      have hempty := (hrefused n hn (by omega)).1
      rw [hempty, List.length_nil] at hwords
      rw [hsome, Option.some.injEq] at hn
      omega
    · intro h
      obtain ⟨hheld, hlimit⟩ := h _ hsome
      refine ⟨?_, fun n hn hbeyond => ?_⟩
      · rw [hwords]
        exact le_trans hheld (Nat.div_le_div_right (Nat.sub_le _ _))
      · rw [hsome, Option.some.injEq] at hn
        omega

/-! ## The bitmaps in results -/

/-- The bitmaps in a result. -/
def Res.bitmaps : Res → List Bitmap
  | .getattr r => [r.attrMask]
  | .readdir r => r.entries.map DirEntry.attrMask
  | .openFile r => [r.attrSet]
  | .create r | .setattr r => [r.attrSet]
  | _ => []

/-- The count of the bitmap of a GETATTR, OPEN, CREATE or SETATTR result, if it is reached. -/
def Res.declared : Res → Dec (Option ℕ)
  | .getattr _ => do
      if (← uint32) = nfs4Ok then return some (← uint32).toNat else return none
  | .openFile _ => do
      if (← uint32) = nfs4Ok then
        let _ ← decodeStateid
        skipChangeInfo
        let _ ← uint32
        return some (← uint32).toNat
      else return none
  | .create _ => do
      if (← uint32) = nfs4Ok then
        skipChangeInfo
        return some (← uint32).toNat
      else return none
  | .setattr _ => do
      let _ ← uint32
      return some (← uint32).toNat
  | _ => pure none

/-- The counts that are declared in the resops of a reply. -/
def declaredCounts (rs : List Res) (d : Decoder) : List ℕ :=
  (resops rs d).filterMap fun p => (p.res.declared p.body).1

/-- The bitmaps in the results of a reply are bounded by its length, whether or not it could be
decoded. -/
def BitmapsBounded (rs : List Res) (m : UInt32) (reply : Bytes) : Prop :=
  ∀ r ∈ (decodeCompound rs (input m reply)).1.1, ∀ b ∈ r.bitmaps, 4 * b.length ≤ reply.length

/-! ## What is kept of the bitmaps -/

/-- An entry that was read without an error was in the input. -/
lemma dirEntry_bounded {d : Decoder} (h : (DirEntry.decode d).2.err = none) :
    4 * (DirEntry.decode d).1.attrMask.length ≤ d.r.length := by
  have hmask := length_decodeBitmap_le
    (err_eq_none_of_keeps (decodes_varOpaque (m := 0) (p := []) (Nat.zero_le _)).keeps h)
  have hname := shrinks_string (uint64 d).2
  have hcookie := shrinks_uint64 d
  exact le_trans hmask (le_trans hname hcookie)

/-- The entries of a READDIR result have been read to their ends. -/
lemma entries_bounded (fuel : ℕ) {l : ℕ} {es : List DirEntry} {d : Decoder} (hd : d.r.length ≤ l)
    (hes : ∀ e ∈ es, 4 * e.attrMask.length ≤ l) :
    ∀ e ∈ (decodeEntries fuel es d).1.1, 4 * e.attrMask.length ≤ l := by
  induction fuel generalizing es d with
  | zero => exact hes
  | succ fuel ih =>
      have hmore := le_trans (shrinks_bool d) hd
      rw [decodeEntries_succ]
      split
      · exact hes
      · split
        · exact hes
        · next herr =>
            refine ih (le_trans (shrinks_dirEntry _) hmore) fun e he => ?_
            rcases List.mem_append.mp he with he | he
            · exact hes e he
            · rw [List.mem_singleton.mp he]
              exact le_trans (dirEntry_bounded (not_failed.mp herr)) hmore

lemma readdir_bounded {l : ℕ} {d : Decoder} (hd : d.r.length ≤ l) :
    ∀ e ∈ (ReaddirRes.decodeRes {} d).1.entries, 4 * e.attrMask.length ≤ l := by
  have hverf := le_trans (shrinks_fixedOpaque 8 (uint32 d).2) (le_trans (shrinks_uint32 d) hd)
  have hentries := entries_bounded (((fixedOpaque 8) (uint32 d).2).2.r.length + 1) hverf
    (List.forall_mem_nil fun e : DirEntry => 4 * e.attrMask.length ≤ l)
  simp only [ReaddirRes.decodeRes, bind_run, ite_run]
  split
  · split <;> exact hentries
  · simp

/-- A bitmap that is kept is bounded exactly if its count is. -/
lemma bitmaps_decodeRes (r : Res) {l : ℕ} {d : Decoder} (hd : d.r.length ≤ l) :
    (∀ b ∈ (r.fresh.decodeRes d).1.bitmaps, 4 * b.length ≤ l) ↔
      ∀ n, (r.declared d).1 = some n → 4 * n ≤ l := by
  cases r with
  | getattr r =>
      simp only [Res.fresh, Res.decodeRes, Res.declared, GetattrRes.decodeRes, map_run, bind_run,
        ite_run]
      split <;> simp [Res.bitmaps, length_decodeBitmap]
  | openFile r =>
      simp only [Res.fresh, Res.decodeRes, Res.declared, OpenRes.decodeRes, map_run, bind_run,
        ite_run]
      split <;> simp [Res.bitmaps, length_decodeBitmap]
  | create r =>
      simp only [Res.fresh, Res.decodeRes, Res.declared, AttrSetRes.decodeCreate, map_run, bind_run,
        ite_run]
      split <;> simp [Res.bitmaps, length_decodeBitmap]
  | setattr r =>
      simp [Res.fresh, Res.decodeRes, Res.declared, AttrSetRes.decodeSetattr, Res.bitmaps,
        length_decodeBitmap]
  | readdir r =>
      have hentries := readdir_bounded hd
      simpa [Res.fresh, Res.decodeRes, Res.declared, Res.bitmaps] using hentries
  | _ r => simp [Res.fresh, Res.decodeRes, Res.declared, Res.bitmaps]

lemma bitmaps_fresh (r : Res) : ∀ b ∈ r.fresh.bitmaps, b = [] := by
  cases r <;> simp [Res.fresh, Res.bitmaps]

lemma bitmapsBounded_iff (rs : List Res) (m : UInt32) (reply : Bytes) :
    BitmapsBounded (kinds rs) m reply ↔
      ∀ n ∈ declaredCounts (kinds rs) (input m reply), 4 * n ≤ reply.length := by
  have hresop : ∀ p ∈ resops (kinds rs) (input m reply),
      (∀ b ∈ p.result.bitmaps, 4 * b.length ≤ reply.length) ↔
        ∀ n, (p.res.declared p.body).1 = some n → 4 * n ≤ reply.length := by
    intro p hp
    have hmem := (res_isPrefix _ _).subset (List.mem_map_of_mem hp)
    obtain ⟨r, -, hr⟩ := List.mem_map.mp hmem
    have h := bitmaps_decodeRes r.fresh (body_length_le hp)
    rw [fresh_fresh, hr] at h
    exact h
  simp only [BitmapsBounded, decodeCompound_eq_resops, List.mem_append, List.mem_map,
    declaredCounts, List.mem_filterMap]
  constructor
  · rintro h n ⟨p, hp, hn⟩
    exact (hresop p hp).mp (h _ (Or.inl ⟨p, hp, rfl⟩)) n hn
  · rintro h r (⟨p, hp, rfl⟩ | hr)
    · exact (hresop p hp).mpr fun n hn => h n ⟨p, hp, hn⟩
    · -- a decoder that no resop has reached
      intro b hb
      obtain ⟨r₀, -, rfl⟩ := List.mem_map.mp (List.mem_of_mem_drop hr)
      rw [bitmaps_fresh r₀ b hb]
      exact Nat.zero_le _

/-- **What bounds decoded bitmaps.**  `DecodeBitmap` of either package keeps to the input and to
the limit exactly on the inputs whose count does.  The bitmaps in the results of a reply are bounded
by its length exactly if the counts in its GETATTR, OPEN, CREATE and SETATTR resops are; no
count in a READDIR resop makes a difference. -/
theorem bitmaps_bounded_iff (m : UInt32) (bytes : Bytes) :
    (∀ dec ∈ [decodeBitmap, Attr.decodeBitmap], CountBounded dec m bytes ↔
      ∀ n, declaredCount bytes = some n →
        n ≤ heldWords bytes ∧ n ≤ (input m bytes).effMaxLen.toNat) ∧
    ∀ rs : List Res, BitmapsBounded (kinds rs) m bytes ↔
      ∀ n ∈ declaredCounts (kinds rs) (input m bytes), 4 * n ≤ bytes.length := by
  refine ⟨fun dec hdec => ?_, fun rs => bitmapsBounded_iff rs m bytes⟩
  have hdecode : dec = decodeBitmap := by
    rcases List.mem_pair.mp hdec with rfl | rfl
    · rfl
    · exact Attr.decodeBitmap_eq
  rw [hdecode]
  exact countBounded_iff m bytes

/-- Four bytes are decoded to 256 words, and so is the mask of a GETATTR reply of 24 bytes. -/
theorem bitmaps_not_bounded :
    ¬ CountBounded decodeBitmap 0 [0, 0, 1, 0] ∧
      ¬ CountBounded Attr.decodeBitmap 0 [0, 0, 1, 0] ∧
      ¬ BitmapsBounded [.getattr {}] 0
        [0, 0, 0, 0, 0, 0, 0, 0, 0, 0, 0, 1, 0, 0, 0, 9, 0, 0, 0, 0, 0, 0, 1, 0] := by
  have hword : ¬ CountBounded decodeBitmap 0 [0, 0, 1, 0] := fun h =>
    absurd h.words (by decide +kernel)
  refine ⟨hword, hword, fun h => ?_⟩
  have hmask := (bitmapsBounded_iff [.getattr {}] 0 _).mp h 256 (by decide +kernel)
  exact absurd hmask (by decide)

end NfsClient.Nfs4
