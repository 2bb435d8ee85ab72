import NfsClient.Client.Transfer

/-!
# The cursor of a file

The cursor is an `int64`, and positions are computed with it as with any `int64`: the size that
the server reports is converted, and sums wrap around.  Only `Seek` looks at the sign of what it
gets.  The exact position of an operation is an integer; the cursor is exact as long as that
integer is in the range that the operation can cope with.
-/

namespace NfsClient.Client

open NfsClient.Lib NfsClient.Nfs4

variable {W : Type} (P : RWProtocol W)

/-! ## Exact positions -/

/-- The size that the server reports. -/
def File.reportedSize (f : File) (w : W) : Option UInt64 :=
  match P.getAttr f.fh Attr.standardMask w with
  | (.error _, _) => none
  | (.ok (mask, vals), _) =>
    match Attr.decode mask vals with
    | .error _ => none
    | .ok attrs => some attrs.size

/-- The position relative to which an operation moves the cursor; `none` if the operation is
refused, or the size is not known. -/
def FileOp.base (f : File) (w : W) (op : FileOp) : Option ℤ :=
  let size := (f.reportedSize P w).map fun sz => (sz.toNat : ℤ)
  if f.closed then none
  else match op with
    | .seek _ whence =>
      if whence = 0 then some 0
      else if whence = 1 then some f.offset.toInt
      else if whence = 2 then size
      else none
    | .write _ => if f.flag &&& oAppend ≠ 0 then size else some f.offset.toInt
    | _ => some f.offset.toInt

/-- How far an operation moves the cursor. -/
def FileOp.distance (f : File) (w : W) : FileOp → ℤ
  | .seek offset _ => offset.toInt
  | .read p => (f.read P p w).1.n
  | .write p => (f.write P p w).1.n
  | _ => 0

/-- Where the cursor belongs after an operation. -/
def FileOp.target (f : File) (w : W) (op : FileOp) : Option ℤ :=
  (op.base P f w).map (· + op.distance P f w)

/-- An operation treats the cursor as it should. -/
structure CursorExact (f : File) (w : W) (op : FileOp) : Prop where
  range : 0 ≤ (op.run P f w).2.1.offset.toInt ∧ (op.run P f w).2.1.offset.toInt < 2 ^ 63
  exact : ∀ v, op.target P f w = some v → 0 ≤ v → v < 2 ^ 63 →
    (op.run P f w).2.1.offset.toInt = v
  /-- A position that is no position of the cursor is an error, -/
  rejected : ∀ v, op.target P f w = some v → ¬ (0 ≤ v ∧ v < 2 ^ 63) →
    (op.run P f w).1.err ≠ none ∧ (op.run P f w).2.1.offset = f.offset
  /-- and so is one that is not known. -/
  failed : op.target P f w = none →
    (op.run P f w).1.err ≠ none ∧ (op.run P f w).2.1.offset = f.offset

/-! ## What the server answers -/

/-- The WRITEs that `Write` sends, and the answers to them. -/
def File.writesSent (f : File) (p : Bytes) (w : W) : List WriteEvent :=
  (f.write P.recorded p (w, [])).2.2.2

/-- How far the answers of the server should move the cursor: by the bytes that READ returns and the
buffer has room for, and by what the WRITEs are acknowledged with. -/
def FileOp.answered (f : File) (w : W) : FileOp → ℤ
  | .seek offset _ => offset.toInt
  | .read p =>
    match (P.read f.fh f.offset.toUInt64 (UInt32.ofNat p.length) w).1 with
    | .ok (data, _) => (min p.length data.length : ℕ)
    | .error _ => 0
  | .write p => ((f.writesSent P p w).map WriteEvent.count).sum
  | _ => 0

/-- The position that the arguments and the answers lead to. -/
def FileOp.ledTo (f : File) (w : W) (op : FileOp) : Option ℤ :=
  (op.base P f w).map (· + op.answered P f w)

/-- The positions that an operation copes with.  `Seek` refuses those that are negative as an
`int64`.  A write that fails, at a WRITE that is answered with an error or with a count of zero, can
bring the cursor back to where it was. -/
def FileOp.Copes (f : File) (w : W) : FileOp → ℤ → Prop
  | .seek _ _, v => v < 2 ^ 64
  | .read _, v => v < 2 ^ 63
  | .write p, v => v < 2 ^ 63 ∨
      (∃ e ∈ f.writesSent P p w, e.count = 0) ∧ 2 ^ 64 ∣ v - f.offset.toInt
  | _, _ => True

instance (f : File) (w : W) : ∀ op v, Decidable (FileOp.Copes P f w op v)
  | .seek _ _, v => inferInstanceAs (Decidable (v < 2 ^ 64))
  | .read _, v => inferInstanceAs (Decidable (v < 2 ^ 63))
  | .write p, v => inferInstanceAs (Decidable (v < 2 ^ 63 ∨
      (∃ e ∈ f.writesSent P p w, e.count = 0) ∧ 2 ^ 64 ∣ v - f.offset.toInt))
  | .readAt .., _ | .writeAt .., _ | .truncate _, _ | .close, _ => isTrue trivial

/-! ## One operation -/

section Step

variable {P} {f : File} {w : W} {op : FileOp} {v : ℤ}

/-- The cursor stays, and there is an error. -/
lemma cursorExact_of_unchanged (hf : 0 ≤ f.offset.toInt)
    (hout : (op.run P f w).1.err ≠ none ∧ (op.run P f w).2.1.offset = f.offset)
    (hv : ∀ v, op.target P f w = some v → ¬ (0 ≤ v ∧ v < 2 ^ 63)) : CursorExact P f w op where
  range := by
    rw [hout.2]
    exact ⟨hf, f.offset.toInt_lt⟩
  exact v htarget h₁ h₂ := absurd ⟨h₁, h₂⟩ (hv v htarget)
  rejected _ _ _ := hout
  failed _ := hout

/-- The cursor gets to a position in its range. -/
lemma cursorExact_of_target (htarget : op.target P f w = some v) (h₁ : 0 ≤ v) (h₂ : v < 2 ^ 63)
    (hout : (op.run P f w).2.1.offset = Int64.ofInt v) : CursorExact P f w op := by
  have hv : (op.run P f w).2.1.offset.toInt = v := by
    rw [hout, Int64.toInt_ofInt_of_le (by omega) h₂]
  refine ⟨by rw [hv]; exact ⟨h₁, h₂⟩, fun v' h _ _ => ?_, fun v' h hnot => ?_, fun h => ?_⟩
  · rw [hv]
    exact Option.some.inj (htarget.symm.trans h)
  · obtain rfl := Option.some.inj (htarget.symm.trans h)
    exact absurd ⟨h₁, h₂⟩ hnot
  · rw [htarget] at h
    cases h

/-- An operation that does not move the cursor. -/
lemma cursorExact_of_stayed (hf : 0 ≤ f.offset.toInt) (hopen : f.closed = false)
    (hbase : op.base P f w = if f.closed then none else some f.offset.toInt)
    (hdist : op.distance P f w = 0) (hout : (op.run P f w).2.1.offset = f.offset) :
    CursorExact P f w op := by
  refine cursorExact_of_target (v := f.offset.toInt) ?_ hf f.offset.toInt_lt ?_
  · simp [FileOp.target, hbase, hdist, hopen]
  · rw [hout, Int64.ofInt_toInt]

/-- The cursor moves to where it belongs, modulo `2 ^ 64`. -/
lemma cursorExact_iff_of_moved (hf : 0 ≤ f.offset.toInt) (htarget : op.target P f w = some v)
    (hv : 0 ≤ v) (hout : (op.run P f w).2.1.offset = Int64.ofInt v) :
    CursorExact P f w op ↔
      v < 2 ^ 63 ∨ (op.run P f w).1.err ≠ none ∧ 2 ^ 64 ∣ v - f.offset.toInt := by
  by_cases hlt : v < 2 ^ 63
  · exact iff_of_true (cursorExact_of_target htarget hv hlt hout) (Or.inl hlt)
  · rw [or_iff_right hlt, ← ofInt_eq_iff_dvd, ← hout]
    refine ⟨fun h => h.rejected v htarget (by omega), fun h => ?_⟩
    refine cursorExact_of_unchanged hf h fun v' hv' => ?_
    obtain rfl := Option.some.inj (htarget.symm.trans hv')
    omega

/-! ### The operations -/

lemma File.size_cases (P : RWProtocol W) (f : File) (w : W) :
    (∃ e w', f.reportedSize P w = none ∧ f.size P w = (.error e, w')) ∨
      ∃ (sz : UInt64) (w' : W), f.reportedSize P w = some sz ∧
        f.size P w = (.ok (Int64.ofInt sz.toNat), w') := by
  unfold File.reportedSize File.size
  rcases P.getAttr f.fh Attr.standardMask w with ⟨e | ⟨mask, vals⟩, w'⟩
  · exact Or.inl ⟨e, w', rfl, rfl⟩
  · rcases hdec : Attr.decode mask vals with e | attrs
    · exact Or.inl ⟨e, w', by simp only [hdec], by simp only [hdec]⟩
    · exact Or.inr ⟨attrs.size, w', by simp only [hdec], by simp only [hdec, ofInt_toNat]⟩

/-- `Seek` fails, or it moves relative to its base. -/
lemma seek_cases (hf : 0 ≤ f.offset.toInt) (hopen : f.closed = false) (offset : Int64)
    (whence : ℤ) :
    (FileOp.base P f w (.seek offset whence) = none ∧
      ∃ e w', f.seek P offset whence w = ({ err := some e }, f, w')) ∨
    ∃ b w', FileOp.base P f w (.seek offset whence) = some b ∧ 0 ≤ b ∧ b < 2 ^ 64 ∧
      f.seek P offset whence w = ((f.seekFrom (Int64.ofInt b) offset).1,
        (f.seekFrom (Int64.ofInt b) offset).2, w') := by
  have hlt := f.offset.toInt_lt
  simp only [FileOp.base, File.seek, hopen, Bool.false_eq_true, if_false]
  by_cases h0 : whence = 0
  · rw [if_pos h0, if_pos h0]
    exact Or.inr ⟨0, w, rfl, le_rfl, by decide, rfl⟩
  rw [if_neg h0, if_neg h0]
  by_cases h1 : whence = 1
  · rw [if_pos h1, if_pos h1]
    exact Or.inr ⟨f.offset.toInt, w, rfl, hf, by omega, by rw [Int64.ofInt_toInt]⟩
  rw [if_neg h1, if_neg h1]
  by_cases h2 : whence = 2
  · rw [if_pos h2, if_pos h2]
    rcases f.size_cases P w with ⟨e, w', hnone, hsize⟩ | ⟨sz, w', hsome, hsize⟩
    · rw [hnone, hsize]
      exact Or.inl ⟨rfl, _, w', rfl⟩
    · rw [hsome, hsize]
      exact Or.inr ⟨sz.toNat, w', rfl, Int.natCast_nonneg _, by have := sz.toNat_lt; omega, rfl⟩
  · rw [if_neg h2, if_neg h2]
    exact Or.inl ⟨rfl, _, w, rfl⟩

lemma File.seekFrom_ofInt (f : File) (b : ℤ) (offset : Int64) :
    f.seekFrom (Int64.ofInt b) offset =
      if Int64.ofInt (b + offset.toInt) < 0 then ({ err := some (f.errInvalid "seek") }, f)
      else ({ n := (Int64.ofInt (b + offset.toInt)).toInt },
        { f with offset := Int64.ofInt (b + offset.toInt) }) := by
  rw [File.seekFrom, ofInt_add_toInt]

lemma target_seek {offset : Int64} {whence : ℤ} {b : ℤ}
    (hbase : FileOp.base P f w (.seek offset whence) = some b) :
    FileOp.target P f w (.seek offset whence) = some (b + offset.toInt) := by
  rw [FileOp.target, hbase]
  rfl

lemma cursorExact_seek_iff (hf : 0 ≤ f.offset.toInt) (hopen : f.closed = false) (offset : Int64)
    (whence : ℤ) :
    CursorExact P f w (.seek offset whence) ↔
      ∀ v ∈ FileOp.target P f w (.seek offset whence), v < 2 ^ 64 := by
  rcases seek_cases (P := P) (w := w) hf hopen offset whence with
    ⟨hbase, e, w', hseek⟩ | ⟨b, w', hbase, hb₁, hb₂, hseek⟩
  · have hnone : FileOp.target P f w (.seek offset whence) = none := by
      rw [FileOp.target, hbase]
      rfl
    refine iff_of_true (cursorExact_of_unchanged hf ?_ (by simp [hnone])) (by simp [hnone])
    rw [FileOp.run, hseek]
    simp
  · have htarget := target_seek hbase
    have ho₁ := offset.le_toInt
    have ho₂ := offset.toInt_lt
    have hneg := ofInt_lt_zero_iff (v := b + offset.toInt) (by omega) (by omega)
    have hfrom := f.seekFrom_ofInt b offset
    simp only [htarget, Option.mem_some_iff, forall_eq']
    by_cases hrefused : Int64.ofInt (b + offset.toInt) < 0
    · rw [if_pos hrefused] at hfrom
      rw [hneg] at hrefused
      refine iff_of_true (cursorExact_of_unchanged hf ?_ fun v hv => ?_) (by omega)
      · rw [FileOp.run, hseek, hfrom]
        simp
      · obtain rfl := Option.some.inj (htarget.symm.trans hv)
        omega
    · rw [if_neg hrefused] at hfrom
      rw [hneg] at hrefused
      refine ⟨fun h => ?_, fun hlt => ?_⟩
      · by_contra hge
        exact (h.rejected _ htarget (by omega)).1 (by rw [FileOp.run, hseek, hfrom])
      · exact cursorExact_of_target htarget (by omega) (by omega) (by rw [FileOp.run, hseek, hfrom])

/-- `Read` moves the cursor by what it returns. -/
lemma read_moves (P : RWProtocol W) (f : File) (p : Bytes) (w : W) :
    0 ≤ (f.read P p w).1.n ∧ (0 < (f.read P p w).1.n → (f.read P p w).1.err = none) ∧
      (f.read P p w).2.1.offset = Int64.ofInt (f.offset.toInt + (f.read P p w).1.n) := by
  have hstay : f.offset = Int64.ofInt (f.offset.toInt + 0) := by
    rw [Int.add_zero, Int64.ofInt_toInt]
  unfold File.read
  split
  · exact ⟨le_rfl, by simp, hstay⟩
  · split
    · exact ⟨le_rfl, by simp, hstay⟩
    · rcases P.read f.fh f.offset.toUInt64 (UInt32.ofNat p.length) w with ⟨e | ⟨data, eof⟩, w'⟩
      · exact ⟨le_rfl, by simp, hstay⟩
      · refine ⟨Int.natCast_nonneg _, fun hpos => if_neg (Int.natCast_pos.mp hpos).ne', ?_⟩
        rw [Int64.ofInt_add, Int64.ofInt_toInt]
        rfl

/-- `Write` fails, or it runs its loop and moves the cursor from its base by what it returns. -/
lemma write_cases (hf : 0 ≤ f.offset.toInt) (hopen : f.closed = false) (p : Bytes) :
    (FileOp.base P f w (.write p) = none ∧ (f.write P p w).1.err ≠ none ∧
      (f.write P p w).2.1 = f) ∨
    ∃ b off, FileOp.base P f w (.write p) = some b ∧ 0 ≤ b ∧
      f.Writes p off 0 (f.write P p w).1 (f.writesSent P p w) ∧
      (f.write P p w).2.1.offset = Int64.ofInt (b + (f.write P p w).1.n) := by
  have hfrom : ∀ (b : ℤ) (w : W),
      f.Writes p (Int64.ofInt b) 0 (f.writeFrom P p (Int64.ofInt b) w).1
        (f.writeFrom P.recorded p (Int64.ofInt b) (w, [])).2.2.2 ∧
      (f.writeFrom P p (Int64.ofInt b) w).2.1.offset =
        Int64.ofInt (b + (f.writeFrom P p (Int64.ofInt b) w).1.n) := by
    intro b w
    obtain ⟨es, hrec, hrun⟩ := File.writes_writeAllAt P f p (Int64.ofInt b) w
    refine ⟨?_, by rw [Int64.ofInt_add]; rfl⟩
    simp only [File.writeFrom, hrec]
    exact hrun
  simp only [FileOp.base, File.writesSent, File.write, hopen, Bool.false_eq_true, if_false]
  by_cases happ : f.flag &&& oAppend ≠ 0
  · rw [if_pos happ, if_pos happ, if_pos happ, File.size_recorded]
    rcases f.size_cases P w with ⟨e, w', hnone, hsize⟩ | ⟨sz, w', hsome, hsize⟩
    · rw [hnone, hsize]
      exact Or.inl ⟨rfl, by simp, rfl⟩
    · rw [hsome, hsize]
      obtain ⟨hruns, hoff⟩ := hfrom sz.toNat w'
      exact Or.inr ⟨sz.toNat, _, rfl, Int.natCast_nonneg _, hruns, hoff⟩
  · rw [if_neg happ, if_neg happ, if_neg happ]
    obtain ⟨hruns, hoff⟩ := hfrom f.offset.toInt w
    rw [Int64.ofInt_toInt] at hruns hoff
    exact Or.inr ⟨f.offset.toInt, _, rfl, hf, hruns, hoff⟩

/-- What an operation returns is what the server has answered. -/
lemma ledTo_eq_target (hf : 0 ≤ f.offset.toInt) (hopen : f.closed = false) (op : FileOp) :
    op.ledTo P f w = op.target P f w := by
  cases op with
  | read p =>
      have hanswered : FileOp.answered P f w (.read p) = FileOp.distance P f w (.read p) := by
        simp only [FileOp.answered, FileOp.distance, File.read, hopen, Bool.false_eq_true, if_false]
        rcases hr : P.read f.fh f.offset.toUInt64 (UInt32.ofNat p.length) w with
          ⟨e | ⟨data, eof⟩, w'⟩ <;> split_ifs with hp
        · rfl
        · rfl
        · simp [hp]
        · simp [copyAt]
      rw [FileOp.ledTo, FileOp.target, hanswered]
  | write p =>
      rcases write_cases (P := P) (w := w) hf hopen p with ⟨hbase, -, -⟩ | ⟨b, off, -, -, hruns, -⟩
      · rw [FileOp.ledTo, FileOp.target, hbase]
        rfl
      · have hn := hruns.n_eq
        rw [Nat.cast_zero, zero_add] at hn
        rw [FileOp.ledTo, FileOp.target, FileOp.answered, FileOp.distance, hn]
  | _ => rfl

/-- **When an operation treats the cursor as it should.** -/
lemma cursorExact_iff (hf : 0 ≤ f.offset.toInt) (op : FileOp) :
    CursorExact P f w op ↔ ∀ v ∈ op.ledTo P f w, op.Copes P f w v := by
  cases hopen : f.closed with
  | true =>
      have hbase : op.base P f w = none := by simp [FileOp.base, hopen]
      refine iff_of_true (cursorExact_of_unchanged hf ?_ (by simp [FileOp.target, hbase]))
        (by simp [FileOp.ledTo, hbase])
      rw [run_closed hopen]
      simp
  | false =>
      have hlt := f.offset.toInt_lt
      rw [ledTo_eq_target hf hopen]
      cases op with
      | seek offset whence => exact cursorExact_seek_iff hf hopen offset whence
      | read p =>
          have htarget : FileOp.target P f w (.read p) =
              some (f.offset.toInt + (f.read P p w).1.n) := by
            simp [FileOp.target, FileOp.base, FileOp.distance, hopen]
          obtain ⟨hn, herr, hmoved⟩ := read_moves P f p w
          rw [cursorExact_iff_of_moved hf htarget (by omega) hmoved, htarget]
          simp only [Option.mem_some_iff, forall_eq', FileOp.Copes]
          refine or_iff_left_of_imp fun h => ?_
          -- a read that fails has not moved the cursor
          by_contra hge
          exact h.1 (herr (by omega))
      | write p =>
          rcases write_cases (P := P) (w := w) hf hopen p with
            ⟨hbase, herr, hsame⟩ | ⟨b, off, hbase, hb, hruns, hmoved⟩
          · have hnone : FileOp.target P f w (.write p) = none := by
              rw [FileOp.target, hbase]
              rfl
            refine iff_of_true (cursorExact_of_unchanged hf ⟨herr, ?_⟩ (by simp [hnone]))
              (by simp [hnone])
            rw [FileOp.run, hsame]
          · have htarget : FileOp.target P f w (.write p) = some (b + (f.write P p w).1.n) := by
              rw [FileOp.target, hbase]
              rfl
            have hn := hruns.le_n
            rw [cursorExact_iff_of_moved hf htarget (by omega) hmoved, htarget]
            simp only [Option.mem_some_iff, forall_eq', FileOp.Copes, FileOp.run,
              hruns.err_ne_none_iff]
      | readAt | writeAt | truncate =>
          exact iff_of_true (cursorExact_of_stayed hf hopen rfl rfl rfl) fun _ _ => trivial
      | close =>
          refine iff_of_true (cursorExact_of_stayed hf hopen rfl rfl ?_) fun _ _ => trivial
          rw [FileOp.run, File.close, hopen]
          rcases P.closeFile f.fh f.stateid w with ⟨e | r, w'⟩ <;> rfl

end Step

/-! ## Runs -/

/-- **When the cursor is exact over a whole run.**  All operations, in any order and with any
answers of the server, treat the cursor as they should exactly if every one of them is led by the
answers to a position that it copes with. -/
theorem run_cursorExact_iff {f : File} (hf : 0 ≤ f.offset.toInt) (w : W) (ops : List FileOp) :
    Along (FileState.step P) (fun s op => CursorExact P s.file s.world op)
        { file := f, world := w } ops ↔
      Along (FileState.step P)
        (fun s op => ∀ v ∈ op.ledTo P s.file s.world, op.Copes P s.file s.world v)
        { file := f, world := w } ops := by
  refine along_congr (I := fun s => 0 ≤ s.file.offset.toInt)
    (fun s op hs => cursorExact_iff hs op) (fun s op s' _ hexact hstep => ?_) hf ops
  obtain rfl := Option.some.inj hstep
  exact hexact.range.1

/-- Some operations on a file of three bytes, opened with `O_APPEND`. -/
theorem run_cursorExact_append :
    Along (FileState.step (chunkServer 1))
      (fun s op => CursorExact (chunkServer 1) s.file s.world op)
      { file := { openedFile with flag := oAppend }, world := [1, 2, 3] }
      [.write [4, 5], .seek (-4) 2, .read [0, 0, 0], .seek (-9) 1] :=
  (run_cursorExact_iff (chunkServer 1) (by decide) [1, 2, 3] _).mpr (by decide +kernel)

/-- A server with a file of the largest size, that reads and writes one byte at a time. -/
def hugeServer : RWProtocol Unit where
  read _ _ _ w := (.ok ([1], false), w)
  write _ _ _ _ stable w := (.ok (1, stable), w)
  getAttr _ _ w := (.ok (Attr.encodeFattr { size := some 0xFFFFFFFFFFFFFFFF }), w)
  setAttr _ _ _ _ w := (.ok (), w)
  closeFile _ _ w := (.ok (), w)

/-- The cursor wraps around without an error: `Seek` behind the end of a file of `2 ^ 64 - 1` bytes
gets to the beginning, appending to it as well, and `Read` at the last position of the cursor gets
to a negative one. -/
theorem cursor_wraps :
    openedFile.seek hugeServer 1 2 () = ({ n := 0 }, openedFile, ()) ∧
      FileOp.target hugeServer openedFile () (.seek 1 2) = some (2 ^ 64) ∧
      ({ openedFile with flag := oAppend }.write hugeServer [7] ()) =
        ({ buf := [7], n := 1 }, { openedFile with flag := oAppend }, ()) ∧
      FileOp.target hugeServer { openedFile with flag := oAppend } () (.write [7]) =
        some (2 ^ 64) ∧
      ({ openedFile with offset := 0x7FFFFFFFFFFFFFFF }.read hugeServer [0] ()).1 =
        { buf := [1], n := 1 } ∧
      ({ openedFile with offset := 0x7FFFFFFFFFFFFFFF }.read hugeServer [0] ()).2.1.offset.toInt =
        -2 ^ 63 := by
  decide +kernel

end NfsClient.Client
