import NfsClient.Client.ByteFile
import NfsClient.Lib.MachineInt
import NfsClient.Nfs4.Fattr

/-!
# An open file is a byte array with a cursor

The loops of `ReadAt` and `WriteAt` make up for short reads and writes: whatever the server
chooses, the whole range is read or written.  From this, each operation of a `File` is a step
of the byte array that the file and its server stand for, and so is every run.
-/

namespace NfsClient.Client

open NfsClient.Lib NfsClient.Nfs4

variable {W : Type} {P : RWProtocol W} {fh : FileHandle} {sid : Stateid} {content : W → Bytes}
  {f : File} {w : W}

/-! ## The loop of `ReadAt` -/

/-- The buffer after `copy(p[i:], data)` of data that fits: what was in front, the data, and what
was behind. -/
def copied (p : Bytes) (i : ℕ) (data : Bytes) : Bytes :=
  p.take i ++ data ++ p.drop (i + data.length)

section Copied

variable {p data : Bytes} {i : ℕ}

lemma copyAt_of_le (h : data.length ≤ p.length - i) :
    copyAt p i data = (copied p i data, data.length) := by
  simp only [copyAt, copied, List.take_of_length_le h]

lemma length_copied (h : i + data.length ≤ p.length) : (copied p i data).length = p.length := by
  simp only [copied, List.length_append, List.length_take, List.length_drop]
  omega

lemma copied_take (hi : i ≤ p.length) :
    (copied p i data).take (i + data.length) = p.take i ++ data := by
  rw [copied, List.take_left' (by simp [hi])]

lemma copied_drop {m : ℕ} (hi : i ≤ p.length) (hm : i + data.length ≤ m) :
    (copied p i data).drop m = p.drop m := by
  obtain ⟨j, rfl⟩ := Nat.exists_eq_add_of_le hm
  rw [copied, ← List.drop_drop, List.drop_left' (by simp [hi]), List.drop_drop]

end Copied

/-- The count of a READ. -/
lemma toNat_readCount {k : ℕ} (h : k < 2 ^ 32) : (UInt32.ofNat k).toNat = k := by
  rw [UInt32.toNat_ofNat', Nat.mod_eq_of_lt h]

/-- The offset of a turn of the loops, `uint64(off) + uint64(total)`. -/
lemma toNat_turnOffset {off : Int64} {o total : ℕ} (ho : off.toInt = o) (h : total < 2 ^ 63) :
    (off.toUInt64 + UInt64.ofNat total).toNat = o + total := by
  have hoff := off.toInt_lt
  have hlt : o < 2 ^ 63 := by omega
  rw [toNat_add_ofNat, toNat_toUInt64 ho]
  rw [toNat_toUInt64 ho]
  omega

/-- What `ReadAt` returns for the range of `p.length` bytes at `o`. -/
def rangeRes (C : Bytes) (o : ℕ) (p : Bytes) : FileRes :=
  let data := (C.drop o).take p.length
  { buf := data ++ p.drop data.length
    n := data.length
    err := if C.length ≤ o + p.length then some .eof else none }

/-- The buffer is full, and there is more behind it. -/
lemma rangeRes_full {C p : Bytes} {o total : ℕ} (htotal : p.length = total)
    (hbuf : p.take total = (C.drop o).take total) (hmore : o + total < C.length) :
    rangeRes C o p = { buf := p, n := total } := by
  subst htotal
  rw [List.take_length] at hbuf
  simp only [rangeRes, ← hbuf, List.drop_length, List.append_nil, if_neg (not_le.mpr hmore)]

/-- The end of the file is reached with `m` bytes. -/
lemma rangeRes_eof {C p : Bytes} {o m : ℕ} (hm : m ≤ p.length) (hex : m ≤ (C.drop o).length)
    (hend : C.length ≤ o + m) :
    rangeRes C o p = { buf := (C.drop o).take m ++ p.drop m, n := m, err := some .eof } := by
  have hdrop : (C.drop o).length = m := by
    simp only [List.length_drop] at hex ⊢
    omega
  have htake : (C.drop o).take p.length = (C.drop o).take m := by
    rw [List.take_of_length_le (by omega), List.take_of_length_le (by omega)]
  have hlen : ((C.drop o).take m).length = m := by
    rw [List.length_take]
    omega
  simp only [rangeRes, htake, hlen, if_pos (show C.length ≤ o + p.length by omega)]

/-- A turn of the loop of `ReadAt` that the server answers with no more than was asked for. -/
lemma readAtLoop_read {off : Int64} {fuel : ℕ} {p data : Bytes} {total : ℕ} {eof : Bool} {w' : W}
    (hlt : total < p.length) (hdata : data.length ≤ p.length - total)
    (hread : P.read f.fh (off.toUInt64 + UInt64.ofNat total) (UInt32.ofNat (p.length - total)) w
      = (.ok (data, eof), w')) :
    f.readAtLoop P off (fuel + 1) p total w =
      if eof = true ∨ data.length = 0 then
        ({ buf := copied p total data, n := (total + data.length : ℕ), err := some .eof }, w')
      else f.readAtLoop P off fuel (copied p total data) (total + data.length) w' := by
  simp only [File.readAtLoop, if_pos hlt, hread, copyAt_of_le hdata, Bool.or_eq_true,
    decide_eq_true_eq]

/-- A turn of the loop of `ReadAt` extends the bytes read so far.  It stops at the end of the file,
and goes on in front of it. -/
lemma readAtLoop_turn (hP : ByteArrayServer P f.fh sid content) {off : Int64} {o : ℕ}
    (ho : off.toInt = o) {C : Bytes} (fuel : ℕ) {p : Bytes} {total : ℕ} (hw : content w = C)
    (hlen : p.length < 2 ^ 32) (hlt : total < p.length)
    (hbuf : p.take total = (C.drop o).take total) (hex : total ≤ (C.drop o).length) :
    ∃ data w', content w' = C ∧ total + data.length ≤ p.length ∧
      p.take total ++ data = (C.drop o).take (total + data.length) ∧
      total + data.length ≤ (C.drop o).length ∧
      (C.length ≤ o + (total + data.length) ∧
          f.readAtLoop P off (fuel + 1) p total w =
            ({ buf := copied p total data, n := (total + data.length : ℕ), err := some .eof }, w') ∨
        0 < data.length ∧ o + (total + data.length) < C.length ∧
          f.readAtLoop P off (fuel + 1) p total w =
            f.readAtLoop P off fuel (copied p total data) (total + data.length) w') := by
  obtain ⟨data, eof, w', k, hread, hk, hkle, hdata, heof, hw'⟩ :=
    hP.read w (off.toUInt64 + UInt64.ofNat total) (UInt32.ofNat (p.length - total))
      (by rw [toNat_readCount (by omega)]; omega)
  rw [toNat_readCount (by omega)] at hkle
  rw [toNat_turnOffset ho (by omega), hw] at hdata heof
  have hdlen : data.length = min k (C.length - (o + total)) := by simp [hdata]
  rw [List.length_drop] at hex
  have hbuf' : p.take total ++ data = (C.drop o).take (total + data.length) := by
    rw [List.take_add, hbuf, List.drop_drop, hdlen, hdata]
    congr 1
    rw [List.take_eq_take_iff, List.length_drop]
    omega
  refine ⟨data, w', hw'.trans hw, by omega, hbuf', by rw [List.length_drop]; omega, ?_⟩
  rw [readAtLoop_read hlt (by omega) hread]
  by_cases hstop : eof = true ∨ data.length = 0
  · refine Or.inl ⟨?_, if_pos hstop⟩
    rcases hstop with he | hd
    · have := heof.mp he
      omega
    · omega
  · refine Or.inr ?_
    rw [if_neg hstop]
    have := mt heof.mpr (not_or.mp hstop).1
    exact ⟨by omega, by omega, rfl⟩

/-- **`ReadAt` reads the range.**  From any point of the loop, the buffer ends up with all bytes of
the range that exist, and `io.EOF` is returned exactly when the range reaches the end. -/
lemma readAtLoop_spec (hP : ByteArrayServer P f.fh sid content) {off : Int64} {o : ℕ}
    (ho : off.toInt = o) {C : Bytes} (fuel : ℕ) {p : Bytes} {total : ℕ} (hw : content w = C)
    (hlen : p.length < 2 ^ 32) (hpos : 0 < p.length) (hle : total ≤ p.length)
    (hfuel : p.length ≤ total + fuel) (hbuf : p.take total = (C.drop o).take total)
    (hex : total ≤ (C.drop o).length) (hmore : total = 0 ∨ o + total < C.length) :
    ∃ w', f.readAtLoop P off fuel p total w = (rangeRes C o p, w') ∧ content w' = C := by
  induction fuel generalizing p total w with
  | zero => exact ⟨w, by rw [rangeRes_full (by omega) hbuf (by omega)]; rfl, hw⟩
  | succ fuel ih =>
      by_cases hlt : total < p.length
      · obtain ⟨data, w', hw', hdata, hbuf', hex', hstop | hgo⟩ :=
          readAtLoop_turn hP ho fuel hw hlen hlt hbuf hex
        · obtain ⟨hend, hturn⟩ := hstop
          refine ⟨w', ?_, hw'⟩
          rw [hturn, copied, hbuf', rangeRes_eof hdata hex' hend]
        · obtain ⟨hd, hnotend, hturn⟩ := hgo
          have hplen : (copied p total data).length = p.length := length_copied hdata
          have htake : (copied p total data).take (total + data.length) =
              (C.drop o).take (total + data.length) := by
            rw [copied_take hle, hbuf']
          obtain ⟨w'', hloop, hw''⟩ := ih hw' (by omega) (by omega) (by omega) (by omega) htake hex'
            (Or.inr hnotend)
          refine ⟨w'', ?_, hw''⟩
          -- the rest of the buffer was not touched
          have hrest : rangeRes C o (copied p total data) = rangeRes C o p := by
            have hdrop : (copied p total data).drop ((C.drop o).take p.length).length =
                p.drop ((C.drop o).take p.length).length := by
              rw [copied_drop hle]
              rw [List.length_take]
              omega
            simp only [rangeRes, hplen, hdrop]
          rw [hturn, hloop, hrest]
      · refine ⟨w, ?_, hw⟩
        rw [rangeRes_full (by omega) hbuf (by omega), File.readAtLoop, if_neg hlt]

/-! ## The loop of `WriteAt` -/

/-- The content of the server when `total` bytes of the buffer are written at `o`. -/
def Written (C : Bytes) (o : ℕ) (p : Bytes) (total : ℕ) (now : Bytes) : Prop :=
  total = 0 ∧ now = C ∨ now = patch 0 o (p.take total) C

lemma Written.full {C p now : Bytes} {o total : ℕ} (h : Written C o p total now) (hp : p ≠ [])
    (htotal : p.length = total) : now = patch 0 o p C := by
  subst htotal
  rcases h with ⟨h0, -⟩ | h
  · exact absurd (List.length_eq_zero_iff.mp h0) hp
  · rwa [List.take_length] at h

/-- The next bytes are written right behind those written before. -/
lemma Written.next {C p now now' : Bytes} {o total k : ℕ} (h : Written C o p total now)
    (hle : total ≤ p.length) (hnow : now' = patch 0 (o + total) ((p.drop total).take k) now) :
    Written C o p (total + k) now' := by
  refine Or.inr ?_
  rcases h with ⟨rfl, rfl⟩ | rfl
  · rw [hnow, List.drop_zero, Nat.add_zero, Nat.zero_add]
  · have htake : (p.take total).length = total := List.length_take_of_le hle
    rw [hnow, List.take_add, ← patch_patch, htake]

/-- **`WriteAt` writes all of the buffer**, from any point of the loop. -/
lemma writeAtLoop_spec (hP : ByteArrayServer P f.fh f.stateid content) {off : Int64} {o : ℕ}
    (ho : off.toInt = o) {C p : Bytes} (hp : p ≠ []) (hlen : p.length < 2 ^ 32) (fuel : ℕ)
    {total : ℕ} (hle : total ≤ p.length) (hfuel : p.length ≤ total + fuel)
    (hw : Written C o p total (content w)) :
    ∃ w', f.writeAtLoop P p off fuel total w = ({ buf := p, n := p.length }, w') ∧
      content w' = patch 0 o p C := by
  induction fuel generalizing total w with
  | zero =>
      obtain rfl : p.length = total := by omega
      exact ⟨w, rfl, hw.full hp rfl⟩
  | succ fuel ih =>
      by_cases hlt : total < p.length
      · have hne : p.drop total ≠ [] := by
          rw [ne_eq, List.drop_eq_nil_iff]
          omega
        obtain ⟨k, st, w', hwrite, hk, hkle, hw'⟩ :=
          hP.write w (off.toUInt64 + UInt64.ofNat total) (p.drop total) fileSync4 hne
        rw [toNat_turnOffset ho (by omega)] at hw'
        rw [List.length_drop] at hkle
        -- something was written, so this is no short write
        have hk0 : k ≠ 0 := by
          rintro rfl
          exact absurd hk (by decide)
        obtain ⟨w'', hloop, hw''⟩ := ih (by omega) (by omega) (hw.next hle hw')
        refine ⟨w'', ?_, hw''⟩
        simp only [File.writeAtLoop, if_pos hlt, hwrite, if_neg hk0, hloop]
      · obtain rfl : p.length = total := by omega
        exact ⟨w, by rw [File.writeAtLoop, if_neg hlt], hw.full hp rfl⟩

/-! ## The operations -/

/-- `size` returns the length of the array. -/
lemma size_spec (hP : ByteArrayServer P f.fh sid content) (hw : (content w).length < 2 ^ 63) :
    ∃ sz w', f.size P w = (.ok sz, w') ∧ sz.toInt = (content w).length ∧
      content w' = content w := by
  obtain ⟨mask, vals, attrs, w', hget, hdec, hsize, hw'⟩ := hP.getAttr w hw
  refine ⟨attrs.size.toInt64, w', by simp only [File.size, hget, hdec], ?_, hw'⟩
  rw [toInt_toInt64 (by omega), hsize]

/-- What holds between the operations: the cursor and the size stay below 2⁶³. -/
structure Bounded (content : W → Bytes) (f : File) (w : W) : Prop where
  offset : 0 ≤ f.offset.toInt
  size : (content w).length < 2 ^ 63

/-- An operation that does what the byte array does. -/
structure Simulates (content : W → Bytes) (f : File) (w : W) (op : FileOp)
    (out : FileRes × File × W) : Prop where
  step : ByteFile.Step f.name (view content f w) op out.1 (view content out.2.1 out.2.2)
  bounded : Bounded content out.2.1 out.2.2

lemma Bounded.cursor (h : Bounded content f w) : f.offset.toInt = (view content f w).cursor :=
  (Int.toNat_of_nonneg h.offset).symm

/-- A closed file fails every operation without asking the server. -/
lemma run_closed (hc : f.closed = true) (op : FileOp) :
    op.run P f w = ({ buf := op.buf, err := some (.path op.verb f.name .errClosed) }, f, w) := by
  cases op <;>
    simp [FileOp.run, File.read, File.readAt, File.write, File.writeAt, File.seek, File.truncate,
      File.close, hc, FileOp.buf, FileOp.verb, File.errClosed]

/-- The view of a file whose cursor has moved. -/
lemma view_eq {w' : W} {C : Bytes} {x : Int64} {c : ℕ} (hw : content w' = C) (hx : x.toInt = c) :
    view content { f with offset := x } w'
      = { view content f w with content := C, cursor := c } := by
  simp [view, hw, hx]

lemma view_congr {w' : W} (hw : content w' = content w) : view content f w' = view content f w := by
  simp only [view, hw]

lemma not_lt_zero {x : Int64} (h : 0 ≤ x.toInt) : ¬ x < 0 := by
  rw [Int64.lt_iff_toInt_lt, Int64.toInt_zero]
  omega

lemma lt_zero {x : Int64} (h : x.toInt < 0) : x < 0 := by
  rwa [Int64.lt_iff_toInt_lt, Int64.toInt_zero]

/-- An operation that is refused; it may have asked for the size. -/
lemma simulates_invalid (hb : Bounded content f w) (hopen : f.closed = false) (op : FileOp)
    (hop : (view content f w).Invalid op) {w' : W} (hw' : content w' = content w)
    {out : FileRes × File × W}
    (hout : out = ({ buf := op.buf, err := some (f.errInvalid op.verb) }, f, w')) :
    Simulates content f w op out := by
  subst hout
  refine ⟨?_, ⟨hb.offset, hw' ▸ hb.size⟩⟩
  rw [view_congr hw']
  exact .invalid op hopen hop

section Ops

variable (hP : ByteArrayServer P f.fh f.stateid content) (hb : Bounded content f w)
  (hopen : f.closed = false)

include hP hb hopen

lemma simulates_read {p : Bytes} (hp : p ≠ []) (hlen : p.length < 2 ^ 32) :
    Simulates content f w (.read p) (f.read P p w) := by
  have hpos : 0 < p.length := List.length_pos_iff.mpr hp
  have hcur : f.offset.toInt = (f.offset.toInt.toNat : ℕ) := hb.cursor
  obtain ⟨data, eof, w', k, hread, hk, hkle, hdata, -, hw'⟩ :=
    hP.read w f.offset.toUInt64 (UInt32.ofNat p.length) (by rwa [toNat_readCount hlen])
  rw [toNat_readCount hlen] at hkle
  rw [toNat_toUInt64 hcur] at hdata
  have hdlen : data.length ≤ p.length ∧
      (data.length = 0 ∨ f.offset.toInt.toNat + data.length ≤ (content w).length) := by
    rw [hdata, List.length_take, List.length_drop]
    omega
  -- the cursor stays within the array, so it does not overflow
  have hoff : (f.offset + Int64.ofNat data.length).toInt =
      (f.offset.toInt.toNat + data.length : ℕ) := by
    have hsize := hb.size
    have hlt := f.offset.toInt_lt
    have hdata' : (Int64.ofNat data.length).toInt = data.length :=
      Int64.toInt_ofNat_of_lt (by omega)
    rw [toInt_add_of_range] <;> rw [hdata'] <;> omega
  have hrun : f.read P p w =
      ({ buf := data ++ p.drop data.length
         n := data.length
         err := if data.length = 0 then some .eof else none },
       { f with offset := f.offset + Int64.ofNat data.length }, w') := by
    simp [File.read, hopen, hp, hread, copied,
      copyAt_of_le (show data.length ≤ p.length - 0 by omega)]
  rw [hrun]
  refine ⟨?_, ⟨?_, ?_⟩⟩
  · rw [view_eq hw' hoff]
    exact .read p hopen data k hk hkle hdata
  · exact hoff ▸ Int.natCast_nonneg _
  · exact hw' ▸ hb.size

lemma simulates_readAt {p : Bytes} {off : Int64} (hp : p ≠ []) (hlen : p.length < 2 ^ 32) :
    Simulates content f w (.readAt p off) ((FileOp.readAt p off).run P f w) := by
  by_cases hneg : off.toInt < 0
  · refine simulates_invalid hb hopen (.readAt p off) hneg rfl ?_
    simp [FileOp.run, File.readAt, hopen, lt_zero hneg, FileOp.buf, FileOp.verb]
  · obtain ⟨o, ho⟩ := Int.eq_ofNat_of_zero_le (not_lt.mp hneg)
    obtain ⟨w', hloop, hw'⟩ := readAtLoop_spec hP ho p.length (Eq.refl (content w))
      hlen (List.length_pos_iff.mpr hp) (Nat.zero_le _) (by omega) rfl (Nat.zero_le _) (Or.inl rfl)
    have hrun : (FileOp.readAt p off).run P f w = (rangeRes (content w) o p, f, w') := by
      simp [FileOp.run, File.readAt, hopen, not_lt_zero (not_lt.mp hneg), hloop]
    rw [hrun]
    refine ⟨?_, ⟨hb.offset, hw' ▸ hb.size⟩⟩
    rw [view_congr hw']
    exact .readAt p off hopen o ho _ rfl

/-- The end of `Write`, at the position that the byte array writes at. -/
lemma simulates_writeFrom {p : Bytes} {off : Int64} {w₀ : W} (hw₀ : content w₀ = content w)
    (hoff : off.toInt = (view content f w).writePos) (hp : p ≠ []) (hlen : p.length < 2 ^ 32)
    (hend : (view content f w).writePos + p.length < 2 ^ 63) :
    Simulates content f w (.write p) (f.writeFrom P p off w₀) := by
  obtain ⟨w', hloop, hw'⟩ := writeAtLoop_spec hP hoff hp hlen p.length (Nat.zero_le _) (by omega)
    (Or.inl ⟨rfl, hw₀⟩)
  have hcur : (off + Int64.ofInt p.length).toInt =
      ((view content f w).writePos + p.length : ℕ) := by
    have hlen' : (Int64.ofInt p.length).toInt = p.length :=
      Int64.toInt_ofInt_of_le (by omega) (by omega)
    rw [toInt_add_of_range] <;> rw [hlen'] <;> omega
  have hrun : f.writeFrom P p off w₀ = ({ buf := p, n := p.length },
      { f with offset := off + Int64.ofInt p.length }, w') := by
    simp only [File.writeFrom, File.writeAllAt, hloop]
  rw [hrun]
  refine ⟨?_, ⟨?_, ?_⟩⟩
  · rw [view_eq hw' hcur]
    exact .write p hopen
  · exact hcur ▸ Int.natCast_nonneg _
  · have hsize := hb.size
    rw [hw', length_patch]
    exact max_lt hsize hend

lemma simulates_write {p : Bytes} (hp : p ≠ []) (hlen : p.length < 2 ^ 32)
    (hend : (view content f w).writePos + p.length < 2 ^ 63) :
    Simulates content f w (.write p) (f.write P p w) := by
  by_cases happ : f.flag &&& oAppend ≠ 0
  · have hpos : (view content f w).writePos = (content w).length := by
      simp [ByteFile.writePos, view, happ]
    obtain ⟨sz, w₀, hsize, hsz, hw₀⟩ := size_spec hP hb.size
    have hrun : f.write P p w = f.writeFrom P p sz w₀ := by
      simp [File.write, hopen, happ, hsize]
    rw [hrun]
    exact simulates_writeFrom hP hb hopen hw₀ (hsz.trans (by rw [hpos])) hp hlen hend
  · have hpos : (view content f w).writePos = (view content f w).cursor := by
      simp only [ne_eq, not_not] at happ
      simp [ByteFile.writePos, view, happ]
    have hrun : f.write P p w = f.writeFrom P p f.offset w := by
      simp only [ne_eq, not_not] at happ
      simp [File.write, hopen, happ]
    rw [hrun]
    exact simulates_writeFrom hP hb hopen rfl (hb.cursor.trans (by rw [hpos])) hp hlen hend

lemma simulates_writeAt {p : Bytes} {off : Int64} (hp : p ≠ []) (hlen : p.length < 2 ^ 32)
    (hend : off.toInt + p.length < 2 ^ 63) :
    Simulates content f w (.writeAt p off) ((FileOp.writeAt p off).run P f w) := by
  by_cases hneg : off.toInt < 0
  · refine simulates_invalid hb hopen (.writeAt p off) hneg rfl ?_
    simp [FileOp.run, File.writeAt, hopen, lt_zero hneg, FileOp.buf, FileOp.verb]
  · obtain ⟨o, ho⟩ := Int.eq_ofNat_of_zero_le (not_lt.mp hneg)
    obtain ⟨w', hloop, hw'⟩ := writeAtLoop_spec hP ho hp hlen p.length (Nat.zero_le _) (by omega)
      (Or.inl ⟨rfl, Eq.refl (content w)⟩)
    have hrun : (FileOp.writeAt p off).run P f w = ({ buf := p, n := p.length }, f, w') := by
      simp [FileOp.run, File.writeAt, File.writeAllAt, hopen, not_lt_zero (not_lt.mp hneg), hloop]
    rw [hrun]
    refine ⟨?_, ⟨hb.offset, ?_⟩⟩
    · have hview : view content f w' =
          { view content f w with content := patch 0 o p (content w) } := by
        simp only [view, hw']
      rw [hview]
      exact .writeAt p off hopen o ho
    · have hsize := hb.size
      rw [hw', length_patch]
      exact max_lt hsize (by omega)

omit hP in
/-- The end of `Seek`, from the position that the byte array starts from. -/
lemma simulates_seekFrom {base : ℕ} {x offset : Int64} {whence : ℤ} {w' : W}
    (hbase : (view content f w).seekBase whence = some base) (hx : x.toInt = base)
    (hw' : content w' = content w) (hend : base + offset.toInt < 2 ^ 63) :
    Simulates content f w (.seek offset whence)
      ((f.seekFrom x offset).1, (f.seekFrom x offset).2, w') := by
  have hsum : (x + offset).toInt = base + offset.toInt := by
    have hlow := offset.le_toInt
    rw [toInt_add_of_range] <;> rw [hx] <;> omega
  by_cases hneg : (base : ℤ) + offset.toInt < 0
  · refine simulates_invalid hb hopen (.seek offset whence) ?_ hw' ?_
    · intro b hb'
      obtain rfl : base = b := Option.some.inj (hbase.symm.trans hb')
      exact hneg
    · simp [File.seekFrom, lt_zero (hsum ▸ hneg), FileOp.buf, FileOp.verb]
  · obtain ⟨pos, hpos⟩ := Int.eq_ofNat_of_zero_le (not_lt.mp hneg)
    have hseek : f.seekFrom x offset =
        ({ n := pos }, { f with offset := x + offset }) := by
      rw [File.seekFrom, if_neg (not_lt_zero (by omega)), hsum, hpos]
    rw [hseek]
    refine ⟨?_, ⟨?_, hw' ▸ hb.size⟩⟩
    · rw [view_eq hw' (hsum.trans hpos)]
      exact .seek offset whence hopen base pos hbase hpos
    · show 0 ≤ (x + offset).toInt
      omega

lemma simulates_seek {offset : Int64} {whence : ℤ}
    (hend : ∀ base ∈ (view content f w).seekBase whence, (base : ℤ) + offset.toInt < 2 ^ 63) :
    Simulates content f w (.seek offset whence) (f.seek P offset whence w) := by
  unfold File.seek
  rw [hopen, if_neg Bool.false_ne_true]
  by_cases h0 : whence = 0
  · have hbase : (view content f w).seekBase whence = some 0 := by rw [h0]; rfl
    rw [if_pos h0]
    exact simulates_seekFrom hb hopen hbase Int64.toInt_zero rfl (hend _ hbase)
  by_cases h1 : whence = 1
  · have hbase : (view content f w).seekBase whence = some (view content f w).cursor := by
      rw [h1]; rfl
    rw [if_neg h0, if_pos h1]
    exact simulates_seekFrom hb hopen hbase hb.cursor rfl (hend _ hbase)
  by_cases h2 : whence = 2
  · have hbase : (view content f w).seekBase whence = some (content w).length := by
      rw [h2]; rfl
    obtain ⟨sz, w', hsize, hsz, hw'⟩ := size_spec hP hb.size
    rw [if_neg h0, if_neg h1, if_pos h2, hsize]
    exact simulates_seekFrom hb hopen hbase hsz hw' (hend _ hbase)
  · rw [if_neg h0, if_neg h1, if_neg h2]
    refine simulates_invalid hb hopen (.seek offset whence) ?_ rfl rfl
    simp [ByteFile.Invalid, ByteFile.seekBase, h0, h1, h2]

lemma simulates_truncate {size : Int64} :
    Simulates content f w (.truncate size) ((FileOp.truncate size).run P f w) := by
  by_cases hneg : size.toInt < 0
  · refine simulates_invalid hb hopen (.truncate size) hneg rfl ?_
    simp [FileOp.run, File.truncate, hopen, lt_zero hneg, FileOp.buf, FileOp.verb]
  · obtain ⟨k, hk⟩ := Int.eq_ofNat_of_zero_le (not_lt.mp hneg)
    obtain ⟨w', hset, hw'⟩ := hP.setAttr w _ _ _ (Attr.setAttrs_encodeFattr _)
      (Attr.decode_encodeFattr none (some size.toUInt64))
    rw [Option.getD_some, toNat_toUInt64 hk] at hw'
    have hrun : (FileOp.truncate size).run P f w = ({}, f, w') := by
      simp only [FileOp.run, File.truncate, hopen, Bool.false_eq_true, if_false,
        if_neg (not_lt_zero (not_lt.mp hneg)), hset]
    rw [hrun]
    refine ⟨?_, ⟨hb.offset, ?_⟩⟩
    · have hview : view content f w' =
          { view content f w with content := resize 0 k (content w) } := by
        simp only [view, hw']
      rw [hview]
      exact .truncate size hopen k hk
    · have hlt := size.toInt_lt
      rw [hw', length_resize]
      omega

lemma simulates_close : Simulates content f w .close (f.close P w) := by
  obtain ⟨w', hclose, hw'⟩ := hP.closeFile w
  have hrun : f.close P w = ({}, { f with closed := true }, w') := by
    simp [File.close, hopen, hclose]
  rw [hrun]
  refine ⟨?_, ⟨hb.offset, hw' ▸ hb.size⟩⟩
  have hview : view content { f with closed := true } w' =
      { view content f w with closed := true } := by
    simp only [view, hw']
  rw [hview]
  exact .close hopen

end Ops

/-- **One operation is a step of the byte array**, for every choice of the server. -/
theorem simulates_run (hP : ByteArrayServer P f.fh f.stateid content) (hb : Bounded content f w)
    {op : FileOp} (hop : (view content f w).InRange op) :
    Simulates content f w op (op.run P f w) := by
  rcases hc : f.closed with _ | _
  · cases op with
    | read p => exact simulates_read hP hb hc hop.1 hop.2
    | readAt p off => exact simulates_readAt hP hb hc hop.1 hop.2
    | write p => exact simulates_write hP hb hc hop.1 hop.2.1 hop.2.2
    | writeAt p off => exact simulates_writeAt hP hb hc hop.1 hop.2.1 hop.2.2
    | seek offset whence => exact simulates_seek hP hb hc hop
    | truncate size => exact simulates_truncate hP hb hc
    | close => exact simulates_close hP hb hc
  · rw [run_closed hc]
    exact ⟨.closed op hc, hb⟩

/-! ## Runs -/

/-- The operations never fail to return. -/
lemma exists_run (ops : List FileOp) (s : FileState W) :
    ∃ s', run (FileState.step P) s ops = some s' ∧
      s'.trace.map Prod.fst = s.trace.map Prod.fst ++ ops := by
  induction ops generalizing s with
  | nil => exact ⟨s, rfl, by simp⟩
  | cons op ops ih =>
      obtain ⟨s', hrun, htrace⟩ := ih ⟨(op.run P s.file s.world).2.1,
        (op.run P s.file s.world).2.2, s.trace ++ [(op, (op.run P s.file s.world).1)]⟩
      exact ⟨s', run_cons_eq_some.mpr ⟨_, rfl, hrun⟩, by simp [htrace]⟩

/-- What a run of a file keeps: it has done what the byte array does, and it is still the file
that was opened. -/
structure Refines (content : W → Bytes) (f : File) (b : ByteFile) (s : FileState W) : Prop where
  bounded : Bounded content s.file s.world
  file : SameOpen f s.file
  run : ByteFile.Run f.name b s.trace (view content s.file s.world)

lemma Refines.step {b : ByteFile} (hP : ByteArrayServer P f.fh f.stateid content)
    (s : FileState W) (op : FileOp) (s' : FileState W) (h : Refines content f b s)
    (hop : (view content s.file s.world).InRange op) (hs : s.step P op = some s') :
    Refines content f b s' := by
  obtain rfl := Option.some.inj hs
  have hP' : ByteArrayServer P s.file.fh s.file.stateid content := by
    rw [h.file.fh, h.file.stateid]
    exact hP
  have hsim := simulates_run hP' h.bounded hop
  exact ⟨hsim.bounded, h.file.trans (sameOpen_run P s.file op s.world),
    .snoc h.run (h.file.name ▸ hsim.step)⟩

/-- **An open file is a byte array with a cursor.**  Every sequence of operations, whatever the
server chooses to read and write at a time, returns what the byte array returns and leaves its
content and its cursor.  After `Close` every operation fails with `fs.ErrClosed`, and the server
is not asked. -/
theorem file_refines_byteFile (hP : ByteArrayServer P f.fh f.stateid content)
    (hoffset : f.offset = 0) (hopen : f.closed = false) (hsize : (content w).length < 2 ^ 63)
    (ops : List FileOp)
    (hops : Along (FileState.step P) (fun s op => (view content s.file s.world).InRange op)
      { file := f, world := w } ops) :
    ∃ s, run (FileState.step P) { file := f, world := w } ops = some s ∧
      s.trace.map Prod.fst = ops ∧ 0 ≤ s.file.offset.toInt ∧
      ByteFile.Run f.name { content := content w, append := f.flag &&& oAppend ≠ 0 } s.trace
        (view content s.file s.world) ∧
      (.close ∈ ops → ∀ op : FileOp, op.run P s.file s.world =
        ({ buf := op.buf, err := some (.path op.verb f.name .errClosed) }, s.file, s.world)) := by
  have hview : view content f w =
      { content := content w, append := f.flag &&& oAppend ≠ 0 } := by
    simp [view, hoffset, hopen]
  have hinit : Refines content f (view content f w) { file := f, world := w } :=
    ⟨⟨by simp [hoffset], hsize⟩, .refl f, .nil⟩
  obtain ⟨s, hrun, htrace⟩ := exists_run (P := P) ops { file := f, world := w }
  have href := run_invariant (I := Refines content f (view content f w)) (Refines.step hP) hinit
    hops hrun
  refine ⟨s, hrun, htrace, href.bounded.offset, hview ▸ href.run, ?_⟩
  intro hclose op
  rw [← href.file.name]
  exact run_closed (href.run.closed_of_mem (htrace ▸ hclose)) op

/-- A server that reads and writes `c + 1` bytes at a time. -/
def chunkServer (c : ℕ) : RWProtocol Bytes where
  read _ off count w :=
    let data := (w.drop off.toNat).take (min (c + 1) count.toNat)
    (.ok (data, w.length ≤ off.toNat + data.length), w)
  write _ _ off data stable w :=
    let k := UInt32.ofNat (min (c + 1) (min data.length (2 ^ 32 - 1)))
    (.ok (k, stable), patch 0 off.toNat (data.take k.toNat) w)
  getAttr _ _ w := (.ok (Attr.encodeFattr { size := some (UInt64.ofNat w.length) }), w)
  setAttr _ _ mask vals w :=
    match Attr.decode mask vals with
    | .error e => (.error e, w)
    | .ok attrs => (.ok (), resize 0 attrs.size.toNat w)
  closeFile _ _ w := (.ok (), w)

lemma chunkServer_byteArrayServer (c : ℕ) (fh : FileHandle) (sid : Stateid) :
    ByteArrayServer (chunkServer c) fh sid id where
  read w off count hcount :=
    ⟨_, _, w, min (c + 1) count.toNat, rfl, by omega, by omega, rfl, by simp, rfl⟩
  write w off data stable hdata := by
    have hpos := List.length_pos_iff.mpr hdata
    have hk := toNat_readCount (show min (c + 1) (min data.length (2 ^ 32 - 1)) < 2 ^ 32 by omega)
    exact ⟨_, _, _, rfl, by omega, by omega, rfl⟩
  getAttr w hw := by
    have hlt : w.length < 2 ^ 63 := hw
    refine ⟨_, _, _, w, rfl, Attr.decode_encodeFattr none (some (.ofNat w.length)), ?_,
      rfl⟩
    rw [Option.getD_some, UInt64.toNat_ofNat', Nat.mod_eq_of_lt (by omega)]
    rfl
  setAttr w mask vals attrs _ hdec :=
    ⟨resize 0 attrs.size.toNat w, by simp only [chunkServer, hdec], rfl⟩
  closeFile w := ⟨w, rfl, rfl⟩

/-- A file that was just opened. -/
def openedFile : File := { name := [102], fh := none, stateid := {}, flag := 0 }

/-- Every operation once, and one after `Close`. -/
def fileSession : List FileOp :=
  [.write [1, 2, 3], .seek 1 0, .read [0, 0, 0, 0], .writeAt [9, 8, 7] 4, .readAt [5, 5, 5, 5] 5,
    .truncate 6, .close, .read [0]]

/-- The session, with a server that reads and writes two bytes at a time. -/
theorem file_refines_session :
    ∃ s, run (FileState.step (chunkServer 1)) { file := openedFile, world := [] } fileSession =
        some s ∧
      s.world = [1, 2, 3, 0, 9, 8] ∧ s.file.offset = 3 ∧
      s.trace.map (fun x => x.2.n) = [3, 1, 2, 3, 2, 0, 0, 0] ∧
      ByteFile.Run [102] { content := [], append := false } s.trace
        (view id s.file s.world) := by
  have hops : Along (FileState.step (chunkServer 1))
      (fun s op => (view id s.file s.world).InRange op)
      { file := openedFile, world := [] } fileSession := by decide +kernel
  have heval : ∃ s ∈ run (FileState.step (chunkServer 1)) { file := openedFile, world := [] }
      fileSession, s.world = [1, 2, 3, 0, 9, 8] ∧ s.file.offset = 3 ∧
        s.trace.map (fun x => x.2.n) = [3, 1, 2, 3, 2, 0, 0, 0] := by decide +kernel
  obtain ⟨s, hrun, -, -, hbyte, -⟩ := file_refines_byteFile
    (chunkServer_byteArrayServer 1 openedFile.fh openedFile.stateid) rfl rfl (by decide)
    fileSession hops
  obtain ⟨s', hrun', hworld, hoff, hcounts⟩ := heval
  obtain rfl : s = s' := Option.some.inj (hrun.symm.trans hrun')
  exact ⟨s, hrun, hworld, hoff, hcounts, hbyte⟩

end NfsClient.Client
