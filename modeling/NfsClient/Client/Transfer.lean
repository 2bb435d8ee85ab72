import NfsClient.Client.Sequential

/-!
# How much `ReadAt` and `WriteAt` transfer

Both loops ask the server for the rest of the buffer until nothing is left of it.  `ReadAt` cuts
the length of the rest to 32 bits, so a rest that is a multiple of `2 ^ 32` bytes is asked for
with a count of zero, and the empty answer is taken for the end of the file.  `WriteAt` adds up
the counts that the server reports, and a server can report more than it was sent.
-/

namespace NfsClient.Client

open NfsClient.Lib NfsClient.Nfs4

/-! ## Reading into a long buffer -/

/-- A server that answers READ with some of the bytes of the range that exist, none only if it is
asked for none, and reports the end of the file only if they reach it. -/
def PartServer {W : Type} (read : FileHandle → UInt64 → UInt32 → W → Except Err (Bytes × Bool) × W)
    (fh : FileHandle) (content : Bytes) : Prop :=
  ∀ w off count, ∃ data eof w' k, read fh off count w = (.ok (data, eof), w') ∧
    k ≤ count.toNat ∧ (0 < count.toNat → 0 < k) ∧ data = (content.drop off.toNat).take k ∧
    (eof = true → content.length ≤ off.toNat + data.length)

/-- How `ReadAt` ends, with a buffer of `len` bytes at `o`.  It gets no further than the low 32
bits of the length. -/
structure ReadEnds (content : Bytes) (o len : ℕ) (res : FileRes) : Prop where
  n_le : res.n ≤ (len % 2 ^ 32 : ℕ)
  ends : res.err = none ∧ res.n = len ∨
    res.err = some .eof ∧ (content.length ≤ o + res.n ∨ res.n = (len % 2 ^ 32 : ℕ) ∧ res.n < len)

/-- `io.EOF` is returned with fewer bytes than asked for only at the end of the file. -/
def EofAtEnd (content : Bytes) (o len : ℕ) (res : FileRes) : Prop :=
  res.n < len → res.err = some .eof → content.length ≤ o + res.n

lemma ReadEnds.eofAtEnd_iff {content : Bytes} {o len : ℕ} {res : FileRes}
    (h : ReadEnds content o len res) :
    EofAtEnd content o len res ↔ len < 2 ^ 32 ∨ content.length ≤ o + len % 2 ^ 32 := by
  obtain ⟨hle, ⟨herr, hn⟩ | ⟨herr, hend⟩⟩ := h
  · -- the buffer is full
    refine iff_of_true (fun hlt => absurd hn hlt.ne) (Or.inl ?_)
    have := Nat.mod_lt len (show 0 < 2 ^ 32 by decide)
    omega
  · unfold EofAtEnd
    rw [herr]
    refine ⟨fun h => ?_, fun h hlt _ => ?_⟩
    · by_cases hlen : len < 2 ^ 32
      · exact Or.inl hlen
      · have := h (by omega) rfl
        omega
    · omega

section ReadAt

variable {W : Type} {P : RWProtocol W} {f : File} {content p : Bytes} {o total : ℕ}

lemma readEnds_full (htotal : total ≤ p.length % 2 ^ 32) (hfull : p.length ≤ total) :
    ReadEnds content o p.length { buf := p, n := total } := by
  have hmod := Nat.mod_le p.length (2 ^ 32)
  exact ⟨Int.ofNat_le.mpr htotal, Or.inl ⟨rfl, Int.ofNat_inj.mpr (by omega)⟩⟩

/-- A turn that ends the loop. -/
lemma readEnds_eof {data : Bytes} {n : ℕ} (hn : n ≤ p.length % 2 ^ 32)
    (hend : content.length ≤ o + n ∨ n = p.length % 2 ^ 32 ∧ n < p.length) :
    ReadEnds content o p.length { buf := data, n := n, err := some .eof } :=
  ⟨Int.ofNat_le.mpr hn, Or.inr ⟨rfl, by simpa only [Int.ofNat_inj, Int.ofNat_lt, ← Int.natCast_add,
    Int.ofNat_le] using hend⟩⟩

/-- The loop of `ReadAt`, from any point that it can get to. -/
lemma readEnds_readAtLoop (hP : PartServer P.read f.fh content) {off : Int64}
    (ho : off.toInt = o) (fuel : ℕ) (hp : o + p.length < 2 ^ 63)
    (htotal : total ≤ p.length % 2 ^ 32) (hfuel : p.length ≤ total + fuel) (w : W) :
    ReadEnds content o p.length (f.readAtLoop P off fuel p total w).1 := by
  induction fuel generalizing p total w with
  | zero => exact readEnds_full htotal (by omega)
  | succ fuel ih =>
      by_cases hlt : total < p.length
      · have hmod := Nat.mod_le p.length (2 ^ 32)
        obtain ⟨data, eof, w', k, hread, hk, hpos, hdata, heof⟩ :=
          hP w (off.toUInt64 + UInt64.ofNat total) (UInt32.ofNat (p.length - total))
        -- the count is what is missing to the low bits of the length
        have hcount : (UInt32.ofNat (p.length - total)).toNat = p.length % 2 ^ 32 - total := by
          rw [UInt32.toNat_ofNat']
          omega
        rw [hcount] at hk hpos
        rw [toNat_turnOffset ho (by omega)] at hdata heof
        have hdlen : data.length = min k (content.length - (o + total)) := by simp [hdata]
        rw [readAtLoop_read hlt (by omega) hread]
        by_cases hstop : eof = true ∨ data.length = 0
        · rw [if_pos hstop]
          refine readEnds_eof (by omega) ?_
          rcases hstop with he | hd
          · have := heof he
            omega
          · omega
        · rw [if_neg hstop]
          have hlen : (copied p total data).length = p.length := length_copied (by omega)
          rw [← hlen]
          exact ih (by omega) (by omega) (by omega) w'
      · rw [File.readAtLoop, if_neg hlt]
        exact readEnds_full htotal (by omega)

lemma readEnds_readAt (hP : PartServer P.read f.fh content) (hopen : f.closed = false) {off : Int64}
    (hoff : 0 ≤ off.toInt) (hlen : off.toInt + p.length < 2 ^ 63) (w : W) :
    ReadEnds content off.toInt.toNat p.length (f.readAt P p off w).1 := by
  have ho : off.toInt = off.toInt.toNat := (Int.toNat_of_nonneg hoff).symm
  rw [File.readAt, if_neg (by simp [hopen]), if_neg (not_lt_zero hoff)]
  exact readEnds_readAtLoop hP ho p.length (by omega) (Nat.zero_le _) (by omega) w

/-- **When `ReadAt` returns `io.EOF` only at the end of the file**, for a buffer of any length at
an offset that is not negative: the length fits into 32 bits, or the file ends within the part of
the buffer that the low 32 bits count. -/
theorem readAt_eofAtEnd_iff (hP : PartServer P.read f.fh content) {off : Int64}
    (hoff : 0 ≤ off.toInt) (hlen : off.toInt + p.length < 2 ^ 63) (w : W) :
    EofAtEnd content off.toInt.toNat p.length (f.readAt P p off w).1 ↔
      f.closed = true ∨ p.length < 2 ^ 32 ∨
        content.length ≤ off.toInt.toNat + p.length % 2 ^ 32 := by
  cases hclosed : f.closed with
  | true =>
      refine iff_of_true (fun _ herr => ?_) (Or.inl rfl)
      simp [File.readAt, hclosed, File.errClosed] at herr
  | false =>
      rw [or_iff_right Bool.false_ne_true]
      exact (readEnds_readAt hP hclosed hoff hlen w).eofAtEnd_iff

end ReadAt

lemma servedRead_partServer (content : Bytes) (c : ℕ) (fh : FileHandle) :
    PartServer (servedRead content c) fh content := fun _ _ count =>
  ⟨_, _, (), min (c + 1) count.toNat, rfl, by omega, by omega, rfl, by simp⟩

/-- Three bytes of a file, two at a time. -/
theorem readAt_eofAtEnd_threeBytes :
    EofAtEnd [1, 2, 3] 0 4 (openedFile.readAt (readOnlyFile [1, 2, 3] 1) [0, 0, 0, 0] 0 ()).1 :=
  (readAt_eofAtEnd_iff (servedRead_partServer [1, 2, 3] 1 _) (by decide) (by decide) ()).mpr
    (Or.inr (Or.inl (by decide)))

/-- With a buffer of `2 ^ 32` bytes, nothing of a file is read and `io.EOF` is returned. -/
theorem readAt_longBuffer :
    ∃ res, (openedFile.readAt (readOnlyFile [1] 0) (List.replicate (2 ^ 32) 0) 0 ()).1 = res ∧
      res.n = 0 ∧ res.err = some .eof ∧ ¬ EofAtEnd [1] 0 (2 ^ 32) res := by
  have hlen : (List.replicate (2 ^ 32) (0 : UInt8)).length = 2 ^ 32 := List.length_replicate
  obtain ⟨hle, hends⟩ := readEnds_readAt (P := readOnlyFile [1] 0)
    (servedRead_partServer [1] 0 openedFile.fh) rfl (show 0 ≤ (0 : Int64).toInt by decide)
    (p := List.replicate (2 ^ 32) 0) (by rw [hlen]; decide) ()
  rw [hlen] at hle hends
  refine ⟨_, rfl, ?_⟩
  generalize (openedFile.readAt (readOnlyFile [1] 0) (List.replicate (2 ^ 32) 0) 0 ()).1 = res at *
  have hle0 : res.n ≤ 0 := hle
  rcases hends with ⟨-, hfull⟩ | ⟨herr, hend | ⟨hn, -⟩⟩
  · omega
  · have : (1 : ℤ) ≤ 0 + res.n := hend
    omega
  · have hn0 : res.n = 0 := hn
    exact ⟨hn0, herr, fun h => absurd (h (by omega) herr) (by rw [hn0]; decide)⟩

/-! ## What the server acknowledges -/

/-- A WRITE and the answer to it. -/
structure WriteEvent where
  fh : FileHandle
  stateid : Stateid
  offset : UInt64
  data : Bytes
  stable : StableHow
  answer : Except Err (UInt32 × StableHow)

/-- The number of bytes that the server says it has written. -/
def WriteEvent.count (e : WriteEvent) : ℕ :=
  match e.answer with
  | .ok (n, _) => n.toNat
  | .error _ => 0

/-- The data that is written according to the answers. -/
def covered (es : List WriteEvent) : Bytes := es.flatMap fun e => e.data.take e.count

/-- The protocol that also keeps a record of the WRITEs. -/
def RWProtocol.recorded {W : Type} (P : RWProtocol W) : RWProtocol (W × List WriteEvent) where
  read fh off count s := match P.read fh off count s.1 with
    | (r, w') => (r, w', s.2)
  write fh sid off data stable s := match P.write fh sid off data stable s.1 with
    | (r, w') => (r, w', s.2 ++ [⟨fh, sid, off, data, stable, r⟩])
  getAttr fh mask s := match P.getAttr fh mask s.1 with
    | (r, w') => (r, w', s.2)
  setAttr fh sid mask vals s := match P.setAttr fh sid mask vals s.1 with
    | (r, w') => (r, w', s.2)
  closeFile fh sid s := match P.closeFile fh sid s.1 with
    | (r, w') => (r, w', s.2)

@[simp] lemma RWProtocol.recorded_write {W : Type} (P : RWProtocol W) (fh : FileHandle)
    (sid : Stateid) (off : UInt64) (data : Bytes) (stable : StableHow) (w : W)
    (log : List WriteEvent) :
    P.recorded.write fh sid off data stable (w, log) =
      ((P.write fh sid off data stable w).1, (P.write fh sid off data stable w).2,
        log ++ [⟨fh, sid, off, data, stable, (P.write fh sid off data stable w).1⟩]) := rfl

namespace File

variable {W : Type} (P : RWProtocol W) (f : File) (p : Bytes)

/-- Where `Write` begins: at the cursor, or at the size that the server reports. -/
def writeStart (w : W) : Int64 :=
  if f.flag &&& oAppend ≠ 0 then
    match f.size P w with
    | (.ok sz, _) => sz
    | (.error _, _) => 0
  else f.offset

/-- What `io.Writer` and `io.WriterAt` ask for, with the WRITEs that were sent. -/
structure WriteContract (start : Int64) (res : FileRes) (es : List WriteEvent) : Prop where
  nonneg : 0 ≤ res.n
  n_le : res.n ≤ p.length
  short : res.n < p.length → res.err ≠ none
  /-- The bytes that are counted are those that the server acknowledged. -/
  covered_eq : covered es = p.take res.n.toNat
  /-- Every WRITE goes on behind what is acknowledged. -/
  placed : ∀ es₁ e es₂, es = es₁ ++ e :: es₂ → e.fh = f.fh ∧ e.stateid = f.stateid ∧
    e.offset = start.toUInt64 + UInt64.ofNat (covered es₁).length ∧
    e.data = p.drop (covered es₁).length
  writes : es.length ≤ p.length

/-- The WRITE of a turn. -/
def writeEvent (off : Int64) (total : ℕ) (answer : Except Err (UInt32 × StableHow)) : WriteEvent :=
  ⟨f.fh, f.stateid, off.toUInt64 + UInt64.ofNat total, p.drop total, fileSync4, answer⟩

/-- The runs of the loop of `writeAt` from `total`: what it returns, and its WRITEs. -/
inductive Writes (off : Int64) : ℕ → FileRes → List WriteEvent → Prop
  | full {total : ℕ} (h : p.length ≤ total) : Writes off total { buf := p, n := total } []
  | failed {total : ℕ} (h : total < p.length) (e : Err) :
      Writes off total { buf := p, n := total, err := some (pathError "write" f.name e) }
        [f.writeEvent p off total (.error e)]
  | short {total : ℕ} (h : total < p.length) (st : StableHow) :
      Writes off total { buf := p, n := total, err := some .shortWrite }
        [f.writeEvent p off total (.ok (0, st))]
  | more {total : ℕ} (h : total < p.length) {n : UInt32} (hn : n ≠ 0) (st : StableHow)
      {res : FileRes} {es : List WriteEvent} (hrest : Writes off (total + n.toNat) res es) :
      Writes off total res (f.writeEvent p off total (.ok (n, st)) :: es)

variable {P f p} {off : Int64} {total : ℕ} {res : FileRes} {es : List WriteEvent}

lemma toNat_pos {n : UInt32} (hn : n ≠ 0) : 0 < n.toNat :=
  Nat.pos_of_ne_zero fun h => hn (UInt32.toNat_inj.mp h)

/-- The loop is one of the runs; recording it changes nothing. -/
lemma writes_writeAtLoop (off : Int64) (fuel : ℕ) (hfuel : p.length ≤ total + fuel) (w : W)
    (log : List WriteEvent) :
    ∃ es, f.writeAtLoop P.recorded p off fuel total (w, log) =
        ((f.writeAtLoop P p off fuel total w).1, (f.writeAtLoop P p off fuel total w).2,
          log ++ es) ∧
      f.Writes p off total (f.writeAtLoop P p off fuel total w).1 es := by
  induction fuel generalizing total w log with
  | zero => exact ⟨[], by simp [writeAtLoop], .full (by omega)⟩
  | succ fuel ih =>
      by_cases hlt : total < p.length
      · rcases hw : P.write f.fh f.stateid (off.toUInt64 + UInt64.ofNat total) (p.drop total)
          fileSync4 w with ⟨e | ⟨n, st⟩, w'⟩
        · refine ⟨[f.writeEvent p off total (.error e)], ?_, ?_⟩
          · simp only [writeAtLoop, if_pos hlt, RWProtocol.recorded_write, hw, writeEvent]
          · simpa only [writeAtLoop, if_pos hlt, hw] using .failed hlt e
        · by_cases hn : n = 0
          · subst hn
            refine ⟨[f.writeEvent p off total (.ok (0, st))], ?_, ?_⟩
            · simp only [writeAtLoop, if_pos hlt, RWProtocol.recorded_write, hw, writeEvent,
                if_true]
            · simpa only [writeAtLoop, if_pos hlt, hw, if_true] using .short hlt st
          · have hpos := toNat_pos hn
            obtain ⟨es, hrec, hrun⟩ := ih (show p.length ≤ total + n.toNat + fuel by omega) w'
              (log ++ [f.writeEvent p off total (.ok (n, st))])
            refine ⟨f.writeEvent p off total (.ok (n, st)) :: es, ?_, ?_⟩
            · rw [List.append_assoc, List.singleton_append] at hrec
              simp only [writeAtLoop, if_pos hlt, RWProtocol.recorded_write, hw, if_neg hn]
              exact hrec
            · simpa only [writeAtLoop, if_pos hlt, hw, if_neg hn] using .more hlt hn st hrun
      · exact ⟨[], by simp [writeAtLoop, hlt], by simpa [writeAtLoop, hlt] using .full (by omega)⟩

/-! ### What holds of every run -/

/-- The count is what the answers add up to. -/
lemma Writes.n_eq (h : f.Writes p off total res es) :
    res.n = total + (es.map WriteEvent.count).sum := by
  induction h with
  | full | failed | short => simp [WriteEvent.count, writeEvent]
  | more _ _ _ _ ih =>
      rw [ih, List.map_cons, List.sum_cons]
      simp only [WriteEvent.count, writeEvent]
      omega

lemma Writes.le_n (h : f.Writes p off total res es) : (total : ℤ) ≤ res.n := by
  rw [h.n_eq]
  omega

/-- The loop fails exactly if a WRITE does, or is answered with a count of zero. -/
lemma Writes.err_ne_none_iff (h : f.Writes p off total res es) :
    res.err ≠ none ↔ ∃ e ∈ es, e.count = 0 := by
  induction h with
  | full | failed | short => simp [WriteEvent.count, writeEvent]
  | @more total _ n hn st _ _ _ ih =>
      have hpos : (f.writeEvent p off total (.ok (n, st))).count ≠ 0 := (toNat_pos hn).ne'
      simp [ih, hpos]

lemma Writes.length_le (h : f.Writes p off total res es) : es.length ≤ p.length - total := by
  induction h with
  | full => exact Nat.zero_le _
  | failed h | short h =>
      rw [List.length_singleton]
      omega
  | more h hn _ _ ih =>
      have := toNat_pos hn
      rw [List.length_cons]
      omega

lemma Writes.err_ne_none (h : f.Writes p off total res es) (hn : res.n < p.length) :
    res.err ≠ none := by
  induction h with
  | full h => exact absurd (Int.ofNat_lt.mp hn) (by omega)
  | failed | short => simp
  | more _ _ _ _ ih => exact ih hn

/-- The count exceeds the buffer exactly if some answer exceeds the data of its WRITE. -/
lemma Writes.n_le_iff (h : f.Writes p off total res es) (htotal : total ≤ p.length) :
    res.n ≤ p.length ↔ ∀ e ∈ es, e.count ≤ e.data.length := by
  induction h with
  | full => simpa using htotal
  | failed | short => simpa [WriteEvent.count, writeEvent] using htotal
  | @more total _ n _ st res es hrest ih =>
      have hfirst : (f.writeEvent p off total (.ok (n, st))).count ≤
          (f.writeEvent p off total (.ok (n, st))).data.length ↔ total + n.toNat ≤ p.length := by
        simp only [WriteEvent.count, writeEvent, List.length_drop]
        omega
      rw [List.forall_mem_cons, hfirst]
      by_cases hfits : total + n.toNat ≤ p.length
      · rw [ih hfits, and_iff_right hfits]
      · have := hrest.le_n
        exact iff_of_false (by omega) fun h => hfits h.1

/-- The acknowledged data and the positions of the WRITEs, if no answer exceeds its data. -/
lemma Writes.covered_eq (h : f.Writes p off total res es) (hn : res.n ≤ p.length) :
    p.take total ++ covered es = p.take res.n.toNat ∧
      ∀ es₁ e es₂, es = es₁ ++ e :: es₂ →
        ∃ answer, e = f.writeEvent p off (total + (covered es₁).length) answer := by
  induction h with
  | full => simp [covered]
  | failed _ e | short _ e =>
      refine ⟨by simp [covered, WriteEvent.count, writeEvent], fun es₁ e' es₂ heq => ?_⟩
      rcases List.append_eq_singleton_iff.mp heq.symm with ⟨rfl, hsingle⟩ | ⟨-, hnil⟩
      · exact ⟨_, (List.cons.inj hsingle).1⟩
      · cases hnil
  | @more total _ n _ st res es hrest ih =>
      have hfits := hrest.le_n
      obtain ⟨htake, hplaced⟩ := ih hn
      have hcons : ∀ es, covered (f.writeEvent p off total (.ok (n, st)) :: es)
          = (p.drop total).take n.toNat ++ covered es := fun es => List.flatMap_cons
      refine ⟨by rw [hcons, ← List.append_assoc, ← List.take_add, htake], ?_⟩
      rintro (_ | ⟨e₁, es₁⟩) e es₂ heq
      · exact ⟨_, (List.cons.inj heq).1.symm⟩
      · obtain ⟨rfl, hes⟩ := List.cons.inj heq
        obtain ⟨answer, he⟩ := hplaced es₁ e es₂ hes
        refine ⟨answer, he.trans ?_⟩
        have hlen : ((p.drop total).take n.toNat).length = n.toNat := by
          rw [List.length_take, List.length_drop]
          omega
        rw [hcons, List.length_append, hlen, Nat.add_assoc]

/-- A run keeps to the contract exactly if no answer exceeds the data of its WRITE. -/
lemma Writes.contract_iff (h : f.Writes p off 0 res es) :
    f.WriteContract p off res es ↔ ∀ e ∈ es, e.count ≤ e.data.length := by
  rw [← h.n_le_iff (Nat.zero_le _)]
  refine ⟨WriteContract.n_le, fun hn => ?_⟩
  obtain ⟨hcovered, hplaced⟩ := h.covered_eq hn
  refine ⟨h.le_n, hn, h.err_ne_none, by simpa using hcovered, fun es₁ e es₂ heq => ?_, h.length_le⟩
  obtain ⟨answer, rfl⟩ := hplaced es₁ e es₂ heq
  rw [Nat.zero_add]
  exact ⟨rfl, rfl, rfl, rfl⟩

/-- Nothing is sent, and an error is returned. -/
lemma writeContract_of_error {start : Int64} {e : Err} :
    f.WriteContract p start { buf := p, err := some e } [] where
  nonneg := le_rfl
  n_le := Int.natCast_nonneg _
  short _ := by simp
  covered_eq := by simp [covered]
  placed es₁ e es₂ h := by simp at h
  writes := Nat.zero_le _

lemma size_recorded (w : W) (log : List WriteEvent) :
    f.size P.recorded (w, log) = ((f.size P w).1, (f.size P w).2, log) := by
  rcases hattr : P.getAttr f.fh Attr.standardMask w with ⟨e | ⟨mask, vals⟩, w'⟩
  · simp only [size, RWProtocol.recorded, hattr]
  · rcases hdec : Attr.decode mask vals with e | attrs
    · simp only [size, RWProtocol.recorded, hattr, hdec]
    · simp only [size, RWProtocol.recorded, hattr, hdec]

/-- The result keeps to the contract exactly if no answer exceeds the data of its WRITE. -/
def Accounts (f : File) (p : Bytes) (start : Int64) (res : FileRes) (es : List WriteEvent) : Prop :=
  f.WriteContract p start res es ↔ ∀ e ∈ es, e.count ≤ e.data.length

lemma accounts_of_error (start : Int64) (e : Err) :
    f.Accounts p start { buf := p, err := some e } [] :=
  iff_of_true writeContract_of_error (by simp)

variable (P f p off)

/-- `writeAt` is a run of the loop from the beginning of the buffer. -/
lemma writes_writeAllAt (w : W) :
    ∃ es, f.writeAllAt P.recorded p off (w, []) =
        ((f.writeAllAt P p off w).1, (f.writeAllAt P p off w).2, es) ∧
      f.Writes p off 0 (f.writeAllAt P p off w).1 es :=
  writes_writeAtLoop off p.length (by omega) w []

lemma writeAllAt_accounts (w : W) :
    ∃ es, f.writeAllAt P.recorded p off (w, []) =
        ((f.writeAllAt P p off w).1, (f.writeAllAt P p off w).2, es) ∧
      f.Accounts p off (f.writeAllAt P p off w).1 es := by
  obtain ⟨es, hrec, hrun⟩ := writes_writeAllAt P f p off w
  exact ⟨es, hrec, hrun.contract_iff⟩

lemma writeFrom_accounts (w : W) :
    ∃ es, f.writeFrom P.recorded p off (w, []) =
        ((f.writeFrom P p off w).1, (f.writeFrom P p off w).2.1, (f.writeFrom P p off w).2.2, es) ∧
      f.Accounts p off (f.writeFrom P p off w).1 es := by
  obtain ⟨es, hrec, hacc⟩ := writeAllAt_accounts P f p off w
  exact ⟨es, by simp only [writeFrom, hrec], hacc⟩

lemma writeAt_accounts (w : W) :
    ∃ es, f.writeAt P.recorded p off (w, []) =
        ((f.writeAt P p off w).1, (f.writeAt P p off w).2, es) ∧
      f.Accounts p off (f.writeAt P p off w).1 es := by
  unfold writeAt
  split
  · exact ⟨[], rfl, accounts_of_error off _⟩
  · split
    · exact ⟨[], rfl, accounts_of_error off _⟩
    · exact writeAllAt_accounts P f p off w

lemma write_accounts (w : W) :
    ∃ es, f.write P.recorded p (w, []) =
        ((f.write P p w).1, (f.write P p w).2.1, (f.write P p w).2.2, es) ∧
      f.Accounts p (f.writeStart P w) (f.write P p w).1 es := by
  unfold write
  split
  · exact ⟨[], rfl, accounts_of_error _ _⟩
  · unfold writeStart
    split
    · rw [size_recorded]
      rcases f.size P w with ⟨e | sz, w'⟩
      · exact ⟨[], rfl, accounts_of_error _ _⟩
      · exact writeFrom_accounts P f p sz w'
    · exact writeFrom_accounts P f p f.offset w

end File

/-- **When `Write` and `WriteAt` keep to the contract of a writer**: exactly if the server never
acknowledges more bytes than it was sent.  Then the count is at most the length of the data, a
smaller one comes with an error, and it counts the bytes that are acknowledged. -/
theorem write_contract_iff {W : Type} (P : RWProtocol W) (f : File) (p : Bytes) (off : Int64)
    (w : W) :
    (∃ es, f.writeAt P.recorded p off (w, []) =
        ((f.writeAt P p off w).1, (f.writeAt P p off w).2, es) ∧
      (f.WriteContract p off (f.writeAt P p off w).1 es ↔ ∀ e ∈ es, e.count ≤ e.data.length)) ∧
    ∃ es, f.write P.recorded p (w, []) =
        ((f.write P p w).1, (f.write P p w).2.1, (f.write P p w).2.2, es) ∧
      (f.WriteContract p (f.writeStart P w) (f.write P p w).1 es ↔
        ∀ e ∈ es, e.count ≤ e.data.length) :=
  ⟨File.writeAt_accounts P f p off w, File.write_accounts P f p w⟩

/-- A server that reports two bytes written whatever it is sent. -/
def boastingServer : RWProtocol Unit :=
  { readOnlyFile [] 0 with write := fun _ _ _ _ stable w => (.ok (2, stable), w) }

/-- One byte is written, and two are reported: by the server, by `WriteAt` and by `Write`, which
moves the cursor by as much. -/
theorem write_reports_more :
    (openedFile.writeAt boastingServer [7] 0 ()).1 = { buf := [7], n := 2 } ∧
      (openedFile.write boastingServer [7] ()).1 = { buf := [7], n := 2 } ∧
      (openedFile.write boastingServer [7] ()).2.1.offset = 2 ∧
      (openedFile.write boastingServer.recorded [7] ((), [])).2.2.2.map
        (fun e => (e.data, e.count)) = [([7], 2)] := by
  decide +kernel

end NfsClient.Client
