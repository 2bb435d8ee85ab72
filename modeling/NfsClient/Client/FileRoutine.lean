import NfsClient.Client.FileRefines
import NfsClient.Lib.Routine

/-!
# The operations on a file, call by call

The methods of `File` as routines over the world of a protocol: every call of the protocol is a
step of its own.  Undisturbed, a routine does what the method does (`run_routine`).  What a file
does next depends on the answers only, so its operations over two protocols are alike, and any
relation between computations that holds between the calls of the protocols holds between the
operations (`FileOp.transports`).
-/

namespace NfsClient.Client

open NfsClient.Lib NfsClient.Nfs4

/-- Which method made a call of the protocol. -/
inductive FileTag
  | read
  | readAt
  | write
  | writeAt
  | seek
  | truncate
  | close
deriving DecidableEq

abbrev FileRoutine (W ρ : Type) : Type := Routine FileTag W ρ

namespace File

variable {W : Type} (P : RWProtocol W)

/-- `Read`, under the lock. -/
def readSection (p : Bytes) (f : File) : FileRoutine W (FileRes × File) :=
  if f.closed then .ret ({ buf := p, err := some (f.errClosed "read") }, f)
  else if p.length = 0 then .ret ({ buf := p }, f)
  else
    .invoke .read (P.read f.fh f.offset.toUInt64 (UInt32.ofNat p.length)) fun
      | .error e => .ret ({ buf := p, err := some (pathError "read" f.name e) }, f)
      | .ok (data, _) =>
        match copyAt p 0 data with
        | (p', n) =>
          .ret ({ buf := p', n := n, err := if n = 0 then some .eof else none },
            { f with offset := f.offset + Int64.ofNat n })

/-- The loop of `writeAt`, called by `Write` or `WriteAt`. -/
def writeRoutine (tag : FileTag) (f : File) (p : Bytes) (off : Int64) :
    ℕ → ℕ → FileRoutine W FileRes
  | 0, total => .ret { buf := p, n := total }
  | fuel + 1, total =>
    if total < p.length then
      .invoke tag (P.write f.fh f.stateid (off.toUInt64 + UInt64.ofNat total) (p.drop total)
          fileSync4) fun
        | .error e => .ret { buf := p, n := total, err := some (pathError "write" f.name e) }
        | .ok (n, _) =>
          if n = 0 then .ret { buf := p, n := total, err := some .shortWrite }
          else writeRoutine tag f p off fuel (total + n.toNat)
    else .ret { buf := p, n := total }

/-- The end of `Write`. -/
def writeFromRoutine (f : File) (p : Bytes) (off : Int64) : FileRoutine W (FileRes × File) :=
  (f.writeRoutine P .write p off p.length 0).map fun res =>
    (res, { f with offset := off + Int64.ofInt res.n })

/-- `Write`, under the lock. -/
def writeSection (p : Bytes) (f : File) : FileRoutine W (FileRes × File) :=
  if f.closed then .ret ({ buf := p, err := some (f.errClosed "write") }, f)
  else if f.flag &&& oAppend ≠ 0 then
    .invoke .write (f.size P) fun
      | .error e => .ret ({ buf := p, err := some (pathError "write" f.name e) }, f)
      | .ok sz => f.writeFromRoutine P p sz
  else f.writeFromRoutine P p f.offset

/-- `Seek`, under the lock. -/
def seekSection (offset : Int64) (whence : ℤ) (f : File) : FileRoutine W (FileRes × File) :=
  if f.closed then .ret ({ err := some (f.errClosed "seek") }, f)
  else if whence = 0 then .ret (f.seekFrom 0 offset)
  else if whence = 1 then .ret (f.seekFrom f.offset offset)
  else if whence = 2 then
    .invoke .seek (f.size P) fun
      | .error e => .ret ({ err := some (pathError "seek" f.name e) }, f)
      | .ok sz => .ret (f.seekFrom sz offset)
  else .ret ({ err := some (f.errInvalid "seek") }, f)

/-- The loop of `ReadAt`. -/
def readRoutine (f : File) (off : Int64) : ℕ → Bytes → ℕ → FileRoutine W FileRes
  | 0, p, total => .ret { buf := p, n := total }
  | fuel + 1, p, total =>
    if total < p.length then
      .invoke .readAt
        (P.read f.fh (off.toUInt64 + UInt64.ofNat total) (UInt32.ofNat (p.length - total))) fun
        | .error e => .ret { buf := p, n := total, err := some (pathError "read" f.name e) }
        | .ok (data, eof) =>
          match copyAt p total data with
          | (p', k) =>
            if eof || data.length = 0 then
              .ret { buf := p', n := (total + k : ℕ), err := some .eof }
            else readRoutine f off fuel p' (total + k)
    else .ret { buf := p, n := total }

/-- `ReadAt`, once it has seen the file as `f`. -/
def readAtRoutine (f : File) (p : Bytes) (off : Int64) : FileRoutine W FileRes :=
  if f.closed then .ret { buf := p, err := some (f.errClosed "read") }
  else if off < 0 then .ret { buf := p, err := some (f.errInvalid "read") }
  else f.readRoutine P off p.length p 0

/-- `WriteAt`, likewise. -/
def writeAtRoutine (f : File) (p : Bytes) (off : Int64) : FileRoutine W FileRes :=
  if f.closed then .ret { buf := p, err := some (f.errClosed "write") }
  else if off < 0 then .ret { buf := p, err := some (f.errInvalid "write") }
  else f.writeRoutine P .writeAt p off p.length 0

/-- `Truncate`, likewise. -/
def truncateRoutine (f : File) (size : Int64) : FileRoutine W FileRes :=
  if f.closed then .ret { err := some (f.errClosed "truncate") }
  else if size < 0 then .ret { err := some (f.errInvalid "truncate") }
  else
    match Attr.encodeFattr { size := some size.toUInt64 } with
    | (mask, vals) =>
      .invoke .truncate (P.setAttr f.fh f.stateid mask vals) fun
        | .error e => .ret { err := some (pathError "truncate" f.name e) }
        | .ok _ => .ret {}

/-- `Close`, of a file that is open. -/
def closeRoutine (f : File) : FileRoutine W FileRes :=
  .invoke .close (P.closeFile f.fh f.stateid) fun
    | .error e => .ret { err := some (pathError "close" f.name e) }
    | .ok _ => .ret {}

end File

/-- An operation, with the file that it leaves. -/
def FileOp.routine {W : Type} (P : RWProtocol W) (f : File) :
    FileOp → FileRoutine W (FileRes × File)
  | .read p => File.readSection P p f
  | .readAt p off => (f.readAtRoutine P p off).map fun r => (r, f)
  | .write p => File.writeSection P p f
  | .writeAt p off => (f.writeAtRoutine P p off).map fun r => (r, f)
  | .seek offset whence => File.seekSection P offset whence f
  | .truncate size => (f.truncateRoutine P size).map fun r => (r, f)
  | .close =>
    if f.closed then .ret ({ err := some (f.errClosed "close") }, f)
    else (f.closeRoutine P).map fun r => (r, { f with closed := true })

/-! ## Undisturbed -/

section Undisturbed

variable {W : Type} (P : RWProtocol W) (f : File) (w : W)

lemma run_readSection (p : Bytes) : (File.readSection P p f).run w
    = (((f.read P p w).1, (f.read P p w).2.1), (f.read P p w).2.2) := by
  unfold File.readSection File.read
  split
  · rfl
  · split
    · rfl
    · rw [Routine.run_invoke]
      rcases P.read f.fh f.offset.toUInt64 (UInt32.ofNat p.length) w
        with ⟨_ | ⟨data, eof⟩, w'⟩ <;> rfl

lemma run_writeRoutine (tag : FileTag) (p : Bytes) (off : Int64) (fuel total : ℕ) :
    (f.writeRoutine P tag p off fuel total).run w = f.writeAtLoop P p off fuel total w := by
  induction fuel generalizing total w with
  | zero => rfl
  | succ fuel ih =>
      rw [File.writeRoutine, File.writeAtLoop]
      split
      · rw [Routine.run_invoke]
        rcases P.write f.fh f.stateid (off.toUInt64 + UInt64.ofNat total) (p.drop total) fileSync4 w
          with ⟨_ | ⟨n, how⟩, w'⟩
        · rfl
        · simp only
          split
          · rfl
          · exact ih w' _
      · rfl

lemma run_writeFromRoutine (p : Bytes) (off : Int64) : (f.writeFromRoutine P p off).run w
    = (((f.writeFrom P p off w).1, (f.writeFrom P p off w).2.1), (f.writeFrom P p off w).2.2) := by
  rw [File.writeFromRoutine, Routine.run_map, run_writeRoutine]
  rfl

lemma run_writeSection (p : Bytes) : (File.writeSection P p f).run w
    = (((f.write P p w).1, (f.write P p w).2.1), (f.write P p w).2.2) := by
  unfold File.writeSection File.write
  split
  · rfl
  · split
    · rw [Routine.run_invoke]
      rcases f.size P w with ⟨_ | sz, w'⟩
      · rfl
      · exact run_writeFromRoutine P f w' p sz
    · exact run_writeFromRoutine P f w p f.offset

lemma run_seekSection (offset : Int64) (whence : ℤ) : (File.seekSection P offset whence f).run w
    = (((f.seek P offset whence w).1, (f.seek P offset whence w).2.1),
        (f.seek P offset whence w).2.2) := by
  unfold File.seekSection File.seek
  split
  · rfl
  · split
    · rfl
    · split
      · rfl
      · split
        · rw [Routine.run_invoke]
          rcases f.size P w with ⟨_ | sz, w'⟩ <;> rfl
        · rfl

lemma run_readRoutine (off : Int64) (fuel : ℕ) (p : Bytes) (total : ℕ) :
    (f.readRoutine P off fuel p total).run w = f.readAtLoop P off fuel p total w := by
  induction fuel generalizing p total w with
  | zero => rfl
  | succ fuel ih =>
      rw [File.readRoutine, File.readAtLoop]
      split
      · rw [Routine.run_invoke]
        rcases P.read f.fh (off.toUInt64 + UInt64.ofNat total) (UInt32.ofNat (p.length - total)) w
          with ⟨_ | ⟨data, eof⟩, w'⟩
        · rfl
        · rcases copyAt p total data with ⟨p', k⟩
          simp only
          split
          · rfl
          · exact ih w' _ _
      · rfl

lemma run_readAtRoutine (p : Bytes) (off : Int64) :
    (f.readAtRoutine P p off).run w = f.readAt P p off w := by
  unfold File.readAtRoutine File.readAt
  split
  · rfl
  · split
    · rfl
    · exact run_readRoutine P f w off p.length p 0

lemma run_writeAtRoutine (p : Bytes) (off : Int64) :
    (f.writeAtRoutine P p off).run w = f.writeAt P p off w := by
  unfold File.writeAtRoutine File.writeAt
  split
  · rfl
  · split
    · rfl
    · exact run_writeRoutine P f w .writeAt p off p.length 0

lemma run_truncateRoutine (size : Int64) :
    (f.truncateRoutine P size).run w = f.truncate P size w := by
  unfold File.truncateRoutine File.truncate
  split
  · rfl
  · split
    · rfl
    · generalize Attr.encodeFattr { size := some size.toUInt64 } = attrs
      rcases attrs with ⟨mask, vals⟩
      dsimp only
      rw [Routine.run_invoke]
      rcases P.setAttr f.fh f.stateid mask vals w with ⟨_ | _, w'⟩ <;> rfl

/-- **Undisturbed, a routine does what the operation does.** -/
theorem run_routine (op : FileOp) : (op.routine P f).run w
    = (((op.run P f w).1, (op.run P f w).2.1), (op.run P f w).2.2) := by
  cases op with
  | read p => exact run_readSection P f w p
  | readAt p off => rw [FileOp.routine, Routine.run_map, run_readAtRoutine]; rfl
  | write p => exact run_writeSection P f w p
  | writeAt p off => rw [FileOp.routine, Routine.run_map, run_writeAtRoutine]; rfl
  | seek offset whence => exact run_seekSection P f w offset whence
  | truncate size => rw [FileOp.routine, Routine.run_map, run_truncateRoutine]; rfl
  | close =>
      simp only [FileOp.routine, FileOp.run, File.close]
      split
      · rfl
      · rw [Routine.run_map, File.closeRoutine, Routine.run_invoke]
        rcases P.closeFile f.fh f.stateid w with ⟨_ | _, w'⟩ <;> rfl

end Undisturbed

/-! ## Two protocols -/

section Alike

variable {W W' : Type} {R : (β : Type) → (W → β × W) → (W' → β × W') → Prop}

/-- The operations of two protocols on a file are related. -/
structure RWProtocol.Alike (R : (β : Type) → (W → β × W) → (W' → β × W') → Prop)
    (P : RWProtocol W) (P' : RWProtocol W') (f : File) : Prop where
  read : ∀ off count, R _ (P.read f.fh off count) (P'.read f.fh off count)
  write : ∀ off data stable,
    R _ (P.write f.fh f.stateid off data stable) (P'.write f.fh f.stateid off data stable)
  getAttr : ∀ mask, R _ (P.getAttr f.fh mask) (P'.getAttr f.fh mask)
  setAttr : ∀ mask vals,
    R _ (P.setAttr f.fh f.stateid mask vals) (P'.setAttr f.fh f.stateid mask vals)
  closeFile : R _ (P.closeFile f.fh f.stateid) (P'.closeFile f.fh f.stateid)

variable {P : RWProtocol W} {P' : RWProtocol W'} {f : File}

lemma alike_size (hR : Transports R) (h : P.Alike R P' f) : R _ (f.size P) (f.size P') := by
  rw [File.size_eq, File.size_eq]
  exact hR.bind (k := fun a w => (a.bind fun a =>
    (Attr.decode a.1 a.2).map fun attrs => attrs.size.toInt64, w)) (h.getAttr _) fun _ => hR.ret _

lemma alike_writeRoutine (h : P.Alike R P' f) (tag : FileTag) (p : Bytes) (off : Int64)
    (fuel total : ℕ) :
    (f.writeRoutine P tag p off fuel total).Alike R (f.writeRoutine P' tag p off fuel total) := by
  induction fuel generalizing total with
  | zero => exact .ret _
  | succ fuel ih =>
      rw [File.writeRoutine, File.writeRoutine]
      split
      · refine .invoke _ (h.write ..) fun r => ?_
        cases r with
        | error e => exact .ret _
        | ok res =>
            dsimp only
            split
            · exact .ret _
            · exact ih _
      · exact .ret _

lemma alike_readRoutine (h : P.Alike R P' f) (off : Int64) (fuel : ℕ) (p : Bytes) (total : ℕ) :
    (f.readRoutine P off fuel p total).Alike R (f.readRoutine P' off fuel p total) := by
  induction fuel generalizing p total with
  | zero => exact .ret _
  | succ fuel ih =>
      rw [File.readRoutine, File.readRoutine]
      split
      · refine .invoke _ (h.read ..) fun r => ?_
        cases r with
        | error e => exact .ret _
        | ok res =>
            dsimp only
            split
            · exact .ret _
            · exact ih _ _
      · exact .ret _

/-- The routines of an operation over two protocols are alike. -/
lemma alike_routine (hR : Transports R) (h : P.Alike R P' f) (op : FileOp) :
    (op.routine P f).Alike R (op.routine P' f) := by
  cases op with
  | read p =>
      simp only [FileOp.routine, File.readSection]
      split_ifs
      · exact .ret _
      · exact .ret _
      · refine .invoke _ (h.read ..) fun r => ?_
        cases r <;> exact .ret _
  | readAt p off =>
      simp only [FileOp.routine, File.readAtRoutine]
      split_ifs
      · exact .ret _
      · exact .ret _
      · exact (alike_readRoutine h off p.length p 0).map _
  | write p =>
      have hfrom := fun off => (alike_writeRoutine h .write p off p.length 0).map
        fun res => (res, { f with offset := off + Int64.ofInt res.n })
      simp only [FileOp.routine, File.writeSection]
      split_ifs
      · exact .ret _
      · refine .invoke _ (alike_size hR h) fun r => ?_
        cases r with
        | error e => exact .ret _
        | ok sz => exact hfrom sz
      · exact hfrom f.offset
  | writeAt p off =>
      simp only [FileOp.routine, File.writeAtRoutine]
      split_ifs
      · exact .ret _
      · exact .ret _
      · exact (alike_writeRoutine h .writeAt p off p.length 0).map _
  | seek offset whence =>
      simp only [FileOp.routine, File.seekSection]
      split_ifs
      · exact .ret _
      · exact .ret _
      · exact .ret _
      · refine .invoke _ (alike_size hR h) fun r => ?_
        cases r <;> exact .ret _
      · exact .ret _
  | truncate size =>
      simp only [FileOp.routine, File.truncateRoutine]
      split_ifs
      · exact .ret _
      · exact .ret _
      · refine .map (.invoke _ (h.setAttr ..) fun r => ?_) _
        cases r <;> exact .ret _
  | close =>
      simp only [FileOp.routine, File.closeRoutine]
      split_ifs
      · exact .ret _
      · refine .map (.invoke _ h.closeFile fun r => ?_) _
        cases r <;> exact .ret _

/-- **What relates the operations of two protocols relates the operations on a file.** -/
theorem FileOp.transports (hR : Transports R) (h : P.Alike R P' f) (op : FileOp) :
    R (FileRes × File) (fun w => (((op.run P f w).1, (op.run P f w).2.1), (op.run P f w).2.2))
      (fun w => (((op.run P' f w).1, (op.run P' f w).2.1), (op.run P' f w).2.2)) := by
  have hrun := (alike_routine hR h op).run hR
  rwa [funext fun w => run_routine P f w op, funext fun w => run_routine P' f w op] at hrun

end Alike

end NfsClient.Client
