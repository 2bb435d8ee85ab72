import NfsClient.Nfs4.Atomic

/-!
# A server of a file system

What a server is for, said without compounds: a file system with objects, names and contents,
over an arbitrary type of trees and an arbitrary type of objects.  `FileSystem.exec` is the
COMPOUND interpreter on top of it, with the current and the saved file handle; the sessions stand
in front of it.
-/

namespace NfsClient.Nfs4

open NfsClient.Lib NfsClient.Nfs4.Format

/-! ## File systems -/

/-- The statuses with which an operation fails.  NFS4ERR_DELAY and NFS4ERR_GRACE are not among
them: with these an operation is put off. -/
abbrev Failure : Type := { st : Status // st ≠ nfs4Ok ∧ isRetriableStatus st = false }

/-- A file system with trees `T` and objects `H`: which object a file handle stands for, and
what the operations do. -/
structure FileSystem (T H : Type) where
  object : Bytes → T → Except Failure H
  handle : H → Field
  root : H
  lookup : H → Bytes → T → Except Failure H
  getattr : H → Bitmap → T → Except Failure Attrs
  read : H → ReadArgs → T → Except Failure ReadData
  readdir : H → ReaddirArgs → T → Except Failure Directory
  readlink : H → T → Except Failure Field
  openFile : H → OpenArgs → T → Except Failure (Opened × H) × T
  openConfirm : H → Stateid → UInt32 → T → Except Failure Stateid × T
  close : H → UInt32 → Stateid → T → Except Failure Stateid × T
  write : H → WriteArgs → T → Except Failure Written × T
  commit : H → UInt64 → UInt32 → T → Except Failure (ByteArr 8) × T
  create : H → CreateArgs → T → Except Failure (Created × H) × T
  remove : H → Bytes → T → Except Failure ChangeInfo × T
  rename : H → Bytes → H → Bytes → T → Except Failure Renamed × T
  link : H → H → Bytes → T → Except Failure ChangeInfo × T
  /-- SETATTR answers with the attributes that were set also if it fails. -/
  setattr : H → SetattrArgs → T → (Option Failure × Mask) × T

/-- The result of an operation as the server sends it. -/
def Format.Result.ofExcept {α : Type} : Except Failure α → Result α
  | .ok a => .ok a
  | .error e => .failed e.1 e.2.1

/-! ## The interpreter -/

/-- The state of a compound: the tree, the current and the saved file handle. -/
structure Cursor (T H : Type) where
  tree : T
  current : Option H := none
  saved : Option H := none

namespace FileSystem

variable {T H : Type} (fs : FileSystem T H)

/-- Store the tree after an operation. -/
def keep {α : Type} (s : Cursor T H) (answer : Result α → OpResult)
    (r : Except Failure α × T) : OpResult × Cursor T H :=
  (answer (.ofExcept r.1), { s with tree := r.2 })

/-- Store the tree after an operation that also sets the current file handle. -/
def enter {α : Type} (s : Cursor T H) (answer : Result α → OpResult) :
    Except Failure (α × H) × T → OpResult × Cursor T H
  | (.ok (a, h), t) => (answer (.ok a), { s with tree := t, current := some h })
  | (.error e, t) => (answer (.failed e.1 e.2.1), { s with tree := t })

/-- An operation on the current object. -/
def execAt (h : H) (s : Cursor T H) : Arg → OpResult × Cursor T H
  | .getfh => (.getfh (.ok (fs.handle h)), s)
  | .savefh => (.status opSavefh nfs4Ok, { s with saved := some h })
  | .lookup name =>
    match fs.lookup h name s.tree with
    | .ok h' => (.status opLookup nfs4Ok, { s with current := some h' })
    | .error e => (.status opLookup e.1, s)
  | .getattr mask => (.getattr (.ofExcept (fs.getattr h mask s.tree)), s)
  | .read a => (.read (.ofExcept (fs.read h a s.tree)), s)
  | .readdir a => (.readdir (.ofExcept (fs.readdir h a s.tree)), s)
  | .readlink => (.readlink (.ofExcept (fs.readlink h s.tree)), s)
  | .openFile a => enter s .openFile (fs.openFile h a s.tree)
  | .openConfirm sid seqid => keep s .openConfirm (fs.openConfirm h sid seqid s.tree)
  | .close seqid sid => keep s .close (fs.close h seqid sid s.tree)
  | .write a => keep s .write (fs.write h a s.tree)
  | .commit offset count => keep s .commit (fs.commit h offset count s.tree)
  | .create a => enter s .create (fs.create h a s.tree)
  | .remove name => keep s .remove (fs.remove h name s.tree)
  | .rename old new =>
    match s.saved with
    | some src => keep s .rename (fs.rename src old h new s.tree)
    | none => (failedResult nfs4errNofilehandle (by decide) (.rename old new), s)
  | .link new =>
    match s.saved with
    | some src => keep s .link (fs.link src h new s.tree)
    | none => (failedResult nfs4errNofilehandle (by decide) (.link new), s)
  | .setattr a =>
    match fs.setattr h a s.tree with
    | ((st, attrset), t) => (.setattr (st.elim nfs4Ok Subtype.val) attrset, { s with tree := t })
  | a => (failedResult nfs4errNotsupp (by decide) a, s)

/-- One operation of a compound. -/
def exec (a : Arg) (s : Cursor T H) : OpResult × Cursor T H :=
  match a with
  | .putrootfh => (.status opPutrootfh nfs4Ok, { s with current := some fs.root })
  | .putfh fh =>
    match fs.object (fh.getD []) s.tree with
    | .ok h => (.status opPutfh nfs4Ok, { s with current := some h })
    | .error e => (.status opPutfh e.1, s)
  | .restorefh =>
    match s.saved with
    | some h => (.status opRestorefh nfs4Ok, { s with current := some h })
    | none => (.status opRestorefh nfs4errNofilehandle, s)
  | a =>
    match s.current with
    | some h => fs.execAt h s a
    | none => (failedResult nfs4errNofilehandle (by decide) a, s)

lemma status_ofExcept {α : Type} (r : Except Failure α) :
    isRetriableStatus (Result.ofExcept r).status = false := by
  cases r with
  | ok a => rfl
  | error e => exact e.2.2

lemma kind_execAt (h : H) (s : Cursor T H) (a : Arg) :
    (fs.execAt h s a).1.kind = a.decoder := by
  cases a with
  | lookup name => simp only [execAt]; split <;> rfl
  | openFile a =>
      rcases ho : fs.openFile h a s.tree with ⟨_ | ⟨o, h'⟩, t⟩ <;> simp only [execAt, ho, enter] <;>
        rfl
  | create a =>
      rcases ho : fs.create h a s.tree with ⟨_ | ⟨o, h'⟩, t⟩ <;> simp only [execAt, ho, enter] <;>
        rfl
  | rename old new => cases hs : s.saved <;> simp only [execAt, hs] <;> rfl
  | link new => cases hs : s.saved <;> simp only [execAt, hs] <;> rfl
  | _ => rfl

lemma stat_execAt (h : H) (s : Cursor T H) (a : Arg) :
    isRetriableStatus (fs.execAt h s a).1.stat = false := by
  cases a with
  | lookup name =>
      cases hl : fs.lookup h name s.tree with
      | ok h' => simp only [execAt, hl]; rfl
      | error e => simp only [execAt, hl]; exact e.2.2
  | openFile a =>
      rcases ho : fs.openFile h a s.tree with ⟨e | ⟨o, h'⟩, t⟩ <;> simp only [execAt, ho, enter]
      · exact e.2.2
      · rfl
  | create a =>
      rcases ho : fs.create h a s.tree with ⟨e | ⟨o, h'⟩, t⟩ <;> simp only [execAt, ho, enter]
      · exact e.2.2
      · rfl
  | rename old new =>
      cases hs : s.saved <;> simp only [execAt, hs]
      · rfl
      · exact status_ofExcept _
  | link new =>
      cases hs : s.saved <;> simp only [execAt, hs]
      · rfl
      · exact status_ofExcept _
  | setattr a =>
      rcases hs : fs.setattr h a s.tree with ⟨⟨_ | st, attrset⟩, t⟩ <;> simp only [execAt, hs]
      · rfl
      · exact st.2.2
  | getattr mask | read a | readdir a | readlink | openConfirm sid seqid | close seqid sid | write a
  | commit offset count | remove name => exact status_ofExcept _
  | _ => rfl

lemma kind_exec (a : Arg) (s : Cursor T H) : (fs.exec a s).1.kind = a.decoder := by
  cases a with
  | putrootfh => rfl
  | putfh fh => simp only [exec]; split <;> rfl
  | restorefh => simp only [exec]; split <;> rfl
  | _ =>
      simp only [exec]
      split
      · exact fs.kind_execAt _ _ _
      · rfl

lemma stat_exec (a : Arg) (s : Cursor T H) : isRetriableStatus (fs.exec a s).1.stat = false := by
  cases a with
  | putrootfh => rfl
  | putfh fh =>
      cases ho : fs.object (fh.getD []) s.tree with
      | ok h => simp only [exec, ho]; rfl
      | error e => simp only [exec, ho]; exact e.2.2
  | restorefh => cases hs : s.saved <;> simp only [exec, hs] <;> rfl
  | _ =>
      simp only [exec]
      split
      · exact fs.stat_execAt _ _ _
      · rfl

end FileSystem

/-- When a server puts an operation off, and with which status. -/
structure Load (F D : Type) where
  delay : Arg → F → D → Option { st : Status // isRetriableStatus st = true } × D

lemma delay_ne {st : Status} (h : isRetriableStatus st = true) :
    st ≠ nfs4Ok ∧ st ≠ nfs4errClidInuse := by
  refine ⟨ne_ok_of_retriable h, ?_⟩
  rintro rfl
  exact absurd h (by decide)

/-- The server of a file system.  It puts off whatever it likes, except GETFH and the operations
with a seqid: such an operation uses its seqid up also when it is put off, and the client repeats
it with the same one. -/
def FileSystem.server {T H D : Type} (fs : FileSystem T H) (tag : Field)
    (L : Load (Cursor T H) D) : Server (Cursor T H) D where
  tag := tag
  start s := { tree := s.tree }
  putOff a s d :=
    if a = .getfh ∨ a.seqid?.isSome then (none, d)
    else match L.delay a s d with
      | (some st, d') => (some (failedResult st.1 (delay_ne st.2) a), d')
      | (none, d') => (none, d')
  exec := fs.exec
  kind_putOff := by
    intro a s d v h
    split at h
    · simp at h
    · split at h
      · obtain rfl := Option.some.inj h
        exact kind_failedResult _ _
      · simp at h
  kind_exec := fs.kind_exec
  stat_putOff := by
    intro a s d v h
    split at h
    · simp at h
    · split at h
      · next st d' hd =>
          obtain rfl := Option.some.inj h
          rw [stat_failedResult]
          exact st.2
      · simp at h
  stat_exec := fs.stat_exec
  putOff_getfh s d := by rw [if_pos (.inl rfl)]

/-- The tree lasts from one compound to the next; the file handles do not. -/
def FileSystem.durable {T H D : Type} (fs : FileSystem T H) (tag : Field)
    (L : Load (Cursor T H) D) : Durable (fs.server tag L) T where
  tree := Cursor.tree
  enter t := { tree := t }
  tree_enter _ := rfl
  start_eq _ := rfl

/-- The world of a client of a file system: the server of the file system has sessions in front. -/
abbrev FileWorld (T H D C : Type) : Type := World (Sessioned (Cursor T H)) D C

/-- The tree that the server holds. -/
def World.tree {T H D C : Type} (w : FileWorld T H D C) : T := w.files.base.tree

/-- The environment of a client of the file system: the server has sessions in front, and a link
leads to it. -/
def FileSystem.env {T H D C : Type} (fs : FileSystem T H) (tag : Field) (L : Load (Cursor T H) D)
    (N : Link C) : Env (FileWorld T H D C) :=
  (fs.server tag L).sessioned.over N

/-! ## A file system to build others from -/

lemma emptyTag_le : ([] : Bytes).length ≤ Xdr.defaultMaxLen.toNat := by decide

/-- No tag. -/
def emptyTag : Field := ⟨[], emptyTag_le⟩

lemma noAttrs_lt : ([] : Bitmap).length < 2 ^ 32 := by decide

/-- No attributes. -/
def noAttrs : Mask := ⟨[], noAttrs_lt⟩

def Failure.noent : Failure := ⟨nfs4errNoent, by decide⟩
def Failure.access : Failure := ⟨nfs4errAccess, by decide⟩
/-- A file system with one object, on which nothing is permitted. -/
def denying (T : Type) : FileSystem T Unit where
  object _ _ := .ok ()
  handle _ := ⟨[1], by decide⟩
  root := ()
  lookup _ _ _ := .error .access
  getattr _ _ _ := .error .access
  read _ _ _ := .error .access
  readdir _ _ _ := .error .access
  readlink _ _ := .error .access
  openFile _ _ t := (.error .access, t)
  openConfirm _ _ _ t := (.error .access, t)
  close _ _ _ t := (.error .access, t)
  write _ _ t := (.error .access, t)
  commit _ _ _ t := (.error .access, t)
  create _ _ t := (.error .access, t)
  remove _ _ t := (.error .access, t)
  rename _ _ _ _ t := (.error .access, t)
  link _ _ _ t := (.error .access, t)
  setattr _ _ t := ((some .access, noAttrs), t)

end NfsClient.Nfs4
