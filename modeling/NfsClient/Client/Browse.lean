import NfsClient.Client.Listing
import NfsClient.Client.ServedFile
import NfsClient.Client.Walk

/-!
# Browsing a served file system

`FS` answers questions about paths: `Stat`, `Lstat`, `ReadLink`, `ReadDir`, `Open`, and `Statvfs`
of `RWFS`.  It knows file handles only, and asks for one component, one set of attributes and one
page of a listing at a time.

What the answers should be is said by a `Snapshot`: objects with attributes, and directories
with named entries.  A `Browsable` file system has a snapshot in each of its trees, and hands out
its directories in pages.  Over a connection that is served, `FS` answers every question from the
snapshot of the tree at that moment, whatever is called on the connection in between
(`served_tree_refines`); so what `ReadDir` lists is what `Stat` finds (`readDir_agrees_stat`).
-/

namespace NfsClient.Client

open NfsClient.Lib NfsClient.Nfs4 NfsClient.Nfs4.Format

/-! ## The questions -/

/-- `Protocol`, with `Readlink`. -/
structure LinkProtocol (W : Type) extends Protocol W where
  readlink : FileHandle → W → Except Err Bytes × W

/-- The operations as a connection performs them. -/
def LinkProtocol.ofConn {W : Type} (E : Env W) : LinkProtocol (Conn × Net W) where
  __ := Protocol.ofConn E
  readlink fh s := match (readlinkOp fh).exec E s.1 s.2 with
    | (r, n) => (r, s.1, n)

/-- The name that a file is shown under. -/
def baseName (name : Bytes) : Bytes := if name = ascii "." then ascii "." else pathBase name

namespace FS

variable {W : Type}

/-- `Stat` and `Lstat`; the operation is named in their errors only. -/
def statAs (P : Protocol W) (op : String) (name : Bytes) (w : W) : Except Err FileInfo × W :=
  if !validPath name then (.error (.path op name .errInvalid), w)
  else match resolve P name w with
    | (.error e, w₁) => (.error (pathError op name e), w₁)
    | (.ok (_, attrs), w₁) => (.ok ⟨baseName name, attrs⟩, w₁)

/-- `Stat` -/
def statNamed (P : Protocol W) (name : Bytes) (w : W) : Except Err FileInfo × W :=
  statAs P "stat" name w

/-- `Lstat` -/
def lstat (P : Protocol W) (name : Bytes) (w : W) : Except Err FileInfo × W :=
  statAs P "lstat" name w

/-- `ReadLink` returns the target of the symbolic link. -/
def readLink (P : LinkProtocol W) (name : Bytes) (w : W) : Except Err Bytes × W :=
  if !validPath name then (.error (.path "readlink" name .errInvalid), w)
  else match resolve P.toProtocol name w with
    | (.error e, w₁) => (.error (pathError "readlink" name e), w₁)
    | (.ok (fh, _), w₁) =>
      match P.readlink fh w₁ with
      | (.error e, w₂) => (.error (pathError "readlink" name e), w₂)
      | (.ok target, w₂) => (.ok target, w₂)

end FS

/-- A question about a path. -/
inductive FSOp
  | stat (name : Bytes)
  | lstat (name : Bytes)
  | readLink (name : Bytes)
  | readDir (name : Bytes)
  | openNamed (name : Bytes)
  | statvfs (name : Bytes)
deriving DecidableEq

/-- What a call returns. -/
inductive FSAnswer
  | info (r : Except Err FileInfo)
  | target (r : Except Err Bytes)
  | listing (r : Except Err (List FileInfo))
  | opened (r : Except Err FS.Opened)
  | space (r : Except Err StatvfsInfo)
  /-- A method of the connection, with its error. -/
  | called (err : Option Err)
deriving DecidableEq

/-- The answer to a question; a listing is given up after so many pages. -/
def FSOp.run {W : Type} (P : LinkProtocol W) (pages : ℕ) (w : W) : FSOp → Option (FSAnswer × W)
  | .stat name => some ((FS.statNamed P.toProtocol name w).map .info id)
  | .lstat name => some ((FS.lstat P.toProtocol name w).map .info id)
  | .readLink name => some ((FS.readLink P name w).map .target id)
  | .readDir name => (FS.readDir P.toProtocol pages name w).map (Prod.map .listing id)
  | .openNamed name => some ((FS.openNamed P.toProtocol name w).map .opened id)
  | .statvfs name => some ((RWFS.statvfs P.toProtocol name w).map .space id)

/-! ## Restricted protocols -/

/-- On the states that `g` maps to, `P` does what `P'` does. -/
structure LinkProtocol.Restricts {W W' : Type} (P : LinkProtocol W) (P' : LinkProtocol W')
    (g : W' → W) : Prop where
  rootFH : ∀ w, P.rootFH (g w) = P'.rootFH w
  lookup : ∀ dir name, Lib.Restricts g _ (P.lookup dir name) (P'.lookup dir name)
  getAttr : ∀ fh mask, Lib.Restricts g _ (P.getAttr fh mask) (P'.getAttr fh mask)
  readdir : ∀ fh cookie verf mask,
    Lib.Restricts g _ (P.readdir fh cookie verf mask) (P'.readdir fh cookie verf mask)
  readlink : ∀ fh, Lib.Restricts g _ (P.readlink fh) (P'.readlink fh)

namespace LinkProtocol.Restricts

variable {W W' : Type} {P : LinkProtocol W} {P' : LinkProtocol W'} {g : W' → W}
  (h : P.Restricts P' g)

include h

lemma walk (name : Bytes) (w : W') :
    (if name ≠ ascii "." then Lib.walk P.lookup (splitSlash name) (P.rootFH (g w)) (g w)
      else (.ok (P.rootFH (g w)), g w))
    = (if name ≠ ascii "." then Lib.walk P'.lookup (splitSlash name) (P'.rootFH w) w
      else (.ok (P'.rootFH w), w)).map id g := by
  rw [h.rootFH]
  split
  · exact Lib.walk_restricts h.lookup _ _ w
  · rfl

lemma resolve (name : Bytes) (w : W') :
    FS.resolve P.toProtocol name (g w) = (FS.resolve P'.toProtocol name w).map id g := by
  rw [FS.resolve_eq, FS.resolve_eq, h.walk]
  generalize (if name ≠ ascii "." then _ else _ : Except Err FileHandle × W') = out
  obtain ⟨e | fh, w₁⟩ := out
  · rfl
  · rcases hg : P'.getAttr fh Attr.standardMask w₁ with ⟨e | ⟨mask, vals⟩, w₂⟩
    · simp only [FS.thenStat, FS.stat, h.getAttr, hg, Prod.map_apply, id_eq]
    · simp only [FS.thenStat, FS.stat, h.getAttr, hg, Prod.map_apply, id_eq]
      cases Attr.decode mask vals <;> rfl

lemma statvfs (name : Bytes) (w : W') :
    RWFS.statvfs P.toProtocol name (g w) = (RWFS.statvfs P'.toProtocol name w).map id g := by
  rw [RWFS.statvfs, RWFS.statvfs, h.walk]
  split
  · rfl
  · generalize (if name ≠ ascii "." then _ else _ : Except Err FileHandle × W') = out
    obtain ⟨e | fh, w₁⟩ := out
    · rfl
    · rcases hg : P'.getAttr fh Attr.statvfsMask w₁ with ⟨e | ⟨mask, vals⟩, w₂⟩
      · simp only [RWFS.thenStatvfs, h.getAttr, hg, Prod.map_apply, id_eq]
      · simp only [RWFS.thenStatvfs, h.getAttr, hg, Prod.map_apply, id_eq]
        cases Attr.decodeStatvfs mask vals <;> rfl

lemma readDirLoop (fh : FileHandle) (pages : ℕ) (out : List FileInfo) (cookie : UInt64)
    (verf : ByteArr 8) (w : W') :
    FS.readDirLoop P.toProtocol fh pages out cookie verf (g w)
      = (FS.readDirLoop P'.toProtocol fh pages out cookie verf w).map (Prod.map id g) := by
  induction pages generalizing out cookie verf w with
  | zero => rfl
  | succ pages ih =>
      rcases hr : P'.readdir fh cookie verf Attr.standardMask w with ⟨e | res, w'⟩
      · simp only [FS.readDirLoop, h.readdir, hr, Prod.map_apply, id_eq, Option.map_some]
      · simp only [FS.readDirLoop, h.readdir, hr, Prod.map_apply, id_eq]
        rcases FS.addPage res.entries out cookie with e | ⟨out', cookie'⟩
        · rfl
        · dsimp only
          split_ifs
          · rfl
          · rfl
          · exact ih _ _ _ w'

/-- **A question is answered by a protocol as by its restriction.** -/
theorem run (pages : ℕ) (op : FSOp) (w : W') :
    op.run P pages (g w) = (op.run P' pages w).map (Prod.map id g) := by
  cases op with
  | stat name | lstat name =>
      simp only [FSOp.run, FS.statNamed, FS.lstat, FS.statAs, h.resolve]
      split
      · rfl
      · rcases FS.resolve P'.toProtocol name w with ⟨e | ⟨fh, attrs⟩, w₁⟩ <;> rfl
  | openNamed name =>
      simp only [FSOp.run, FS.openNamed, h.resolve]
      split
      · rfl
      · rcases FS.resolve P'.toProtocol name w with ⟨e | ⟨fh, attrs⟩, w₁⟩
        · rfl
        · simp only [Prod.map_apply, id_eq]
          split <;> rfl
  | readLink name =>
      simp only [FSOp.run, FS.readLink, h.resolve]
      split
      · rfl
      · rcases FS.resolve P'.toProtocol name w with ⟨e | ⟨fh, attrs⟩, w₁⟩
        · rfl
        · rcases hr : P'.readlink fh w₁ with ⟨e | target, w₂⟩ <;>
            simp only [Prod.map_apply, id_eq, h.readlink, hr, Option.map_some]
  | readDir name =>
      simp only [FSOp.run, FS.readDir, h.resolve]
      split
      · rfl
      · rcases FS.resolve P'.toProtocol name w with ⟨e | ⟨fh, attrs⟩, w₁⟩
        · rfl
        · simp only [Prod.map_apply, id_eq, FS.readDirAll, h.readDirLoop]
          split
          · rfl
          · rcases FS.readDirLoop P'.toProtocol fh pages [] 0 default w₁ with
              _ | ⟨e | entries, w₂⟩ <;> rfl
  | statvfs name => simp only [FSOp.run, h.statvfs, Option.map_some]; rfl

end LinkProtocol.Restricts

/-! ## Snapshots -/

/-- An element of a path. -/
def IsElem (name : Bytes) : Prop :=
  validUTF8 name = true ∧ slash ∉ name ∧ name ≠ [] ∧ name ≠ ascii "." ∧ name ≠ ascii ".."

instance : DecidablePred IsElem := fun _ => inferInstanceAs (Decidable (_ ∧ _ ∧ _ ∧ _ ∧ _))

/-- What there is in a file system at a moment.  The entries are those of the directories; the
dot entries are not among them. -/
structure Snapshot (H : Type) where
  root : H
  attrs : H → Attr.Attributes
  space : H → Attr.Statvfs
  entries : H → List (Bytes × H)
  target : H → Except Failure Bytes
  /-- The status of a lookup in an object that is no directory. -/
  refusal : H → Failure
  elem : ∀ h, ∀ e ∈ entries h, IsElem e.1
  nodup : ∀ h, ((entries h).map Prod.fst).Nodup

namespace Snapshot

variable {H : Type} (σ : Snapshot H)

/-- The object of that name in a directory. -/
def child (h : H) (name : Bytes) : Except Failure H :=
  if (σ.attrs h).isDir then
    match (σ.entries h).lookup name with
    | some h' => .ok h'
    | none => .error .noent
  else .error (σ.refusal h)

/-- The object at the end of a walk. -/
def walk (comps : List Bytes) (h : H) : Except Failure H := comps.foldlM σ.child h

/-- The object can be reached from the root. -/
def Holds (h : H) : Prop := ∃ comps, σ.walk comps σ.root = .ok h

/-- The object at a path. -/
def find (name : Bytes) : Except Failure H :=
  if name ≠ ascii "." then σ.walk (splitSlash name) σ.root else .ok σ.root

/-- What a directory contains, as it is shown. -/
def list (h : H) : List FileInfo := (σ.entries h).map fun e => ⟨e.1, σ.attrs e.2⟩

/-- The answer to a question about the object at a path. -/
def about {α : Type} (op : String) (name : Bytes) (k : H → Except Err α) : Except Err α :=
  if !validPath name then .error (.path op name .errInvalid)
  else match σ.find name with
    | .error e => .error (pathError op name (.status e.1))
    | .ok h => k h

/-- The answers that the snapshot gives; `handle` is the file handle of an object. -/
def answer (handle : H → FileHandle) : FSOp → FSAnswer
  | .stat name => .info (σ.about "stat" name fun h => .ok ⟨baseName name, σ.attrs h⟩)
  | .lstat name => .info (σ.about "lstat" name fun h => .ok ⟨baseName name, σ.attrs h⟩)
  | .readLink name => .target (σ.about "readlink" name fun h =>
      match σ.target h with
      | .error e => .error (pathError "readlink" name (.status e.1))
      | .ok target => .ok target)
  | .readDir name => .listing (σ.about "readdir" name fun h =>
      if (σ.attrs h).isDir then .ok (σ.list h)
      else .error (.path "readdir" name (.text "not a directory")))
  | .openNamed name => .opened (σ.about "open" name fun h =>
      if (σ.attrs h).isDir then
        .ok (.dir { fh := handle h, name := baseName name, attrs := σ.attrs h })
      else .ok (.file { fh := handle h, name := baseName name, attrs := σ.attrs h }))
  | .statvfs name => .space (σ.about "statvfs" name fun h => .ok (.ofAttrs (σ.space h)))

lemma holds_root : σ.Holds σ.root := ⟨[], rfl⟩

lemma walk_concat (comps : List Bytes) (name : Bytes) (h : H) :
    σ.walk (comps ++ [name]) h = σ.walk comps h >>= fun h' => σ.child h' name := by
  simp [walk, List.foldlM_append]

variable {σ}

lemma Holds.child {h h' : H} {name : Bytes} (hh : σ.Holds h) (hc : σ.child h name = .ok h') :
    σ.Holds h' := by
  obtain ⟨comps, hw⟩ := hh
  refine ⟨comps ++ [name], ?_⟩
  rw [walk_concat, hw]
  exact hc

lemma holds_find {h : H} {name : Bytes} (hf : σ.find name = .ok h) : σ.Holds h := by
  rw [find] at hf
  split at hf
  · exact ⟨_, hf⟩
  · obtain rfl := Except.ok.inj hf
    exact σ.holds_root

end Snapshot

/-! ## File systems that can be browsed -/

/-- A file system with a snapshot in each of its trees.  A handle stands for its object as long
as the object can be reached, and a directory is handed out in pages of any size; the cookie of
an entry and the verifier of the page have to be sent with the request for the next one. -/
structure Browsable {T H : Type} (fs : FileSystem T H) where
  snap : T → Snapshot H
  listing : T → H → Listing
  verf : T → H → ByteArr 8
  root_eq : ∀ t, (snap t).root = fs.root
  object : ∀ t h, (snap t).Holds h → fs.object (fs.handle h).1 t = .ok h
  lookup : ∀ t h name, (snap t).Holds h → fs.lookup h name t = (snap t).child h name
  getattr : ∀ t h, (snap t).Holds h → ∃ a, fs.getattr h Attr.standardMask t = .ok a ∧
    Attr.decode a.mask.1 a.vals.1 = .ok ((snap t).attrs h)
  statvfs : ∀ t h, (snap t).Holds h → ∃ a, fs.getattr h Attr.statvfsMask t = .ok a ∧
    Attr.decodeStatvfs a.mask.1 a.vals.1 = .ok ((snap t).space h)
  readlink : ∀ t h, (snap t).Holds h →
    (fs.readlink h t).map (fun l => l.1) = (snap t).target h
  shown : ∀ t h, (snap t).Holds h → ((snap t).attrs h).isDir = true →
    (listing t h).shown = (snap t).list h
  readdir : ∀ t h (a : ReaddirArgs), (snap t).Holds h → ((snap t).attrs h).isDir = true →
    a.attrRequest = Attr.standardMask → (listing t h).Cookie a.cookie →
    a.cookieverf = (if a.cookie = 0 then default else verf t h) →
    ∃ d k, fs.readdir h a t = .ok d ∧
      d.entries.map Entry.stored = (following (listing t h).entries a.cookie).take k ∧ 0 < k ∧
      (d.eof = true ↔ (following (listing t h).entries a.cookie).length ≤ k) ∧
      d.cookieverf = verf t h

/-- The listing that a question asks for is shorter than the given number. -/
def Browsable.Fits {T H : Type} {fs : FileSystem T H} (B : Browsable fs) (pages : ℕ) (t : T) :
    FSOp → Prop
  | .readDir name => ∀ h, (B.snap t).find name = .ok h → (B.listing t h).entries.length < pages
  | _ => True

/-! ## Connections at a tree -/

namespace Service

variable {T H D C : Type} (S : Service T H D C)

/-- The connection `c` while it is served and the file system has the tree `t`. -/
abbrev At (c : Conn) (t : T) : Type :=
  { s : Conn × Net (FileWorld T H D C) //
    S.Serves s ∧ s.1 = c ∧ s.2.world.tree = t }

variable {S} {c : Conn} {t : T}

/-- A method that leaves the tree and the connection as they are. -/
structure Asks (fs : FileSystem T H) (m : Method) : Prop where
  conn : ∀ c, m.conn c = c
  tree : ∀ c t, (m.spec fs c t).2 = t

lemma At.ask_at (s : S.At c t) {m : Method} (hm : Asks S.fs m) :
    S.Serves (s.1.1, (m.exec S.env s.1.1 s.1.2).2) ∧ s.1.1 = c ∧
      (m.exec S.env s.1.1 s.1.2).2.world.tree = t := by
  have hserves := s.2.1.call m
  rw [hm.conn] at hserves
  refine ⟨hserves, s.2.2.1, ?_⟩
  calc (m.exec S.env s.1.1 s.1.2).2.world.tree
      = (m.spec S.fs s.1.1 s.1.2.world.tree).2 := (S.call_spec m ⟨s.1, s.2.1⟩).2
    _ = s.1.2.world.tree := hm.tree _ _
    _ = t := s.2.2.2

/-- A call of such a method. -/
def At.ask (s : S.At c t) (m : Method) (hm : Asks S.fs m) : Except Err m.Value × S.At c t :=
  ((m.exec S.env s.1.1 s.1.2).1, ⟨(s.1.1, (m.exec S.env s.1.1 s.1.2).2), s.ask_at hm⟩)

lemma At.ask_fst (s : S.At c t) (m : Method) (hm : Asks S.fs m) :
    (s.ask m hm).1 = (m.multiOp s.1.1).report (m.spec S.fs s.1.1 t).1 := by
  have hspec := (S.call_spec m ⟨s.1, s.2.1⟩).1
  rw [show S.tree ⟨s.1, s.2.1⟩ = t from s.2.2.2] at hspec
  exact hspec

lemma onObject_snd {α : Type} (fs : FileSystem T H) (fh : FileHandle) (t : T)
    (k : H → Except Status α) : (fs.onObject fh t fun h => (k h, t)).2 = t := by
  rw [FileSystem.onObject]
  split <;> rfl

lemma asks_lookup (fs : FileSystem T H) (dir : FileHandle) (name : Bytes) :
    Asks fs (.lookup dir name) := ⟨fun _ => rfl, fun _ t => onObject_snd fs dir t _⟩

lemma asks_getAttr (fs : FileSystem T H) (fh : FileHandle) (mask : Bitmap) :
    Asks fs (.getAttr fh mask) := ⟨fun _ => rfl, fun _ t => onObject_snd fs fh t _⟩

lemma asks_read (fs : FileSystem T H) (fh : FileHandle) (offset : UInt64) (count : UInt32) :
    Asks fs (.read fh offset count) := ⟨fun _ => rfl, fun _ t => onObject_snd fs fh t _⟩

lemma asks_readdir (fs : FileSystem T H) (dir : FileHandle) (cookie : UInt64) (verf : ByteArr 8)
    (mask : Bitmap) : Asks fs (.readdir dir cookie verf mask) :=
  ⟨fun _ => rfl, fun _ t => onObject_snd fs dir t _⟩

lemma asks_readlink (fs : FileSystem T H) (fh : FileHandle) : Asks fs (.readlink fh) :=
  ⟨fun _ => rfl, fun _ t => onObject_snd fs fh t _⟩

variable (S)

/-- The operations of `Protocol` at a tree. -/
def browse (c : Conn) (t : T) : LinkProtocol (S.At c t) where
  rootFH s := s.1.1.rootFH
  lookup dir name s := s.ask (.lookup dir name) (asks_lookup S.fs dir name)
  getAttr fh mask s := s.ask (.getAttr fh mask) (asks_getAttr S.fs fh mask)
  read fh offset count s := s.ask (.read fh offset count) (asks_read S.fs fh offset count)
  readdir dir cookie verf mask s :=
    s.ask (.readdir dir cookie verf mask) (asks_readdir S.fs dir cookie verf mask)
  readlink fh s := s.ask (.readlink fh) (asks_readlink S.fs fh)

lemma browse_restricts (c : Conn) (t : T) :
    (LinkProtocol.ofConn S.env).Restricts (S.browse c t) Subtype.val where
  rootFH _ := rfl
  lookup _ _ _ := rfl
  getAttr _ _ _ := rfl
  readdir _ _ _ _ _ := rfl
  readlink _ _ := rfl

end Service

/-! ## The answers -/

section Answers

variable {T H D C : Type} {S : Service T H D C} (B : Browsable S.fs) {c : Conn} {t : T}

/-- A status as an error. -/
def seen {α β : Type} (f : α → β) : Except Failure α → Except Err β
  | .ok a => .ok (f a)
  | .error e => .error (.status e.1)

include B

lemma browse_lookup {h : H} (hh : (B.snap t).Holds h) (name : Bytes) (s : S.At c t) :
    ∃ s', (S.browse c t).lookup (S.fs.fileHandle h) name s
      = (seen S.fs.fileHandle ((B.snap t).child h name), s') := by
  refine ⟨_, Prod.ext ((s.ask_fst _ (Service.asks_lookup _ _ _)).trans ?_) rfl⟩
  have hobj : S.fs.object ((S.fs.fileHandle h).getD []) t = .ok h := B.object t h hh
  simp only [Method.spec, FileSystem.onObject, hobj, B.lookup t h name hh]
  cases (B.snap t).child h name <;> rfl

lemma browse_getAttr {h : H} (hh : (B.snap t).Holds h) (mask : Bitmap) {a : Attrs}
    (ha : S.fs.getattr h mask t = .ok a) (s : S.At c t) :
    ∃ s', (S.browse c t).getAttr (S.fs.fileHandle h) mask s
      = (.ok (a.mask.1, a.vals.1), s') := by
  refine ⟨_, Prod.ext ((s.ask_fst _ (Service.asks_getAttr _ _ _)).trans ?_) rfl⟩
  have hobj : S.fs.object ((S.fs.fileHandle h).getD []) t = .ok h := B.object t h hh
  simp only [Method.spec, FileSystem.onObject, hobj, ha]
  rfl

lemma browse_readlink {h : H} (hh : (B.snap t).Holds h) (s : S.At c t) :
    ∃ s', (S.browse c t).readlink (S.fs.fileHandle h) s
      = (seen id ((B.snap t).target h), s') := by
  refine ⟨_, Prod.ext ((s.ask_fst _ (Service.asks_readlink _ _)).trans ?_) rfl⟩
  have hobj : S.fs.object ((S.fs.fileHandle h).getD []) t = .ok h := B.object t h hh
  simp only [Method.spec, FileSystem.onObject, hobj, ← B.readlink t h hh]
  cases S.fs.readlink h t <;> rfl

/-- A directory is handed out in pages. -/
lemma browse_pagingServer {h : H} (hh : (B.snap t).Holds h)
    (hdir : ((B.snap t).attrs h).isDir = true) :
    PagingServer (S.browse c t).toProtocol (S.fs.fileHandle h) (B.listing t h)
      (fun _ => B.verf t h) where
  page s cookie v hcookie hv := by
    obtain ⟨d, k, hread, hes, hk, heof, hverf⟩ := B.readdir t h
      { cookie, cookieverf := v, dircount := 8192, maxcount := 65536,
        attrRequest := Attr.standardMask } hh hdir rfl hcookie hv
    have hobj : S.fs.object ((S.fs.fileHandle h).getD []) t = .ok h := B.object t h hh
    have hres : ((S.browse c t).readdir (S.fs.fileHandle h) cookie v Attr.standardMask s).1
        = .ok { cookieverf := d.cookieverf, entries := d.entries.map Entry.stored,
                eof := d.eof } := by
      refine (s.ask_fst _ (Service.asks_readdir _ _ _ _ _)).trans ?_
      simp only [Method.spec, FileSystem.onObject, hobj, hread]
      rfl
    exact ⟨_, _, k, Prod.ext hres rfl, hes, hk, heof, hverf.symm⟩

lemma browse_walkEach {h : H} (hh : (B.snap t).Holds h) (comps : List Bytes) (s : S.At c t) :
    ∃ s', Lib.walk (S.browse c t).lookup comps (S.fs.fileHandle h) s
      = (seen S.fs.fileHandle ((B.snap t).walk comps h), s') := by
  induction comps generalizing h s with
  | nil => exact ⟨s, rfl⟩
  | cons comp comps ih =>
      obtain ⟨s', hl⟩ := browse_lookup B hh comp s
      rw [Snapshot.walk, List.foldlM_cons]
      cases hc : (B.snap t).child h comp with
      | error e =>
          refine ⟨s', ?_⟩
          simp only [Lib.walk, hl, hc, seen]
          rfl
      | ok h' =>
          simp only [Lib.walk, hl, hc, seen]
          exact ih (hh.child hc) s'

variable (hroot : c.rootFH = S.fs.fileHandle S.fs.root)

include hroot

/-- The walk of a path. -/
lemma browse_walk (name : Bytes) (s : S.At c t) :
    ∃ s', (if name ≠ ascii "." then
        Lib.walk (S.browse c t).lookup (splitSlash name) ((S.browse c t).rootFH s) s
      else (.ok ((S.browse c t).rootFH s), s))
      = (seen S.fs.fileHandle ((B.snap t).find name), s') := by
  have hfh : (S.browse c t).rootFH s = S.fs.fileHandle (B.snap t).root := by
    rw [B.root_eq, ← hroot]
    exact congrArg Conn.rootFH s.2.2.1
  rw [hfh, Snapshot.find]
  split
  · exact browse_walkEach B (B.snap t).holds_root _ s
  · exact ⟨s, rfl⟩

/-- `resolve` finds the object of the snapshot. -/
lemma browse_resolve (name : Bytes) (s : S.At c t) :
    ∃ s', FS.resolve (S.browse c t).toProtocol name s
      = (seen (fun h => (S.fs.fileHandle h, (B.snap t).attrs h)) ((B.snap t).find name), s') := by
  obtain ⟨s₁, hw⟩ := browse_walk B hroot name s
  rw [FS.resolve_eq, hw]
  cases hf : (B.snap t).find name with
  | error e => exact ⟨s₁, rfl⟩
  | ok h =>
      have hh := Snapshot.holds_find hf
      obtain ⟨a, ha, hdec⟩ := B.getattr t h hh
      obtain ⟨s₂, hget⟩ := browse_getAttr B hh _ ha s₁
      exact ⟨s₂, by simp only [seen, FS.thenStat, FS.stat, hget, hdec]⟩

lemma browse_statAs (op : String) (name : Bytes) (s : S.At c t) :
    ∃ s', FS.statAs (S.browse c t).toProtocol op name s
      = ((B.snap t).about op name fun h => .ok ⟨baseName name, (B.snap t).attrs h⟩, s') := by
  obtain ⟨s₁, hres⟩ := browse_resolve B hroot name s
  simp only [FS.statAs, Snapshot.about]
  split
  · exact ⟨s, rfl⟩
  · rw [hres]
    cases (B.snap t).find name <;> exact ⟨s₁, rfl⟩

lemma browse_openNamed (name : Bytes) (s : S.At c t) {pages : ℕ} :
    ∃ s', (FSOp.openNamed name).run (S.browse c t) pages s
      = some ((B.snap t).answer S.fs.fileHandle (.openNamed name), s') := by
  obtain ⟨s₁, hres⟩ := browse_resolve B hroot name s
  simp only [FSOp.run, FS.openNamed, Snapshot.answer, Snapshot.about]
  split
  · exact ⟨s, rfl⟩
  · rw [hres]
    cases (B.snap t).find name with
    | error e => exact ⟨s₁, rfl⟩
    | ok h =>
        simp only [seen]
        split <;> exact ⟨s₁, rfl⟩

lemma browse_readLink (name : Bytes) (s : S.At c t) {pages : ℕ} :
    ∃ s', (FSOp.readLink name).run (S.browse c t) pages s
      = some ((B.snap t).answer S.fs.fileHandle (.readLink name), s') := by
  obtain ⟨s₁, hres⟩ := browse_resolve B hroot name s
  simp only [FSOp.run, FS.readLink, Snapshot.answer, Snapshot.about]
  split
  · exact ⟨s, rfl⟩
  · rw [hres]
    cases hf : (B.snap t).find name with
    | error e => exact ⟨s₁, rfl⟩
    | ok h =>
        obtain ⟨s₂, hlink⟩ := browse_readlink B (Snapshot.holds_find hf) s₁
        simp only [seen, hlink]
        cases (B.snap t).target h <;> exact ⟨s₂, rfl⟩

lemma browse_readDir {pages : ℕ} {name : Bytes} (hpages : B.Fits pages t (.readDir name))
    (s : S.At c t) :
    ∃ s', (FSOp.readDir name).run (S.browse c t) pages s
      = some ((B.snap t).answer S.fs.fileHandle (.readDir name), s') := by
  obtain ⟨s₁, hres⟩ := browse_resolve B hroot name s
  simp only [FSOp.run, FS.readDir, Snapshot.answer, Snapshot.about]
  split
  · exact ⟨s, rfl⟩
  · rw [hres]
    cases hf : (B.snap t).find name with
    | error e => exact ⟨s₁, rfl⟩
    | ok h =>
        have hh := Snapshot.holds_find hf
        cases hdir : ((B.snap t).attrs h).isDir with
        | false => exact ⟨s₁, by simp [seen, hdir]⟩
        | true =>
            obtain ⟨s₂, hall⟩ := readDirAll_eq (browse_pagingServer B hh hdir) (hpages h hf) s₁
            exact ⟨s₂, by simp [seen, hdir, hall, B.shown t h hh hdir]⟩

/-- `Statvfs` walks to the object without asking for its attributes. -/
lemma browse_statvfs (name : Bytes) (s : S.At c t) {pages : ℕ} :
    ∃ s', (FSOp.statvfs name).run (S.browse c t) pages s
      = some ((B.snap t).answer S.fs.fileHandle (.statvfs name), s') := by
  obtain ⟨s₁, hw⟩ := browse_walk B hroot name s
  simp only [FSOp.run, RWFS.statvfs, Snapshot.answer, Snapshot.about]
  split
  · exact ⟨s, rfl⟩
  · rw [hw]
    cases hf : (B.snap t).find name with
    | error e => exact ⟨s₁, rfl⟩
    | ok h =>
        have hh := Snapshot.holds_find hf
        obtain ⟨a, ha, hdec⟩ := B.statvfs t h hh
        obtain ⟨s₂, hget⟩ := browse_getAttr B hh _ ha s₁
        exact ⟨s₂, by simp only [seen, RWFS.thenStatvfs, hget, hdec]; rfl⟩

/-- **Every question is answered from the snapshot.** -/
theorem browse_answer {pages : ℕ} (op : FSOp) (hpages : B.Fits pages t op) (s : S.At c t) :
    ∃ s', op.run (S.browse c t) pages s
      = some ((B.snap t).answer S.fs.fileHandle op, s') := by
  cases op with
  | stat name =>
      obtain ⟨s₁, hstat⟩ := browse_statAs B hroot "stat" name s
      exact ⟨s₁, by rw [FSOp.run, FS.statNamed, hstat]; rfl⟩
  | lstat name =>
      obtain ⟨s₁, hstat⟩ := browse_statAs B hroot "lstat" name s
      exact ⟨s₁, by rw [FSOp.run, FS.lstat, hstat]; rfl⟩
  | openNamed name => exact browse_openNamed B hroot name s
  | readLink name => exact browse_readLink B hroot name s
  | readDir name => exact browse_readDir B hroot hpages s
  | statvfs name => exact browse_statvfs B hroot name s

omit hroot in
/-- The answer of a connection that is served. -/
lemma served_answer {s : Conn × Net (FileWorld T H D C)} (hs : S.Serves s)
    (hroot : s.1.rootFH = S.fs.fileHandle S.fs.root) {pages : ℕ} (op : FSOp)
    (hpages : B.Fits pages s.2.world.tree op) :
    ∃ s', op.run (LinkProtocol.ofConn S.env) pages s
        = some ((B.snap s.2.world.tree).answer S.fs.fileHandle op, s') ∧
      S.Serves s' ∧ s'.1 = s.1 ∧ s'.2.world.tree = s.2.world.tree := by
  let at' : S.At s.1 s.2.world.tree := ⟨s, hs, rfl, rfl⟩
  obtain ⟨s', hop⟩ := browse_answer B hroot op hpages at'
  have hrun := (S.browse_restricts s.1 s.2.world.tree).run pages op at'
  rw [hop] at hrun
  exact ⟨s'.1, hrun, s'.2⟩

end Answers

/-! ## Runs -/

/-- A call on a mounted file system: a question about a path, or a method of the connection.
(`Open` of a connection is two methods, its compound and `OPEN_CONFIRM`.) -/
inductive FSCall
  | browse (op : FSOp)
  | call (m : Method)

/-- A connection, and what has been returned on it. -/
structure FSState (W : Type) where
  world : Conn × Net W
  trace : List FSAnswer := []

def FSState.step {W : Type} (E : Env W) (pages : ℕ) (s : FSState W) : FSCall → Option (FSState W)
  | .browse op => (op.run (LinkProtocol.ofConn E) pages s.world).map fun r =>
      { world := r.2, trace := s.trace ++ [r.1] }
  | .call m => some
      { world := (m.conn s.world.1, (m.exec E s.world.1 s.world.2).2)
        trace := s.trace ++ [.called (errorOf (m.exec E s.world.1 s.world.2).1)] }

/-- The same without a network: the tree, and the connection that draws the seqids. -/
structure TreeState (T : Type) where
  conn : Conn
  tree : T
  trace : List FSAnswer := []

/-- A question is answered from the snapshot, a method does what it is meant to do. -/
def Browsable.step {T H : Type} {fs : FileSystem T H} (B : Browsable fs) (s : TreeState T) :
    FSCall → TreeState T
  | .browse op => { s with trace := s.trace ++ [(B.snap s.tree).answer fs.fileHandle op] }
  | .call m =>
    { conn := m.conn s.conn
      tree := (m.spec fs s.conn s.tree).2
      trace := s.trace ++
        [.called (errorOf ((m.multiOp s.conn).report (m.spec fs s.conn s.tree).1))] }

section Runs

variable {T H D C : Type} {S : Service T H D C} (B : Browsable S.fs) {pages : ℕ}

/-- The state of a served connection matches that of the tree. -/
structure Matches (S : Service T H D C) (s : FSState (FileWorld T H D C)) (a : TreeState T) :
    Prop where
  serves : S.Serves s.world
  root : s.world.1.rootFH = S.fs.fileHandle S.fs.root
  conn : s.world.1 = a.conn
  tree : s.world.2.world.tree = a.tree
  trace : s.trace = a.trace

lemma rootFH_conn (c : Conn) (m : Method) : (m.conn c).rootFH = c.rootFH := by
  cases m <;> rfl

lemma Matches.step {s : FSState (FileWorld T H D C)} {a : TreeState T} (h : Matches S s a)
    (call : FSCall) (hpages : ∀ op, call = .browse op → B.Fits pages a.tree op) :
    ∃ s', s.step S.env pages call = some s' ∧ Matches S s' (B.step a call) := by
  cases call with
  | browse op =>
      obtain ⟨s', hrun, hserves, hconn, htree⟩ := served_answer B h.serves h.root op
        (by rw [h.tree]; exact hpages op rfl)
      rw [h.tree] at hrun htree
      refine ⟨{ world := s', trace := s.trace ++ [(B.snap a.tree).answer S.fs.fileHandle op] }, ?_,
        hserves, ?_, hconn.trans h.conn, htree, congrArg (· ++ _) h.trace⟩
      · rw [FSState.step, hrun]
        rfl
      · exact (congrArg Conn.rootFH hconn).trans h.root
  | call m =>
      obtain ⟨hval, htree⟩ := S.call_spec m ⟨s.world, h.serves⟩
      have hspec : m.spec S.fs s.world.1 (S.tree ⟨s.world, h.serves⟩)
          = m.spec S.fs a.conn a.tree := by
        rw [h.conn, show S.tree ⟨s.world, h.serves⟩ = a.tree from h.tree]
      refine ⟨_, rfl, h.serves.call m, ?_, ?_, ?_, ?_⟩
      · exact (rootFH_conn _ m).trans h.root
      · exact congrArg m.conn h.conn
      · exact htree.trans (congrArg Prod.snd hspec)
      · have herr : errorOf (m.exec S.env s.world.1 s.world.2).1
            = errorOf ((m.multiOp a.conn).report (m.spec S.fs a.conn a.tree).1) := by
          rw [← hspec, ← h.conn]
          exact congrArg errorOf hval
        rw [h.trace, herr]
        rfl

/-- **The file system over a connection answers from the tree.**  Let questions about paths and
methods of the connection follow one another in any order, on a v4.0 connection or on one with a
session that is in step with the server, over a link that delivers every reply.  The server may
put operations off, fewer in all than the client has attempts, and hand out its directories in
pages of any size; the loop that collects the pages is given more turns than the listing has
entries.  Every question is answered from the snapshot of the tree that the methods before it have
left, every method returns the error that it should, and the tree is the one that they lead to. -/
theorem served_tree_refines {s : Conn × Net (FileWorld T H D C)} (hs : S.Serves s)
    (hroot : s.1.rootFH = S.fs.fileHandle S.fs.root) (calls : List FSCall)
    (hpages : ∀ before op, before ++ [.browse op] <+: calls →
      B.Fits pages (before.foldl B.step ⟨s.1, s.2.world.tree, []⟩).tree op) :
    ∃ st, run (FSState.step S.env pages) { world := s } calls = some st ∧
      st.trace = (calls.foldl B.step ⟨s.1, s.2.world.tree, []⟩).trace ∧
      st.world.2.world.tree = (calls.foldl B.step ⟨s.1, s.2.world.tree, []⟩).tree := by
  have hmatch : Matches S { world := s } ⟨s.1, s.2.world.tree, []⟩ := ⟨hs, hroot, rfl, rfl, rfl⟩
  revert hpages hmatch
  generalize (⟨s.1, s.2.world.tree, []⟩ : TreeState T) = a
  generalize ({ world := s } : FSState (FileWorld T H D C)) = st₀
  induction calls generalizing st₀ a with
  | nil => exact fun _ hmatch => ⟨st₀, rfl, hmatch.trace, hmatch.tree⟩
  | cons call calls ih =>
      intro hpages hmatch
      obtain ⟨st₁, hstep, hmatch₁⟩ := hmatch.step B call fun op hop =>
        hpages [] op (by simp [hop])
      obtain ⟨st, hrun, hrest⟩ := ih _ _
        (fun before op hpre => hpages (call :: before) op (by simpa using hpre)) hmatch₁
      exact ⟨st, run_cons_eq_some.mpr ⟨st₁, hstep, hrun⟩, hrest⟩

end Runs

/-! ## A drawer -/

/-- The attributes of an object: its type. -/
def typed (dir : Bool) : Attr.Attributes := { present := [2], type := if dir then 2 else 1 }

lemma typeMask_lt : ([2] : Bitmap).length < 2 ^ 32 := by decide

lemma typeVals_le (b : UInt8) : [0, 0, 0, b].length ≤ Xdr.defaultMaxLen.toNat :=
  (by decide : 4 ≤ Xdr.defaultMaxLen.toNat)

def sentType (dir : Bool) : Attrs where
  mask := ⟨[2], typeMask_lt⟩
  vals := ⟨[0, 0, 0, if dir then 2 else 1], typeVals_le _⟩

lemma decode_sentType (dir : Bool) :
    Attr.decode (sentType dir).mask.1 (sentType dir).vals.1 = .ok (typed dir) := by
  cases dir <;> decide +kernel

lemma isDir_typed (dir : Bool) : (typed dir).isDir = dir := by
  cases dir <;> decide +kernel

lemma letterA_le : [(97 : UInt8)].length ≤ Xdr.defaultMaxLen.toNat := by decide

/-- The entry of the file `a`. -/
def entryA : Entry := { cookie := 3, name := ⟨[97], letterA_le⟩, attrs := sentType false }

lemma handle_le (b : UInt8) : [b].length ≤ Xdr.defaultMaxLen.toNat :=
  (by decide : 1 ≤ Xdr.defaultMaxLen.toNat)

/-- A directory that holds the file `a` until it is removed. -/
def drawerFS : FileSystem Bool Bool where
  object b _ := .ok (b = [1])
  handle dir := ⟨[if dir then 1 else 0], handle_le _⟩
  root := true
  lookup dir name t :=
    if dir then if t ∧ name = [97] then .ok false else .error .noent else .error .access
  getattr dir mask _ := .ok (if mask = Attr.statvfsMask then ⟨noAttrs, emptyTag⟩ else sentType dir)
  read _ _ _ := .error .access
  readdir _ a t := .ok
    { cookieverf := default, entries := if t ∧ a.cookie = 0 then [entryA] else [], eof := true }
  readlink _ _ := .error .access
  openFile _ _ t := (.error .access, t)
  openConfirm _ _ _ t := (.error .access, t)
  close _ _ _ t := (.error .access, t)
  write _ _ t := (.error .access, t)
  commit _ _ _ t := (.error .access, t)
  create _ _ t := (.error .access, t)
  remove _ name t :=
    if t ∧ name = [97] then (.ok ⟨true, 0, 1⟩, false) else (.error .noent, t)
  rename _ _ _ _ t := (.error .access, t)
  link _ _ _ t := (.error .access, t)
  setattr _ _ t := ((some .access, noAttrs), t)

/-- What the drawer holds. -/
def drawerSnap (t : Bool) : Snapshot Bool where
  root := true
  attrs := typed
  space _ := {}
  entries dir := if dir ∧ t then [([97], false)] else []
  target _ := .error .access
  refusal _ := .access
  elem dir e he := by
    obtain ⟨-, rfl⟩ : (dir = true ∧ t = true) ∧ e = ([97], false) := by
      split at he
      · next h => exact ⟨h, List.mem_singleton.mp he⟩
      · exact absurd he List.not_mem_nil
    decide
  nodup dir := by cases dir <;> cases t <;> decide

lemma decodable_entryA :
    ∀ e ∈ [entryA.stored], ∃ attrs, Attr.decode e.attrMask e.attrVals = .ok attrs := by
  intro e he
  obtain rfl := List.mem_singleton.mp he
  exact ⟨_, decode_sentType false⟩

/-- The listing of the drawer. -/
def drawerListing (t : Bool) : Listing where
  entries := if t then [entryA.stored] else []
  nonzero := by cases t <;> decide
  distinct := by cases t <;> decide
  decodable := by
    cases t
    · simp
    · exact decodable_entryA

lemma following_drawer (t : Bool) (cookie : UInt64) :
    following (drawerListing t).entries cookie
      = if t ∧ cookie = 0 then [entryA.stored] else [] := by
  by_cases hc : cookie = 0
  · cases t <;> simp [drawerListing, following, hc]
  · cases t
    · simp [drawerListing, following]
    · by_cases hlast : entryA.stored.cookie = cookie <;>
        simp [drawerListing, following, hc, List.dropWhile, hlast]

/-- The drawer can be browsed; its page holds at most one entry. -/
def drawer : Browsable drawerFS where
  snap := drawerSnap
  listing t _ := drawerListing t
  verf _ _ := default
  root_eq _ := rfl
  object t h _ := by cases h <;> rfl
  lookup t h name _ := by
    have hdir : ((drawerSnap t).attrs h).isDir = h := isDir_typed h
    rw [Snapshot.child, hdir]
    by_cases hname : name = [97]
    · subst hname
      cases h <;> cases t <;> rfl
    · have hbeq : (name == [97]) = false := by simpa using hname
      cases h <;> cases t <;> simp [drawerFS, drawerSnap, hname, hbeq, List.lookup_cons]
  getattr t h _ := ⟨sentType h, by rfl, decode_sentType h⟩
  statvfs t h _ := ⟨⟨noAttrs, emptyTag⟩, congrArg Except.ok (if_pos rfl), rfl⟩
  readlink _ _ _ := rfl
  shown t h _ hdir := by
    obtain rfl : h = true := (isDir_typed h).symm.trans hdir
    cases t <;> decide +kernel
  readdir t h a _ _ _ _ _ := by
    refine ⟨_, 1, rfl, ?_, Nat.one_pos, ?_, rfl⟩
    · rw [following_drawer]
      dsimp only
      split <;> rfl
    · rw [following_drawer]
      split <;> simp

/-- The drawer behind a session. -/
def drawerService : Service Bool Bool ℕ Unit where
  fs := drawerFS
  tag := emptyTag
  load := countdown _
  link := alwaysOn.reliable
  rank := id
  patience := countdown_patience _ _
  session := some 0
  retry := RetryConfig.withDefaults {}

/-- A connection to it; two operations are going to be put off. -/
def drawerConn : Conn × Net (FileWorld Bool Bool ℕ Unit) :=
  ({ steadyConn with rootFH := drawerFS.fileHandle true }, steadyNet { tree := true } 2 ())

lemma drawerConn_served : drawerService.Serves drawerConn :=
  ⟨⟨rfl, by decide⟩, steadyNet_steady _ 2, by decide⟩

lemma drawer_pages (t : Bool) (op : FSOp) : drawer.Fits 2 t op := by
  cases op with
  | readDir name =>
      intro h _
      cases t <;> cases h <;> decide
  | _ => trivial

/-- The file is listed, removed, and gone. -/
theorem served_tree_refines_drawer :
    ∃ st, run (FSState.step drawerService.env 2) { world := drawerConn }
        [.browse (.readDir (ascii ".")), .call (.remove (drawerFS.fileHandle true) [97]),
          .browse (.stat [97])] = some st ∧
      st.trace = [.listing (.ok [⟨[97], typed false⟩]), .called none,
        .info (.error (.path "stat" [97] .errNotExist))] ∧
      st.world.2.world.tree = false := by
  obtain ⟨st, hrun, htrace, htree⟩ := served_tree_refines (S := drawerService) drawer
    drawerConn_served rfl
    [.browse (.readDir (ascii ".")), .call (.remove (drawerFS.fileHandle true) [97]),
      .browse (.stat [97])] fun _ op _ => drawer_pages _ op
  exact ⟨st, hrun, htrace.trans (by decide +kernel), htree.trans (by decide +kernel)⟩

/-! ## Listings and paths -/

/-- The path of an entry of a directory. -/
def joinPath (dir base : Bytes) : Bytes :=
  if dir = ascii "." then base else dir ++ slash :: base

lemma validUTF8_append {a b : Bytes} (ha : validUTF8 a = true) (hb : validUTF8 b = true) :
    validUTF8 (a ++ b) = true := by
  fun_induction validUTF8 a with
  | case1 => exact hb
  | case2 x s h ih =>
      rw [List.cons_append, validUTF8.eq_def]
      simpa only [h, if_true] using ih ha
  | case3 | case4 | case6 | case7 | case9 => exact absurd ha (by simp)
  | case5 x h y s hlead htwo ih =>
      rw [List.cons_append, List.cons_append, validUTF8.eq_def]
      simpa only [h, hlead, htwo, Bool.false_eq_true, if_false, if_true] using ih ha
  | case8 x h y hlead htwo z s hcont hthree ih =>
      rw [List.cons_append, List.cons_append, List.cons_append, validUTF8.eq_def]
      simpa only [h, hlead, htwo, hcont, hthree, Bool.false_eq_true, if_false, if_true] using ih ha
  | case10 x h y hlead htwo z hcont hthree v s ih =>
      obtain ⟨hv, hs⟩ := Bool.and_eq_true_iff.mp ha
      rw [List.cons_append, List.cons_append, List.cons_append, List.cons_append, validUTF8.eq_def]
      simp only [h, hlead, htwo, hcont, hthree, if_false, hv, ih hs]
      rfl

lemma validPath_joinPath {dir base : Bytes} (hdir : validPath dir = true) (hbase : IsElem base) :
    validPath (joinPath dir base) = true := by
  obtain ⟨hutf, hslash, hne, hdot, hdotdot⟩ := hbase
  rw [joinPath]
  split
  · simp [validPath, hutf, splitSlash_of_not_mem hslash, hne, hdot, hdotdot]
  · next h =>
      simp only [validPath, h, decide_false, Bool.false_or, Bool.and_eq_true] at hdir
      have hutf' : validUTF8 (dir ++ ([slash] ++ base)) = true :=
        validUTF8_append hdir.1 (validUTF8_append (by decide) hutf)
      have hall := splitSlash_append_slash dir hslash
      rw [List.singleton_append] at hutf'
      simp only [validPath, hutf', hall, List.all_append, hdir.2, Bool.true_and]
      simp [hne, hdot, hdotdot]

/-- `path.Base` of a path with a last element. -/
lemma pathBase_append {pre base : Bytes} (hslash : slash ∉ base) (hne : base ≠ [])
    (hpre : pre = [] ∨ pre.getLast? = some slash) : pathBase (pre ++ base) = base := by
  have hstrip : (pre ++ base).reverse.dropWhile (· = slash) = base.reverse ++ pre.reverse := by
    obtain ⟨b, bs, hrev⟩ := List.exists_cons_of_ne_nil (List.reverse_ne_nil_iff.mpr hne)
    have hb : b ≠ slash := by
      rintro rfl
      exact hslash (List.mem_reverse.mp (hrev ▸ List.mem_cons_self ..))
    rw [List.reverse_append, hrev, List.cons_append, List.dropWhile_cons_of_neg (by simpa using hb)]
  have htake : (base.reverse ++ pre.reverse).takeWhile (· ≠ slash) = base.reverse := by
    rw [List.takeWhile_append_of_pos (List.takeWhile_eq_self_iff.mp (takeWhile_ne_slash hslash))]
    rcases hpre with rfl | hlast
    · simp
    · obtain ⟨init, rfl⟩ := List.getLast?_eq_some_iff.mp hlast
      simp
  rw [pathBase, if_neg (by simp [hne])]
  simp only [hstrip, htake, List.reverse_reverse, if_neg hne]

lemma baseName_joinPath {dir base : Bytes} (hbase : IsElem base) :
    baseName (joinPath dir base) = base := by
  obtain ⟨-, hslash, hne, hdot, -⟩ := hbase
  rw [joinPath]
  split
  · rw [baseName, if_neg hdot]
    exact pathBase_append hslash hne (.inl rfl)
  · have hjoin : dir ++ slash :: base = (dir ++ [slash]) ++ base := by simp
    have hne' : dir ++ slash :: base ≠ ascii "." := by
      intro h
      have hmem : slash ∈ ascii "." := h ▸ by simp
      exact absurd hmem (by decide)
    rw [baseName, if_neg hne', hjoin]
    exact pathBase_append hslash hne (.inr (by simp))

namespace Snapshot

variable {H : Type} (σ : Snapshot H)

lemma about_eq_ok {α : Type} {op : String} {name : Bytes} {k : H → Except Err α} {a : α}
    (h : σ.about op name k = .ok a) :
    validPath name = true ∧ ∃ x, σ.find name = .ok x ∧ k x = .ok a := by
  rw [about] at h
  split at h
  · exact absurd h (by simp)
  · next hvalid =>
      refine ⟨by simpa using hvalid, ?_⟩
      cases hf : σ.find name with
      | error e => simp [hf] at h
      | ok x => exact ⟨x, rfl, by simpa [hf] using h⟩

/-- The object at the path of an entry. -/
lemma find_joinPath {dir base : Bytes} {h : H} (hbase : IsElem base) (hf : σ.find dir = .ok h) :
    σ.find (joinPath dir base) = σ.child h base := by
  obtain ⟨-, hslash, hne, hdot, -⟩ := hbase
  rw [find] at hf
  rw [joinPath]
  split
  · next heq =>
      obtain rfl := Except.ok.inj ((if_neg (not_not.mpr heq)).symm.trans hf)
      rw [find, if_pos hdot, splitSlash_of_not_mem hslash]
      exact σ.walk_concat [] base σ.root
  · next hdir =>
      have hne' : dir ++ slash :: base ≠ ascii "." := by
        intro h
        have hmem : slash ∈ ascii "." := h ▸ by simp
        exact absurd hmem (by decide)
      rw [if_pos hdir] at hf
      rw [find, if_pos hne', splitSlash_append_slash dir hslash, walk_concat, hf]
      rfl

/-- What is listed under a name is the child of that name. -/
lemma find?_list (h : H) (base : Bytes) :
    (σ.list h).find? (fun i => i.name = base)
      = ((σ.entries h).lookup base).map fun h' => ⟨base, σ.attrs h'⟩ := by
  rw [list]
  induction σ.entries h with
  | nil => rfl
  | cons e es ih =>
      rw [List.map_cons, List.find?_cons, List.lookup_cons]
      by_cases heq : e.1 = base
      · simp [heq]
      · have hbeq : (base == e.1) = false := by simpa using Ne.symm heq
        simp [heq, hbeq, ih]

end Snapshot

/-- A listing that was completed is not changed by more pages. -/
lemma readDirLoop_mono {W : Type} {P : Protocol W} {fh : FileHandle} {pages pages' : ℕ}
    (hle : pages ≤ pages') {out : List FileInfo} {cookie : UInt64} {verf : ByteArr 8} {w : W}
    {r : Except Err (List FileInfo) × W}
    (h : FS.readDirLoop P fh pages out cookie verf w = some r) :
    FS.readDirLoop P fh pages' out cookie verf w = some r := by
  induction pages generalizing pages' out cookie verf w with
  | zero => cases h
  | succ pages ih =>
      obtain ⟨k, rfl⟩ : ∃ k, pages' = k + 1 := ⟨pages' - 1, by omega⟩
      rcases hpage : P.readdir fh cookie verf Attr.standardMask w with ⟨e | res, w'⟩
      · simpa only [FS.readDirLoop, hpage] using h
      · rcases hadd : FS.addPage res.entries out cookie with e | ⟨out', cookie'⟩
        · simpa only [FS.readDirLoop, hpage, hadd] using h
        · simp only [FS.readDirLoop, hpage, hadd] at h ⊢
          split_ifs at h ⊢
          · exact h
          · exact h
          · exact ih (by omega) h

lemma readDir_mono {W : Type} {P : Protocol W} {pages pages' : ℕ} (hle : pages ≤ pages')
    {name : Bytes} {w : W} {r : Except Err (List FileInfo) × W}
    (h : FS.readDir P pages name w = some r) : FS.readDir P pages' name w = some r := by
  unfold FS.readDir at h ⊢
  split_ifs at h ⊢
  · exact h
  · rcases hres : FS.resolve P name w with ⟨e | ⟨fh, attrs⟩, w₁⟩
    · simpa only [hres] using h
    · simp only [hres] at h ⊢
      split_ifs at h ⊢
      · exact h
      · rcases hall : FS.readDirAll P pages fh w₁ with _ | r'
        · simp [hall] at h
        · have hall' : FS.readDirAll P pages' fh w₁ = some r' := readDirLoop_mono hle hall
          simpa only [hall, hall'] using h

section Agreement

variable {T H D C : Type} {S : Service T H D C} {pages : ℕ}

/-- **What `ReadDir` lists is what `Stat` finds.**  When `ReadDir` lists a directory over a served
connection, in however many pages, the names are distinct, and `Stat` of any path one element below
the directory returns the entry that was listed under that element, or `fs.ErrNotExist` if there is
none. -/
theorem readDir_agrees_stat (B : Browsable S.fs)
    {s s₁ : Conn × Net (FileWorld T H D C)} (hs : S.Serves s)
    (hroot : s.1.rootFH = S.fs.fileHandle S.fs.root) {dir : Bytes} {infos : List FileInfo}
    (hdir : FS.readDir (Protocol.ofConn S.env) pages dir s = some (.ok infos, s₁)) :
    (infos.map FileInfo.name).Nodup ∧ ∀ base, IsElem base →
      (FS.statNamed (Protocol.ofConn S.env) (joinPath dir base) s₁).1
        = match infos.find? (fun i => i.name = base) with
          | some i => .ok i
          | none => .error (.path "stat" (joinPath dir base) .errNotExist) := by
  -- there are enough pages for the listing, if need be more than were asked for
  obtain ⟨pages', hle, hpages⟩ : ∃ pages', pages ≤ pages' ∧
      B.Fits pages' s.2.world.tree (.readDir dir) := by
    cases hfind : (B.snap s.2.world.tree).find dir with
    | error e => exact ⟨pages, le_rfl, fun h hh => by simp [hfind] at hh⟩
    | ok h =>
        refine ⟨pages + (B.listing s.2.world.tree h).entries.length + 1, by omega, ?_⟩
        intro h' hh'
        obtain rfl := Except.ok.inj (hfind.symm.trans hh')
        omega
  obtain ⟨s', hrun, hserves, hconn, htree⟩ := served_answer B hs hroot (.readDir dir) hpages
  have hlist : some ((FSAnswer.listing (.ok infos), s₁) : FSAnswer × _)
      = some ((B.snap s.2.world.tree).answer S.fs.fileHandle (.readDir dir), s') := by
    rw [← hrun]
    exact (congrArg (Option.map (Prod.map FSAnswer.listing id)) (readDir_mono hle hdir)).symm
  obtain ⟨hans, rfl⟩ := Prod.mk.inj (Option.some.inj hlist)
  obtain ⟨hvalid, h, hfind, hh⟩ := Snapshot.about_eq_ok _ (FSAnswer.listing.inj hans).symm
  split at hh
  · next hisDir =>
      obtain rfl := Except.ok.inj hh
      refine ⟨?_, fun base hbase => ?_⟩
      · simpa [Snapshot.list, Function.comp_def] using (B.snap s.2.world.tree).nodup h
      · have hfits : B.Fits 0 s₁.2.world.tree (.stat (joinPath dir base)) := trivial
        obtain ⟨s₂, hrun₂, -⟩ := served_answer B hserves (hconn ▸ hroot) _ hfits
        rw [htree] at hrun₂
        have hinfo := congrArg Prod.fst (Option.some.inj hrun₂)
        refine (FSAnswer.info.inj hinfo).trans ?_
        rw [Snapshot.find?_list, Snapshot.about, validPath_joinPath hvalid hbase,
          Snapshot.find_joinPath _ hbase hfind, Snapshot.child, if_pos hisDir]
        cases (((B.snap s.2.world.tree).entries h).lookup base) with
        | none => rfl
        | some h' => simp [baseName_joinPath hbase]
  · exact absurd hh (by simp)

end Agreement

/-- The file and a name that is not there. -/
theorem readDir_agrees_stat_drawer :
    ∃ s₁, FS.readDir (Protocol.ofConn drawerService.env) 2 (ascii ".") drawerConn
        = some (.ok [⟨[97], typed false⟩], s₁) ∧
      (FS.statNamed (Protocol.ofConn drawerService.env) [97] s₁).1 = .ok ⟨[97], typed false⟩ ∧
      (FS.statNamed (Protocol.ofConn drawerService.env) [98] s₁).1
        = .error (.path "stat" [98] .errNotExist) := by
  have heval : (FS.readDir (Protocol.ofConn drawerService.env) 2 (ascii ".") drawerConn).map
      Prod.fst = some (.ok [⟨[97], typed false⟩]) := by decide +kernel
  obtain ⟨⟨r, s₁⟩, hdir, rfl⟩ := Option.map_eq_some_iff.mp heval
  obtain ⟨-, hstat⟩ := readDir_agrees_stat (S := drawerService) drawer drawerConn_served rfl
    hdir
  exact ⟨s₁, hdir, hstat [97] (by decide), hstat [98] (by decide)⟩

end NfsClient.Client
