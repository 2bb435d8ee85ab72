import Mathlib.Data.List.TakeWhile
import NfsClient.Client.FS
import NfsClient.Client.OpenFile
import NfsClient.Nfs4.AttrList

/-!
# Walking a path

Four functions walk a path from the root with one `Lookup` for each component: `FS.resolve` and
`RWFS.Statvfs` split the path at every slash, `RWFS.resolveParent` splits off the last element and
walks to the directory in front of it, and `Conn.LookupPath` is given the components and skips
those that are empty or `.`.  They all reach the same object.

The walks are compared over an arbitrary protocol, which may change its state with every call.
-/

namespace NfsClient.Client

open NfsClient.Nfs4

/-! ## Splitting paths -/

lemma splitSlash_of_not_mem {s : Bytes} (h : slash ∉ s) : splitSlash s = [s] := by
  induction s with
  | nil => rfl
  | cons b s ih =>
      rw [List.mem_cons, not_or] at h
      rw [splitSlash, if_neg (Ne.symm h.1), ih h.2]

lemma splitSlash_ne_nil (s : Bytes) : splitSlash s ≠ [] := by
  cases s with
  | nil => exact List.cons_ne_nil _ _
  | cons b s =>
      rw [splitSlash]
      split
      · exact List.cons_ne_nil _ _
      · split <;> exact List.cons_ne_nil _ _

/-- The element behind the last slash is the last component. -/
lemma splitSlash_append_slash (dir : Bytes) {base : Bytes} (h : slash ∉ base) :
    splitSlash (dir ++ slash :: base) = splitSlash dir ++ [base] := by
  induction dir with
  | nil =>
      have hcons : splitSlash (slash :: base) = [] :: splitSlash base := if_pos rfl
      rw [List.nil_append, hcons, splitSlash_of_not_mem h]
      rfl
  | cons b dir ih =>
      rw [List.cons_append, splitSlash, splitSlash, ih]
      split
      · rfl
      · cases hdir : splitSlash dir with
        | nil => exact absurd hdir (splitSlash_ne_nil dir)
        | cons e es => rfl

lemma takeWhile_ne_slash {file : Bytes} (h : slash ∉ file) :
    file.reverse.takeWhile (· ≠ slash) = file.reverse := by
  refine List.takeWhile_eq_self_iff.mpr fun b hb => ?_
  have hne : b ≠ slash := fun heq => h (heq ▸ List.mem_reverse.mp hb)
  simpa using hne

/-- `path.Split` on a path without a slash. -/
lemma pathSplit_of_not_mem {name : Bytes} (h : slash ∉ name) : pathSplit name = ([], name) := by
  rw [pathSplit, takeWhile_ne_slash h]
  simp

/-- `path.Split` splits behind the last slash. -/
lemma pathSplit_append_slash (dir : Bytes) {base : Bytes} (h : slash ∉ base) :
    pathSplit (dir ++ slash :: base) = (dir ++ [slash], base) := by
  have hfile : (dir ++ slash :: base).reverse.takeWhile (· ≠ slash) = base.reverse := by
    rw [List.reverse_append, List.reverse_cons, List.append_assoc,
      List.takeWhile_append_of_pos (List.takeWhile_eq_self_iff.mp (takeWhile_ne_slash h))]
    simp
  have hlen : (dir ++ slash :: base).length - base.length = (dir ++ [slash]).length := by
    simp only [List.length_append, List.length_cons, List.length_nil]
    omega
  have htake : (dir ++ slash :: base).take (dir ++ [slash]).length = dir ++ [slash] := by
    rw [show dir ++ slash :: base = (dir ++ [slash]) ++ base by simp]
    exact List.take_left
  rw [pathSplit, hfile, List.reverse_reverse, hlen, htake]

lemma exists_last_slash {name : Bytes} (h : slash ∈ name) :
    ∃ dir base, name = dir ++ slash :: base ∧ slash ∉ base := by
  obtain ⟨as, bs, hsplit, has⟩ := List.eq_append_cons_of_mem (List.mem_reverse.mpr h)
  refine ⟨bs.reverse, as.reverse, ?_, by simpa using has⟩
  have hname := congrArg List.reverse hsplit
  simpa using hname

/-! ## Statistics -/

/-- `StatvfsInfo` holds the statistics of a file system. -/
structure StatvfsInfo where
  blockSize : UInt32
  blocks : UInt64
  blocksFree : UInt64
  blocksAvail : UInt64
  files : UInt64
  filesFree : UInt64
  filesAvail : UInt64
  maxName : UInt32
deriving DecidableEq

/-- `statvfsBlockSize` -/
def statvfsBlockSize : UInt32 := 4096

/-- The statistics in blocks. -/
def StatvfsInfo.ofAttrs (sv : Attr.Statvfs) : StatvfsInfo :=
  let bs := statvfsBlockSize.toUInt64
  { blockSize := statvfsBlockSize
    blocks := sv.spaceTotal / bs
    blocksFree := sv.spaceFree / bs
    blocksAvail := sv.spaceAvail / bs
    files := sv.filesTotal
    filesFree := sv.filesFree
    filesAvail := sv.filesAvail
    maxName := sv.maxName }

/-! ## The walk to the parent -/

section Parent

variable {W : Type} (lookup : FileHandle → Bytes → W → Except Err FileHandle × W)

/-- One `Lookup` of the base that `resolveParent` has returned. -/
def lookupBase : Except Err (FileHandle × Bytes) × W → Except Err FileHandle × W
  | (.error e, w) => (.error e, w)
  | (.ok (parent, base), w) => lookup parent base w

/-- The elements of a valid path other than `.`. -/
lemma elem_of_validPath {name : Bytes} (hvalid : validPath name = true) (hne : name ≠ ascii ".") :
    ∀ elem ∈ splitSlash name, elem ≠ [] ∧ elem ≠ ascii "." := by
  intro elem helem
  simp only [validPath, Bool.and_eq_true, Bool.or_eq_true, decide_eq_true_eq, hne, false_or,
    List.all_eq_true] at hvalid
  have h := hvalid.2 elem helem
  simp only [Bool.not_eq_true', Bool.or_eq_false_iff, decide_eq_false_iff_not] at h
  exact ⟨h.1.1, h.1.2⟩

/-- Walking to the parent and looking up the base is walking the whole path. -/
lemma lookupBase_resolveParent {name : Bytes} (hvalid : validPath name = true)
    (hne : name ≠ ascii ".") (root : FileHandle) (w : W) :
    lookupBase lookup (resolveParent lookup root name w) =
      Lib.walk lookup (splitSlash name) root w := by
  by_cases hslash : slash ∈ name
  · obtain ⟨dir, base, rfl, hbase⟩ := exists_last_slash hslash
    have hsplit := splitSlash_append_slash dir hbase
    have hdir : ∀ elem ∈ splitSlash dir, elem ≠ [] ∧ elem ≠ ascii "." := by
      intro elem helem
      refine elem_of_validPath hvalid hne elem ?_
      rw [hsplit]
      exact List.mem_append_left _ helem
    -- neither the empty path nor a dot is in front of the base
    have hnil : dir ≠ [] := by
      rintro rfl
      exact (hdir [] (by simp [splitSlash])).1 rfl
    have hdot : dir ≠ ascii "." := by
      rintro rfl
      exact (hdir (ascii ".") (by decide)).2 rfl
    have htrim : trimSlash (dir ++ [slash]) = dir := by simp [trimSlash]
    rw [hsplit, Lib.walk_append]
    simp only [resolveParent, pathSplit_append_slash dir hbase, htrim, if_neg hnil, if_pos hdot]
    rcases Lib.walk lookup (splitSlash dir) root w with ⟨e | parent, w'⟩
    · rfl
    · exact (Lib.walk_singleton base parent w').symm
  · rw [splitSlash_of_not_mem hslash, Lib.walk_singleton]
    simp [resolveParent, pathSplit_of_not_mem hslash, trimSlash, lookupBase]

/-- The components of the path, with empty ones and dots anywhere among them. -/
def Components (comps : List Bytes) (name : Bytes) : Prop :=
  comps.filter (fun comp => !(comp = [] || comp = ascii ".")) = splitSlash name

/-- `LookupPath` walks the whole path. -/
lemma lookupPath_eq_walk {name : Bytes} {comps : List Bytes} (hcomps : Components comps name)
    {root : FileHandle} (hroot : root ≠ none) (w : W) :
    lookupPath lookup root comps w = Lib.walk lookup (splitSlash name) root w := by
  rw [lookupPath, if_neg hroot, lookupLoop_eq, hcomps]

end Parent

/-! ## The walks over any protocol -/

section Walks

variable {W : Type} (P : Protocol W)

/-- What `Statvfs` does at the end of its walk. -/
def RWFS.thenStatvfs (name : Bytes) : Except Err FileHandle × W → Except Err StatvfsInfo × W
  | (.error e, w) => (.error (pathError "statvfs" name e), w)
  | (.ok fh, w) =>
    match P.getAttr fh Attr.statvfsMask w with
    | (.error e, w') => (.error (pathError "statvfs" name e), w')
    | (.ok (mask, vals), w') =>
      match Attr.decodeStatvfs mask vals with
      | .error e => (.error (pathError "statvfs" name e), w')
      | .ok sv => (.ok (.ofAttrs sv), w')

/-- `Statvfs` returns the statistics of the file system of the named object. -/
def RWFS.statvfs (name : Bytes) (w : W) : Except Err StatvfsInfo × W :=
  if !validPath name then (.error (.path "statvfs" name .errInvalid), w)
  else
    RWFS.thenStatvfs P name <|
      if name ≠ ascii "." then Lib.walk P.lookup (splitSlash name) (P.rootFH w) w
      else (.ok (P.rootFH w), w)

/-- What `resolve` does at the end of its walk. -/
def FS.thenStat : Except Err FileHandle × W → Except Err (FileHandle × Attr.Attributes) × W
  | (.error e, w) => (.error e, w)
  | (.ok fh, w) =>
    match FS.stat P fh w with
    | (.error e, w') => (.error e, w')
    | (.ok attrs, w') => (.ok (fh, attrs), w')

lemma FS.resolve_eq (name : Bytes) (w : W) :
    FS.resolve P name w = FS.thenStat P
      (if name ≠ ascii "." then Lib.walk P.lookup (splitSlash name) (P.rootFH w) w
        else (.ok (P.rootFH w), w)) := rfl

namespace Protocol

/-- `resolveParent` over any protocol. -/
def resolveParent (name : Bytes) (w : W) : Except Err (FileHandle × Bytes) × W :=
  Client.resolveParent P.lookup (P.rootFH w) name w

/-- `LookupPath` over any protocol. -/
def lookupPath (components : List Bytes) (w : W) : Except Err FileHandle × W :=
  Nfs4.lookupPath P.lookup (P.rootFH w) components w

/-- The protocol with a record of the calls of `Lookup`. -/
def recorded : Protocol (W × List (FileHandle × Bytes)) where
  rootFH s := P.rootFH s.1
  lookup dir name s := ((P.lookup dir name s.1).1, (P.lookup dir name s.1).2, s.2 ++ [(dir, name)])
  getAttr fh mask s := ((P.getAttr fh mask s.1).1, (P.getAttr fh mask s.1).2, s.2)
  read fh offset count s := ((P.read fh offset count s.1).1, (P.read fh offset count s.1).2, s.2)
  readdir dir cookie verf mask s :=
    ((P.readdir dir cookie verf mask s.1).1, (P.readdir dir cookie verf mask s.1).2, s.2)

end Protocol

/-- The walk ends in `out` for all four functions. -/
structure SameWalk (name : Bytes) (comps : List Bytes) (w : W) (out : Except Err FileHandle × W) :
    Prop where
  resolve : FS.resolve P name w = FS.thenStat P out
  statvfs : RWFS.statvfs P name w = RWFS.thenStatvfs P name out
  resolveParent : lookupBase P.lookup (P.resolveParent name w) = out
  lookupPath : P.lookupPath comps w = out

variable {P}

/-- The walk of the path is the walk of all four. -/
lemma sameWalk {name : Bytes} {comps : List Bytes} (hvalid : validPath name = true)
    (hne : name ≠ ascii ".") (hcomps : Components comps name) {w : W} (hroot : P.rootFH w ≠ none) :
    SameWalk P name comps w (Lib.walk P.lookup (splitSlash name) (P.rootFH w) w) where
  resolve := by rw [FS.resolve_eq, if_pos hne]
  statvfs := by
    rw [RWFS.statvfs, hvalid, if_pos hne]
    rfl
  resolveParent := lookupBase_resolveParent P.lookup hvalid hne (P.rootFH w) w
  lookupPath := lookupPath_eq_walk P.lookup hcomps hroot w

end Walks

/-- **All path walkers resolve a name to the same object.**  For every valid path other than `.`,
with its components given to `LookupPath` among any empty ones and dots, and for every protocol
that serves a root, the four walks make the same calls of `Lookup` and end at the same file handle
or with the same error.  Over a connection they are the walks of its own `LookupPath` and
`resolveParent`. -/
theorem walkers_agree {name : Bytes} {comps : List Bytes} (hvalid : validPath name = true)
    (hne : name ≠ ascii ".") (hcomps : Components comps name) :
    (∀ {W : Type} (P : Protocol W) (w : W), P.rootFH w ≠ none →
      ∃ out, SameWalk P.recorded name comps (w, []) out) ∧
    ∀ {W : Type} (E : Env W) (c : Conn) (n : Net W), c.rootFH ≠ none →
      SameWalk (Protocol.ofConn E) name comps (c, n)
          ((c.lookupPath E comps n).1, c, (c.lookupPath E comps n).2) ∧
        lookupBase (c.lookup E) (RWFS.resolveParent E c name n) = c.lookupPath E comps n := by
  refine ⟨fun P w hroot => ⟨_, sameWalk hvalid hne hcomps hroot⟩, fun E c n hroot => ?_⟩
  have hpath : c.lookupPath E comps n = Lib.walk (c.lookup E) (splitSlash name) c.rootFH n :=
    lookupPath_eq_walk (c.lookup E) hcomps hroot n
  have hwalk : Lib.walk (Protocol.ofConn E).lookup (splitSlash name) c.rootFH (c, n) =
      ((c.lookupPath E comps n).1, c, (c.lookupPath E comps n).2) := by
    rw [hpath]
    exact Lib.walk_restricts (g := fun n => (c, n)) (fun _ _ _ => rfl) (splitSlash name) c.rootFH n
  refine ⟨?_, ?_⟩
  · rw [← hwalk]
    exact sameWalk (w := (c, n)) hvalid hne hcomps hroot
  · rw [hpath]
    exact lookupBase_resolveParent (c.lookup E) hvalid hne c.rootFH n

/-- A walk to `a/b`, whose directory is not there. -/
theorem walkers_agree_missing :
    Components [[], ascii "a", ascii ".", ascii "b"] (ascii "a/b") ∧
      ∃ out, SameWalk
        ({ rootFH := fun _ => some [1]
           lookup := fun _ _ w => (.error (.status 2), w)
           getAttr := fun _ _ w => (.error (.status 2), w)
           read := fun _ _ _ w => (.error (.status 2), w)
           readdir := fun _ _ _ _ w => (.error (.status 2), w) } : Protocol Unit).recorded
        (ascii "a/b") [[], ascii "a", ascii ".", ascii "b"] ((), []) out := by
  have hcomps : Components [[], ascii "a", ascii ".", ascii "b"] (ascii "a/b") := by
    unfold Components
    decide +kernel
  exact ⟨hcomps, (walkers_agree (by decide +kernel) (by decide +kernel) hcomps).1 _ ()
    (Option.some_ne_none _)⟩

end NfsClient.Client
