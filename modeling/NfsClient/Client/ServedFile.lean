import NfsClient.Client.FileRoutine
import NfsClient.Client.OpenFile
import NfsClient.Nfs4.MethodSpec

/-!
# An open file over a served connection

`ByteArrayServer` speaks about the operations that a `File` issues.  Here these are the
methods of a connection, with its retries and its sessions, and the server is one that runs
compounds over a file system in which the file is a byte array.  The file over the connection
is then a byte array with a cursor.

The laws of a byte array hold in the states in which the connection is served, and the
methods lead from such a state to another.  So they are proved of the operations restricted to
those states, and carried over to the operations of the connection.
-/

namespace NfsClient.Client

open NfsClient.Lib NfsClient.Nfs4

/-! ## Served connections -/

/-- A server of a file system, the link to it, and the client's stack on top: the session and the
retries of the connection, and a bound on how many operations the server puts off. -/
structure Service (T H D C : Type) where
  fs : FileSystem T H
  tag : Format.Field
  load : Load (Cursor T H) D
  link : Link C
  rank : D → ℕ
  patience : (fs.server tag load).Patience rank
  /-- The session of a v4.1 connection; a v4.0 connection has none. -/
  session : Option ℕ
  retry : RetryConfig

namespace Service

variable {T H D C : Type} (S : Service T H D C)

/-- The environment of the connection. -/
def env : Env (FileWorld T H D C) := S.fs.env S.tag S.load S.link

/-- The connection has the session and the retries of the service, its session is in step with the
server and every reply arrives, and the server puts off fewer operations than there are
attempts. -/
structure Serves (s : Conn × Net (FileWorld T H D C)) : Prop where
  uses : s.1.Uses S.session S.retry
  steady : Steady S.link S.session s.2
  left : S.rank s.2.world.load < S.retry.maxAttempts.toNat

/-- A connection that is served. -/
abbrev State : Type := { s : Conn × Net (FileWorld T H D C) // S.Serves s }

/-- The tree of the file system. -/
def tree (s : S.State) : T := s.1.2.world.tree

variable {S}

lemma Serves.call {s : Conn × Net (FileWorld T H D C)} (h : S.Serves s) (m : Method) :
    S.Serves (m.conn s.1, (m.exec S.env s.1 s.2).2) := by
  obtain ⟨-, -, hst, hrank⟩ := m.exec_served S.fs S.tag S.load S.link S.patience h.uses h.steady
    h.left
  exact ⟨h.uses.next m, hst, hrank.trans_lt h.left⟩

variable (S)

/-- A call of a method. -/
def call (m : Method) (s : S.State) : Except Err m.Value × S.State :=
  ((m.exec S.env s.1.1 s.1.2).1, ⟨(m.conn s.1.1, (m.exec S.env s.1.1 s.1.2).2), s.2.call m⟩)

/-- A call does what the method is meant to do. -/
lemma call_spec (m : Method) (s : S.State) :
    (S.call m s).1 = (m.multiOp s.1.1).report (m.spec S.fs s.1.1 (S.tree s)).1 ∧
      S.tree (S.call m s).2 = (m.spec S.fs s.1.1 (S.tree s)).2 := by
  obtain ⟨hval, htree, -⟩ := m.exec_served S.fs S.tag S.load S.link S.patience s.2.uses s.2.steady
    s.2.left
  exact ⟨hval, htree⟩

/-- The operations of `RWProtocol` on a connection that is served. -/
def protocol : RWProtocol S.State where
  read fh offset count := S.call (.read fh offset count)
  write fh sid offset data stable := S.call (.write fh sid offset data stable)
  getAttr fh mask := S.call (.getAttr fh mask)
  setAttr fh sid mask vals := S.call (.setAttr fh sid mask vals)
  closeFile fh sid := S.call (.closeFile fh sid)

/-- On a connection that is served, these are the operations of the connection. -/
lemma restricts (f : File) :
    (RWFS.protocol S.env).Alike (Restricts Subtype.val) S.protocol f where
  read _ _ _ := rfl
  write _ _ _ _ := rfl
  getAttr _ _ := rfl
  setAttr _ _ _ := rfl
  closeFile _ := rfl

end Service

/-! ## Files that are byte arrays -/

/-- A file system that keeps a byte array for an open file, read and written in pieces of any
size. -/
structure ByteStore {T H : Type} (fs : FileSystem T H) (fh : FileHandle) (obj : H) (sid : Stateid)
    (content : T → Bytes) : Prop where
  object : ∀ t, fs.object (fh.getD []) t = .ok obj
  read : ∀ (t : T) (a : ReadArgs), 0 < a.count.toNat →
    ∃ d k, fs.read obj a t = .ok d ∧ 0 < k ∧ k ≤ a.count.toNat ∧
      d.data.1 = ((content t).drop a.offset.toNat).take k ∧
      (d.eof = true ↔ (content t).length ≤ a.offset.toNat + d.data.1.length)
  write : ∀ (t : T) (a : WriteArgs), a.stateid = sid → a.data ≠ [] →
    ∃ r t', fs.write obj a t = (.ok r, t') ∧ 0 < r.count.toNat ∧ r.count.toNat ≤ a.data.length ∧
      content t' = patch 0 a.offset.toNat (a.data.take r.count.toNat) (content t)
  getattr : ∀ t, (content t).length < 2 ^ 63 →
    ∃ a attrs, fs.getattr obj Attr.standardMask t = .ok a ∧
      Attr.decode a.mask.1 a.vals.1 = .ok attrs ∧ attrs.size.toNat = (content t).length
  setattr : ∀ (t : T) (a : SetattrArgs) (attrs : Attr.Attributes), a.stateid = sid →
    Attr.setAttrs a.attrMask = [Attr.attrSize] → Attr.decode a.attrMask a.attrVals = .ok attrs →
    ∃ attrset t', fs.setattr obj a t = ((none, attrset), t') ∧
      content t' = resize 0 attrs.size.toNat (content t)
  close : ∀ (t : T) (seqid : UInt32),
    ∃ s t', fs.close obj seqid sid t = (.ok s, t') ∧ content t' = content t

section Served

variable {T H D C : Type} {S : Service T H D C} {fh : FileHandle} {obj : H} {sid : Stateid}
  {content : T → Bytes}

/-- The operations on a connection that is served are those of a byte array. -/
lemma ByteStore.byteArrayServer (h : ByteStore S.fs fh obj sid content) :
    ByteArrayServer S.protocol fh sid fun s => content (S.tree s) where
  read s off count hcount := by
    obtain ⟨hval, htree⟩ := S.call_spec (.read fh off count) s
    obtain ⟨d, k, hread, hk, hkle, hdata, heof⟩ :=
      h.read (S.tree s) { stateid := anonStateid, offset := off, count } hcount
    simp only [Method.spec, FileSystem.onObject, h.object, hread, FileSystem.view] at hval htree
    exact ⟨d.data.1, d.eof, _, k, Prod.ext hval rfl, hk, hkle, hdata, heof, congrArg content htree⟩
  write s off data stable hdata := by
    obtain ⟨hval, htree⟩ := S.call_spec (.write fh sid off data stable) s
    obtain ⟨r, t', hwrite, hpos, hle, hcontent⟩ :=
      h.write (S.tree s) { stateid := sid, offset := off, stable, data } rfl hdata
    simp only [Method.spec, FileSystem.onObject, h.object, hwrite, FileSystem.view] at hval htree
    exact ⟨r.count, r.committed, _, Prod.ext hval rfl, hpos, hle,
      (congrArg content htree).trans hcontent⟩
  getAttr s hsize := by
    obtain ⟨hval, htree⟩ := S.call_spec (.getAttr fh Attr.standardMask) s
    obtain ⟨a, attrs, hget, hdec, hlen⟩ := h.getattr (S.tree s) hsize
    simp only [Method.spec, FileSystem.onObject, h.object, hget, FileSystem.view] at hval htree
    exact ⟨a.mask.1, a.vals.1, attrs, _, Prod.ext hval rfl, hdec, hlen,
      congrArg content htree⟩
  setAttr s mask vals attrs hmask hdec := by
    obtain ⟨hval, htree⟩ := S.call_spec (.setAttr fh sid mask vals) s
    obtain ⟨attrset, t', hset, hcontent⟩ := h.setattr (S.tree s)
      { stateid := sid, attrMask := mask, attrVals := vals } attrs rfl hmask hdec
    simp only [Method.spec, FileSystem.onObject, h.object, hset, Option.elim] at hval htree
    exact ⟨_, Prod.ext hval rfl, (congrArg content htree).trans hcontent⟩
  closeFile s := by
    obtain ⟨hval, htree⟩ := S.call_spec (.closeFile fh sid) s
    obtain ⟨sid', t', hclose, hcontent⟩ := h.close (S.tree s) s.1.1.nextSeqid.1
    simp only [Method.spec, FileSystem.onObject, h.object, hclose, FileSystem.view] at hval htree
    exact ⟨_, Prod.ext hval rfl, (congrArg content htree).trans hcontent⟩

/-- What a run of a file over a connection keeps: the connection is served, and the file has
done what the byte array does. -/
def RefinesServed (S : Service T H D C) (content : T → Bytes) (f : File) (b : ByteFile)
    (s : FileState (Conn × Net (FileWorld T H D C))) : Prop :=
  ∃ hs : S.Serves s.world,
    Refines (fun s => content (S.tree s)) f b
      { file := s.file, world := (⟨s.world, hs⟩ : S.State), trace := s.trace }

/-- A file that was just opened. -/
lemma RefinesServed.init {f : File} {s : Conn × Net (FileWorld T H D C)} (hs : S.Serves s)
    (hoffset : f.offset = 0) (hopen : f.closed = false)
    (hsize : (content s.2.world.tree).length < 2 ^ 63) :
    RefinesServed S content f
      { content := content s.2.world.tree, append := f.flag &&& oAppend ≠ 0 }
      { file := f, world := s } := by
  refine ⟨hs, ⟨by simp [hoffset], hsize⟩, .refl f, ?_⟩
  have hview : view (fun s => content (S.tree s)) f (⟨s, hs⟩ : S.State)
      = { content := content s.2.world.tree, append := f.flag &&& oAppend ≠ 0 } := by
    simp [view, hoffset, hopen, Service.tree]
  rw [hview]
  exact .nil

lemma RefinesServed.step {f : File} {b : ByteFile} (h : ByteStore S.fs f.fh obj f.stateid content)
    (s : FileState (Conn × Net (FileWorld T H D C))) (op : FileOp)
    (s' : FileState (Conn × Net (FileWorld T H D C))) (href : RefinesServed S content f b s)
    (hop : (view (fun s => content s.2.world.tree) s.file s.world).InRange op)
    (hs : s.step (RWFS.protocol S.env) op = some s') : RefinesServed S content f b s' := by
  obtain ⟨hserves, href⟩ := href
  rcases hr : op.run S.protocol s.file (⟨s.world, hserves⟩ : S.State) with ⟨res, f', w'⟩
  have hrun : op.run (RWFS.protocol S.env) s.file s.world = (res, f', w'.1) := by
    have hsame := op.transports (transports_restricts _) (S.restricts s.file) ⟨s.world, hserves⟩
    simp only [hr] at hsame
    obtain ⟨hres, hworld⟩ := Prod.mk.inj hsame
    obtain ⟨hr', hfile⟩ := Prod.mk.inj hres
    exact Prod.ext hr' (Prod.ext hfile hworld)
  simp only [FileState.step, hrun] at hs
  obtain rfl := Option.some.inj hs
  refine ⟨w'.2, Refines.step h.byteArrayServer _ op _ href hop ?_⟩
  simp only [FileState.step, hr]

/-- At most `c + 1` bytes of the file. -/
def piece (c : ℕ) (a : ReadArgs) (t : Bytes) : Bytes :=
  (t.drop a.offset.toNat).take (min (c + 1) a.count.toNat)

end Served

end NfsClient.Client
