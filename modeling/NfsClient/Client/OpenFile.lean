import NfsClient.Client.File
import NfsClient.Client.Path
import NfsClient.Nfs4.Answers

/-!
# Opening a file

`RWFS.OpenFile` looks up the parent directory, sends OPEN (and OPEN_CONFIRM, if the server asks
for it) and truncates the file on request.  Once the server has answered OPEN with NFS4_OK it
keeps an open state, and the client has to close it.  `OpenFile` does so when the truncation
fails.  When something goes wrong before that, `Conn.Open` returns an error and the stateid is
lost.
-/

namespace NfsClient.Client

open NfsClient.Nfs4

/-! ## The file system -/

/-- `os.O_WRONLY` -/
def oWronly : Int64 := 0x1
/-- `os.O_RDWR` -/
def oRdwr : Int64 := 0x2
/-- `os.O_CREATE` -/
def oCreate : Int64 := 0x40
/-- `os.O_EXCL` -/
def oExcl : Int64 := 0x80
/-- `os.O_TRUNC` -/
def oTrunc : Int64 := 0x200

def openShareAccessRead : UInt32 := 1
def openShareAccessWrite : UInt32 := 2
def openShareAccessBoth : UInt32 := 3

/-- `shareFor` maps an open flag to a share access mask. -/
def shareFor (flag : Int64) : UInt32 :=
  if flag &&& oWronly ≠ 0 then openShareAccessWrite
  else if flag &&& oRdwr ≠ 0 then openShareAccessBoth
  else openShareAccessRead

/-- `resolveParent` looks up the parent directory and returns it with the last path element, over
any `Lookup` and from any root. -/
def resolveParent {W : Type} (lookup : FileHandle → Bytes → W → Except Err FileHandle × W)
    (root : FileHandle) (name : Bytes) (w : W) : Except Err (FileHandle × Bytes) × W :=
  match pathSplit name with
  | (dir, base) =>
    let dir := trimSlash dir
    let dir := if dir = [] then ascii "." else dir
    if dir ≠ ascii "." then
      match Lib.walk lookup (splitSlash dir) root w with
      | (.error e, w') => (.error e, w')
      | (.ok parent, w') => (.ok (parent, base), w')
    else (.ok (root, base), w)

namespace RWFS

variable {W : Type} (E : Env W)

/-- The operations of `RWProtocol`, as a connection performs them. -/
def protocol : RWProtocol (Conn × Net W) where
  read fh offset count s := match (readOp fh offset count).exec E s.1 s.2 with
    | (r, n) => (r, s.1, n)
  write fh sid offset data stable s := match (writeOp fh sid offset data stable).exec E s.1 s.2 with
    | (r, n) => (r, s.1, n)
  getAttr fh mask s := match (getAttrOp fh mask).exec E s.1 s.2 with
    | (r, n) => (r, s.1, n)
  setAttr fh sid mask vals s := match (setAttrOp fh sid mask vals).exec E s.1 s.2 with
    | (r, n) => (r, s.1, n)
  closeFile fh sid s := s.1.closeFile E fh sid s.2

/-- `resolveParent` of a connection. -/
def resolveParent (c : Conn) (name : Bytes) (n : Net W) :
    Except Err (FileHandle × Bytes) × Net W :=
  Client.resolveParent (c.lookup E) c.rootFH name n

/-- The parameters that `OpenFile` passes to `Open`. -/
def openParams (parent : FileHandle) (base : Bytes) (flag : Int64) (perm : UInt32) :
    Conn.OpenParams :=
  let doCreate := flag &&& oCreate ≠ 0
  let attrs := if doCreate then Attr.encodeFattr { mode := some (perm &&& 0x1ff) } else ([], [])
  { dir := parent, name := base, share := shareFor flag, createAttrMask := attrs.1,
    createAttrVals := attrs.2, doCreate := doCreate, excl := flag &&& oExcl ≠ 0 }

/-- Whether `OpenFile` truncates. -/
def truncates (flag : Int64) : Bool :=
  flag &&& oTrunc ≠ 0 && shareFor flag ≠ openShareAccessRead

/-- `OpenFile` opens the named file with the given flags and permission bits. -/
def openFile (c : Conn) (name : Bytes) (flag : Int64) (perm : UInt32) (n : Net W) :
    Conn.Ret W File :=
  if !validPath name then (.error (.path "open" name .errInvalid), c, n)
  else match resolveParent E c name n with
    | (.error e, n₀) => (.error (pathError "open" name e), c, n₀)
    | (.ok (parent, base), n₀) =>
      match c.openFile E (openParams parent base flag perm) n₀ with
      | (.error e, c₁, n₁) => (.error (pathError "open" name e), c₁, n₁)
      | (.ok (fh, sid), c₁, n₁) =>
        let f : File := { name, fh, stateid := sid, flag }
        if truncates flag then
          match f.truncate (protocol E) 0 (c₁, n₁) with
          | (res, s) =>
            match res.err with
            | some e => (.error (pathError "open" name e), (f.close (protocol E) s).2.2)
            | none => (.ok f, s)
        else (.ok f, c₁, n₁)

/-! ## Open states -/

/-- No open state is left behind: if the call fails, then every stateid that OPEN granted in it has
been closed.  What identifies an open state is the field `other` of the stateid; the server
counts `seqid` up when the state is confirmed or opened again. -/
def NoLeak (es : List Event) (r : Except Err File) : Prop :=
  (∃ e, r = .error e) → ∀ sid ∈ granted es, ∃ sid' ∈ closed es, sid'.other = sid.other

/-- The compound with which `OpenFile` truncates. -/
def truncateOp (fh : FileHandle) (sid : Stateid) : MultiOp Unit :=
  setAttrOp fh sid (Attr.encodeFattr { size := some 0 }).1 (Attr.encodeFattr { size := some 0 }).2

/-- What the replies to a call have to be like: OPEN is granted nowhere; or the last replies to OPEN
and, if sent, to OPEN_CONFIRM read as success and, if the file is truncated, so does the last
reply to SETATTR, or `Close` gets to send its compound and all the stateids granted are of the
open state that the file was opened with. -/
def Harmless (c : Conn) (ps : List ℕ) (name : Bytes) (flag : Int64) (perm : UInt32) (n : Net W) :
    Prop :=
  let es := eventsSince n (openFile E c name flag perm n).2.2
  granted es = [] ∨
    ∃ parent base n₀, resolveParent E c name n = (.ok (parent, base), n₀) ∧
      (∀ x ∈ (Method.openFile (openParams parent base flag perm)).exchanges E c n₀,
        x.ReadsAsSuccess ps.length) ∧
      (truncates flag = true → ∀ fh sid c₁ n₁,
        c.openFile E (openParams parent base flag perm) n₀ = (.ok (fh, sid), c₁, n₁) →
        ((truncateOp fh sid).exchange E c₁ n₁).ReadsAsSuccess ps.length ∨
          (GetsThrough E ps ((truncateOp fh sid).exec E c₁ n₁).2 ∧
            ∀ g ∈ granted es, g.other = (openedWith es).other))

variable {E} {c : Conn} {ps : List ℕ} {cfg : RetryConfig} {n n' : Net W}

/-! ### The events of the parts -/

lemma eventsSince_of_log {es : List Event} (h : n'.log = n.log ++ es) : eventsSince n n' = es := by
  rw [eventsSince, h, List.drop_left]

/-- No OPEN, OPEN_CONFIRM or CLOSE was sent. -/
structure Quiet (es : List Event) : Prop where
  granted : granted es = []
  confirmed : confirmed es = []
  confirms : confirms es = false
  closed : closed es = []

lemma quiet_nil : Quiet [] := ⟨rfl, rfl, rfl, rfl⟩

lemma Quiet.append {es es' : List Event} (h : Quiet es) (h' : Quiet es') : Quiet (es ++ es') where
  granted := by rw [granted_append, h.granted, h'.granted]; rfl
  confirmed := by rw [confirmed_append, h.confirmed, h'.confirmed]; rfl
  confirms := by rw [confirms_append, h.confirms, h'.confirms]; rfl
  closed := by rw [closed_append, h.closed, h'.closed]; rfl

/-- A multi-op method without such an operation. -/
lemma quiet_exec {α : Type} (hc : c.caller = .retry (sessionStack ps) cfg) (m : MultiOp α)
    (n : Net W) (hopen : m.ops.any Arg.isOpen = false)
    (hconf : m.ops.any Arg.isOpenConfirm = false) (hclose : m.ops.filterMap Arg.closes? = []) :
    ∃ es, (m.exec E c n).2.log = n.log ++ es ∧ Quiet es := by
  obtain ⟨hlog, hsent⟩ := m.exec_sentOnly (E := E) hc n
  exact ⟨_, hlog, hsent.granted_eq_nil hopen, hsent.confirmed_eq_nil hconf,
    hsent.confirms_eq_false hconf, hsent.closed_eq_nil hclose⟩

lemma quiet_walk (hc : c.caller = .retry (sessionStack ps) cfg) (comps : List Bytes)
    (parent : FileHandle) (n : Net W) :
    ∃ es, (Lib.walk (c.lookup E) comps parent n).2.log = n.log ++ es ∧ Quiet es := by
  refine Lib.walk_invariant (I := fun n' : Net W => ∃ es, n'.log = n.log ++ es ∧ Quiet es) ?_
    comps parent ⟨[], (List.append_nil _).symm, quiet_nil⟩
  rintro dir name n₁ ⟨es₁, hlog₁, hquiet₁⟩
  obtain ⟨es, hlog, hquiet⟩ := quiet_exec (E := E) hc (lookupOp dir name) n₁ rfl rfl rfl
  refine ⟨es₁ ++ es, ?_, hquiet₁.append hquiet⟩
  rw [← List.append_assoc, ← hlog₁]
  exact hlog

lemma quiet_resolveParent (hc : c.caller = .retry (sessionStack ps) cfg) (name : Bytes)
    (n : Net W) : ∃ es, (resolveParent E c name n).2.log = n.log ++ es ∧ Quiet es := by
  unfold resolveParent Client.resolveParent
  rcases pathSplit name with ⟨dir, base⟩
  dsimp only
  generalize (if trimSlash dir = [] then ascii "." else trimSlash dir) = dir
  split
  · obtain ⟨es, hlog, hquiet⟩ := quiet_walk (E := E) hc (splitSlash dir) c.rootFH n
    refine ⟨es, ?_, hquiet⟩
    rcases hl : Lib.walk (c.lookup E) (splitSlash dir) c.rootFH n with ⟨e | parent, n'⟩ <;>
      rw [hl] at hlog <;> exact hlog
  · exact ⟨[], by simp, quiet_nil⟩

/-- The compound of OPEN: the stateid that it returns is the last one granted. -/
lemma openOp_events (hc : c.caller = .retry (sessionStack ps) cfg) (dir : FileHandle)
    (args : OpenArgs) (n : Net W) :
    ∃ es, ((openOp dir args).exec E c n).2.log = n.log ++ es ∧ closed es = [] ∧
      confirmed es = [] ∧ confirms es = false ∧
      ∀ fh res, ((openOp dir args).exec E c n).1 = .ok (fh, res) →
        (granted es).getLastD {} = res.stateid := by
  obtain ⟨hlog, hsent⟩ := (openOp dir args).exec_sentOnly (E := E) hc n
  refine ⟨_, hlog, hsent.closed_eq_nil rfl, hsent.confirmed_eq_nil rfl,
    hsent.confirms_eq_false rfl, fun fh res hok => ?_⟩
  obtain ⟨rs, hvalue, hlast⟩ := (tracks_open dir args).exec hc rfl (Prod.ext hok rfl)
  obtain ⟨-, rfl⟩ : fh = (rs.getD 2 default).fh ∧ res = (rs.getD 1 default).toOpen :=
    Prod.mk.inj hvalue
  exact hlast.symm

/-- The compound of OPEN_CONFIRM: the stateid that it returns is the last one confirmed. -/
lemma openConfirmOp_events (hc : c.caller = .retry (sessionStack ps) cfg) (fh : FileHandle)
    (sid : Stateid) (seqid : UInt32) (n : Net W) :
    ∃ es, ((openConfirmOp fh sid seqid).exec E c n).2.log = n.log ++ es ∧ closed es = [] ∧
      ∀ sid', ((openConfirmOp fh sid seqid).exec E c n).1 = .ok sid' →
        confirms es = true ∧ (confirmed es).getLastD {} = sid' := by
  obtain ⟨hlog, hsent⟩ := (openConfirmOp fh sid seqid).exec_sentOnly (E := E) hc n
  refine ⟨_, hlog, hsent.closed_eq_nil rfl, fun sid' hok => ⟨?_, ?_⟩⟩
  · obtain ⟨c', reply, hmem⟩ := MultiOp.exists_sent_of_ok hc _ (Prod.ext hok rfl)
    have hop : .openConfirm sid seqid ∈ c'.ops :=
      MultiOp.mem_ops_of_sent hc _ hmem (by simp [openConfirmOp])
    exact List.any_eq_true.mpr ⟨_, hmem, List.any_eq_true.mpr ⟨_, hop, rfl⟩⟩
  · obtain ⟨rs, rfl, hlast⟩ := (tracks_openConfirm fh sid seqid).exec hc rfl (Prod.ext hok rfl)
    exact hlast.symm

lemma ok_of_map_mk {α β : Type} {r : Except Err β} {a a' : α} {b : β}
    (h : r.map (a, ·) = .ok (a', b)) : r = .ok b := by
  cases r with
  | error e => cases h
  | ok b' =>
      cases h
      rfl

/-- **The events of `Open`.**  It sends no CLOSE, and the stateid that it returns is the one that
the answers show the file to be opened with. -/
lemma openFile_events (hc : c.caller = .retry (sessionStack ps) cfg) (q : Conn.OpenParams)
    (n : Net W) :
    (c.openFile E q n).2.1.caller = c.caller ∧
      ∃ es, (c.openFile E q n).2.2.log = n.log ++ es ∧ closed es = [] ∧
        ∀ fh sid, (c.openFile E q n).1 = .ok (fh, sid) → openedWith es = sid := by
  have hc₁ : c.nextSeqid.2.caller = .retry (sessionStack ps) cfg := hc
  obtain ⟨es, hlog, hclosed, hconfirmed, hconfirms, hlast⟩ :=
    openOp_events (E := E) hc₁ q.dir (c.openArgs q c.nextSeqid.1) n
  have hopens := c.opens_openFile E q n
  generalize c.openFile E q n = R at hopens ⊢
  cases hopens with
  | failed hopen =>
      rw [hopen] at hlog
      refine ⟨rfl, es, hlog, hclosed, ?_⟩
      rintro fh sid ⟨⟩
  | @opened fh res n₁ hopen hneeds =>
      rw [hopen] at hlog hlast
      refine ⟨rfl, es, hlog, hclosed, ?_⟩
      rintro _ _ ⟨⟩
      rw [openedWith, hconfirms]
      exact hlast fh res rfl
  | @confirm fh res n₁ hopen hneeds =>
      rw [hopen] at hlog
      have hc₂ : c.nextSeqid.2.nextSeqid.2.caller = .retry (sessionStack ps) cfg := hc
      obtain ⟨es₂, hlog₂, hclosed₂, hlast₂⟩ :=
        openConfirmOp_events (E := E) hc₂ fh res.stateid c.nextSeqid.2.nextSeqid.1 n₁
      rw [show n₁.log = n.log ++ es from hlog, List.append_assoc] at hlog₂
      refine ⟨rfl, es ++ es₂, hlog₂, by rw [closed_append, hclosed, hclosed₂]; rfl, ?_⟩
      intro fh' sid hok
      -- the stateid is the one that OPEN_CONFIRM returned, whatever OPEN granted
      obtain ⟨hconfirms₂, hconfirmed₂⟩ := hlast₂ sid (ok_of_map_mk hok)
      rw [openedWith, confirms_append, hconfirms₂, Bool.or_true, if_pos rfl, confirmed_append,
        hconfirmed, List.nil_append]
      exact hconfirmed₂

/-- The compound of CLOSE: it is sent if it gets through. -/
lemma closeFile_events (hc : c.caller = .retry (sessionStack ps) cfg) (fh : FileHandle)
    (sid : Stateid) (n : Net W) :
    ∃ es, (c.closeFile E fh sid n).2.2.log = n.log ++ es ∧ granted es = [] ∧
      confirmed es = [] ∧ confirms es = false ∧ (∀ s ∈ closed es, s = sid) ∧
      (sid ∈ closed es ↔ GetsThrough E ps n) := by
  have hc₁ : c.nextSeqid.2.caller = .retry (sessionStack ps) cfg := hc
  obtain ⟨hlog, hsent⟩ := (closeFileOp fh sid c.nextSeqid.1).exec_sentOnly (E := E) hc₁ n
  have hiff := getsThrough_iff (E := E) cfg ps
    (c.nextSeqid.2.request (closeFileOp fh sid c.nextSeqid.1).ops)
    (closeFileOp fh sid c.nextSeqid.1).results n
  rw [← hc₁] at hiff
  refine ⟨_, hlog, hsent.granted_eq_nil rfl, hsent.confirmed_eq_nil rfl,
    hsent.confirms_eq_false rfl, ?_, ?_⟩
  · intro s hs
    have := hsent.closed_mem hs
    simpa [closeFileOp, Arg.closes?, eq_comm] using this
  · rw [← hiff]
    constructor
    · intro hmem
      obtain ⟨ev, hev, hsid⟩ := List.mem_flatMap.mp hmem
      cases ev with
      | call c' reply => exact ⟨c', reply, hev⟩
      | _ => cases hsid
    · rintro ⟨c', reply, hmem⟩
      have hop : .close c.nextSeqid.1 sid ∈ c'.ops :=
        MultiOp.mem_ops_of_sent hc₁ (closeFileOp fh sid c.nextSeqid.1) hmem (by simp [closeFileOp])
      exact List.mem_flatMap.mpr ⟨_, hmem, List.mem_filterMap.mpr ⟨_, hop, rfl⟩⟩

/-! ### The parts together -/

/-- `Truncate(0)` on a file that is open. -/
lemma truncate_eq (f : File) (hf : f.closed = false) (c : Conn) (n : Net W) :
    f.truncate (protocol E) 0 (c, n)
      = match (truncateOp f.fh f.stateid).exec E c n with
        | (.error e, n') => ({ err := some (pathError "truncate" f.name e) }, c, n')
        | (.ok _, n') => ({}, c, n') := by
  have hneg : ¬ (0 : Int64) < 0 := by decide
  have hzero : (0 : Int64).toUInt64 = 0 := rfl
  simp only [File.truncate, hf, Bool.false_eq_true, if_false, if_neg hneg, hzero, protocol]
  rcases hexec : (truncateOp f.fh f.stateid).exec E c n with ⟨e | _, n'⟩ <;>
    simp only [truncateOp] at hexec <;> simp only [hexec]

/-- `Close` on a file that is open. -/
lemma close_state (f : File) (hf : f.closed = false) (s : Conn × Net W) :
    (f.close (protocol E) s).2.2 = (s.1.closeFile E f.fh f.stateid s.2).2 := by
  simp only [File.close, hf, Bool.false_eq_true, if_false, protocol]
  rcases s.1.closeFile E f.fh f.stateid s.2 with ⟨e | _, c', n'⟩ <;> rfl

/-- Opening that fails before there is a file. -/
lemma noLeak_iff_of_closed_eq_nil {es : List Event} (h : closed es = []) (e : Err) :
    NoLeak es (.error e) ↔ granted es = [] := by
  simp [NoLeak, h, List.eq_nil_iff_forall_not_mem]

/-- Opening that fails in the truncation, with the events of `Close` at the end. -/
lemma noLeak_iff_of_close {es : List Event} {sid : Stateid} {P : Prop}
    (hall : ∀ s ∈ closed es, s = sid) (hiff : sid ∈ closed es ↔ P) (e : Err) :
    NoLeak es (.error e) ↔ granted es = [] ∨ (P ∧ ∀ g ∈ granted es, g.other = sid.other) := by
  constructor
  · intro h
    have hclose := h ⟨e, rfl⟩
    rcases hg : granted es with _ | ⟨g, gs⟩
    · exact .inl rfl
    · rw [← hg]
      obtain ⟨s, hs, -⟩ := hclose g (by simp [hg])
      refine .inr ⟨hiff.mp (hall s hs ▸ hs), fun g hg => ?_⟩
      obtain ⟨s, hs, hother⟩ := hclose g hg
      rw [← hother, hall s hs]
  · rintro (hnil | ⟨hP, hother⟩) - g hg
    · rw [hnil] at hg
      cases hg
    · exact ⟨sid, hiff.mpr hP, (hother g hg).symm⟩

/-- How `OpenFile` goes on once the parent has been found: what it returns, the connection and the
network after it. -/
inductive Course (E : Env W) (c : Conn) (q : Conn.OpenParams) (flag : Int64) (n : Net W) :
    Conn.Ret W File → Prop
  /-- `Open` fails. -/
  | refused (e e' : Err) {c₁ : Conn} {n₁ : Net W} (ho : c.openFile E q n = (.error e', c₁, n₁)) :
      Course E c q flag n (.error e, c₁, n₁)
  /-- The file is open, and is not to be truncated. -/
  | opened (f : File) {fh : FileHandle} {sid : Stateid} {c₁ : Conn} {n₁ : Net W}
      (ho : c.openFile E q n = (.ok (fh, sid), c₁, n₁)) (ht : truncates flag = false) :
      Course E c q flag n (.ok f, c₁, n₁)
  /-- The file is open and truncated. -/
  | truncated (f : File) {fh : FileHandle} {sid : Stateid} {c₁ : Conn} {n₁ n₂ : Net W}
      (ho : c.openFile E q n = (.ok (fh, sid), c₁, n₁)) (ht : truncates flag = true)
      (hs : (truncateOp fh sid).exec E c₁ n₁ = (.ok (), n₂)) :
      Course E c q flag n (.ok f, c₁, n₂)
  /-- The truncation fails, and the file is closed. -/
  | closed (e e' : Err) {fh : FileHandle} {sid : Stateid} {c₁ : Conn} {n₁ n₂ : Net W}
      (ho : c.openFile E q n = (.ok (fh, sid), c₁, n₁)) (ht : truncates flag = true)
      (hs : (truncateOp fh sid).exec E c₁ n₁ = (.error e', n₂)) :
      Course E c q flag n (.error e, (c₁.closeFile E fh sid n₂).2)

lemma course_of_resolved {name : Bytes} (flag : Int64) (perm : UInt32) {n n₀ : Net W}
    {parent : FileHandle} {base : Bytes} (hvalid : validPath name = true)
    (hres : resolveParent E c name n = (.ok (parent, base), n₀)) :
    Course E c (openParams parent base flag perm) flag n₀ (openFile E c name flag perm n) := by
  simp only [openFile, hvalid, Bool.not_true, Bool.false_eq_true, if_false, hres]
  rcases hopen : c.openFile E (openParams parent base flag perm) n₀ with
    ⟨e | ⟨fh, sid⟩, c₁, n₁⟩
  · exact .refused _ e hopen
  · cases htr : truncates flag with
    | false => exact .opened _ hopen htr
    | true =>
        rcases hexec : (truncateOp fh sid).exec E c₁ n₁ with ⟨e | _, n₂⟩
        · have hclose := close_state (E := E) { name, fh, stateid := sid, flag } rfl (c₁, n₂)
          simp only [if_true, truncate_eq { name, fh, stateid := sid, flag } rfl, hexec, hclose]
          exact .closed _ e hopen htr hexec
        · simp only [if_true, truncate_eq { name, fh, stateid := sid, flag } rfl, hexec]
          exact .truncated _ hopen htr hexec

/-- What `Harmless` asks of the compounds once the parent has been found. -/
def HarmlessOpen (E : Env W) (c : Conn) (ps : List ℕ) (q : Conn.OpenParams) (flag : Int64)
    (n : Net W) (es : List Event) : Prop :=
  (∀ x ∈ (Method.openFile q).exchanges E c n, x.ReadsAsSuccess ps.length) ∧
    (truncates flag = true → ∀ fh sid c₁ n₁, c.openFile E q n = (.ok (fh, sid), c₁, n₁) →
      ((truncateOp fh sid).exchange E c₁ n₁).ReadsAsSuccess ps.length ∨
        (GetsThrough E ps ((truncateOp fh sid).exec E c₁ n₁).2 ∧
          ∀ g ∈ granted es, g.other = (openedWith es).other))

lemma harmless_iff_of_resolved {name : Bytes} {flag : Int64} {perm : UInt32} {n n₀ : Net W}
    {parent : FileHandle} {base : Bytes}
    (hres : resolveParent E c name n = (.ok (parent, base), n₀)) :
    Harmless E c ps name flag perm n ↔
      granted (eventsSince n (openFile E c name flag perm n).2.2) = [] ∨
        HarmlessOpen E c ps (openParams parent base flag perm) flag n₀
          (eventsSince n (openFile E c name flag perm n).2.2) := by
  refine or_congr Iff.rfl ⟨?_, fun h => ⟨parent, base, n₀, hres, h⟩⟩
  rintro ⟨parent', base', n₀', hres', h⟩
  obtain ⟨⟨⟩, ⟨⟩⟩ := Prod.mk.inj (hres.symm.trans hres')
  exact h

/-- A call that fails in the truncation: its events are those of `Open` and of `Close`, with
others around them that open and close nothing. -/
lemma noLeak_iff_of_truncateFailed {q : Conn.OpenParams} {n₀ n₁ n₂ : Net W}
    {es₀ : List Event} (hc : c.caller = .retry (sessionStack ps) cfg)
    (hlog₀ : n₀.log = n.log ++ es₀) (hquiet : Quiet es₀) {fh : FileHandle} {sid : Stateid}
    {c₁ : Conn} (ho : c.openFile E q n₀ = (.ok (fh, sid), c₁, n₁)) {e' : Err}
    (hs : (truncateOp fh sid).exec E c₁ n₁ = (.error e', n₂)) (e : Err) :
    let es := eventsSince n (c₁.closeFile E fh sid n₂).2.2
    NoLeak es (.error e) ↔
      granted es = [] ∨
        (GetsThrough E ps n₂ ∧ ∀ g ∈ granted es, g.other = (openedWith es).other) := by
  obtain ⟨hcaller, es₁, hlog₁, hclosed₁, hopened⟩ := openFile_events (E := E) hc q n₀
  rw [ho] at hcaller hlog₁ hopened
  have hc₁ : c₁.caller = .retry (sessionStack ps) cfg := hcaller.trans hc
  obtain ⟨es₂, hlog₂, hquiet₂⟩ := quiet_exec (E := E) hc₁ (truncateOp fh sid) n₁ rfl rfl rfl
  obtain ⟨es₃, hlog₃, hgranted₃, hconfirmed₃, hconfirms₃, hall, hiff⟩ :=
    closeFile_events (E := E) hc₁ fh sid n₂
  rw [hs] at hlog₂
  have hes : eventsSince n (c₁.closeFile E fh sid n₂).2.2 = es₀ ++ es₁ ++ es₂ ++ es₃ := by
    refine eventsSince_of_log ?_
    rw [hlog₃, show n₂.log = n₁.log ++ es₂ from hlog₂, show n₁.log = n₀.log ++ es₁ from hlog₁,
      hlog₀]
    simp
  have hclosed : closed (es₀ ++ es₁ ++ es₂ ++ es₃) = closed es₃ := by
    simp [closed_append, hquiet.closed, hclosed₁, hquiet₂.closed]
  have hwith : openedWith (es₀ ++ es₁ ++ es₂ ++ es₃) = sid := by
    rw [← hopened fh sid rfl]
    simp [openedWith, confirms_append, confirmed_append, granted_append, hquiet.confirms,
      hquiet.confirmed, hquiet.granted, hquiet₂.confirms, hquiet₂.confirmed, hquiet₂.granted,
      hconfirms₃, hconfirmed₃, hgranted₃]
  rw [← hclosed] at hall hiff
  dsimp only
  rw [hes, hwith]
  exact noLeak_iff_of_close hall hiff e

/-- One case for each way in which the call goes on. -/
lemma noLeak_iff_of_course {q : Conn.OpenParams} {flag : Int64} {n₀ : Net W} {es₀ : List Event}
    {R : Conn.Ret W File} (h : Course E c q flag n₀ R)
    (hc : c.caller = .retry (sessionStack ps) cfg) (hlog₀ : n₀.log = n.log ++ es₀)
    (hquiet : Quiet es₀) :
    NoLeak (eventsSince n R.2.2) R.1 ↔
      granted (eventsSince n R.2.2) = [] ∨
        HarmlessOpen E c ps q flag n₀ (eventsSince n R.2.2) := by
  have hsuccess := Method.openFile_err (E := E) hc q n₀
  obtain ⟨hcaller, es₁, hlog₁, hclosed₁, -⟩ := openFile_events (E := E) hc q n₀
  cases h with
  | @refused e e' c₁ n₁ ho =>
      -- no CLOSE is sent, and the replies do not read as success
      rw [ho] at hlog₁ hsuccess
      rw [hlog₀, List.append_assoc] at hlog₁
      have hclosed : closed (es₀ ++ es₁) = [] := by
        rw [closed_append, hquiet.closed, hclosed₁]
        rfl
      rw [eventsSince_of_log hlog₁, noLeak_iff_of_closed_eq_nil hclosed]
      refine ⟨.inl, ?_⟩
      rintro (hnil | ⟨hall, -⟩)
      · exact hnil
      · exact absurd (hsuccess.mpr hall) (by simp [errorOf])
  | @opened f fh sid c₁ n₁ ho ht =>
      rw [ho] at hsuccess
      refine ⟨fun _ => .inr ⟨hsuccess.mp rfl, by simp [ht]⟩, ?_⟩
      rintro - ⟨e, ⟨⟩⟩
  | @truncated f fh sid c₁ n₁ n₂ ho ht hs =>
      rw [ho] at hsuccess hcaller
      have hset := (truncateOp fh sid).exec_ok_iff (E := E) (hcaller.trans hc) n₁
      rw [hs] at hset
      refine ⟨fun _ => .inr ⟨hsuccess.mp rfl, fun _ fh' sid' c₁' n₁' ho' => ?_⟩, ?_⟩
      · obtain ⟨⟨⟩, ⟨⟩⟩ := Prod.mk.inj (ho.symm.trans ho')
        exact .inl (hset.mp rfl)
      · rintro - ⟨e, ⟨⟩⟩
  | @closed e e' fh sid c₁ n₁ n₂ ho ht hs =>
      have hiff := noLeak_iff_of_truncateFailed hc hlog₀ hquiet ho hs e
      rw [ho] at hsuccess hcaller
      have hset := (truncateOp fh sid).exec_ok_iff (E := E) (hcaller.trans hc) n₁
      rw [hs] at hset
      refine hiff.trans (or_congr Iff.rfl ⟨fun hclose => ?_, fun hopen => ?_⟩)
      · refine ⟨hsuccess.mp rfl, fun _ fh' sid' c₁' n₁' ho' => .inr ?_⟩
        obtain ⟨⟨⟩, ⟨⟩⟩ := Prod.mk.inj (ho.symm.trans ho')
        rw [hs]
        exact hclose
      · rcases hopen.2 ht fh sid c₁ n₁ ho with hok | hclose
        · exact absurd (hset.mpr hok) (by simp [errorOf])
        · rw [hs] at hclose
          exact hclose

/-- **Open states that are left behind.**  `OpenFile` leaves no open state behind when it fails
exactly when the replies are harmless. -/
theorem openFile_noLeak_iff (hc : c.caller = .retry (sessionStack ps) cfg) (name : Bytes)
    (flag : Int64) (perm : UInt32) (n : Net W) :
    NoLeak (eventsSince n (openFile E c name flag perm n).2.2) (openFile E c name flag perm n).1 ↔
      Harmless E c ps name flag perm n := by
  by_cases hvalid : validPath name = true
  · obtain ⟨es₀, hlog₀, hquiet⟩ := quiet_resolveParent (E := E) hc name n
    rcases hres : resolveParent E c name n with ⟨e | ⟨parent, base⟩, n₀⟩
    · have hrun : openFile E c name flag perm n = (.error (pathError "open" name e), c, n₀) := by
        simp [openFile, hvalid, hres]
      rw [hres] at hlog₀
      simp [Harmless, hrun, eventsSince_of_log hlog₀, hquiet.granted, NoLeak]
    · rw [hres] at hlog₀
      rw [harmless_iff_of_resolved hres]
      exact noLeak_iff_of_course (course_of_resolved flag perm hvalid hres) hc hlog₀ hquiet
  · -- nothing is sent
    have hrun : openFile E c name flag perm n = (.error (.path "open" name .errInvalid), c, n) := by
      simp [openFile, hvalid]
    have hnil : granted (eventsSince n n) = [] := by
      rw [eventsSince_of_log (List.append_nil _).symm]
      rfl
    simp [Harmless, hrun, hnil, NoLeak]

/-- A mounted v4.0 connection. -/
def mountedConn : Conn := { newConn .rpc {} with rootFH := some [1] }

/-- The answer to OPEN: a stateid, nothing to confirm and no delegation. -/
def openResop : Resop := ⟨opOpen, nfs4Ok, word 1 ++ List.replicate 12 7 ++ List.replicate 32 0⟩

/-- OPEN is granted, and the file handle returned. -/
def openedReply : Bytes :=
  replyBytes nfs4Ok [⟨opPutfh, nfs4Ok, []⟩, openResop, ⟨opGetfh, nfs4Ok, word 4 ++ [1, 2, 3, 4]⟩]

/-- OPEN is granted, and GETFH fails. -/
def lostReply : Bytes :=
  replyBytes nfs4errStale [⟨opPutfh, nfs4Ok, []⟩, openResop, ⟨opGetfh, nfs4errStale, []⟩]

/-- SETATTR fails. -/
def readOnlyReply : Bytes :=
  replyBytes nfs4errRofs [⟨opPutfh, nfs4Ok, []⟩, ⟨opSetattr, nfs4errRofs, word 0⟩]

/-- CLOSE is done. -/
def closedReply : Bytes :=
  replyBytes nfs4Ok [⟨opPutfh, nfs4Ok, []⟩, ⟨opClose, nfs4Ok, List.replicate 16 0⟩]

/-- The truncation fails, and the file is closed. -/
theorem openFile_noLeak_readOnly :
    granted (eventsSince (scripted [openedReply, readOnlyReply, closedReply])
        (openFile scriptEnv mountedConn (ascii "a") (oRdwr ||| oTrunc) 0
          (scripted [openedReply, readOnlyReply, closedReply])).2.2) ≠ [] ∧
      NoLeak (eventsSince (scripted [openedReply, readOnlyReply, closedReply])
        (openFile scriptEnv mountedConn (ascii "a") (oRdwr ||| oTrunc) 0
          (scripted [openedReply, readOnlyReply, closedReply])).2.2)
        (openFile scriptEnv mountedConn (ascii "a") (oRdwr ||| oTrunc) 0
          (scripted [openedReply, readOnlyReply, closedReply])).1 := by
  have hc : mountedConn.caller = .retry (sessionStack []) (RetryConfig.withDefaults {}) := rfl
  refine ⟨by decide +kernel, (openFile_noLeak_iff hc _ _ _ _).mpr (.inr ?_)⟩
  refine ⟨some [1], ascii "a", scripted [openedReply, readOnlyReply, closedReply], rfl,
    (Method.openFile_err hc _ _).mp (by decide +kernel), fun _ fh sid c₁ n₁ _ => .inr ⟨?_, ?_⟩⟩
  · exact ⟨rfl, trivial⟩
  · decide +kernel

/-- GETFH fails after OPEN has been granted: an error is returned, and no CLOSE is sent. -/
theorem openFile_leak_getfh :
    ¬ NoLeak (eventsSince (scripted [lostReply])
      (openFile scriptEnv mountedConn (ascii "a") oRdwr 0 (scripted [lostReply])).2.2)
      (openFile scriptEnv mountedConn (ascii "a") oRdwr 0 (scripted [lostReply])).1 := by
  have herr : (openFile scriptEnv mountedConn (ascii "a") oRdwr 0 (scripted [lostReply])).1
      = .error (.path "open" (ascii "a") .errNotExist) := by decide +kernel
  have hgranted : granted (eventsSince (scripted [lostReply])
      (openFile scriptEnv mountedConn (ascii "a") oRdwr 0 (scripted [lostReply])).2.2)
      = [{ seqid := 1, other := ⟨List.replicate 12 7, rfl⟩ }] := by decide +kernel
  have hclosed : closed (eventsSince (scripted [lostReply])
      (openFile scriptEnv mountedConn (ascii "a") oRdwr 0 (scripted [lostReply])).2.2) = [] := by
    decide +kernel
  intro h
  obtain ⟨sid, hsid, -⟩ := h ⟨_, herr⟩ _ (by rw [hgranted]; exact List.mem_singleton_self _)
  rw [hclosed] at hsid
  cases hsid

end RWFS

end NfsClient.Client
