import NfsClient.Nfs4.Reply
import NfsClient.Nfs4.Transcript

/-!
# When a method reports success

A multi-op method returns a nil error exactly when the last reply to each compound it sent
*reads as success*: the reply is accepted, its overall status and its SEQUENCE statuses are
NFS4_OK, and NFS4_OK is the last status that the replies show for the one operation whose
result the method checks, or they show none.  A reply that is short, or that holds a
failed operation elsewhere, reads as success just as a complete one does.
-/

namespace NfsClient.Nfs4

variable {W α : Type} (E : Env W)

/-! ## One compound -/

/-- One compound of a method: which result the method checks, and what happened. -/
structure Exchange where
  checked : ℕ
  events : List Event
deriving DecidableEq

/-- The server performed the compound: the last reply to it holds one resop for each of its
operations, all with status NFS4_OK. -/
def Exchange.Performed (x : Exchange) : Prop :=
  ∃ c reply r sts, x.events.getLast? = some (.call c reply) ∧
    (Event.call c reply).reply? = some (r, sts) ∧ sts.length = c.ops.length ∧
    ∀ s ∈ sts, s = nfs4Ok

/-- The last reply, through `k` session callers, reads as success. -/
def Exchange.ReadsAsSuccess (k : ℕ) (x : Exchange) : Prop :=
  ∃ r sts, lastReply x.events = some (r, sts) ∧ r.status = nfs4Ok ∧
    firstBad (sts.take k) = none ∧ shownStatus (k + x.checked) nfs4Ok x.events = nfs4Ok

/-- The last reply holds one resop for each operation, and those whose status is looked at by nobody
are NFS4_OK: all but the `k` SEQUENCEs and the operation that the method checks. -/
def Exchange.Complete (k : ℕ) (x : Exchange) : Prop :=
  ∃ c reply r sts, x.events.getLast? = some (.call c reply) ∧
    (Event.call c reply).reply? = some (r, sts) ∧ sts.length = c.ops.length ∧
    ∀ i st, sts[i]? = some st → k ≤ i → i ≠ k + x.checked → st = nfs4Ok

/-- A reply that reads as success shows what was performed if it is complete. -/
lemma Exchange.ReadsAsSuccess.performed_iff {k : ℕ} {x : Exchange} (h : x.ReadsAsSuccess k) :
    x.Performed ↔ x.Complete k := by
  obtain ⟨r', sts', hlastReply, -, hseqs, hshown⟩ := h
  refine ⟨?_, ?_⟩
  · rintro ⟨c, reply, r, sts, hlast, hreply, hlen, hoks⟩
    exact ⟨c, reply, r, sts, hlast, hreply, hlen,
      fun i st hst _ _ => hoks st (List.mem_of_getElem? hst)⟩
  · rintro ⟨c, reply, r, sts, hlast, hreply, hlen, hrest⟩
    refine ⟨c, reply, r, sts, hlast, hreply, hlen, fun st hst => ?_⟩
    rw [lastReply, hlast, Option.bind_some, hreply] at hlastReply
    obtain ⟨rfl, rfl⟩ := Prod.mk.inj (Option.some.inj hlastReply)
    obtain ⟨i, hi⟩ := List.mem_iff_getElem?.mp hst
    by_cases hseq : i < k
    · refine firstBad_eq_none.mp hseqs st (List.mem_of_getElem? (i := i) ?_)
      rw [List.getElem?_take_of_lt hseq, hi]
    by_cases hchecked : i = k + x.checked
    · -- the last reply holds the resop that is checked, so it is the one shown
      obtain ⟨pre, hpre⟩ := List.getLast?_eq_some_iff.mp hlast
      rw [hpre, shownStatus_append, ← hchecked] at hshown
      have hin : statusIn (Event.call c reply).reply? i (shownStatus i nfs4Ok pre) = nfs4Ok :=
        hshown
      rwa [hreply, statusIn, List.getD_eq_getElem?_getD, hi] at hin
    · exact hrest i st hi (Nat.le_of_not_lt hseq) hchecked

/-- The compound that a multi-op method sends. -/
def MultiOp.exchange (c : Conn) (m : MultiOp α) (n : Net W) : Exchange where
  checked := m.checked
  events := eventsSince n (m.exec E c n).2

/-- The error that is returned. -/
def errorOf : Except Err α → Option Err
  | .error e => some e
  | .ok _ => none

@[simp] lemma errorOf_map {β : Type} (f : α → β) (r : Except Err α) :
    errorOf (r.map f) = errorOf r := by
  cases r <;> rfl

variable {E} {c : Conn} {ps : List ℕ} {cfg : RetryConfig}

/-- **Success of one compound.**  The method goes on exactly when the last reply reads as
success. -/
theorem MultiOp.exec_ok_iff (hc : c.caller = .retry (sessionStack ps) cfg) (m : MultiOp α)
    (n : Net W) :
    errorOf (m.exec E c n).1 = none ↔ (m.exchange E c n).ReadsAsSuccess ps.length := by
  have hv := call_verdict (E := E) hc m.ops n
  rw [← m.results_eq] at hv
  rcases hcall : c.caller.callCompound E (c.request m.ops) m.results n with ⟨⟨rs, o⟩, n'⟩
  rw [hcall] at hv
  have hexec : m.exec E c n = (m.finish (rs, o), n') := by
    simp only [MultiOp.exec, hcall]
  unfold Exchange.ReadsAsSuccess MultiOp.exchange
  rw [hexec]
  cases hv with
  | noReply e h ho =>
      obtain rfl : o = .error e := ho
      simp [MultiOp.finish, errorOf, h]
  | refused r sts q e h hq ho he =>
      obtain rfl : o = .error e := ho
      simp [MultiOp.finish, errorOf, h, hq]
  | exhausted r sts h hq hr ho =>
      obtain rfl : o = .error (.status r.status) := ho
      have hne : r.status ≠ nfs4Ok := by
        intro heq
        rw [heq] at hr
        exact absurd hr (by decide)
      simp [MultiOp.finish, errorOf, h, hne]
  | answered r r' sts h hq hr ho hst hres =>
      obtain rfl : o = .ok r' := ho
      have hchecked : (rs.getD m.checked default).stat =
          shownStatus (ps.length + m.checked) nfs4Ok (eventsSince n n') := hres m.checked
      simp only [MultiOp.finish, hst, hchecked]
      by_cases hok : r.status = nfs4Ok
      · by_cases hshown :
          shownStatus (ps.length + m.checked) nfs4Ok (eventsSince n n') = nfs4Ok
        · simp [hok, hshown, h, hq, errorOf]
        · simp [hok, hshown, h, errorOf, statusErr_of_ne hshown]
      · simp [statusErr_of_ne hok, errorOf, h, hok]

/-! ## The methods -/

/-- The multi-op methods with their parameters. -/
inductive Method
  | fetchRootFH
  | lookup (dir : FileHandle) (name : Bytes)
  | getAttr (fh : FileHandle) (mask : Bitmap)
  | read (fh : FileHandle) (offset : UInt64) (count : UInt32)
  | readdir (dir : FileHandle) (cookie : UInt64) (cookieverf : ByteArr 8) (attrMask : Bitmap)
  | readlink (fh : FileHandle)
  | openFile (q : Conn.OpenParams)
  | openConfirm (fh : FileHandle) (sid : Stateid)
  | write (fh : FileHandle) (sid : Stateid) (offset : UInt64) (data : Bytes) (stable : StableHow)
  | commit (fh : FileHandle) (offset : UInt64) (count : UInt32)
  | closeFile (fh : FileHandle) (sid : Stateid)
  | mkdir (dir : FileHandle) (name : Bytes) (attrMask : Bitmap) (attrVals : Bytes)
  | symlink (dir : FileHandle) (name target : Bytes) (attrMask : Bitmap) (attrVals : Bytes)
  | remove (dir : FileHandle) (name : Bytes)
  | rename (srcDir : FileHandle) (oldName : Bytes) (dstDir : FileHandle) (newName : Bytes)
  | link (src dstDir : FileHandle) (newName : Bytes)
  | setAttr (fh : FileHandle) (sid : Stateid) (attrMask : Bitmap) (attrVals : Bytes)

namespace Method

variable (E)

/-- The outcome of a method that leaves the connection alone. -/
def keep (c : Conn) (r : Except Err α × Net W) : Option Err × Conn × Net W :=
  (errorOf r.1, c, r.2)

/-- The outcome of a method that changes the connection. -/
def report (r : Conn.Ret W α) : Option Err × Conn × Net W := (errorOf r.1, r.2.1, r.2.2)

/-- Run a method: the error it returns, the connection and the network after it. -/
def run (c : Conn) (n : Net W) : Method → Option Err × Conn × Net W
  | .fetchRootFH => report (c.fetchRootFH E n)
  | .lookup dir name => keep c ((lookupOp dir name).exec E c n)
  | .getAttr fh mask => keep c ((getAttrOp fh mask).exec E c n)
  | .read fh offset count => keep c ((readOp fh offset count).exec E c n)
  | .readdir dir cookie verf mask => keep c ((readdirOp dir cookie verf mask).exec E c n)
  | .readlink fh => keep c ((readlinkOp fh).exec E c n)
  | .openFile q => report (c.openFile E q n)
  | .openConfirm fh sid => report (c.openConfirm E fh sid n)
  | .write fh sid offset data stable => keep c ((writeOp fh sid offset data stable).exec E c n)
  | .commit fh offset count => keep c ((commitOp fh offset count).exec E c n)
  | .closeFile fh sid => report (c.closeFile E fh sid n)
  | .mkdir dir name mask vals => keep c ((mkdirOp dir name mask vals).exec E c n)
  | .symlink dir name target mask vals => keep c ((symlinkOp dir name target mask vals).exec E c n)
  | .remove dir name => keep c ((removeOp dir name).exec E c n)
  | .rename src old dst new => keep c ((renameOp src old dst new).exec E c n)
  | .link src dst new => keep c ((linkOp src dst new).exec E c n)
  | .setAttr fh sid mask vals => keep c ((setAttrOp fh sid mask vals).exec E c n)

/-- The error that a method returns. -/
def err (c : Conn) (n : Net W) (m : Method) : Option Err := (m.run E c n).1

/-- The compounds that a method sends.  `Open` sends a second one when the first one succeeded
and the server asks for a confirmation. -/
def exchanges (c : Conn) (n : Net W) : Method → List Exchange
  | .fetchRootFH => [fetchRootFHOp.exchange E c n]
  | .lookup dir name => [(lookupOp dir name).exchange E c n]
  | .getAttr fh mask => [(getAttrOp fh mask).exchange E c n]
  | .read fh offset count => [(readOp fh offset count).exchange E c n]
  | .readdir dir cookie verf mask => [(readdirOp dir cookie verf mask).exchange E c n]
  | .readlink fh => [(readlinkOp fh).exchange E c n]
  | .openFile q =>
      let m := openOp q.dir (c.openArgs q c.nextSeqid.1)
      let c₁ := c.nextSeqid.2
      m.exchange E c₁ n ::
        match m.exec E c₁ n with
        | (.error _, _) => []
        | (.ok (fh, res), n₁) =>
          if res.needsConfirm then
            [(openConfirmOp fh res.stateid c₁.nextSeqid.1).exchange E c₁.nextSeqid.2 n₁]
          else []
  | .openConfirm fh sid => [(openConfirmOp fh sid c.nextSeqid.1).exchange E c.nextSeqid.2 n]
  | .write fh sid offset data stable => [(writeOp fh sid offset data stable).exchange E c n]
  | .commit fh offset count => [(commitOp fh offset count).exchange E c n]
  | .closeFile fh sid => [(closeFileOp fh sid c.nextSeqid.1).exchange E c.nextSeqid.2 n]
  | .mkdir dir name mask vals => [(mkdirOp dir name mask vals).exchange E c n]
  | .symlink dir name target mask vals => [(symlinkOp dir name target mask vals).exchange E c n]
  | .remove dir name => [(removeOp dir name).exchange E c n]
  | .rename src old dst new => [(renameOp src old dst new).exchange E c n]
  | .link src dst new => [(linkOp src dst new).exchange E c n]
  | .setAttr fh sid mask vals => [(setAttrOp fh sid mask vals).exchange E c n]

variable {E}

lemma fetchRootFH_err (c : Conn) (n : Net W) :
    errorOf (c.fetchRootFH E n).1 = errorOf (fetchRootFHOp.exec E c n).1 := by
  unfold Conn.fetchRootFH
  rcases fetchRootFHOp.exec E c n with ⟨_ | _, n'⟩ <;> rfl

/-- `Open` succeeds when its first compound does and, if a confirmation is asked for, the
second one as well. -/
lemma openFile_err (hc : c.caller = .retry (sessionStack ps) cfg) (q : Conn.OpenParams)
    (n : Net W) :
    errorOf (c.openFile E q n).1 = none ↔
      ∀ x ∈ (Method.openFile q).exchanges E c n, x.ReadsAsSuccess ps.length := by
  have hfirst := (openOp q.dir (c.openArgs q c.nextSeqid.1)).exec_ok_iff (E := E)
    (c := c.nextSeqid.2) hc n
  simp only [exchanges, List.forall_mem_cons, ← hfirst]
  have h := c.opens_openFile E q n
  generalize c.openFile E q n = R at h ⊢
  cases h with
  | failed hopen => simp [hopen, errorOf]
  | opened hopen hconf => simp [hopen, hconf, errorOf]
  | @confirm fh res n₁ hopen hconf =>
      have hsecond := (openConfirmOp fh res.stateid c.nextSeqid.2.nextSeqid.1).exec_ok_iff (E := E)
        (c := c.nextSeqid.2.nextSeqid.2) hc n₁
      simp only [hopen, hconf, if_true, List.mem_singleton, forall_eq, ← hsecond, errorOf_map,
        Conn.openConfirm]
      simp [errorOf]

/-- A method returns nil exactly when the last reply to each of its compounds reads as
success. -/
lemma err_eq_none_iff (hc : c.caller = .retry (sessionStack ps) cfg) (m : Method) (n : Net W) :
    m.err E c n = none ↔ ∀ x ∈ m.exchanges E c n, x.ReadsAsSuccess ps.length := by
  cases m with
  | openFile q => exact openFile_err hc q n
  | fetchRootFH =>
      simp only [err, run, report, exchanges, fetchRootFH_err, List.mem_singleton, forall_eq]
      exact fetchRootFHOp.exec_ok_iff hc n
  | openConfirm fh sid =>
      simp only [err, run, report, exchanges, List.mem_singleton, forall_eq]
      exact (openConfirmOp fh sid c.nextSeqid.1).exec_ok_iff (c := c.nextSeqid.2) hc n
  | closeFile fh sid =>
      simp only [err, run, report, exchanges, List.mem_singleton, forall_eq]
      exact (closeFileOp fh sid c.nextSeqid.1).exec_ok_iff (c := c.nextSeqid.2) hc n
  | _ =>
      simp only [err, run, keep, exchanges, List.mem_singleton, forall_eq]
      exact MultiOp.exec_ok_iff hc _ n

/-- **Success and performance.**  A nil error means that the server performed every operation
of every compound sent, exactly when some last reply does not read as success (and an error
is returned) or every last reply is complete: nothing is missing in it, and no operation has
failed that is not looked at. -/
theorem nil_performed_iff (hc : c.caller = .retry (sessionStack ps) cfg) (m : Method) (n : Net W) :
    (m.err E c n = none → ∀ x ∈ m.exchanges E c n, x.Performed) ↔
      (∃ x ∈ m.exchanges E c n, ¬ x.ReadsAsSuccess ps.length) ∨
        ∀ x ∈ m.exchanges E c n, x.Complete ps.length := by
  rw [err_eq_none_iff hc]
  constructor
  · intro h
    by_cases hall : ∀ x ∈ m.exchanges E c n, x.ReadsAsSuccess ps.length
    · exact Or.inr fun x hx => (hall x hx).performed_iff.mp (h hall x hx)
    · push Not at hall
      exact Or.inl hall
  · rintro (⟨x, hx, hnot⟩ | hcomplete) hall
    · exact absurd (hall x hx) hnot
    · exact fun x hx => (hall x hx).performed_iff.mpr (hcomplete x hx)

/-- A reply that performs PUTFH and REMOVE. -/
def removedReply : Bytes :=
  replyBytes nfs4Ok [⟨opPutfh, nfs4Ok, []⟩, ⟨opRemove, nfs4Ok, List.replicate 20 0⟩]

theorem nil_performed_removed :
    (Method.remove none [97]).err scriptEnv (newConn .rpc {}) (scripted [removedReply]) = none ∧
      ∀ x ∈ (Method.remove none [97]).exchanges scriptEnv (newConn .rpc {})
        (scripted [removedReply]), x.Performed := by
  have hc : (newConn .rpc {}).caller = .retry (sessionStack []) (RetryConfig.withDefaults {}) := rfl
  refine ⟨rfl, (nil_performed_iff hc (.remove none [97]) (scripted [removedReply])).mpr
    (Or.inr ?_) rfl⟩
  intro x hx
  obtain rfl := List.mem_singleton.mp hx
  refine ⟨_, _, { status := nfs4Ok, tag := [], numResults := 2 }, [nfs4Ok, nfs4Ok], rfl, rfl, rfl,
    fun i st hst _ _ => ?_⟩
  simpa using List.mem_of_getElem? hst

/-- REMOVE is reported as done when the reply has overall status NFS4_OK and no resop. -/
theorem nil_not_performed_empty :
    ¬ ((Method.remove none [97]).err scriptEnv (newConn .rpc {})
        (scripted [replyBytes nfs4Ok []]) = none →
      ∀ x ∈ (Method.remove none [97]).exchanges scriptEnv (newConn .rpc {})
        (scripted [replyBytes nfs4Ok []]), x.Performed) := by
  intro h
  obtain ⟨c, reply, r, sts, hlast, hreply, hlen, -⟩ := h rfl _ (List.mem_singleton_self _)
  obtain ⟨rfl, rfl⟩ := Event.call.inj (Option.some.inj hlast)
  obtain ⟨rfl, rfl⟩ := Prod.mk.inj (Option.some.inj hreply)
  exact absurd hlen (by decide)

end Method

end NfsClient.Nfs4
