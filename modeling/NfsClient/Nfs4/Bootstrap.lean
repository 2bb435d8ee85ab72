import NfsClient.Nfs4.Reply
import NfsClient.Nfs4.Transcript

/-!
# Error-atomic bootstrap

The single-op methods look at the status in their operation's result and discard the overall
status.  So an accepted reply with an overall status other than NFS4_OK is reported, with
that status and with the connection untouched, exactly when the status reaches the method by
another way: as the status of the operation itself, as the status of the SEQUENCE in front of
it, or as a DELAY or GRACE that the retry caller gives up on.
-/

namespace NfsClient.Nfs4

variable {W : Type} {E : Env W} {c : Conn} {ps : List ℕ} {cfg : RetryConfig}

/-- The overall status of the last reply is seen: the first SEQUENCE that failed has it, or
all of them passed and it is a retriable one or the one shown for the operation. -/
def StatusSeen (k : ℕ) (es : List Event) (r : CompoundResult) (sts : List Status) : Prop :=
  firstBad (sts.take k) = some r.status ∨
    (firstBad (sts.take k) = none ∧
      (isRetriableStatus r.status = true ∨ shownStatus k nfs4Ok es = r.status))

/-- **One single-op compound.**  On a reply with an overall status that the method does not take
for success, the method returns an error with that status exactly when the status is
seen. -/
theorem SingleOp.exec_error_iff (hc : c.caller = .retry (sessionStack ps) cfg) (m : SingleOp)
    (n : Net W) {r : CompoundResult} {sts : List Status}
    (hreply : lastReply (eventsSince n (m.exec E c n).2) = some (r, sts))
    (hacc : m.accepts r.status = false) :
    (∃ e, (m.exec E c n).1 = .error e ∧ e.asStatus = some r.status) ↔
      StatusSeen ps.length (eventsSince n (m.exec E c n).2) r sts := by
  have hv := call_verdict (E := E) hc [m.op] n
  have hres : [m.op].map Arg.decoder = [m.result] := by simp [m.result_eq]
  rw [hres] at hv
  rcases hcall : c.caller.callCompound E (c.request [m.op]) [m.result] n with ⟨⟨rs, o⟩, n'⟩
  rw [hcall] at hv
  have hexec : m.exec E c n = (m.finish (rs, o), n') := by
    simp only [SingleOp.exec, hcall]
  rw [hexec] at hreply ⊢
  unfold StatusSeen
  cases hv with
  | noReply e h ho => simp [h] at hreply
  | refused r' sts' q e h hq ho he =>
      obtain ⟨rfl, rfl⟩ : r' = r ∧ sts' = sts := by simpa [h] using hreply
      obtain rfl : o = .error e := ho
      simp [SingleOp.finish, hq, m.asStatus_wrapCall, he]
  | exhausted r' sts' h hq hr ho =>
      obtain ⟨rfl, rfl⟩ : r' = r ∧ sts' = sts := by simpa [h] using hreply
      obtain rfl : o = .error (.status r'.status) := ho
      simp [SingleOp.finish, hq, hr, m.asStatus_wrapCall]
  | answered r' r'' sts' h hq hr ho hst hstat =>
      obtain ⟨rfl, rfl⟩ : r' = r ∧ sts' = sts := by simpa [h] using hreply
      obtain rfl : o = .ok r'' := ho
      have hshown : (rs.getD 0 default).stat = shownStatus ps.length nfs4Ok (eventsSince n n') :=
        hstat 0
      simp only [SingleOp.finish, hshown, hq, hr, reduceCtorEq, Bool.false_eq_true, false_or,
        true_and]
      by_cases ht : m.accepts (shownStatus ps.length nfs4Ok (eventsSince n n')) = true
      · -- taken for success: then the status shown is another one
        have hne : shownStatus ps.length nfs4Ok (eventsSince n n') ≠ r'.status := by
          intro heq
          rw [heq, hacc] at ht
          exact absurd ht (by simp)
        simp [ht, hne]
      · simp [ht, m.asStatus_wrapStatus]

/-! ## The six methods -/

/-- The single-op methods. -/
inductive Bootstrap
  | setClientID
  | confirmClientID
  | exchangeID
  | createSession
  | reclaimComplete
  | renew
deriving DecidableEq

/-- Run a single-op method. -/
def Bootstrap.run (E : Env W) (c : Conn) (n : Net W) : Bootstrap → Conn.Ret W Unit
  | .setClientID => c.setClientID E n
  | .confirmClientID => c.confirmClientID E n
  | .exchangeID => c.exchangeID E n
  | .createSession => c.createSession E n
  | .reclaimComplete => c.reclaimComplete E n
  | .renew => c.renew E n

/-- The overall statuses that a method must report: all but NFS4_OK and, for RECLAIM_COMPLETE,
NFS4ERR_COMPLETE_ALREADY. -/
def Bootstrap.MustReport (m : Bootstrap) (s : Status) : Prop :=
  s ≠ nfs4Ok ∧ (m = .reclaimComplete → s ≠ nfs4errCompleteAlready)

/-- What bootstrap stores in the connection is unchanged. -/
structure SameState (c c' : Conn) : Prop where
  clientID : c'.clientID = c.clientID
  confirm : c'.confirm = c.confirm
  eirSequence : c'.eirSequence = c.eirSequence
  session : c'.session = c.session
  caller : c'.caller = c.caller

lemma SameState.refl (c : Conn) : SameState c c := ⟨rfl, rfl, rfl, rfl, rfl⟩

/-- A method that runs a single-op compound from `n`: an error is returned as it is, with the
connection untouched, and nothing more is sent after a success. -/
structure RunsOp (E : Env W) (c : Conn) (m : SingleOp) (n : Net W) (R : Conn.Ret W Unit) :
    Prop where
  error : ∀ e n', m.exec E c n = (.error e, n') → R = (.error e, c, n')
  ok : ∀ res n', m.exec E c n = (.ok res, n') → R.1 = .ok () ∧ R.2.2.log = n'.log

lemma runsOp_single (c : Conn) (m : SingleOp) (store : Conn → Res → Conn) (n : Net W) :
    RunsOp E c m n (c.single E m store n) := by
  constructor
  · intro e n' h
    simp only [Conn.single, h]
  · intro res n' h
    simp only [Conn.single, h, and_self]

lemma runsOp_createSession (c : Conn) (n : Net W) :
    RunsOp E c (createSessionOp c.clientID c.eirSequence) n (c.createSession E n) := by
  constructor
  · intro e n' h
    simp only [Conn.createSession, h]
  · intro res n' h
    simp only [Conn.createSession, h, and_self]

/-- EXCHANGE_ID and SETCLIENTID: nothing is sent, or a single-op compound is run from a network
with the same log. -/
lemma runsOp_introduce (c : Conn) (text : String) (op : ByteArr 8 → Bytes → SingleOp)
    (store : Conn → Res → Conn) (n : Net W) :
    (c.introduce E text op store n).2.2.log = n.log ∨
      ∃ v name n₁, n₁.log = n.log ∧
        RunsOp E c (op v name) n₁ (c.introduce E text op store n) := by
  rcases c.introduce_cases E text op store n with ⟨e, w, heq⟩ | ⟨v, name, w, heq⟩
  · exact .inl (by rw [heq])
  · refine .inr ⟨v, name, { n with world := w }, rfl, ?_⟩
    rw [heq]
    exact runsOp_single ..

/-- Every method sends nothing, or runs a compound whose operation does not take a status that
the method must report for success. -/
lemma Bootstrap.run_cases (m : Bootstrap) (c : Conn) (n : Net W) :
    (m.run E c n).2.2.log = n.log ∨
      ∃ op n₀, n₀.log = n.log ∧ (∀ s, m.MustReport s → op.accepts s = false) ∧
        RunsOp E c op n₀ (m.run E c n) := by
  cases m with
  | setClientID =>
      rcases runsOp_introduce (E := E) c "nfs4: generating clientid verifier" setClientIDOp _ n
        with h | ⟨v, name, n₀, hlog, h⟩
      · exact Or.inl h
      · exact Or.inr ⟨_, n₀, hlog, fun s hs => by simp [setClientIDOp, hs.1], h⟩
  | confirmClientID =>
      exact Or.inr ⟨confirmClientIDOp c.clientID c.confirm, n, rfl,
        fun s hs => by simp [confirmClientIDOp, hs.1], runsOp_single c _ (fun c _ => c) n⟩
  | exchangeID =>
      rcases runsOp_introduce (E := E) c "nfs4: generating exchange-id verifier" exchangeIDOp _ n
        with h | ⟨v, name, n₀, hlog, h⟩
      · exact Or.inl h
      · exact Or.inr ⟨_, n₀, hlog, fun s hs => by simp [exchangeIDOp, hs.1], h⟩
  | createSession =>
      exact Or.inr ⟨createSessionOp c.clientID c.eirSequence, n, rfl,
        fun s hs => by simp [createSessionOp, hs.1], runsOp_createSession c n⟩
  | reclaimComplete =>
      exact Or.inr ⟨reclaimCompleteOp, n, rfl,
        fun s hs => by simp [reclaimCompleteOp, hs.1, hs.2 rfl], runsOp_single c _ (fun c _ => c) n⟩
  | renew =>
      exact Or.inr ⟨renewOp c.clientID, n, rfl, fun s hs => by simp [renewOp, hs.1],
        runsOp_single c _ (fun c _ => c) n⟩

/-- **Error-atomic bootstrap.**  On an accepted reply with an overall status that the method must
report, the method returns an error with that status and leaves the connection as it was,
exactly when the status is seen. -/
theorem bootstrap_atomic_iff (hc : c.caller = .retry (sessionStack ps) cfg) (m : Bootstrap)
    (n : Net W) (r : CompoundResult) (sts : List Status)
    (hreply : lastReply (eventsSince n (m.run E c n).2.2) = some (r, sts))
    (hs : m.MustReport r.status) :
    ((∃ e, (m.run E c n).1 = .error e ∧ e.asStatus = some r.status) ∧
        SameState c (m.run E c n).2.1) ↔
      StatusSeen ps.length (eventsSince n (m.run E c n).2.2) r sts := by
  rcases m.run_cases (E := E) c n with hlog | ⟨op, n₀, hlog, hacc, hrun⟩
  · -- nothing was sent, so there is no reply
    simp [eventsSince, hlog, lastReply] at hreply
  · rcases hexec : op.exec E c n₀ with ⟨e | res, n'⟩
    · have hR := hrun.error e n' hexec
      have hes : eventsSince n (m.run E c n).2.2 = eventsSince n₀ (op.exec E c n₀).2 := by
        rw [hR, hexec, eventsSince, eventsSince, hlog]
      rw [hes] at hreply ⊢
      rw [← op.exec_error_iff hc n₀ hreply (hacc _ hs), hR, hexec]
      simp [SameState.refl c]
    · obtain ⟨hok, hlog'⟩ := hrun.ok res n' hexec
      have hes : eventsSince n (m.run E c n).2.2 = eventsSince n₀ (op.exec E c n₀).2 := by
        rw [eventsSince, eventsSince, hlog', hexec, hlog]
      rw [hes] at hreply ⊢
      rw [← op.exec_error_iff hc n₀ hreply (hacc _ hs), hok, hexec]
      simp

/-- A new v4.1 connection. -/
def newV41Conn : Conn := newConn .rpc { minorVersion := 1 }

/-- CREATE_SESSION is answered with NFS4ERR_STALE_CLIENTID, in the resop and overall. -/
def staleReply : Bytes :=
  replyBytes nfs4errStaleClientid [⟨opCreateSession, nfs4errStaleClientid, []⟩]

/-- The compound is rejected before its operation is looked at: no resop. -/
def mismatchReply : Bytes := replyBytes nfs4errMinorVersMismatch []

theorem bootstrap_atomic_stale :
    (∃ e, (Bootstrap.createSession.run scriptEnv newV41Conn (scripted [staleReply])).1 = .error e ∧
        e.asStatus = some nfs4errStaleClientid) ∧
      SameState newV41Conn
        (Bootstrap.createSession.run scriptEnv newV41Conn (scripted [staleReply])).2.1 := by
  have hc : newV41Conn.caller = .retry (sessionStack []) (RetryConfig.withDefaults {}) := rfl
  exact (bootstrap_atomic_iff hc .createSession (scripted [staleReply])
    { status := nfs4errStaleClientid, tag := [], numResults := 1 } [nfs4errStaleClientid] rfl
    ⟨by decide, by decide⟩).mpr (Or.inr ⟨rfl, Or.inr rfl⟩)

/-- CREATE_SESSION succeeds, and installs a session with id zero, when the server rejects the
minor version. -/
theorem bootstrap_not_atomic_mismatch :
    ∃ r sts, lastReply (eventsSince (scripted [mismatchReply])
        (Bootstrap.createSession.run scriptEnv newV41Conn (scripted [mismatchReply])).2.2) =
          some (r, sts) ∧
      Bootstrap.createSession.MustReport r.status ∧
      ¬ ((∃ e, (Bootstrap.createSession.run scriptEnv newV41Conn (scripted [mismatchReply])).1 =
            .error e ∧ e.asStatus = some r.status) ∧
          SameState newV41Conn
            (Bootstrap.createSession.run scriptEnv newV41Conn (scripted [mismatchReply])).2.1) := by
  refine ⟨{ status := nfs4errMinorVersMismatch, tag := [], numResults := 0 }, [], rfl,
    ⟨by decide, by decide⟩, ?_⟩
  rintro ⟨-, hsame⟩
  exact absurd hsame.session (by decide)

end NfsClient.Nfs4
