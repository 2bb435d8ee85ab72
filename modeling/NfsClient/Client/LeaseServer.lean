import NfsClient.Client.Lease
import NfsClient.Nfs4.Completeness
import NfsClient.Nfs4.MethodSpec

/-!
# The lease and the server

With `Conn.Renew` and `Conn.Mount` for the two functions of the configuration, the loop works
against a server that keeps client ids.  Here the connection speaks v4.0 and stays up.  Whatever
the server has forgotten while the loop was waiting, after the turn it knows the client id of
the connection.  On a connection that is down every RENEW fails, but not with an error that
says that the state is lost, and so the loop never recovers.

The loop renews after two thirds of the lease time.  In the time model the calls take their time
on both ways, and a lease that was not renewed in time runs out.
-/

namespace NfsClient.Client

open NfsClient.Nfs4 NfsClient.Nfs4.Format

/-- `LeaseConfig{LeasePeriod: leasePeriod, Renew: conn.Renew, Recover: conn.Mount}`. -/
def connLease {W : Type} (E : Env W) (leasePeriod : Int64 := 0) : LeaseConfig (Conn × Net W) where
  leasePeriod := leasePeriod
  renew s := match s.1.renew E s.2 with
    | (r, s') => (errorOf r, s')
  recover s := match s.1.mount E s.2 with
    | (r, s') => (errorOf r, s')

/-! ## A connection that is down -/

section Down

variable {W : Type} {E : Env W} {cfg : RetryConfig}

/-- `Renew` on a connection that is down. -/
lemma renew_down (hctx : ∀ w, (E.ctxErr w).1 = none)
    (hdown : ∀ comp w, ∃ e, (E.base comp w).1 = .error e ∧ e.asStatus = none) {c : Conn}
    (hc : c.caller = .retry .rpc cfg) (n : Net W) :
    ∃ e n', c.renew E n = (.error e, c, n') ∧ isClientStateLost e = false := by
  rcases hctx' : E.ctxErr n.world with ⟨x, w⟩
  obtain rfl : x = none := by rw [← hctx n.world, hctx']
  rcases hbase : E.base (c.request [.renew c.clientID]) w with ⟨reply, w₁⟩
  obtain ⟨e, he, hplain⟩ := hdown (c.request [.renew c.clientID]) w
  obtain rfl : reply = .error e := by rw [← he, hbase]
  have hcall : c.caller.callCompound E (c.request [(renewOp c.clientID).op])
      [(renewOp c.clientID).result] n
        = (([(renewOp c.clientID).result], .error e),
          (n.push (.ctxErr none) w).push (.call (c.request [.renew c.clientID]) (.error e))
            w₁) := by
    rw [hc]
    refine retryLoop_final hctx' ?_ (retriable_of_plain hplain)
    show Caller.callCompound E .rpc (c.request [.renew c.clientID]) _ _ = _
    simp only [Caller.callCompound, Net.push, hbase]
    rfl
  refine ⟨(renewOp c.clientID).wrapCall e,
    (n.push (.ctxErr none) w).push (.call (c.request [.renew c.clientID]) (.error e)) w₁, ?_, ?_⟩
  · simp only [Conn.renew, Conn.single, SingleOp.exec, hcall, SingleOp.finish]
  · rw [isClientStateLost, SingleOp.asStatus_wrapCall, hplain]

/-- **A broken connection is not recovered.**  While the connection is down no round of the loop
calls `Recover`, which would not help either: `Mount` uses the same connection. -/
theorem down_never_recovers (hctx : ∀ w, (E.ctxErr w).1 = none)
    (hdown : ∀ comp w, ∃ e, (E.base comp w).1 = .error e ∧ e.asStatus = none) {δ : Type}
    {wait : δ → Conn × Net W → Conn × Net W} (hwait : ∀ d s, (wait d s).1 = s.1) (ds : List δ)
    {s : Conn × Net W} (hs : s.1.caller = .retry .rpc cfg) :
    ∀ r ∈ (connLease E).rounds wait ds s, r.turn.recovered = none := by
  refine LeaseConfig.forall_rounds (I := fun s => s.1.caller = .retry .rpc cfg) ?_ hs
  intro d _ s hs
  obtain ⟨e, n', hrenew, hlost⟩ := renew_down hctx hdown
    (show (wait d s).1.caller = _ by rw [hwait]; exact hs) (wait d s).2
  have hturn : (connLease E).turn (wait d s) = ({ renewed := some e }, (wait d s).1, n') := by
    simp [LeaseConfig.turn, connLease, hrenew, errorOf, hlost]
  rw [LeaseConfig.round, hturn]
  exact ⟨rfl, by rw [hwait]; exact hs⟩

end Down

/-! ## Calls over a connection that stays up -/

section Serving

variable {F D C T : Type} {srv : Server F D}

/-- A v4.0 connection that stays up, to a server that is in time. -/
structure Serving (N : Link C) (rank : D → ℕ) (cfg : RetryConfig)
    (s : Conn × Net (World (Sessioned F) D C)) : Prop where
  uses : s.1.Uses none cfg
  steady : Steady N none s.2
  inTime : rank s.2.world.load < cfg.maxAttempts.toNat

variable {V : Durable srv T} {N : Link C} {rank : D → ℕ} {cfg : RetryConfig} {c : Conn}
  {n : Net (World (Sessioned F) D C)}

lemma Serving.v40 (h : Serving N rank cfg (c, n)) : ¬ 1 ≤ c.cfg.minorVersion :=
  fun hv => Bool.false_ne_true (h.uses.version.mpr hv)

/-- What was assumed of the connection still holds after a call that keeps its caller. -/
lemma Serving.next (h : Serving N rank cfg (c, n)) {c' : Conn}
    {n' : Net (World (Sessioned F) D C)} (hcaller : c'.caller = c.caller) (hcfg : c'.cfg = c.cfg)
    (hsteady : Steady N none n') (hrank : rank n'.world.load ≤ rank n.world.load) :
    Serving N rank cfg (c', n') where
  uses := ⟨hcaller.trans h.uses.caller, by rw [hcfg]; exact h.uses.version⟩
  steady := hsteady
  inTime := hrank.trans_lt h.inTime

/-- A single-op method whose operation succeeds. -/
lemma Serving.single_ok (hP : srv.Patience rank) (h : Serving N rank cfg (c, n)) (m : SingleOp)
    (hop : ∀ q, m.op ≠ .sequence q) (store : Conn → Res → Conn) {v : OpResult}
    (hv : (srv.exec m.op (V.enter (V.kept n))).1 = v) (hacc : m.accepts v.stat = true)
    (hcaller : ∀ r, (store c r).caller = c.caller) (hcfg : ∀ r, (store c r).cfg = c.cfg) :
    ∃ r n', r.fresh = m.op.decoder ∧
      c.single (srv.sessioned.over N) m store n = (.ok (), store c (v.store r), n') ∧
      V.kept n' = V.tree (srv.exec m.op (V.enter (V.kept n))).2 ∧
      Serving N rank cfg (store c (v.store r), n') := by
  obtain ⟨⟨r, hr, hout⟩, htree, hsteady, hrank⟩ := SingleOp.exec_completes V hP h.uses.caller m hop
    h.steady h.inTime
  rcases hexec : m.exec (srv.sessioned.over N) c n with ⟨out, n'⟩
  rw [hexec] at hout htree hsteady hrank
  rw [hv, SingleOp.judge, if_pos hacc] at hout
  refine ⟨r, n', hr, ?_, htree, h.next (hcaller _) (hcfg _) hsteady hrank⟩
  obtain rfl : out = .ok (v.store r) := hout
  simp only [Conn.single, hexec]

/-! ### Mount -/

/-- The three calls of `Mount`: SETCLIENTID hands out a client id, SETCLIENTID_CONFIRM confirms it,
and there is a root directory. -/
structure Mounts (V : Durable srv T) (before : T → Prop)
    (pending : T → UInt64 → ByteArr 8 → Prop) (confirmed after : T → UInt64 → Prop) : Prop where
  setclientid : ∀ a {t}, before t →
    ∃ id v, (srv.exec (.setclientid a) (V.enter t)).1 = .setclientid (.ok id v) ∧
      pending (V.tree (srv.exec (.setclientid a) (V.enter t)).2) id v
  confirm : ∀ {t id v}, pending t id v →
    (srv.exec (.setclientidConfirm id v) (V.enter t)).1.stat = nfs4Ok ∧
      confirmed (V.tree (srv.exec (.setclientidConfirm id v) (V.enter t)).2) id
  root : ∀ {t id}, confirmed t id →
    Server.overall (srv.execAll fetchRootFHOp.ops (V.enter t)).1 = nfs4Ok ∧
      after (V.effect fetchRootFHOp.ops t) id

variable (srv N) in
lemma clientName_served (c : Conn) (n : Net (World (Sessioned F) D C)) :
    (c.clientName (srv.sessioned.over N) n).2 = n := by
  rw [Conn.clientName]
  split <;> rfl

namespace Mounts

variable {before : T → Prop} {pending : T → UInt64 → ByteArr 8 → Prop}
  {confirmed after : T → UInt64 → Prop} (M : Mounts V before pending confirmed after)
include M

/-- `setClientID` leaves a client id that waits to be confirmed. -/
lemma setClientID_pends (hP : srv.Patience rank) (h : Serving N rank cfg (c, n))
    (hbefore : before (V.kept n)) :
    ∃ c' n', c.setClientID (srv.sessioned.over N) n = (.ok (), c', n') ∧
      Serving N rank cfg (c', n') ∧ pending (V.kept n') c'.clientID c'.confirm := by
  rcases hname : c.clientName (srv.sessioned.over N) n with ⟨name, n₁⟩
  obtain rfl : n₁ = n := by rw [← clientName_served srv N c n, hname]
  obtain ⟨id, v, hres, hpend⟩ := M.setclientid _ hbefore
  obtain ⟨r, n', hr, hcall, htree, hserving⟩ := h.single_ok hP (setClientIDOp default name)
    (by simp [setClientIDOp])
    (fun c res =>
      { c with clientID := res.toSetclientid.clientID, confirm := res.toSetclientid.confirm })
    hres rfl (fun _ => rfl) (fun _ => rfl)
  obtain ⟨q, rfl⟩ : ∃ q, r = .setclientid q := by
    cases r <;> first | exact ⟨_, rfl⟩ | cases hr
  refine ⟨_, n', ?_, hserving, ?_⟩
  · have hrand : (srv.sessioned.over N).rand n₁.world = (.ok default, n₁.world) := rfl
    simp only [Conn.setClientID, Conn.introduce, hrand, hname]
    exact hcall
  · rw [htree]
    exact hpend

/-- `confirmClientID` confirms it. -/
lemma confirmClientID_confirms (hP : srv.Patience rank) (h : Serving N rank cfg (c, n))
    (hpend : pending (V.kept n) c.clientID c.confirm) :
    ∃ n', c.confirmClientID (srv.sessioned.over N) n = (.ok (), c, n') ∧
      Serving N rank cfg (c, n') ∧ confirmed (V.kept n') c.clientID := by
  obtain ⟨hok, hconf⟩ := M.confirm hpend
  obtain ⟨-, n', -, hcall, htree, hserving⟩ := h.single_ok hP
    (confirmClientIDOp c.clientID c.confirm) (by simp [confirmClientIDOp]) (fun c _ => c) rfl
    (decide_eq_true hok) (fun _ => rfl) (fun _ => rfl)
  refine ⟨n', hcall, hserving, ?_⟩
  rw [htree]
  exact hconf

/-- `fetchRootFH` keeps the client id. -/
lemma fetchRootFH_keeps (hP : srv.Patience rank) (h : Serving N rank cfg (c, n))
    (hconf : confirmed (V.kept n) c.clientID) :
    ∃ c' n', c.fetchRootFH (srv.sessioned.over N) n = (.ok (), c', n') ∧
      Serving N rank cfg (c', n') ∧ after (V.kept n') c'.clientID := by
  obtain ⟨hok, hafter⟩ := M.root hconf
  have hfit : V.Fits (none : Option ℕ).toList.length fetchRootFHOp.ops :=
    { guards := V.guards_append [] .putrootfh [.getfh] (by simp) (by simp)
      plain := by simp [fetchRootFHOp]
      ne_nil := by simp [fetchRootFHOp]
      keeps := by simp [KeepsLast, fetchRootFHOp, Arg.decoder, Res.keeps]
      length_lt := by simp [fetchRootFHOp] }
  obtain ⟨hout, htree, hsteady, hrank⟩ := MultiOp.exec_completes V hP h.uses.caller fetchRootFHOp
    hfit h.steady h.inTime
  rcases hexec : fetchRootFHOp.exec (srv.sessioned.over N) c n with ⟨out, n'⟩
  rw [hexec] at hout htree hsteady hrank
  rw [MultiOp.judge, if_pos hok] at hout
  obtain ⟨fh, rfl⟩ : ∃ fh, out = .ok fh := ⟨_, hout⟩
  refine ⟨{ c with rootFH := fh }, n', by simp only [Conn.fetchRootFH, hexec],
    h.next rfl rfl hsteady hrank, ?_⟩
  rw [Durable.kept, htree]
  exact hafter

/-- `Mount` leaves the connection with a client id that was confirmed. -/
lemma mount_ok (hP : srv.Patience rank) (h : Serving N rank cfg (c, n))
    (hbefore : before (V.kept n)) :
    ∃ c' n', c.mount (srv.sessioned.over N) n = (.ok (), c', n') ∧ Serving N rank cfg (c', n') ∧
      after (V.kept n') c'.clientID := by
  obtain ⟨c₁, n₁, hset, h₁, hpend⟩ := M.setClientID_pends hP h hbefore
  obtain ⟨n₂, hconfirm, h₂, hconf⟩ := M.confirmClientID_confirms hP h₁ hpend
  obtain ⟨c₃, n₃, hroot, h₃, hafter⟩ := M.fetchRootFH_keeps hP h₂ hconf
  refine ⟨c₃, n₃, ?_, h₃, hafter⟩
  rw [Conn.mount, if_neg h.v40, hset]
  show Conn.andThen (c₁.confirmClientID _ n₁) _ = _
  rw [hconfirm]
  exact hroot

end Mounts

/-! ### The turns of the loop -/

/-- `Renew`, when the server refuses. -/
lemma Serving.renew_refused (hP : srv.Patience rank) (h : Serving N rank cfg (c, n))
    {st : Status} (hst : (srv.exec (.renew c.clientID) (V.enter (V.kept n))).1.stat = st)
    (hne : st ≠ nfs4Ok) :
    ∃ n', c.renew (srv.sessioned.over N) n = (.error (.status st), c, n') ∧
      Serving N rank cfg (c, n') ∧
      V.kept n' = V.tree (srv.exec (.renew c.clientID) (V.enter (V.kept n))).2 := by
  obtain ⟨⟨r, -, hout⟩, htree, hsteady, hrank⟩ := SingleOp.exec_completes V hP h.uses.caller
    (renewOp c.clientID) (by simp [renewOp]) h.steady h.inTime
  rcases hexec : (renewOp c.clientID).exec (srv.sessioned.over N) c n with ⟨out, n'⟩
  rw [hexec] at hout htree hsteady hrank
  have hout' : out = .error (.status st) := by
    rw [show out = _ from hout, SingleOp.judge, if_neg]
    · exact congrArg (fun s => Except.error (Err.status s)) hst
    · rw [show (srv.exec (renewOp c.clientID).op (V.enter (V.kept n))).1.stat = st from hst]
      simpa [renewOp] using hne
  refine ⟨n', ?_, h.next rfl rfl hsteady hrank, htree⟩
  simp only [Conn.renew, Conn.single, hexec, hout']

/-- A turn in which the server renews the lease. -/
lemma Serving.turn_renews (hP : srv.Patience rank) {s : Conn × Net (World (Sessioned F) D C)}
    (h : Serving N rank cfg s)
    (hok : (srv.exec (.renew s.1.clientID) (V.enter (V.kept s.2))).1.stat = nfs4Ok) (p : Int64) :
    ∃ n', (connLease (srv.sessioned.over N) p).turn s = ({ renewed := none }, s.1, n') ∧
      Serving N rank cfg (s.1, n') ∧
      V.kept n' = V.tree (srv.exec (.renew s.1.clientID) (V.enter (V.kept s.2))).2 := by
  rcases s with ⟨c, n⟩
  obtain ⟨-, n', -, hcall, htree, hserving⟩ := h.single_ok hP (renewOp c.clientID)
    (by simp [renewOp]) (fun c _ => c) rfl (decide_eq_true hok) (fun _ => rfl) (fun _ => rfl)
  have hrenew : c.renew (srv.sessioned.over N) n = (.ok (), c, n') := hcall
  refine ⟨n', ?_, hserving, htree⟩
  simp only [LeaseConfig.turn, connLease, hrenew, errorOf]

/-- A turn in which the server says that the state is lost. -/
lemma Mounts.turn_recovers {before : T → Prop} {pending : T → UInt64 → ByteArr 8 → Prop}
    {confirmed after : T → UInt64 → Prop} (M : Mounts V before pending confirmed after)
    (hP : srv.Patience rank) {s : Conn × Net (World (Sessioned F) D C)} (h : Serving N rank cfg s)
    {st : Status} (hst : (srv.exec (.renew s.1.clientID) (V.enter (V.kept s.2))).1.stat = st)
    (hlost : isClientStateLost (.status st) = true)
    (hbefore : before (V.tree (srv.exec (.renew s.1.clientID) (V.enter (V.kept s.2))).2))
    (p : Int64) :
    ∃ c' n', (connLease (srv.sessioned.over N) p).turn s
        = ({ renewed := some (.status st), recovered := some none }, c', n') ∧
      Serving N rank cfg (c', n') ∧ after (V.kept n') c'.clientID := by
  rcases s with ⟨c, n⟩
  have hne : st ≠ nfs4Ok := by
    rintro rfl
    exact absurd hlost (by decide)
  obtain ⟨n₁, hrenew, h₁, htree⟩ := h.renew_refused hP hst hne
  obtain ⟨c', n', hmount, hserving, hafter⟩ := M.mount_ok hP h₁ (by rw [htree]; exact hbefore)
  refine ⟨c', n', ?_, hserving, hafter⟩
  simp only [LeaseConfig.turn, connLease, hrenew, errorOf, hlost, if_true, hmount]

end Serving

/-! ## Recovering -/

section Recovering

variable {F D C T : Type} {srv : Server F D} {V : Durable srv T} {N : Link C} {rank : D → ℕ}
  {cfg : RetryConfig}

/-- A server that keeps client ids.  SETCLIENTID hands out an id that SETCLIENTID_CONFIRM then
confirms; RENEW succeeds for a confirmed id, and tells that the state is lost for any other. -/
structure ClientIDs (V : Durable srv T) where
  pending : T → UInt64 → ByteArr 8 → Prop
  confirmed : T → UInt64 → Prop
  mounts : Mounts V (fun _ => True) pending confirmed confirmed
  renew : ∀ {t id}, confirmed t id → (srv.exec (.renew id) (V.enter t)).1.stat = nfs4Ok ∧
    confirmed (V.tree (srv.exec (.renew id) (V.enter t)).2) id
  refuse : ∀ {t id}, ¬ confirmed t id →
    isClientStateLost (.status (srv.exec (.renew id) (V.enter t)).1.stat) = true

/-- What happens to the server while the loop waits: whatever lasts of its state is replaced, and
it may have become busy. -/
structure Upset (T D : Type) where
  tree : T
  load : D

def Upset.strike (V : Durable srv T) (u : Upset T D) (s : Conn × Net (World (Sessioned F) D C)) :
    Conn × Net (World (Sessioned F) D C) :=
  (s.1, { s.2 with world := { s.2.world with
    files := { s.2.world.files with base := V.enter u.tree }, load := u.load } })

/-- After a round the client id of the connection is confirmed, and `Recover` was called just if it
was not so before. -/
structure Healed (I : ClientIDs V)
    (r : LeaseConfig.Round (Conn × Net (World (Sessioned F) D C))) : Prop where
  confirmed : I.confirmed (V.kept r.after.2) r.after.1.clientID
  kept : I.confirmed (V.kept r.before.2) r.before.1.clientID →
    r.turn = { renewed := none } ∧ r.after.1 = r.before.1
  recovered : ¬ I.confirmed (V.kept r.before.2) r.before.1.clientID →
    r.turn.recovered = some none

lemma round_heals (I : ClientIDs V) (hP : srv.Patience rank)
    {s : Conn × Net (World (Sessioned F) D C)} (h : Serving N rank cfg s) :
    Healed I ((connLease (srv.sessioned.over N)).round s) ∧
      Serving N rank cfg ((connLease (srv.sessioned.over N)).turn s).2 := by
  rcases s with ⟨c, n⟩
  by_cases hconf : I.confirmed (V.kept n) c.clientID
  · obtain ⟨hok, hkeep⟩ := I.renew hconf
    obtain ⟨n', hturn, hserving, htree⟩ := h.turn_renews hP hok 0
    rw [LeaseConfig.round, hturn]
    exact ⟨⟨by rw [htree]; exact hkeep, fun _ => ⟨rfl, rfl⟩, fun hne => absurd hconf hne⟩, hserving⟩
  · obtain ⟨c', n', hturn, hserving, hnew⟩ := I.mounts.turn_recovers hP h rfl (I.refuse hconf)
      trivial 0
    rw [LeaseConfig.round, hturn]
    exact ⟨⟨hnew, fun hc => absurd hc hconf, fun _ => rfl⟩, hserving⟩

/-- **The loop heals the client's state.**  Let a v4.0 connection stay up: every reply arrives, no
context ends, and between two rounds the server puts off fewer operations than a call has
attempts; and let the server take every SETCLIENTID.  Then whatever becomes of the server's state
between the rounds, and whatever client id the connection starts with: every round ends with a
client id that the server has confirmed, and calls `Recover` exactly if it had not. -/
theorem lease_heals (I : ClientIDs V) (hP : srv.Patience rank) {us : List (Upset T D)}
    (hus : ∀ u ∈ us, rank u.load < cfg.maxAttempts.toNat)
    {s : Conn × Net (World (Sessioned F) D C)} (h : Serving N rank cfg s) :
    ∀ r ∈ (connLease (srv.sessioned.over N)).rounds (Upset.strike V) us s, Healed I r := by
  refine LeaseConfig.forall_rounds (I := Serving N rank cfg) ?_ h
  intro u hu s hs
  have hstruck : Serving N rank cfg (u.strike V s) :=
    { uses := hs.uses
      steady := ⟨hs.steady.link, by simp, by simp⟩
      inTime := hus u hu }
  exact round_heals I hP hstruck

/-- **`WithRetry` hides that the state was lost.**  Let `fn` succeed while the client id is
confirmed, and tell that the state is lost otherwise.  Over such a connection it then succeeds,
after a recovery if need be. -/
theorem withRetry_ok (I : ClientIDs V) (hP : srv.Patience rank)
    {fn : Conn × Net (World (Sessioned F) D C) →
      Option Err × (Conn × Net (World (Sessioned F) D C))}
    (hfn : ∀ s, Serving N rank cfg s → I.confirmed (V.kept s.2) s.1.clientID → (fn s).1 = none)
    (hlost : ∀ s, Serving N rank cfg s → ¬ I.confirmed (V.kept s.2) s.1.clientID →
      ∃ e s', fn s = (some e, s') ∧ isClientStateLost e = true ∧ Serving N rank cfg s')
    {s : Conn × Net (World (Sessioned F) D C)} (h : Serving N rank cfg s) :
    ((connLease (srv.sessioned.over N)).withRetry fn s).1 = none := by
  by_cases hconf : I.confirmed (V.kept s.2) s.1.clientID
  · rcases hs : fn s with ⟨e, s'⟩
    obtain rfl : e = none := by rw [← hfn s h hconf, hs]
    simp only [LeaseConfig.withRetry, hs]
  · obtain ⟨e, ⟨c, n⟩, hs, he, h'⟩ := hlost s h hconf
    obtain ⟨c', n', hmount, hserving, hnew⟩ := I.mounts.mount_ok hP h' trivial
    simp only [LeaseConfig.withRetry, hs, he, connLease, hmount, errorOf, Bool.not_true,
      Bool.false_eq_true, if_false]
    exact hfn _ hserving hnew

end Recovering

/-! ### A server of client ids -/

/-- The client ids that a server has handed out and those that it has confirmed. -/
structure IDTable where
  last : UInt64 := 0
  pending : List UInt64 := []
  confirmed : List UInt64 := []

lemma access_failed : nfs4errAccess ≠ nfs4Ok ∧ nfs4errAccess ≠ nfs4errClidInuse := by decide

lemma delay_failed : nfs4errDelay ≠ nfs4Ok ∧ nfs4errDelay ≠ nfs4errClidInuse := by decide

/-- The operations on the table, and the root directory. -/
def IDTable.exec (a : Arg) (t : IDTable) : OpResult × IDTable :=
  match a with
  | .setclientid _ =>
    (.setclientid (.ok (t.last + 1) default),
      { t with last := t.last + 1, pending := (t.last + 1) :: t.pending })
  | .setclientidConfirm id _ =>
    (.status opSetclientidConfirm (if id ∈ t.pending then nfs4Ok else nfs4errStaleClientid),
      { t with confirmed := if id ∈ t.pending then id :: t.confirmed else t.confirmed })
  | .renew id =>
    (.status opRenew (if id ∈ t.confirmed then nfs4Ok else nfs4errStaleClientid), t)
  | .putrootfh => (.status opPutrootfh nfs4Ok, t)
  | .getfh => (.getfh (.ok emptyTag), t)
  | a => (failedResult nfs4errAccess access_failed a, t)

lemma IDTable.kind_exec (a : Arg) (t : IDTable) : (IDTable.exec a t).1.kind = a.decoder := by
  cases a <;> rfl

lemma IDTable.stat_exec (a : Arg) (t : IDTable) :
    isRetriableStatus (IDTable.exec a t).1.stat = false := by
  cases a with
  | setclientidConfirm id v =>
      show isRetriableStatus (if id ∈ t.pending then nfs4Ok else nfs4errStaleClientid) = false
      split <;> rfl
  | renew id =>
      show isRetriableStatus (if id ∈ t.confirmed then nfs4Ok else nfs4errStaleClientid) = false
      split <;> rfl
  | _ => rfl

/-- A server that puts RENEW off as often as its load says. -/
def idServer : Server IDTable ℕ where
  tag := emptyTag
  start := id
  putOff a _ load :=
    match a, load with
    | .renew id, load + 1 => (some (failedResult nfs4errDelay delay_failed (.renew id)), load)
    | _, load => (none, load)
  exec := IDTable.exec
  kind_putOff := by
    intro a f d v h
    split at h
    · obtain rfl := Option.some.inj h
      rfl
    · simp at h
  kind_exec := IDTable.kind_exec
  stat_putOff := by
    intro a f d v h
    split at h
    · obtain rfl := Option.some.inj h
      rfl
    · simp at h
  stat_exec := IDTable.stat_exec
  putOff_getfh _ _ := rfl

lemma idServer_patience : idServer.Patience id where
  putOff := by
    intro a f d v h
    simp only [idServer] at h ⊢
    split at h
    · exact Nat.lt_succ_self _
    · simp at h
  goOn := by
    intro a f d h
    simp only [idServer] at h ⊢
    split
    · exact Nat.le_succ _
    · exact le_rfl

/-- The whole table lasts. -/
def idDurable : Durable idServer IDTable where
  tree := id
  enter := id
  tree_enter _ := rfl
  start_eq _ := rfl

lemma idDurable_mounts : Mounts idDurable (fun _ => True) (fun t id _ => id ∈ t.pending)
    (fun t id => id ∈ t.confirmed) (fun t id => id ∈ t.confirmed) where
  setclientid _ t _ := ⟨t.last + 1, default, rfl, List.mem_cons_self⟩
  confirm {t id v} h := by
    refine ⟨if_pos h, ?_⟩
    show id ∈ if id ∈ t.pending then id :: t.confirmed else t.confirmed
    rw [if_pos h]
    exact List.mem_cons_self
  root h := ⟨rfl, h⟩

def idTables : ClientIDs idDurable where
  pending t id _ := id ∈ t.pending
  confirmed t id := id ∈ t.confirmed
  mounts := idDurable_mounts
  renew {t id} h := ⟨if_pos h, h⟩
  refuse {t id} h := by
    show isClientStateLost (.status (if id ∈ t.confirmed then nfs4Ok else nfs4errStaleClientid)) = _
    rw [if_neg h]
    rfl

/-- The server knows no client id at first, has forgotten everything when the second round starts,
and is busy then. -/
def upsets : List (Upset IDTable ℕ) := [⟨{}, 0⟩, ⟨{}, 3⟩, ⟨{ confirmed := [1] }, 1⟩]

/-- A connection that was not mounted. -/
def unmounted : Conn × Net (World (Sessioned IDTable) ℕ Unit) :=
  (newConn .rpc {},
    { world := { files := { base := {}, sessions := fun _ => none }, load := 0, contexts := () } })

theorem lease_heals_twice :
    (∀ r ∈ (connLease (idServer.sessioned.over alwaysOn.reliable)).rounds (Upset.strike idDurable)
        upsets unmounted, Healed idTables r) ∧
    ((connLease (idServer.sessioned.over alwaysOn.reliable)).rounds (Upset.strike idDurable)
        upsets unmounted).map (·.turn.recovered) = [some none, some none, none] := by
  have hserving : Serving alwaysOn.reliable id (RetryConfig.withDefaults {}) unmounted :=
    { uses := ⟨rfl, by decide⟩
      steady := ⟨alwaysOn_open, by simp, by simp⟩
      inTime := by decide }
  exact ⟨lease_heals idTables idServer_patience (by decide) hserving, by decide +kernel⟩

/-! ## Renewing in time -/

/-- How long a call is on its way there and back, in nanoseconds. -/
structure Trip where
  there : ℕ
  back : ℕ

/-- The leases of a server, and the time. -/
structure LeaseTable where
  now : ℕ := 0
  /-- The trips of the calls to come. -/
  trips : List Trip := []
  last : UInt64 := 0
  pending : List UInt64 := []
  /-- When the leases of the confirmed client ids run out. -/
  expires : UInt64 → Option ℕ := fun _ => none

namespace LeaseTable

/-- The lease of a client id starts anew. -/
def grant (lease : ℕ) (id : UInt64) (t : LeaseTable) : LeaseTable :=
  { t with expires := fun i => if i = id then some (t.now + lease) else t.expires i }

/-- The client makes a call: the server acts when the call has arrived, and the answer is back
later. -/
def call (act : LeaseTable → OpResult × LeaseTable) (t : LeaseTable) : OpResult × LeaseTable :=
  match t.trips with
  | [] => act t
  | d :: ds =>
    match act { t with now := t.now + d.there, trips := ds } with
    | (v, t') => (v, { t' with now := t'.now + d.back })

/-- RENEW. -/
def renew (lease : ℕ) (id : UInt64) (t : LeaseTable) : OpResult × LeaseTable :=
  match t.expires id with
  | none => (.status opRenew nfs4errStaleClientid, t)
  | some e =>
    if t.now ≤ e then (.status opRenew nfs4Ok, t.grant lease id)
    else (.status opRenew nfs4errExpired, t)

/-- SETCLIENTID_CONFIRM. -/
def confirm (lease : ℕ) (id : UInt64) (t : LeaseTable) : OpResult × LeaseTable :=
  if id ∈ t.pending then (.status opSetclientidConfirm nfs4Ok, t.grant lease id)
  else (.status opSetclientidConfirm nfs4errStaleClientid, t)

/-- The operations of `Renew` and `Mount`.  Each of them starts a call, but for GETFH, which comes
with PUTROOTFH. -/
def exec (lease : ℕ) (a : Arg) (t : LeaseTable) : OpResult × LeaseTable :=
  match a with
  | .setclientid _ => t.call fun t =>
      (.setclientid (.ok (t.last + 1) default),
        { t with last := t.last + 1, pending := (t.last + 1) :: t.pending })
  | .setclientidConfirm id _ => t.call (confirm lease id)
  | .renew id => t.call (renew lease id)
  | .putrootfh => t.call fun t => (.status opPutrootfh nfs4Ok, t)
  | .getfh => (.getfh (.ok emptyTag), t)
  | a => (failedResult nfs4errAccess access_failed a, t)

/-- Every call takes at most the given time. -/
def Prompt (rtt : ℕ) (t : LeaseTable) : Prop := ∀ d ∈ t.trips, d.there + d.back ≤ rtt

/-- What a call does, given what the server does with it. -/
lemma call_cases {rtt : ℕ} {t : LeaseTable} (h : t.Prompt rtt)
    (act : LeaseTable → OpResult × LeaseTable) :
    ∃ there back trips, there + back ≤ rtt ∧ (∀ d ∈ trips, d.there + d.back ≤ rtt) ∧
      t.call act = ((act { t with now := t.now + there, trips }).1,
        { (act { t with now := t.now + there, trips }).2 with
          now := (act { t with now := t.now + there, trips }).2.now + back }) := by
  cases htrips : t.trips with
  | nil =>
      refine ⟨0, 0, [], Nat.zero_le _, by simp, ?_⟩
      have ht : { t with now := t.now + 0, trips := [] } = t := by
        rw [← htrips]
        rfl
      rw [ht, call, htrips]
      rfl
  | cons d ds =>
      rw [Prompt, htrips] at h
      refine ⟨d.there, d.back, ds, h d List.mem_cons_self,
        fun e he => h e (List.mem_cons_of_mem d he), ?_⟩
      rw [call, htrips]

lemma call_fst (act : LeaseTable → OpResult × LeaseTable) (t : LeaseTable) :
    ∃ t', (t.call act).1 = (act t').1 := by
  unfold call
  split
  · exact ⟨t, rfl⟩
  · exact ⟨_, rfl⟩

/-- The results are of the kinds that the client expects, and none asks it to try again. -/
lemma exec_sound (lease : ℕ) (a : Arg) (t : LeaseTable) :
    (exec lease a t).1.kind = a.decoder ∧ isRetriableStatus (exec lease a t).1.stat = false := by
  cases a with
  | setclientid a =>
      obtain ⟨t', h⟩ := call_fst (fun t : LeaseTable => (.setclientid (.ok (t.last + 1) default),
        { t with last := t.last + 1, pending := (t.last + 1) :: t.pending })) t
      rw [show (exec lease (.setclientid a) t).1 = _ from h]
      exact ⟨rfl, rfl⟩
  | setclientidConfirm id v =>
      obtain ⟨t', h⟩ := call_fst (confirm lease id) t
      rw [show (exec lease (.setclientidConfirm id v) t).1 = _ from h, confirm]
      split <;> exact ⟨rfl, rfl⟩
  | renew id =>
      obtain ⟨t', h⟩ := call_fst (renew lease id) t
      rw [show (exec lease (.renew id) t).1 = _ from h, renew]
      split
      · exact ⟨rfl, rfl⟩
      · split <;> exact ⟨rfl, rfl⟩
  | putrootfh =>
      obtain ⟨t', h⟩ := call_fst (fun t => (.status opPutrootfh nfs4Ok, t)) t
      rw [show (exec lease .putrootfh t).1 = _ from h]
      exact ⟨rfl, rfl⟩
  | _ => exact ⟨rfl, rfl⟩

end LeaseTable

/-- A server that grants leases and puts nothing off. -/
def leaseServer (lease : ℕ) : Server LeaseTable Unit where
  tag := emptyTag
  start := id
  putOff _ _ load := (none, load)
  exec := LeaseTable.exec lease
  kind_putOff h := by simp at h
  kind_exec a t := (LeaseTable.exec_sound lease a t).1
  stat_putOff h := by simp at h
  stat_exec a t := (LeaseTable.exec_sound lease a t).2
  putOff_getfh _ _ := rfl

/-- The whole table lasts. -/
def leaseDurable (lease : ℕ) : Durable (leaseServer lease) LeaseTable where
  tree := id
  enter := id
  tree_enter _ := rfl
  start_eq _ := rfl

namespace LeaseTable

/-- The calls to come are prompt, and the lease of the client id has been granted not longer than
`age` ago. -/
structure Held (lease rtt age : ℕ) (t : LeaseTable) (id : UInt64) : Prop where
  prompt : t.Prompt rtt
  granted : ∃ e, t.expires id = some e ∧ t.now + lease ≤ e + age

variable {lease rtt : ℕ}

lemma Held.mono {age age' : ℕ} {t : LeaseTable} {id : UInt64} (h : t.Held lease rtt age id)
    (hle : age ≤ age') : t.Held lease rtt age' id := by
  obtain ⟨e, he, hnow⟩ := h.granted
  exact ⟨h.prompt, e, he, by omega⟩

/-- The server grants a lease in a call. -/
lemma held_grant {t : LeaseTable} {id : UInt64} {trips : List Trip} {there back : ℕ}
    (hd : there + back ≤ rtt) (htrips : ∀ d ∈ trips, d.there + d.back ≤ rtt) :
    Held lease rtt rtt
      { grant lease id { t with now := t.now + there, trips } with now := t.now + there + back }
      id where
  prompt := htrips
  granted := by
    refine ⟨t.now + there + lease, if_pos rfl, ?_⟩
    show t.now + there + back + lease ≤ t.now + there + lease + rtt
    omega

/-- RENEW for a lease that is not older than the lease time when the call has arrived. -/
lemma Held.renew {age : ℕ} (hage : age + rtt ≤ lease) {t : LeaseTable} {id : UInt64}
    (h : t.Held lease rtt age id) :
    (exec lease (.renew id) t).1.stat = nfs4Ok ∧
      (exec lease (.renew id) t).2.Held lease rtt rtt id := by
  obtain ⟨e, he, hnow⟩ := h.granted
  obtain ⟨there, back, trips, hd, htrips, hcall⟩ := call_cases h.prompt (LeaseTable.renew lease id)
  have hrenew : LeaseTable.renew lease id { t with now := t.now + there, trips }
      = (.status opRenew nfs4Ok, grant lease id { t with now := t.now + there, trips }) := by
    have hin : t.now + there ≤ e := by omega
    simp only [LeaseTable.renew, he, if_pos hin]
  rw [hrenew] at hcall
  rw [show exec lease (.renew id) t = _ from hcall]
  exact ⟨rfl, held_grant hd htrips⟩

/-- A mount leaves a lease that was granted in its second call, and lasts for the third. -/
lemma mounts (lease rtt : ℕ) : Mounts (leaseDurable lease) (Prompt rtt)
    (fun t id _ => t.Prompt rtt ∧ id ∈ t.pending) (Held lease rtt rtt)
    (Held lease rtt (2 * rtt)) where
  setclientid a t h := by
    obtain ⟨there, back, trips, -, htrips, hcall⟩ := call_cases h fun t : LeaseTable =>
      (.setclientid (.ok (t.last + 1) default),
        { t with last := t.last + 1, pending := (t.last + 1) :: t.pending })
    refine ⟨t.last + 1, default, congrArg Prod.fst hcall, ?_⟩
    rw [show (leaseServer lease).exec (.setclientid a) ((leaseDurable lease).enter t) = _
      from hcall]
    exact ⟨htrips, List.mem_cons_self⟩
  confirm {t id v} h := by
    obtain ⟨there, back, trips, hd, htrips, hcall⟩ := call_cases h.1 (confirm lease id)
    have hconf : confirm lease id { t with now := t.now + there, trips }
        = (.status opSetclientidConfirm nfs4Ok,
          grant lease id { t with now := t.now + there, trips }) := if_pos h.2
    rw [hconf] at hcall
    rw [show (leaseServer lease).exec (.setclientidConfirm id v) ((leaseDurable lease).enter t) = _
      from hcall]
    exact ⟨rfl, held_grant hd htrips⟩
  root {t id} h := by
    obtain ⟨there, back, trips, hd, htrips, hcall⟩ := call_cases h.prompt fun t : LeaseTable =>
      (.status opPutrootfh nfs4Ok, t)
    have hall := (leaseServer lease).execAll_cons_ok
      (show (leaseServer lease).exec .putrootfh t = _ from hcall) rfl [.getfh]
    obtain ⟨e, he, hnow⟩ := h.granted
    rw [Durable.effect, show (leaseServer lease).execAll fetchRootFHOp.ops
      ((leaseDurable lease).enter t) = _ from hall]
    refine ⟨rfl, htrips, e, he, ?_⟩
    show t.now + there + back + lease ≤ e + 2 * rtt
    omega

end LeaseTable

/-- The wait for the timer: by how much it fires late, and whether the server drops its client ids
meanwhile. -/
structure Wait where
  late : ℕ
  drops : Bool := false

namespace Wait

/-- What the turn after it does. -/
def outcome (w : Wait) : LeaseConfig.Turn :=
  if w.drops then { renewed := some (.status nfs4errStaleClientid), recovered := some none }
  else { renewed := none }

end Wait

section InTime

variable {C : Type} {N : Link C} {cfg : RetryConfig} {lease late rtt : ℕ}

end InTime

end NfsClient.Client
