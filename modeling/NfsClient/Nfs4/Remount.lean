import NfsClient.Lib.Run
import NfsClient.Nfs4.SequenceLog

/-!
# SEQUENCE across mounts

A v4.1 connection installs its session caller in `createSession`, by changing the caller
stack in place.  The log follows the rule for SEQUENCE as long as `Mount` is only issued on a
connection without a session.  A second `Mount` sends EXCHANGE_ID and CREATE_SESSION through
the session caller that is installed already, and stacks another one on top of it.
-/

namespace NfsClient.Nfs4

open NfsClient.Lib

variable {W : Type} {E : Env W}

/-! ## The shape of the caller stack -/

/-- The invariant of a connection that is never mounted on top of a session: at most one
session caller beneath the retry caller, the log follows the rule so far, and the session
created last is the one of the session caller. -/
structure Chain (c : Conn) (n : Net W) : Prop where
  caller : ∃ cfg, c.caller = .retry (sessionStack c.session.toList) cfg
  obeys : obeys none n.log = true
  current : currentSession none n.log = none ∨
    ∃ p, c.session = some p ∧ currentSession none n.log = some (n.session p).id

variable {c c' : Conn} {n n' : Net W}

/-- The invariant looks at the caller and the session of the connection only. -/
lemma Chain.congr (h : Chain c n) (hcaller : c'.caller = c.caller)
    (hses : c'.session = c.session) : Chain c' n := by
  obtain ⟨h₁, h₂, h₃⟩ := h
  exact ⟨by rw [hcaller, hses]; exact h₁, h₂, by rw [hses]; exact h₃⟩

/-- Compounds that follow the rule and create no session keep the invariant. -/
lemma Chain.extend {es : List Event} (h : Chain c n) (hlog : n'.log = n.log ++ es)
    (hids : n.SameIDs n')
    (hcalls : ∀ comp reply, .call comp reply ∈ es →
      wellSequenced (currentSession none n.log) comp = true ∧
        (Event.call comp reply).created = none) : Chain c n' := by
  obtain ⟨hobeys, hcur⟩ := obeys_of_calls hcalls
  refine ⟨h.caller, ?_, ?_⟩
  · rw [hlog, obeys_append, h.obeys, hobeys]
    rfl
  · rw [hlog, currentSession_append, hcur]
    rcases h.current with hnone | ⟨p, hp, hsome⟩
    · exact Or.inl hnone
    · refine Or.inr ⟨p, hp, ?_⟩
      rw [hsome, Net.session_id, Net.session_id, hids]

/-- A call with ordinary operations keeps the invariant. -/
lemma Chain.call (h : Chain c n) {comp : Compound} (hord : comp.ops.all Arg.isOrdinary = true)
    (rs : List Res) : Chain c (c.caller.callCompound E comp rs n).2 := by
  obtain ⟨cfg, hcaller⟩ := h.caller
  rw [hcaller]
  obtain ⟨es, hlog, htr, hids⟩ := transcript_of_call (E := E) cfg c.session.toList comp rs n
  refine h.extend hlog hids fun comp' reply hmem => ?_
  have hpre := htr.calls hmem
  have hstack : currentSession none n.log = none ∨
      ∃ id, currentSession none n.log = some id ∧ n.stackIDs c.session.toList = [id] := by
    rcases h.current with hnone | ⟨p, hp, hsome⟩
    · exact Or.inl hnone
    · exact Or.inr ⟨_, hsome, by simp [Net.stackIDs, hp]⟩
  refine ⟨wellSequenced_ordinary hord hstack hpre, created_eq_none ?_⟩
  intro a ha args heq
  obtain ⟨qs, -, hops⟩ := hpre
  rw [hops] at ha
  rcases List.mem_append.mp ha with ha | ha
  · obtain ⟨q, -, rfl⟩ := List.mem_map.mp ha
    cases heq
  · have := List.all_eq_true.mp hord a ha
    rw [heq] at this
    exact absurd this (by simp [Arg.isOrdinary, Arg.isBootstrap])

lemma Chain.multi {α : Type} (h : Chain c n) (m : MultiOp α)
    (hord : m.ops.all Arg.isOrdinary = true) : Chain c (m.exec E c n).2 :=
  h.call (by rw [request_ops]; exact hord) _

/-! ## The steps of a connection -/

/-- The invariant after a method. -/
def Conn.Ret.Chained {α : Type} (r : Conn.Ret W α) : Prop := Chain r.2.1 r.2.2

lemma Chain.world (h : Chain c n) (w : W) : Chain c { n with world := w } :=
  ⟨h.caller, h.obeys, h.current⟩

lemma Chain.single (m : SingleOp) (store : Conn → Res → Conn)
    (h : Chain c (m.exec E c n).2)
    (hstore : ∀ res, (store c res).caller = c.caller ∧ (store c res).session = c.session) :
    (c.single E m store n).Chained ∧ (c.single E m store n).2.1.session = c.session := by
  unfold Conn.Ret.Chained Conn.single
  rcases hexec : m.exec E c n with ⟨e | res, n'⟩
  · rw [hexec] at h
    exact ⟨h, rfl⟩
  · rw [hexec] at h
    exact ⟨h.congr (hstore res).1 (hstore res).2, (hstore res).2⟩

lemma Chain.introduce (h : Chain c n) {text : String} {op : ByteArr 8 → Bytes → SingleOp}
    {store : Conn → Res → Conn}
    (hk : ∀ v name n', Chain c n' → (c.single E (op v name) store n').Chained ∧
      (c.single E (op v name) store n').2.1.session = c.session) :
    (c.introduce E text op store n).Chained ∧
      (c.introduce E text op store n).2.1.session = c.session := by
  rcases c.introduce_cases E text op store n with ⟨e, w, heq⟩ | ⟨v, name, w, heq⟩
  · rw [heq]
    exact ⟨h.world w, rfl⟩
  · rw [heq]
    exact hk v name _ (h.world w)

/-- A compound that sets up or tears down a session, sent past all session callers, keeps the
invariant if it is no CREATE_SESSION. -/
lemma Chain.bootstrap {es : List Event} (h : Chain c n) {comp : Compound} {a : Arg}
    (hops : comp.ops = [a]) (ha : a.isBootstrap = true) (hne : ∀ args, a ≠ .createSession args)
    (hlog : n'.log = n.log ++ es) (hids : n.SameIDs n')
    (hcalls : ∀ comp' reply, .call comp' reply ∈ es → Prefixed [] comp comp') : Chain c n' := by
  refine h.extend hlog hids fun comp' reply hmem => ?_
  have hpre := hcalls comp' reply hmem
  have hseq : a.isSequence = false := by
    cases a <;> first | rfl | simp [Arg.isBootstrap] at ha
  refine ⟨wellSequenced_bootstrap (by simp [hops, ha]) (by simp [hops, hseq]) hpre,
    created_eq_none ?_⟩
  obtain ⟨qs, hqs, hops'⟩ := hpre
  obtain rfl : qs = [] := by simpa using hqs
  rw [hops', hops]
  intro a' ha'
  obtain rfl : a' = a := by simpa using ha'
  exact hne

lemma Chain.caller_none (h : Chain c n) (hses : c.session = none) :
    ∃ cfg, c.caller = .retry (sessionStack []) cfg := by
  obtain ⟨cfg, hcaller⟩ := h.caller
  exact ⟨cfg, by rw [hcaller, hses]; rfl⟩

/-- EXCHANGE_ID without a session. -/
lemma Chain.exchangeID (h : Chain c n) (hses : c.session = none) :
    (c.exchangeID E n).Chained ∧ (c.exchangeID E n).2.1.session = none := by
  have hexec : ∀ v name n', Chain c n' → Chain c ((exchangeIDOp v name).exec E c n').2 := by
    intro v name n' h
    obtain ⟨cfg, hcaller⟩ := h.caller_none hses
    obtain ⟨es, hlog, htr, hids⟩ := transcript_of_call (E := E) cfg []
      (c.request [(exchangeIDOp v name).op]) [(exchangeIDOp v name).result] n'
    rw [← hcaller] at hlog hids
    exact h.bootstrap (request_ops ..) rfl (by simp [exchangeIDOp]) hlog hids
      fun _ _ hmem => htr.calls hmem
  rw [← hses]
  refine h.introduce fun v name n' h' => ?_
  exact Chain.single _ _ (hexec v name n' h') fun res => ⟨rfl, rfl⟩

/-- CREATE_SESSION without a session: the session caller that is installed names the session
that was created. -/
lemma Chain.createSession (h : Chain c n) (hses : c.session = none) :
    (c.createSession E n).Chained := by
  obtain ⟨cfg, hcaller⟩ := h.caller_none hses
  have hcur : currentSession none n.log = none := by
    rcases h.current with hnone | ⟨p, hp, -⟩
    · exact hnone
    · simp [hses] at hp
  set m := createSessionOp c.clientID c.eirSequence with hm
  obtain ⟨es, hlog, htr, -⟩ := transcript_of_call (E := E) cfg [] (c.request [m.op]) [m.result] n
  rw [← hcaller] at hlog htr
  have hcalls : ∀ comp reply, .call comp reply ∈ es → ∀ cur, wellSequenced cur comp = true :=
    fun comp reply hmem cur => wellSequenced_bootstrap (by rw [request_ops]; rfl)
      (by rw [request_ops]; rfl) (htr.calls hmem)
  have hcreated := Transcript.created (request_ops c [m.op]) htr rfl
  unfold Conn.Ret.Chained Conn.createSession
  rw [← hm]
  simp only [SingleOp.exec]
  rcases hcall : c.caller.callCompound E (c.request [m.op]) [m.result] n with ⟨out, n'⟩
  rw [hcall] at hlog hcreated
  have hobeys : Nfs4.obeys none n'.log = true := by
    rw [hlog, obeys_append, h.obeys, obeys_of_any hcalls]
    rfl
  have hcur' : currentSession none n'.log = currentSession none es := by
    rw [hlog, currentSession_append, hcur]
  rcases hcreated with hnone | ⟨r, cr, hout, hok, hsome⟩
  · -- no session was created, whatever the method believes
    rw [← hcur'] at hnone
    cases m.finish out with
    | error e => exact ⟨h.caller, hobeys, Or.inl hnone⟩
    | ok res => exact ⟨⟨cfg, by rw [hcaller]; rfl⟩, hobeys, Or.inl hnone⟩
  · obtain rfl : out = ([.createSession r], .ok cr) := hout
    have hfinish : m.finish ([.createSession r], .ok cr) = .ok (.createSession r) := by
      simp [SingleOp.finish, hm, createSessionOp, Res.stat, hok]
    rw [hfinish]
    refine ⟨⟨cfg, by rw [hcaller]; rfl⟩, hobeys, Or.inr ⟨n'.sessions.length, rfl, ?_⟩⟩
    simp only [hcur', hsome, Net.session, Res.toCreateSession, newSession]
    simp

/-- A single-op method with an ordinary operation. -/
lemma Chain.ordinary (h : Chain c n) (m : SingleOp) (hord : m.op.isOrdinary = true)
    (store : Conn → Res → Conn)
    (hstore : ∀ res, (store c res).caller = c.caller ∧ (store c res).session = c.session) :
    (c.single E m store n).Chained ∧ (c.single E m store n).2.1.session = c.session :=
  Chain.single m store (h.call (by simp [hord]) _) hstore

lemma Chain.fetchRootFH (h : Chain c n) : (c.fetchRootFH E n).Chained := by
  have hexec := h.multi (E := E) fetchRootFHOp rfl
  unfold Conn.Ret.Chained Conn.fetchRootFH
  rcases hm : fetchRootFHOp.exec E c n with ⟨e | fh, n'⟩
  · rw [hm] at hexec
    exact hexec
  · rw [hm] at hexec
    exact hexec.congr rfl rfl

lemma Conn.Ret.Chained.andThen {r : Conn.Ret W Unit} {k : Conn → Net W → Conn.Ret W Unit}
    (h : r.Chained) (hk : (k r.2.1 r.2.2).Chained) : (Conn.andThen r k).Chained := by
  obtain ⟨e | u, c, n⟩ := r
  · exact h
  · exact hk

/-- `Mount` on a connection without a session. -/
lemma Chain.mount (h : Chain c n) (hses : c.session = none) : (c.mount E n).Chained := by
  unfold Conn.mount
  split
  · obtain ⟨hx, hnone⟩ := h.exchangeID (E := E) hses
    have hs := Chain.createSession (E := E) hx hnone
    have hr := (hs.ordinary (E := E) reclaimCompleteOp rfl (fun c _ => c) fun _ => ⟨rfl, rfl⟩).1
    exact hx.andThen (hs.andThen (hr.andThen hr.fetchRootFH))
  · obtain ⟨hset, -⟩ : (c.setClientID E n).Chained ∧ _ := h.introduce fun v name n' h' =>
      h'.ordinary (setClientIDOp v name) rfl _ fun _ => ⟨rfl, rfl⟩
    have hconf := (hset.ordinary (E := E)
      (confirmClientIDOp (c.setClientID E n).2.1.clientID (c.setClientID E n).2.1.confirm) rfl
      (fun c _ => c) fun _ => ⟨rfl, rfl⟩).1
    exact hset.andThen (hconf.andThen hconf.fetchRootFH)

/-- DESTROY_SESSION and DESTROY_CLIENTID are sent past the one session caller. -/
lemma Chain.teardownSession (h : Chain c n) : Chain c (c.teardownSession E n) := by
  unfold Conn.teardownSession
  cases hses : c.session with
  | none => exact h
  | some p =>
      obtain ⟨cfg, hcaller⟩ := h.caller
      have hbase : Conn.teardownCaller c.caller = sessionStack [] := by
        rw [hcaller, hses]
        rfl
      have hcall : ∀ {n : Net W} (a : Arg) (res : Res), Chain c n → a.isBootstrap = true →
          (∀ args, a ≠ .createSession args) →
          Chain c ((sessionStack []).callCompound E (c.request [a]) [res] n).2 := by
        intro n a res h ha hne
        obtain ⟨es, hlog, hatt, hids⟩ := attempt_of_call (E := E) [] (c.request [a]) [res] n
        exact h.bootstrap (request_ops ..) ha hne hlog hids fun _ _ hmem => hatt.calls hmem
      simp only [hbase]
      exact hcall _ _ (hcall _ _ h rfl (by simp)) rfl (by simp)

lemma Chain.nextSeqid (h : Chain c n) : Chain c.nextSeqid.2 n := h.congr rfl rfl

lemma Chain.openConfirm (h : Chain c n) (fh : FileHandle) (sid : Stateid) :
    (c.openConfirm E fh sid n).Chained :=
  h.nextSeqid.multi (openConfirmOp fh sid c.nextSeqid.1) rfl

lemma Chain.openFile (h : Chain c n) (q : Conn.OpenParams) : (c.openFile E q n).Chained := by
  have hexec := h.nextSeqid.multi (E := E) (openOp q.dir (c.openArgs q c.nextSeqid.1)) rfl
  unfold Conn.Ret.Chained
  rcases Conn.openFile_cases E c q n with heq | ⟨fh, sid, heq⟩
  · rw [heq]
    exact hexec
  · rw [heq]
    exact Chain.openConfirm hexec fh sid

/-- The multi-op methods. -/
lemma Chain.method (h : Chain c n) (m : Method) : Chain (m.run E c n).2.1 (m.run E c n).2.2 := by
  cases m with
  | fetchRootFH => exact h.fetchRootFH
  | openFile q => exact h.openFile q
  | openConfirm fh sid => exact h.openConfirm fh sid
  | closeFile fh sid => exact h.nextSeqid.multi (closeFileOp fh sid c.nextSeqid.1) rfl
  | _ => exact h.multi _ rfl

lemma Chain.lookupPath (h : Chain c n) (comps : List Bytes) :
    Chain c (c.lookupPath E comps n).2 := by
  simp only [Conn.lookupPath, Nfs4.lookupPath, lookupLoop_eq]
  split
  · exact h
  · exact walk_invariant (fun dir name n hn => hn.multi (lookupOp dir name) rfl) _ _ h

/-! ## Whole runs -/

/-- What a user of a connection can call. -/
inductive ConnOp
  | mount
  | close
  | renew
  | lookupPath (components : List Bytes)
  | request (m : Method)

/-- The connection and the network after an operation, whatever it returned. -/
def ConnOp.step (E : Env W) (s : Conn × Net W) : ConnOp → Option (Conn × Net W)
  | .mount => some (s.1.mount E s.2).2
  | .close => some (s.1, s.1.teardownSession E s.2)
  | .renew => some (s.1.renew E s.2).2
  | .lookupPath comps => some (s.1, (s.1.lookupPath E comps s.2).2)
  | .request m => some (m.run E s.1 s.2).2

/-- `Mount` is only issued on a connection without a session. -/
def NoRemount (s : Conn × Net W) : ConnOp → Prop
  | .mount => s.1.session = none
  | _ => True

/-- One operation keeps the invariant. -/
lemma Chain.step {s s' : Conn × Net W} {op : ConnOp} (h : Chain s.1 s.2) (hop : NoRemount s op)
    (hs : op.step E s = some s') : Chain s'.1 s'.2 := by
  cases op with
  | mount =>
      obtain rfl := Option.some.inj hs
      exact h.mount hop
  | close =>
      obtain rfl := Option.some.inj hs
      exact h.teardownSession
  | renew =>
      obtain rfl := Option.some.inj hs
      exact (h.ordinary (renewOp s.1.clientID) rfl (fun c _ => c) fun _ => ⟨rfl, rfl⟩).1
  | lookupPath comps =>
      obtain rfl := Option.some.inj hs
      exact h.lookupPath comps
  | request m =>
      obtain rfl := Option.some.inj hs
      exact h.method m

lemma chain_newConn (cfg : ConnConfig) (w : W) : Chain (newConn .rpc cfg) { world := w } :=
  ⟨⟨_, rfl⟩, rfl, Or.inl rfl⟩

/-- **One SEQUENCE per compound.**  In every run of a connection in which `Mount` is only issued
while there is no session, every compound handed to the transport follows the rule. -/
theorem sequence_once_of_noRemount (cfg : ConnConfig) (w : W) (ops : List ConnOp)
    (s : Conn × Net W)
    (hops : Along (ConnOp.step E) NoRemount (newConn .rpc cfg, { world := w }) ops)
    (hrun : run (ConnOp.step E) (newConn .rpc cfg, { world := w }) ops = some s) :
    obeys none s.2.log = true :=
  (run_invariant (I := fun s => Chain s.1 s.2) (fun _ _ _ h hop hs => h.step hop hs)
    (chain_newConn cfg w) hops hrun).obeys

instance (s : Conn × Net W) : (op : ConnOp) → Decidable (NoRemount s op)
  | .mount => inferInstanceAs (Decidable (s.1.session = none))
  | .close | .renew | .lookupPath _ | .request _ => isTrue trivial

/-- A SEQUENCE that the server accepted. -/
def sequenceOk : Resop := ⟨opSequence, nfs4Ok, List.replicate 36 0⟩

def exchangedReply : Bytes := replyBytes nfs4Ok [⟨opExchangeID, nfs4Ok, List.replicate 40 0⟩]

def createdReply : Bytes := replyBytes nfs4Ok [⟨opCreateSession, nfs4Ok, List.replicate 80 0⟩]

/-- The replies to the four compounds of a mount. -/
def mountReplies : List Bytes :=
  [exchangedReply, createdReply, replyBytes nfs4Ok [sequenceOk, ⟨opReclaimComplete, nfs4Ok, []⟩],
    replyBytes nfs4Ok [sequenceOk, ⟨opPutrootfh, nfs4Ok, []⟩, ⟨opGetfh, nfs4Ok, word 0⟩]]

/-- A v4.1 connection is mounted, used and closed. -/
theorem sequence_once_mounted :
    ∃ s ∈ run (ConnOp.step scriptEnv)
        (newConn .rpc { minorVersion := 1 }, { world := mountReplies.map .ok })
        [.mount, .renew, .close],
      (currentSession none s.2.log).isSome = true ∧ obeys none s.2.log = true := by
  obtain ⟨s, hs, hcur⟩ : ∃ s ∈ run (ConnOp.step scriptEnv)
      (newConn .rpc { minorVersion := 1 }, { world := mountReplies.map .ok })
      [.mount, .renew, .close], (currentSession none s.2.log).isSome = true := by decide +kernel
  have hops : Along (ConnOp.step scriptEnv) NoRemount
      (newConn .rpc { minorVersion := 1 }, { world := mountReplies.map .ok })
      [.mount, .renew, .close] := by decide +kernel
  exact ⟨s, hs, hcur, sequence_once_of_noRemount _ _ _ s hops hs⟩

/-- The second `Mount` of a connection hands an EXCHANGE_ID with a SEQUENCE to the
transport. -/
theorem sequence_before_exchangeID :
    ∃ s ∈ run (ConnOp.step scriptEnv) (newConn .rpc { minorVersion := 1 }, scripted mountReplies)
        [.mount, .mount], obeys none s.2.log = false := by decide +kernel

end NfsClient.Nfs4
