import NfsClient.Nfs4.Conn

/-!
# What a call leaves in the log

`CallCompound` of a connection goes through a retry caller, any number of session callers
and the transport.  This file says what such a call can do, once and for all: `Attempt` is
one pass through the session callers, `Transcript` the whole retry loop.  Both relate the
events that the call adds to the log to the outcome it returns, so that later files reason
about replies and outcomes without looking at the callers again.
-/

namespace NfsClient.Nfs4

open NfsClient.Xdr

variable {W : Type} {E : Env W}

/-! ## The stack of session callers -/

/-- Session callers over the transport, outermost first. -/
def sessionStack : List ℕ → Caller
  | [] => .rpc
  | p :: ps => .session (sessionStack ps) p

/-- The session ids of a stack in the order in which SEQUENCE operations stand in the compound
that is sent: innermost session first. -/
def Net.stackIDs (n : Net W) (ps : List ℕ) : List SessionID :=
  (ps.map fun p => (n.session p).id).reverse

@[simp] lemma Net.length_stackIDs (n : Net W) (ps : List ℕ) :
    (n.stackIDs ps).length = ps.length := by
  simp [Net.stackIDs]

/-- The decoders as they reach the transport through `k` session callers. -/
def sequenceDecoders (k : ℕ) (rs : List Res) : List Res := List.replicate k (.sequence {}) ++ rs

lemma sequenceDecoders_succ (k : ℕ) (rs : List Res) :
    sequenceDecoders k (.sequence {} :: rs) = sequenceDecoders (k + 1) rs := by
  simp [sequenceDecoders, List.replicate_succ']

/-- What `k` session callers make of the outcome of the transport. -/
def unwrap : ℕ → Outcome → Outcome
  | 0, out => out
  | k + 1, out => (afterBase (unwrap k out)).2

/-- `c` is `comp` with SEQUENCE operations of the given sessions in front. -/
def Prefixed (ids : List SessionID) (comp c : Compound) : Prop :=
  ∃ args : List SequenceArgs, args.map SequenceArgs.sessionID = ids ∧
    c.ops = args.map Arg.sequence ++ comp.ops

lemma Prefixed.wrap {ids : List SessionID} {a : SequenceArgs} {comp c : Compound}
    (h : Prefixed ids (wrapCompound a comp) c) : Prefixed (ids ++ [a.sessionID]) comp c := by
  obtain ⟨args, hids, hops⟩ := h
  exact ⟨args ++ [a], by simp [hids], by simp [hops]⟩

/-- Whether an event is a compound handed to the transport. -/
def Event.isCall : Event → Bool
  | .call .. => true
  | _ => false

/-- One pass through the session callers: given up by one of them before anything is sent, or
one compound sent and its reply decoded. -/
inductive Attempt (ids : List SessionID) (comp : Compound) (rs : List Res) :
    List Event → Outcome → Prop
  | aborted {es : List Event} (e : CtxErr) (hids : ids ≠ []) (hes : ∀ ev ∈ es, ev.isCall = false) :
      Attempt ids comp rs es (rs, .error (.ctx e))
  | replied {es : List Event} {c : Compound} (reply : Except Err Bytes)
      (hes : ∀ ev ∈ es, ev.isCall = false) (hc : Prefixed ids comp c) :
      Attempt ids comp rs (es ++ [.call c reply])
        (unwrap ids.length (decodeReply (sequenceDecoders ids.length rs) reply))

/-! ### Session ids do not change -/

/-- The sessions of `n'` have the ids of those of `n`. -/
def Net.SameIDs (n n' : Net W) : Prop := n'.sessions.map Session.id = n.sessions.map Session.id

lemma Net.session_id (n : Net W) (p : ℕ) :
    (n.session p).id = (n.sessions.map Session.id).getD p (default : Session).id := by
  simp only [Net.session, List.getD_eq_getElem?_getD, List.getElem?_map]
  cases n.sessions[p]? <;> rfl

lemma Net.SameIDs.stackIDs {n n' : Net W} (h : n.SameIDs n') (ps : List ℕ) :
    n'.stackIDs ps = n.stackIDs ps := by
  simp only [Net.stackIDs, Net.session_id, show n'.sessions.map Session.id = _ from h]

lemma Net.sameIDs_setSession {n : Net W} {p : ℕ} {s : Session} (h : s.id = (n.session p).id) :
    n.SameIDs (n.setSession p s) := by
  unfold Net.SameIDs Net.setSession
  rw [List.map_set, h]
  by_cases hp : p < n.sessions.length
  · have hp' : p < (n.sessions.map Session.id).length := by simpa using hp
    have : (n.session p).id = (n.sessions.map Session.id)[p] := by simp [Net.session, hp]
    rw [this, List.set_getElem_self]
  · rw [List.set_eq_of_length_le (by simpa using hp)]

lemma Net.SameIDs.trans {n n' n'' : Net W} (h : n.SameIDs n') (h' : n'.SameIDs n'') :
    n.SameIDs n'' := Eq.trans h' h

/-! ### One attempt -/

/-- An attempt below a session caller, seen from above it. -/
lemma Attempt.wrap {n : Net W} {p : ℕ} {ps : List ℕ} {s : Session} {l : SlotLease}
    {comp : Compound} {rs : List Res} {es : List Event} {out : Outcome}
    (h : Attempt (n.stackIDs ps) (wrapCompound (s.sequenceArgs l) comp) (.sequence {} :: rs) es out)
    (hid : s.id = (n.session p).id) :
    Attempt (n.stackIDs (p :: ps)) comp rs (.select none :: es) (afterBase out).2 := by
  have hstack : n.stackIDs (p :: ps) = n.stackIDs ps ++ [s.id] := by
    simp [Net.stackIDs, hid]
  have hnocall : ∀ {es : List Event}, (∀ ev ∈ es, ev.isCall = false) →
      ∀ ev ∈ Event.select none :: es, ev.isCall = false := by
    intro es hes ev hev
    rcases List.mem_cons.mp hev with rfl | hev
    · rfl
    · exact hes ev hev
  cases h with
  | aborted e hids hes => exact .aborted e (by simp [hstack]) (hnocall hes)
  | @replied es c reply hes hc =>
      rw [hstack, sequenceDecoders_succ]
      have hwrap : Prefixed (n.stackIDs ps ++ [s.id]) comp c := hc.wrap
      have hatt : Attempt _ comp rs _ _ := Attempt.replied reply (hnocall hes) hwrap
      rw [List.length_append, List.length_singleton] at hatt
      exact hatt

/-- A call adds events to the log and leaves the session ids alone; the events and the outcome
are related by `R`. -/
def Leaves (R : List Event → Outcome → Prop) (n : Net W) (r : Outcome × Net W) : Prop :=
  ∃ es, r.2.log = n.log ++ es ∧ R es r.1 ∧ n.SameIDs r.2

/-- **One attempt.**  What a call through a stack of session callers does. -/
theorem attempt_of_call (ps : List ℕ) (comp : Compound) (rs : List Res) (n : Net W) :
    Leaves (Attempt (n.stackIDs ps) comp rs) n ((sessionStack ps).callCompound E comp rs n) := by
  induction ps generalizing comp rs n with
  | nil =>
      rcases hb : E.base comp n.world with ⟨reply, w⟩
      refine ⟨[.call comp reply], ?_, ?_, ?_⟩
      · simp only [sessionStack, Caller.callCompound, hb, Net.push]
      · simp only [sessionStack, Caller.callCompound, hb]
        exact @Attempt.replied [] comp rs [] comp reply (by simp) ⟨[], rfl, rfl⟩
      · simp only [sessionStack, Caller.callCompound, hb]
        rfl
  | cons p ps ih =>
      have hne : n.stackIDs (p :: ps) ≠ [] := by simp [Net.stackIDs]
      rcases hs : E.select n.world with ⟨_ | e, w⟩
      · set n₁ := n.push (.select none) w with hn₁
        have hlog₁ : n₁.log = n.log ++ [.select none] := rfl
        have hids₁ : n.SameIDs n₁ := rfl
        have habort : Leaves (Attempt (n.stackIDs (p :: ps)) comp rs) n
            ((rs, .error (.ctx .canceled)), n₁) :=
          ⟨[.select none], hlog₁, .aborted _ hne (by simp [Event.isCall]), hids₁⟩
        rcases ht : (n₁.session p).takeToken with _ | s₁
        · rw [sessionStack, callCompound_no_token hs ht]
          exact habort
        · rcases hc : s₁.scan with _ | ⟨l, s₂⟩
          · rw [sessionStack, callCompound_no_slot hs ht hc]
            exact habort
          · -- a slot is leased: the base call is an attempt of the stack below
            have hid₂ : s₂.id = (n.session p).id := by
              rw [Session.scan_id hc, Session.takeToken_id ht]
              rfl
            have hids₂ : n.SameIDs (n₁.setSession p s₂) :=
              hids₁.trans (Net.sameIDs_setSession hid₂)
            rcases hb : (sessionStack ps).callCompound E (wrapCompound (s₂.sequenceArgs l) comp)
              (.sequence {} :: rs) (n₁.setSession p s₂) with ⟨out, n₂⟩
            have hbase := ih (wrapCompound (s₂.sequenceArgs l) comp) (.sequence {} :: rs)
              (n₁.setSession p s₂)
            rw [hb, hids₂.stackIDs] at hbase
            obtain ⟨es, hlog, hatt, hids⟩ := hbase
            rw [sessionStack, callCompound_leased hs ht hc hb]
            refine ⟨.select none :: es, ?_, ?_, ?_⟩
            · have : n₂.log = n₁.log ++ es := hlog
              simp [Net.setSession, this, hlog₁]
            · exact hatt.wrap hid₂
            · exact (hids₂.trans hids).trans (Net.sameIDs_setSession (Session.giveBack_id ..))
      · rw [sessionStack, callCompound_cancelled hs]
        exact ⟨[.select (some e)], rfl, .aborted e hne (by simp [Event.isCall]), rfl⟩

/-! ## The retry loop -/

/-- A whole call through the retry caller, from decoders `rs`. -/
inductive Transcript (ids : List SessionID) (comp : Compound) :
    List Res → List Event → Outcome → Prop
  /-- The context is done before the attempt. -/
  | stopped {rs : List Res} (e : CtxErr) (err : Err) :
      Transcript ids comp rs [.ctxErr (some e)] (rs, .error err)
  /-- The attempt ends with an answer that is not retried. -/
  | final {rs : List Res} {es : List Event} {out : Outcome} (h : Attempt ids comp rs es out)
      (hr : retriable out.2 = false) : Transcript ids comp rs (.ctxErr none :: es) out
  /-- The last attempt ends with a retriable answer. -/
  | exhausted {rs : List Res} {es : List Event} {out : Outcome} (h : Attempt ids comp rs es out)
      (hr : retriable out.2 = true) :
      Transcript ids comp rs (.ctxErr none :: es) (out.1, .error (exhaustedErr out.2))
  /-- The context is done during the backoff. -/
  | interrupted {rs : List Res} {es : List Event} {out : Outcome} (h : Attempt ids comp rs es out)
      (hr : retriable out.2 = true) (d : Int64) (e : CtxErr) :
      Transcript ids comp rs (.ctxErr none :: es ++ [.sleep d (some e)]) (out.1, .error (.ctx e))
  /-- A retriable answer, a backoff, and the rest of the loop with the decoders as the answer
  left them. -/
  | again {rs : List Res} {es es' : List Event} {out out' : Outcome}
      (h : Attempt ids comp rs es out) (hr : retriable out.2 = true) (d : Int64)
      (h' : Transcript ids comp out.1 es' out') :
      Transcript ids comp rs (.ctxErr none :: es ++ .sleep d none :: es') out'

/-- The attempt that a turn of the loop starts with. -/
lemma attempt_in_loop {ps : List ℕ} {comp : Compound} {rs : List Res} {n n₁ : Net W} {w : W}
    {out : Outcome}
    (hcall : (sessionStack ps).callCompound E comp rs (n.push (.ctxErr none) w) = (out, n₁)) :
    ∃ es, n₁.log = n.log ++ .ctxErr none :: es ∧ Attempt (n.stackIDs ps) comp rs es out ∧
      n.SameIDs n₁ := by
  obtain ⟨es, hlog, hatt, hids⟩ := attempt_of_call (E := E) ps comp rs (n.push (.ctxErr none) w)
  rw [hcall] at hlog hatt hids
  refine ⟨es, ?_, hatt, hids⟩
  simpa [Net.push] using hlog

/-- A run of the loop of the retry caller over a stack of session callers. -/
lemma transcript_of_retryRun {ps : List ℕ} {comp : Compound} {rs : List Res} {n : Net W}
    {r : Outcome × Net W}
    (h : RetryRun E (fun rs n => (sessionStack ps).callCompound E comp rs n) rs n r) :
    Leaves (Transcript (n.stackIDs ps) comp rs) n r := by
  induction h with
  | stopped err hctx => exact ⟨_, rfl, .stopped _ err, rfl⟩
  | final hctx hcall hr =>
      obtain ⟨es, hlog, hatt, hids⟩ := attempt_in_loop hcall
      exact ⟨_, hlog, .final hatt hr, hids⟩
  | exhausted hctx hcall hr =>
      obtain ⟨es, hlog, hatt, hids⟩ := attempt_in_loop hcall
      exact ⟨_, hlog, .exhausted hatt hr, hids⟩
  | @interrupted rs rs₁ out n n₁ w w₁ delay e hctx hcall hr hs =>
      obtain ⟨es, hlog, hatt, hids⟩ := attempt_in_loop hcall
      refine ⟨.ctxErr none :: es ++ [.sleep delay (some e)], ?_, .interrupted hatt hr delay e,
        hids⟩
      simp [Net.push, hlog]
  | @again rs rs₁ out n n₁ w w₁ delay R hctx hcall hr hs _ ih =>
      obtain ⟨es, hlog, hatt, hids⟩ := attempt_in_loop hcall
      obtain ⟨es', hlog', htr, hids'⟩ := ih
      have hids₁ : n.SameIDs (n₁.push (.sleep delay none) w₁) := hids
      rw [hids₁.stackIDs] at htr
      refine ⟨.ctxErr none :: es ++ .sleep delay none :: es', ?_, .again hatt hr delay htr,
        hids₁.trans hids'⟩
      rw [hlog']
      simp [Net.push, hlog]

/-- The loop of the retry caller over a stack of session callers. -/
lemma transcript_of_loop (cfg : RetryConfig) (ps : List ℕ) (comp : Compound) (left : ℕ)
    (delay : Int64) (lastErr : Option Err) (rs : List Res) (n : Net W) :
    Leaves (Transcript (n.stackIDs ps) comp rs) n
      (retryLoop E cfg (fun rs n => (sessionStack ps).callCompound E comp rs n) left delay lastErr
        rs n) :=
  transcript_of_retryRun (retryRun_retryLoop cfg _ left delay lastErr rs n)

/-- **A whole call.**  What `CallCompound` of a connection's caller does. -/
theorem transcript_of_call (cfg : RetryConfig) (ps : List ℕ) (comp : Compound) (rs : List Res)
    (n : Net W) :
    Leaves (Transcript (n.stackIDs ps) comp rs) n
      ((Caller.retry (sessionStack ps) cfg).callCompound E comp rs n) :=
  transcript_of_loop cfg ps comp _ _ none rs n

/-! ## Reading a reply through session callers -/

/-- The first status that is not NFS4_OK. -/
def firstBad (sts : List Status) : Option Status := sts.find? (· ≠ nfs4Ok)

@[simp] lemma firstBad_nil : firstBad [] = none := rfl

lemma firstBad_eq_none {sts : List Status} : firstBad sts = none ↔ ∀ s ∈ sts, s = nfs4Ok := by
  simp [firstBad]

lemma unwrap_error (k : ℕ) (rs : List Res) (e : Err) :
    unwrap k (rs, .error e) = (rs.drop k, .error e) := by
  induction k with
  | zero => rfl
  | succ k ih => rw [unwrap, ih, afterBase_error, List.tail_drop]

/-- Session callers let a result pass whose SEQUENCE statuses are all NFS4_OK. -/
lemma unwrap_ok {k : ℕ} {rs : List Res} {r : CompoundResult} (hk : k ≤ rs.length)
    (h : firstBad ((rs.take k).map Res.stat) = none) :
    ∃ r', unwrap k (rs, .ok r) = (rs.drop k, .ok r') ∧ r'.status = r.status := by
  induction k with
  | zero => exact ⟨r, rfl, rfl⟩
  | succ k ih =>
      rw [firstBad_eq_none] at h
      have hpre : firstBad ((rs.take k).map Res.stat) = none := by
        rw [firstBad_eq_none]
        intro s hs
        refine h s ?_
        rw [List.take_add_one]
        simp only [List.map_append, List.mem_append]
        exact Or.inl hs
      obtain ⟨r', hr', hst⟩ := ih (by omega) hpre
      have hget : rs[k].stat = nfs4Ok := h _ (List.mem_map_of_mem (by
        rw [List.mem_take_iff_getElem]
        exact ⟨k, by omega, rfl⟩))
      have hhead : ((rs.drop k).headD (.sequence {})).stat = nfs4Ok := by
        rw [List.drop_eq_getElem_cons (by omega)]
        exact hget
      refine ⟨{ r' with numResults := if 0 < r'.numResults then r'.numResults - 1 else 0 }, ?_, hst⟩
      simp only [unwrap, hr', afterBase, hhead, statusErr_ok, List.tail_drop]

/-- The innermost SEQUENCE that failed decides the error. -/
lemma unwrap_refused {k : ℕ} {rs : List Res} {r : CompoundResult} {q : Status}
    (hk : k ≤ rs.length) (h : firstBad ((rs.take k).map Res.stat) = some q) :
    ∃ e, unwrap k (rs, .ok r) = (rs.drop k, .error e) ∧ e.asStatus = some q := by
  induction k with
  | zero => simp at h
  | succ k ih =>
      have htake : (rs.take (k + 1)).map Res.stat = (rs.take k).map Res.stat ++ [rs[k].stat] := by
        rw [List.take_succ_eq_append_getElem (by omega), List.map_append]
        rfl
      cases hpre : firstBad ((rs.take k).map Res.stat) with
      | some q' =>
          have hq : q' = q := by
            simp only [firstBad] at hpre h
            rw [htake, List.find?_append, hpre] at h
            simpa using h
          subst hq
          obtain ⟨e, he, hst⟩ := ih (by omega) hpre
          exact ⟨e, by rw [unwrap, he, afterBase_error, List.tail_drop], hst⟩
      | none =>
          obtain ⟨r', hr', -⟩ := unwrap_ok (r := r) (by omega) hpre
          have hbad : rs[k].stat ≠ nfs4Ok ∧ rs[k].stat = q := by
            simp only [firstBad] at hpre h
            rw [htake, List.find?_append, hpre] at h
            simpa using h
          have hhead : ((rs.drop k).headD (.sequence {})).stat = q := by
            rw [List.drop_eq_getElem_cons (by omega)]
            exact hbad.2
          have hq : statusErr q = some (.status q) := statusErr_of_ne (hbad.2 ▸ hbad.1)
          refine ⟨.wrap "nfs4: SEQUENCE" (.status q), ?_, rfl⟩
          simp only [unwrap, hr', afterBase, hhead, hq, List.tail_drop]

/-- The status of result number `j`, 0 being NFS4_OK for a result that is not there. -/
def statAt (rs : List Res) (j : ℕ) : Status := (rs.getD j default).stat

lemma statAt_eq (rs : List Res) (j : ℕ) : statAt rs j = (rs.map Res.stat).getD j nfs4Ok := by
  simp only [statAt, List.getD_eq_getElem?_getD, List.getElem?_map]
  cases rs[j]? <;> rfl

lemma statAt_of_forall {rs : List Res} (h : ∀ s ∈ rs.map Res.stat, s = nfs4Ok) (j : ℕ) :
    statAt rs j = nfs4Ok := by
  rw [statAt_eq, List.getD_eq_getElem?_getD]
  cases hget : (rs.map Res.stat)[j]? with
  | none => rfl
  | some s => exact h s (List.mem_of_getElem? hget)

@[simp] lemma length_sequenceDecoders (k : ℕ) (rs : List Res) :
    (sequenceDecoders k rs).length = k + rs.length := by
  simp [sequenceDecoders]

/-- The statuses in the decoders after an accepted reply. -/
lemma statAt_decoded {k : ℕ} {rs rs' : List Res} {sts : List Status}
    (h : rs'.map Res.stat = sts ++ ((sequenceDecoders k rs).drop sts.length).map Res.stat) (j : ℕ) :
    statAt (rs'.drop k) j = sts.getD (k + j) (statAt rs j) := by
  have hget : statAt (rs'.drop k) j = (rs'.map Res.stat).getD (k + j) nfs4Ok := by
    rw [statAt_eq, List.map_drop]
    simp [List.getD_eq_getElem?_getD]
  rw [hget, h]
  by_cases hj : k + j < sts.length
  · simp [List.getD_eq_getElem?_getD, List.getElem?_append_left hj, hj]
  · have hdrop : ((sequenceDecoders k rs).drop sts.length)[k + j - sts.length]? = rs[j]? := by
      rw [List.getElem?_drop, sequenceDecoders, List.getElem?_append_right (by simp; omega)]
      congr 1
      simp
      omega
    simp only [List.getD_eq_getElem?_getD, List.getElem?_append_right (Nat.le_of_not_lt hj),
      List.getElem?_map, hdrop, List.getElem?_eq_none (Nat.le_of_not_lt hj), statAt]
    cases rs[j]? <;> rfl

/-- The SEQUENCE statuses in the decoders after an accepted reply. -/
lemma firstBad_decoded {k : ℕ} {rs rs' : List Res} {sts : List Status}
    (h : rs'.map Res.stat = sts ++ ((sequenceDecoders k rs).drop sts.length).map Res.stat) :
    firstBad ((rs'.take k).map Res.stat) = firstBad (sts.take k) := by
  have htail : ∀ s ∈ (((sequenceDecoders k rs).drop sts.length).map Res.stat).take (k - sts.length),
      s = nfs4Ok := by
    intro s hs
    rw [← List.map_take, List.mem_map] at hs
    obtain ⟨r, hr, rfl⟩ := hs
    have hmem : r ∈ List.replicate (k - sts.length) (Res.sequence {}) := by
      rw [sequenceDecoders, List.drop_append, List.drop_replicate, List.length_replicate,
        List.take_append_of_le_length (by simp)] at hr
      exact List.mem_of_mem_take hr
    rw [List.eq_of_mem_replicate hmem]
    rfl
  rw [List.map_take, h, List.take_append]
  simp only [firstBad, List.find?_append]
  have hnone := firstBad_eq_none.mpr htail
  simp only [firstBad] at hnone
  rw [hnone]
  simp

/-- **An accepted reply through session callers.**  The statuses that end up in the caller's
decoders, and the outcome: an error with the status of the first SEQUENCE that failed, or a
result with the overall status of the reply. -/
theorem unwrap_of_parseReply {k : ℕ} {rs : List Res} {b : Bytes} {r : CompoundResult}
    {sts : List Status} (h : parseReply (sequenceDecoders k rs) b = some (r, sts)) :
    ∃ rs' o, unwrap k (decodeReply (sequenceDecoders k rs) (.ok b)) = (rs', o) ∧
      kinds rs' = kinds rs ∧ (∀ j, statAt rs' j = sts.getD (k + j) (statAt rs j)) ∧
      (∀ q, firstBad (sts.take k) = some q → ∃ e, o = .error e ∧ e.asStatus = some q) ∧
      (firstBad (sts.take k) = none → ∃ r', o = .ok r' ∧ r'.status = r.status) := by
  obtain ⟨rs', hdec, hlen, hle, hst⟩ := decodeReply_of_parseReply h
  have hkinds := decodeReply_kinds (sequenceDecoders k rs) (.ok b)
  rw [hdec] at hkinds
  have hk : k ≤ rs'.length := by
    rw [length_eq_of_kinds hkinds, length_sequenceDecoders]
    omega
  rw [← hlen] at hst
  have hdrop : kinds (rs'.drop k) = kinds rs := by
    have := congrArg (List.drop k) hkinds
    simpa [kinds, sequenceDecoders, ← List.map_drop] using this
  rw [hdec]
  cases hbad : firstBad (sts.take k) with
  | none =>
      obtain ⟨r', hr', hr⟩ := unwrap_ok (r := r) hk ((firstBad_decoded hst).trans hbad)
      exact ⟨_, _, hr', hdrop, statAt_decoded hst, by simp, fun _ => ⟨r', rfl, hr⟩⟩
  | some q =>
      obtain ⟨e, he, hq⟩ := unwrap_refused (r := r) hk ((firstBad_decoded hst).trans hbad)
      refine ⟨_, _, he, hdrop, statAt_decoded hst, ?_, by simp⟩
      rintro q' ⟨⟩
      exact ⟨e, rfl, hq⟩

/-- A rejected reply, or none: an error, and one without an NFS status if there was a reply. -/
lemma unwrap_of_parseReply_none {k : ℕ} {rs : List Res} {b : Bytes}
    (h : parseReply (sequenceDecoders k rs) b = none) :
    ∃ e, (unwrap k (decodeReply (sequenceDecoders k rs) (.ok b))).2 = .error e ∧
      e.asStatus = none := by
  obtain ⟨rs', e, hdec, hplain⟩ := decodeReply_of_parseReply_none h
  exact ⟨e, by rw [hdec, unwrap_error], hplain⟩

lemma unwrap_transport_error (k : ℕ) (rs : List Res) (e : Err) :
    unwrap k (decodeReply (sequenceDecoders k rs) (.error e)) = (rs, .error e) := by
  rw [decodeReply, unwrap_error, sequenceDecoders, List.drop_left' (by simp)]

/-! ## The last reply of a call -/

/-- What the reply in an event says: its header and the statuses of its resops.  `none` if the
event is no call, if no reply came, or if `DecodeCompound` rejects the reply. -/
def Event.reply? : Event → Option (CompoundResult × List Status)
  | .call c (.ok b) => parseReply (c.ops.map Arg.decoder) b
  | _ => none

lemma Event.reply?_eq_none {ev : Event} (h : ev.isCall = false) : ev.reply? = none := by
  cases ev with
  | call c reply => simp [Event.isCall] at h
  | _ => rfl

/-- The status of resop number `i` of a reply, `st` if there is none. -/
def statusIn (reply : Option (CompoundResult × List Status)) (i : ℕ) (st : Status) : Status :=
  match reply with
  | some (_, sts) => sts.getD i st
  | none => st

/-- The last status that the replies among the events show for resop number `i`, `st` if none
of them holds it. -/
def shownStatus (i : ℕ) (st : Status) (es : List Event) : Status :=
  es.foldl (fun st ev => statusIn ev.reply? i st) st

lemma shownStatus_append (i : ℕ) (st : Status) (es es' : List Event) :
    shownStatus i st (es ++ es') = shownStatus i (shownStatus i st es) es' :=
  List.foldl_append

lemma shownStatus_of_no_call {i : ℕ} {st : Status} {es : List Event}
    (h : ∀ ev ∈ es, ev.isCall = false) : shownStatus i st es = st := by
  induction es with
  | nil => rfl
  | cons ev es ih =>
      have hev : ev.reply? = none := Event.reply?_eq_none (h ev (by simp))
      rw [shownStatus, List.foldl_cons, hev]
      exact ih fun ev' hmem => h ev' (by simp [hmem])

/-- The reply to a compound of the stack, read by the decoders of the call. -/
lemma reply?_of_prefixed {ids : List SessionID} {comp c : Compound} {rs : List Res} {b : Bytes}
    (hc : Prefixed ids comp c) (hrs : kinds rs = comp.ops.map Arg.decoder) :
    (Event.call c (.ok b)).reply? = parseReply (sequenceDecoders ids.length rs) b := by
  obtain ⟨args, rfl, hops⟩ := hc
  have hself : ∀ ops : List Arg, kinds (ops.map Arg.decoder) = ops.map Arg.decoder := by
    intro ops
    simp [kinds, Arg.fresh_decoder]
  have hseq : (args.map Arg.sequence).map Arg.decoder =
      List.replicate args.length (Res.sequence {}) := by
    rw [List.map_map, List.eq_replicate_iff]
    simp [Arg.decoder]
  refine parseReply_kinds ?_ b
  rw [hself, hops, List.map_append, hseq, ← hrs]
  simp [kinds, sequenceDecoders, Res.fresh]

/-- An outcome that is still retriable is an error. -/
def settle (out : Outcome) : Outcome :=
  if retriable out.2 then (out.1, .error (exhaustedErr out.2)) else out

/-- The statuses that a reply leaves in the decoders are those it shows, unless it is
rejected; then the outcome is not retriable. -/
lemma statAt_attempt {ids : List SessionID} {comp c : Compound} {rs : List Res}
    {reply : Except Err Bytes} (hc : Prefixed ids comp c)
    (hrs : kinds rs = comp.ops.map Arg.decoder)
    (hr : retriable
      (unwrap ids.length (decodeReply (sequenceDecoders ids.length rs) reply)).2 = true) :
    kinds (unwrap ids.length (decodeReply (sequenceDecoders ids.length rs) reply)).1 = kinds rs ∧
      ∀ j, statAt (unwrap ids.length (decodeReply (sequenceDecoders ids.length rs) reply)).1 j =
        statusIn (Event.call c reply).reply? (ids.length + j) (statAt rs j) := by
  cases reply with
  | error e =>
      rw [unwrap_transport_error]
      exact ⟨rfl, fun j => rfl⟩
  | ok b =>
      rw [reply?_of_prefixed hc hrs]
      cases hp : parseReply (sequenceDecoders ids.length rs) b with
      | none =>
          obtain ⟨e, he, hplain⟩ := unwrap_of_parseReply_none hp
          rw [he] at hr
          simp [retriable, errorHasStatus, hplain] at hr
      | some v =>
          obtain ⟨rs', o, hu, hkinds, hst, -, -⟩ := unwrap_of_parseReply hp
          rw [hu]
          exact ⟨hkinds, hst⟩

/-- **The last reply of a call.**  A call either ends without a reply, in an error, or its
outcome is read off its last reply, by decoders that hold what the earlier replies of the
call showed. -/
theorem Transcript.last {ids : List SessionID} {comp : Compound} {rs : List Res}
    {es : List Event} {out : Outcome} (h : Transcript ids comp rs es out)
    (hrs : kinds rs = comp.ops.map Arg.decoder) :
    (∃ e, out.2 = .error e ∧ ∀ ev, es.getLast? = some ev → ev.isCall = false) ∨
    ∃ pre c reply rs₁, es = pre ++ [.call c reply] ∧ Prefixed ids comp c ∧
      kinds rs₁ = comp.ops.map Arg.decoder ∧
      (∀ j, statAt rs₁ j = shownStatus (ids.length + j) (statAt rs j) pre) ∧
      out = settle (unwrap ids.length (decodeReply (sequenceDecoders ids.length rs₁) reply)) := by
  -- an attempt starts with a look at the context
  have hctx : ∀ {es : List Event}, (∀ ev ∈ es, ev.isCall = false) →
      ∀ ev ∈ Event.ctxErr none :: es, ev.isCall = false := by
    intro es hes
    simpa [Event.isCall] using hes
  induction h with
  | stopped e err => exact Or.inl ⟨err, rfl, by simp [Event.isCall]⟩
  | @final rs es out hatt hr =>
      cases hatt with
      | aborted e hids hes =>
          exact Or.inl ⟨_, rfl, fun ev hev => hctx hes ev (List.mem_of_getLast? hev)⟩
      | @replied es c reply hes hc =>
          exact Or.inr ⟨.ctxErr none :: es, c, reply, rs, rfl, hc, hrs,
            fun j => (shownStatus_of_no_call (hctx hes)).symm, by simp [settle, hr]⟩
  | @exhausted rs es out hatt hr =>
      cases hatt with
      | aborted e hids hes => simp [retriable, errorHasStatus] at hr
      | @replied es c reply hes hc =>
          exact Or.inr ⟨.ctxErr none :: es, c, reply, rs, rfl, hc, hrs,
            fun j => (shownStatus_of_no_call (hctx hes)).symm, by simp [settle, hr]⟩
  | interrupted hatt hr d e =>
      refine Or.inl ⟨_, rfl, fun ev hev => ?_⟩
      rw [List.getLast?_append] at hev
      obtain rfl : Event.sleep d (some e) = ev := by simpa using hev
      rfl
  | @again rs es es' out out' hatt hr d _ ih =>
      cases hatt with
      | aborted e hids hes => simp [retriable, errorHasStatus] at hr
      | @replied es c₀ reply₀ hes hc =>
          obtain ⟨hkinds, hst⟩ := statAt_attempt hc hrs hr
          rcases ih (hkinds.trans hrs) with
            ⟨e, he, hlast⟩ | ⟨pre, c, reply, rs₁, rfl, hc', hk', hst', hout⟩
          · refine Or.inl ⟨e, he, fun ev hev => ?_⟩
            rw [List.getLast?_append, List.getLast?_cons] at hev
            cases hl : es'.getLast? with
            | none =>
                obtain rfl : Event.sleep d none = ev := by simpa [hl] using hev
                rfl
            | some ev' =>
                obtain rfl : ev' = ev := by simpa [hl] using hev
                exact hlast _ hl
          · refine Or.inr ⟨.ctxErr none :: (es ++ [.call c₀ reply₀]) ++ .sleep d none :: pre, c,
              reply, rs₁, by simp, hc', hk', fun j => ?_, hout⟩
            -- the replies of this attempt come before those of the rest of the loop
            rw [hst' j, hst j, shownStatus_append, ← List.cons_append, shownStatus_append,
              shownStatus_of_no_call (hctx hes)]
            rfl

/-- The reply that a list of events ends with. -/
def lastReply (es : List Event) : Option (CompoundResult × List Status) :=
  es.getLast?.bind Event.reply?

/-- The outcome of a call through `k` session callers, by the replies in its events. -/
inductive Verdict (k : ℕ) (es : List Event) (out : Outcome) : Prop
  /-- The call ends without a reply, or with one that is rejected. -/
  | noReply (e : Err) (h : lastReply es = none) (ho : out.2 = .error e)
  /-- A SEQUENCE of the last reply failed. -/
  | refused (r : CompoundResult) (sts : List Status) (q : Status) (e : Err)
      (h : lastReply es = some (r, sts)) (hq : firstBad (sts.take k) = some q)
      (ho : out.2 = .error e) (he : e.asStatus = some q)
  /-- The last reply is retriable, and there is no attempt left. -/
  | exhausted (r : CompoundResult) (sts : List Status) (h : lastReply es = some (r, sts))
      (hq : firstBad (sts.take k) = none) (hr : isRetriableStatus r.status = true)
      (ho : out.2 = .error (.status r.status))
  /-- The last reply is the answer. -/
  | answered (r r' : CompoundResult) (sts : List Status) (h : lastReply es = some (r, sts))
      (hq : firstBad (sts.take k) = none) (hr : isRetriableStatus r.status = false)
      (ho : out.2 = .ok r') (hst : r'.status = r.status)
      (hres : ∀ j, statAt out.1 j = shownStatus (k + j) nfs4Ok es)

lemma lastReply_eq_none {es : List Event} (h : ∀ ev, es.getLast? = some ev → ev.isCall = false) :
    lastReply es = none := by
  rw [lastReply]
  cases hl : es.getLast? with
  | none => rfl
  | some ev => exact Event.reply?_eq_none (h ev hl)

lemma settle_error (rs : List Res) (e : Err) : settle (rs, .error e) = (rs, .error e) := by
  unfold settle
  split <;> rfl

lemma statAt_decoders (ops : List Arg) (j : ℕ) : statAt (ops.map Arg.decoder) j = nfs4Ok := by
  refine statAt_of_forall ?_ j
  intro s hs
  obtain ⟨res, hres, rfl⟩ := List.mem_map.mp hs
  obtain ⟨a, -, rfl⟩ := List.mem_map.mp hres
  exact a.stat_decoder

/-- **The verdict of a call** with freshly declared results. -/
theorem Transcript.verdict {ids : List SessionID} {comp : Compound} {es : List Event}
    {out : Outcome} (h : Transcript ids comp (comp.ops.map Arg.decoder) es out) :
    Verdict ids.length es out := by
  have hself : kinds (comp.ops.map Arg.decoder) = comp.ops.map Arg.decoder := by
    simp [kinds, Arg.fresh_decoder]
  rcases h.last hself with ⟨e, he, hlast⟩ | ⟨pre, c, reply, rs₁, rfl, hc, hk, hst, rfl⟩
  · exact .noReply e (lastReply_eq_none hlast) he
  · have hl : lastReply (pre ++ [.call c reply]) = (Event.call c reply).reply? := by
      simp [lastReply]
    cases reply with
    | error e =>
        refine .noReply e ?_ ?_
        · rw [hl]
          rfl
        · rw [unwrap_transport_error, settle_error]
    | ok b =>
        rw [reply?_of_prefixed hc hk] at hl
        cases hp : parseReply (sequenceDecoders ids.length rs₁) b with
        | none =>
            obtain ⟨e, he, -⟩ := unwrap_of_parseReply_none hp
            rcases hu : unwrap ids.length (decodeReply (sequenceDecoders ids.length rs₁) (.ok b))
              with ⟨rs', o⟩
            rw [hu] at he
            obtain rfl : o = .error e := he
            exact .noReply e (hl.trans hp) (by rw [settle_error])
        | some v =>
            obtain ⟨r, sts⟩ := v
            rw [hp] at hl
            obtain ⟨rs', o, hu, -, hstat, hbad, hok⟩ := unwrap_of_parseReply hp
            rw [hu]
            cases hq : firstBad (sts.take ids.length) with
            | some q =>
                obtain ⟨e, rfl, he⟩ := hbad q hq
                exact .refused r sts q e hl hq (by rw [settle_error]) he
            | none =>
                obtain ⟨r', rfl, hr'⟩ := hok hq
                cases hr : isRetriableStatus r.status with
                | true =>
                    refine .exhausted r sts hl hq hr ?_
                    simp [settle, retriable, hr', hr, exhaustedErr]
                | false =>
                    have hset : settle (rs', .ok r') = (rs', .ok r') := by
                      simp [settle, retriable, hr', hr]
                    refine .answered r r' sts hl hq hr (by rw [hset]) hr' fun j => ?_
                    rw [hset, hstat, hst, statAt_decoders, shownStatus_append]
                    simp only [shownStatus, List.foldl_cons, List.foldl_nil,
                      reply?_of_prefixed hc hk, hp]
                    rfl

/-- The events that were added to the log. -/
def eventsSince (n n' : Net W) : List Event := n'.log.drop n.log.length

/-- The verdict of a call of a connection. -/
theorem call_verdict {c : Conn} {ps : List ℕ} {cfg : RetryConfig}
    (hc : c.caller = .retry (sessionStack ps) cfg) (ops : List Arg) (n : Net W) :
    Verdict ps.length
      (eventsSince n (c.caller.callCompound E (c.request ops) (ops.map Arg.decoder) n).2)
      (c.caller.callCompound E (c.request ops) (ops.map Arg.decoder) n).1 := by
  have htr := transcript_of_call (E := E) cfg ps (c.request ops)
    ((c.request ops).ops.map Arg.decoder) n
  rw [← hc] at htr
  obtain ⟨es, hlog, htr, -⟩ := htr
  have hv := htr.verdict
  rw [Net.length_stackIDs, request_ops] at hv
  rw [request_ops] at hlog
  rw [eventsSince, hlog, List.drop_left]
  exact hv

end NfsClient.Nfs4
