import NfsClient.Nfs4.Transcript

/-!
# The log is a run of the environment

The events that a call adds to the log are the questions it asked its environment, each with
the answer that the environment gave in the state it was in.  So the state of the environment
after a call is the one that the events lead to, and a property of the environment that every
answer keeps is kept by a call.
-/

namespace NfsClient.Nfs4

variable {W : Type} {E : Env W}

/-- In state `w` the environment gives the answer that the event records, and goes over to
`w'`. -/
def Event.Answered (E : Env W) (w : W) : Event → W → Prop
  | .ctxErr e, w' => E.ctxErr w = (e, w')
  | .select e, w' => E.select w = (e, w')
  | .sleep d e, w' => E.sleep d w = (e, w')
  | .call c reply, w' => E.base c w = (reply, w')

/-- The events lead the environment from one state to another. -/
def EnvRun (E : Env W) : W → List Event → W → Prop
  | w, [], w' => w' = w
  | w, ev :: es, w' => ∃ w₁, ev.Answered E w w₁ ∧ EnvRun E w₁ es w'

lemma envRun_append {w w' : W} {es es' : List Event} :
    EnvRun E w (es ++ es') w' ↔ ∃ w₁, EnvRun E w es w₁ ∧ EnvRun E w₁ es' w' := by
  induction es generalizing w with
  | nil => simp [EnvRun]
  | cons ev es ih =>
      simp only [List.cons_append, EnvRun, ih]
      constructor
      · rintro ⟨w₁, hev, w₂, hes, hes'⟩
        exact ⟨w₂, ⟨w₁, hev, hes⟩, hes'⟩
      · rintro ⟨w₂, ⟨w₁, hev, hes⟩, hes'⟩
        exact ⟨w₁, hev, w₂, hes, hes'⟩

/-! ## What a call keeps -/

/-- A relation between networks that holds across the steps of a call which sends compounds with
property `Q`. -/
structure Kept (E : Env W) (Q : Compound → Prop) (R : Net W → Net W → Prop) : Prop where
  trans : ∀ {n n' n''}, R n n' → R n' n'' → R n n''
  push : ∀ {n : Net W} {ev w}, ev.Answered E n.world w → (∀ c reply, ev = .call c reply → Q c) →
    R n (n.push ev w)
  setSession : ∀ (n : Net W) p s, R n (n.setSession p s)
  /-- A session caller adds its SEQUENCE. -/
  wrap : ∀ {c} a, Q c → Q (wrapCompound a c)

namespace Kept

variable {Q : Compound → Prop} {R : Net W → Net W → Prop}

/-- An attempt of the retry caller, up to the backoff. -/
lemma attempt (hR : Kept E Q R) {call : Call W} (hcall : ∀ rs n, R n (call rs n).2)
    {rs : List Res} {out : Outcome} {n n₁ : Net W} {w : W} (hctx : E.ctxErr n.world = (none, w))
    (h : call rs (n.push (.ctxErr none) w) = (out, n₁)) : R n n₁ := by
  have hpush : R n (n.push (.ctxErr none) w) := hR.push hctx (by simp)
  have hatt := hcall rs (n.push (.ctxErr none) w)
  rw [h] at hatt
  exact hR.trans hpush hatt

/-- The loop of the retry caller over calls that keep the relation. -/
lemma retryRun (hR : Kept E Q R) {call : Call W} (hcall : ∀ rs n, R n (call rs n).2)
    {rs : List Res} {n : Net W} {r : Outcome × Net W} (h : RetryRun E call rs n r) : R n r.2 := by
  induction h with
  | stopped err hctx => exact hR.push hctx (by simp)
  | final hctx hc hr | exhausted hctx hc hr => exact hR.attempt hcall hctx hc
  | interrupted hctx hc hr hs =>
      exact hR.trans (hR.attempt hcall hctx hc) (hR.push hs (by simp))
  | @again rs rs₁ out n n₁ w w₁ delay r hctx hc hr hs _ ih =>
      have hslept : R n₁ (n₁.push (.sleep delay none) w₁) := hR.push hs (by simp)
      exact hR.trans (hR.trans (hR.attempt hcall hctx hc) hslept) ih

/-- **A call keeps the relation.** -/
theorem callCompound (hR : Kept E Q R) (caller : Caller) {comp : Compound} (hQ : Q comp)
    (rs : List Res) (n : Net W) : R n (caller.callCompound E comp rs n).2 := by
  induction caller generalizing comp rs n with
  | rpc =>
      rcases hb : E.base comp n.world with ⟨reply, w⟩
      simp only [Caller.callCompound, hb]
      exact hR.push hb (by rintro c reply ⟨⟩; exact hQ)
  | retry base cfg ih =>
      exact hR.retryRun (fun rs n => ih hQ rs n) (retryRun_retryLoop cfg _ _ _ _ rs n)
  | session base p ih =>
      rcases hs : E.select n.world with ⟨_ | e, w⟩
      · have hpush : R n (n.push (.select none) w) := hR.push hs (by simp)
        rcases ht : ((n.push (.select none) w).session p).takeToken with _ | s₁
        · rw [callCompound_no_token hs ht]
          exact hpush
        · rcases hc : s₁.scan with _ | ⟨l, s₂⟩
          · rw [callCompound_no_slot hs ht hc]
            exact hpush
          · have hbase := ih (hR.wrap (s₂.sequenceArgs l) hQ) (.sequence {} :: rs)
              ((n.push (.select none) w).setSession p s₂)
            rcases hb : base.callCompound E (wrapCompound (s₂.sequenceArgs l) comp)
              (.sequence {} :: rs) ((n.push (.select none) w).setSession p s₂) with ⟨out, n₂⟩
            rw [hb] at hbase
            rw [callCompound_leased hs ht hc hb]
            -- the slot is given back whatever came of the call
            have hleased := hR.trans hpush (hR.setSession _ p s₂)
            exact hR.trans (hR.trans hleased hbase) (hR.setSession _ p _)
      · rw [callCompound_cancelled hs]
        exact hR.push hs (by simp)

end Kept

/-! ## The log -/

/-- The log grew by a run of the environment. -/
def Net.RunsTo (E : Env W) (n n' : Net W) : Prop :=
  ∃ es, n'.log = n.log ++ es ∧ EnvRun E n.world es n'.world

lemma kept_runsTo : Kept E (fun _ => True) (Net.RunsTo E) where
  trans := by
    rintro n n' n'' ⟨es, hlog, hrun⟩ ⟨es', hlog', hrun'⟩
    exact ⟨es ++ es', by rw [hlog', hlog, List.append_assoc],
      envRun_append.mpr ⟨_, hrun, hrun'⟩⟩
  push h _ := ⟨[_], rfl, _, h, rfl⟩
  -- the sessions are no part of the environment
  setSession n p s := ⟨[], by simp [Net.setSession], rfl⟩
  wrap _ h := h

/-- **A call runs the environment.** -/
theorem runsTo_callCompound (caller : Caller) (comp : Compound) (rs : List Res) (n : Net W) :
    n.RunsTo E (caller.callCompound E comp rs n).2 :=
  kept_runsTo.callCompound caller trivial rs n

/-- All compounds that were sent have the property `Q`. -/
def Net.Sends (Q : Compound → Prop) (n n' : Net W) : Prop :=
  ∃ es, n'.log = n.log ++ es ∧ ∀ comp reply, .call comp reply ∈ es → Q comp

lemma Net.Sends.trans {Q : Compound → Prop} {n n' n'' : Net W} (h : n.Sends Q n')
    (h' : n'.Sends Q n'') : n.Sends Q n'' := by
  obtain ⟨es, hlog, hes⟩ := h
  obtain ⟨es', hlog', hes'⟩ := h'
  refine ⟨es ++ es', by rw [hlog', hlog, List.append_assoc], fun comp reply hmem => ?_⟩
  rcases List.mem_append.mp hmem with hmem | hmem
  · exact hes comp reply hmem
  · exact hes' comp reply hmem

lemma Net.sends_push {Q : Compound → Prop} (n : Net W) {ev : Event} (w : W)
    (hQ : ∀ comp reply, ev = .call comp reply → Q comp) : n.Sends Q (n.push ev w) :=
  ⟨[ev], rfl, fun comp reply hmem => hQ comp reply (List.mem_singleton.mp hmem).symm⟩

lemma kept_sends {Q : Compound → Prop} (hwrap : ∀ {c} a, Q c → Q (wrapCompound a c)) :
    Kept E Q (Net.Sends Q) where
  trans := .trans
  push h hQ := Net.sends_push _ _ hQ
  setSession n p s := ⟨[], by simp [Net.setSession], by simp⟩
  wrap := hwrap

/-- What a call of a connection's caller does, together with the run of the environment. -/
lemma transcript_run (cfg : RetryConfig) (ps : List ℕ) (comp : Compound) (rs : List Res)
    (n : Net W) :
    ∃ es, Transcript (n.stackIDs ps) comp rs es
        ((Caller.retry (sessionStack ps) cfg).callCompound E comp rs n).1 ∧
      EnvRun E n.world es
        ((Caller.retry (sessionStack ps) cfg).callCompound E comp rs n).2.world := by
  obtain ⟨es, hlog, htr, -⟩ := transcript_of_call (E := E) cfg ps comp rs n
  obtain ⟨es', hlog', hrun⟩ := runsTo_callCompound (E := E) (.retry (sessionStack ps) cfg) comp rs n
  obtain rfl : es = es' := List.append_cancel_left (hlog.symm.trans hlog')
  exact ⟨es, htr, hrun⟩

/-! ## Whether anything is sent -/

/-- The first attempt of a call reaches the transport: its context is not done, and every session on
the way has a slot for it. -/
def Caller.Reaches (E : Env W) : Caller → Net W → Prop
  | .rpc, _ => True
  | .session base p, n =>
      (E.select n.world).1 = none ∧ ∃ s₁ l s₂, (n.session p).takeToken = some s₁ ∧
        s₁.scan = some (l, s₂) ∧
        base.Reaches E ((n.push (.select none) (E.select n.world).2).setSession p s₂)
  | .retry base _, n =>
      (E.ctxErr n.world).1 = none ∧ base.Reaches E (n.push (.ctxErr none) (E.ctxErr n.world).2)

lemma Caller.reaches_leased {base : Caller} {p : ℕ} {n : Net W} {w : W} {s₁ s₂ : Session}
    {l : SlotLease} (hs : E.select n.world = (none, w)) (ht : (n.session p).takeToken = some s₁)
    (hc : s₁.scan = some (l, s₂)) :
    (Caller.session base p).Reaches E n ↔
      base.Reaches E ((n.push (.select none) w).setSession p s₂) := by
  simp only [Caller.Reaches, hs, ht, Option.some.injEq, true_and]
  refine ⟨?_, fun hbase => ⟨s₁, l, s₂, rfl, hc, hbase⟩⟩
  rintro ⟨_, l', s₂', rfl, hc', hbase⟩
  obtain ⟨-, rfl⟩ := Prod.mk.inj (Option.some.inj (hc.symm.trans hc'))
  exact hbase

lemma Caller.reaches_attempted {base : Caller} {cfg : RetryConfig} {n : Net W} {w : W}
    (hctx : E.ctxErr n.world = (none, w)) :
    (Caller.retry base cfg).Reaches E n ↔ base.Reaches E (n.push (.ctxErr none) w) := by
  simp only [Caller.Reaches, hctx, true_and]

/-- A call that does not get there sends nothing and returns the error of its context. -/
lemma Caller.silent_of_not_reaches {caller : Caller} {n : Net W} (h : ¬ caller.Reaches E n)
    (comp : Compound) (rs : List Res) :
    n.Sends (fun _ => False) (caller.callCompound E comp rs n).2 ∧
      ∃ e, (caller.callCompound E comp rs n).1.2 = .error (.ctx e) := by
  induction caller generalizing comp rs n with
  | rpc => exact absurd trivial h
  | session base p ih =>
      rcases hs : E.select n.world with ⟨_ | e, w⟩
      · have hpush : n.Sends (fun _ => False) (n.push (.select none) w) :=
          n.sends_push w (by simp)
        rcases ht : ((n.push (.select none) w).session p).takeToken with _ | s₁
        · rw [callCompound_no_token hs ht]
          exact ⟨hpush, _, rfl⟩
        rcases hc : s₁.scan with _ | ⟨l, s₂⟩
        · rw [callCompound_no_slot hs ht hc]
          exact ⟨hpush, _, rfl⟩
        obtain ⟨hsent, e, he⟩ := ih (mt (Caller.reaches_leased hs ht hc).mpr h)
          (wrapCompound (s₂.sequenceArgs l) comp) (.sequence {} :: rs)
        rcases hb : base.callCompound E (wrapCompound (s₂.sequenceArgs l) comp) (.sequence {} :: rs)
          ((n.push (.select none) w).setSession p s₂) with ⟨⟨rs', out⟩, n₂⟩
        rw [hb] at hsent he
        obtain rfl : out = .error (.ctx e) := he
        rw [callCompound_leased hs ht hc hb]
        exact ⟨hpush.trans hsent, e, rfl⟩
      · rw [callCompound_cancelled hs]
        exact ⟨n.sends_push _ (by simp), e, rfl⟩
  | retry base cfg ih =>
      rcases hctx : E.ctxErr n.world with ⟨_ | e, w⟩
      · have hpush : n.Sends (fun _ => False) (n.push (.ctxErr none) w) :=
          n.sends_push w (by simp)
        obtain ⟨hsent, e, he⟩ := ih (mt (Caller.reaches_attempted hctx).mpr h) comp rs
        rcases hb : base.callCompound E comp rs (n.push (.ctxErr none) w) with ⟨⟨rs', out⟩, n₁⟩
        rw [hb] at hsent he
        obtain rfl : out = .error (.ctx e) := he
        rw [Caller.callCompound, retryLoop_final hctx hb rfl]
        exact ⟨hpush.trans hsent, e, rfl⟩
      · rw [Caller.callCompound, retryLoop_stopped hctx]
        exact ⟨n.sends_push _ (by simp), e, rfl⟩

/-- The log grows, whatever is sent. -/
lemma kept_grows : Kept E (fun _ => True) (Net.Sends fun _ => True) := kept_sends fun _ h => h

lemma Net.grows_push (n : Net W) (ev : Event) (w : W) : n.Sends (fun _ => True) (n.push ev w) :=
  n.sends_push w fun _ _ _ => trivial

/-- A compound is sent. -/
def Net.SendsSome (n n' : Net W) : Prop :=
  ∃ es, n'.log = n.log ++ es ∧ ∃ c reply, .call c reply ∈ es

lemma Net.SendsSome.extend {n n₁ n₂ n' : Net W} (hpre : n.Sends (fun _ => True) n₁)
    (h : n₁.SendsSome n₂) (hpost : n₂.Sends (fun _ => True) n') : n.SendsSome n' := by
  obtain ⟨es₁, hlog₁, -⟩ := hpre
  obtain ⟨es, hlog, c, reply, hmem⟩ := h
  obtain ⟨es₂, hlog₂, -⟩ := hpost
  refine ⟨es₁ ++ es ++ es₂, by rw [hlog₂, hlog, hlog₁, List.append_assoc, List.append_assoc,
    List.append_assoc], c, reply, ?_⟩
  exact List.mem_append_left _ (List.mem_append_right _ hmem)

/-- The log after a call begins with the log after its first attempt. -/
lemma RetryRun.extends_first {call : Call W} {rs : List Res} {n : Net W} {r : Outcome × Net W}
    (hcall : ∀ rs (n : Net W), n.Sends (fun _ => True) (call rs n).2)
    (h : RetryRun E call rs n r) {w : W} (hctx : E.ctxErr n.world = (none, w)) :
    (call rs (n.push (.ctxErr none) w)).2.Sends (fun _ => True) r.2 := by
  cases h with
  | stopped err hctx' => simp [hctx] at hctx'
  | final hctx' hc | exhausted hctx' hc =>
      obtain ⟨-, rfl⟩ := Prod.mk.inj (hctx.symm.trans hctx')
      rw [hc]
      exact ⟨[], (List.append_nil _).symm, by simp⟩
  | interrupted hctx' hc =>
      obtain ⟨-, rfl⟩ := Prod.mk.inj (hctx.symm.trans hctx')
      rw [hc]
      exact Net.grows_push ..
  | again hctx' hc _ _ hrest =>
      obtain ⟨-, rfl⟩ := Prod.mk.inj (hctx.symm.trans hctx')
      rw [hc]
      exact (Net.grows_push ..).trans (kept_grows.retryRun hcall hrest)

/-- A call that gets there sends something. -/
lemma Caller.sendsSome_of_reaches {caller : Caller} {n : Net W} (h : caller.Reaches E n)
    (comp : Compound) (rs : List Res) :
    n.SendsSome (caller.callCompound E comp rs n).2 := by
  induction caller generalizing comp rs n with
  | rpc => exact ⟨[_], rfl, _, _, List.mem_singleton_self _⟩
  | session base p ih =>
      obtain ⟨hs, s₁, l, s₂, ht, hc, hbase⟩ := h
      have hsent := ih hbase (wrapCompound (s₂.sequenceArgs l) comp) (.sequence {} :: rs)
      rw [callCompound_leased (Prod.ext hs rfl) ht hc rfl]
      exact .extend ((Net.grows_push ..).trans ((kept_grows (E := E)).setSession _ p s₂)) hsent
        ((kept_grows (E := E)).setSession _ p _)
  | retry base cfg ih =>
      obtain ⟨hctx, hbase⟩ := h
      refine .extend (Net.grows_push ..) (ih hbase comp rs) ?_
      exact (retryRun_retryLoop cfg _ _ _ _ rs n).extends_first
        (fun rs n => kept_grows.callCompound base trivial rs n) (Prod.ext hctx rfl)

/-- **A call sends something exactly if its first attempt reaches the transport.** -/
lemma Caller.sends_iff_reaches (caller : Caller) (comp : Compound) (rs : List Res) (n : Net W)
    {es : List Event} (hlog : (caller.callCompound E comp rs n).2.log = n.log ++ es) :
    (∃ c reply, .call c reply ∈ es) ↔ caller.Reaches E n := by
  refine ⟨fun ⟨c, reply, hmem⟩ => ?_, fun h => ?_⟩
  · by_contra hnot
    obtain ⟨⟨es', hlog', hsilent⟩, -⟩ := Caller.silent_of_not_reaches hnot comp rs
    obtain rfl := List.append_cancel_left (hlog.symm.trans hlog')
    exact hsilent c reply hmem
  · obtain ⟨es', hlog', hsent⟩ := Caller.sendsSome_of_reaches h comp rs
    obtain rfl := List.append_cancel_left (hlog.symm.trans hlog')
    exact hsent

end NfsClient.Nfs4
