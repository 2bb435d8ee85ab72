import NfsClient.Nfs4.SessionServer

/-!
# A call takes effect once or not at all

A server runs a compound as a batch, and may break the batch off by putting an operation off.  If
everything in front of such a place leaves the lasting part of the server's state alone, then a
call of the client, with all its retries, comes to one of three things.  It gives up and has
changed nothing; or it is lost on its way, and has changed nothing or what its operations change;
or it has the outcome and the effect of its operations run once without interruption.

A server that puts off fewer operations than the client has attempts is always waited for, if
every reply arrives and the session of the client, if it has one, is in step with the server.
-/

namespace NfsClient.Nfs4

open NfsClient.Lib NfsClient.Nfs4.Format

/-! ## The state that lasts -/

/-- What lasts of the server's state from one compound to the next.  A compound starts from it
alone. -/
structure Durable {F D : Type} (srv : Server F D) (T : Type) where
  tree : F → T
  enter : T → F
  tree_enter : ∀ t, tree (enter t) = t
  start_eq : ∀ f, srv.start f = enter (tree f)

namespace Durable

variable {F D C T : Type} {srv : Server F D} (V : Durable srv T)

/-- What the operations leave when they run once without interruption. -/
def effect (ops : List Arg) (t : T) : T := V.tree (srv.execAll ops (V.enter t)).2

/-- The lasting state at the other end of a client's link. -/
abbrev kept (n : Net (World (Sessioned F) D C)) : T := V.tree n.world.files.base

/-- Whatever stands in front of an operation that can be put off keeps the lasting state. -/
def Guards (ops : List Arg) : Prop :=
  ∀ pre a post, ops = pre ++ a :: post → srv.Delays a →
    ∀ x ∈ pre, ∀ f, V.tree (srv.exec x f).2 = V.tree f

/-- Operations with which a call through `k` sessions is atomic. -/
structure Fits (k : ℕ) (ops : List Arg) : Prop where
  guards : V.Guards ops
  plain : ∀ q, .sequence q ∉ ops
  ne_nil : ops ≠ []
  keeps : KeepsLast ops
  length_lt : k + ops.length < 2 ^ 32

/-! ## One compound -/

/-- **One compound.**  A SEQUENCE is refused; or an operation is put off; or the compound runs to
its end. -/
lemma runOps_effect {qs : List SequenceArgs} {ops : List Arg} (hg : V.Guards ops)
    (hplain : ∀ q, .sequence q ∉ ops) {w w' : World (Sessioned F) D C} {vs : List OpResult}
    (h : srv.sessioned.runOps (qs.map Arg.sequence ++ ops) w = (vs, w')) :
    (Sessioned.accept qs w.files = none ∧ vs.length ≤ qs.length ∧
        (∃ r : SequenceRefusal, Server.overall vs = r.status) ∧ w'.files.base = w.files.base) ∨
      (isRetriableStatus (Server.overall vs) = true ∧
        V.tree w'.files.base = V.tree w.files.base) ∨
      (isRetriableStatus (Server.overall vs) = false ∧
        (∃ seqs, seqs.length = qs.length ∧
          (∀ v ∈ seqs, v.kind = .sequence {} ∧ v.stat = nfs4Ok) ∧
          vs = seqs ++ (srv.execAll ops w.files.base).1) ∧
        w'.files.base = (srv.execAll ops w.files.base).2) := by
  have hcases := srv.sessioned.runOps_cases (qs.map Arg.sequence ++ ops) w
  rw [h] at hcases
  rcases hcases with ⟨hst, hall⟩ | ⟨hst, hbroke⟩
  · cases hacc : Sessioned.accept qs w.files with
    | none =>
        obtain ⟨r, hr, hlen, hbase⟩ := srv.execAll_refused hacc ops
        rw [hall] at hr hlen hbase
        exact .inl ⟨rfl, hlen, ⟨r, hr⟩, hbase⟩
    | some s =>
        rw [Server.execAll_accepted hacc] at hall
        obtain ⟨hvs, hfiles⟩ := Prod.mk.inj hall
        obtain ⟨hres, hbase, -⟩ := srv.execAll_sessioned hplain s
        rw [Sessioned.accept_base hacc] at hres hbase
        rw [hres] at hvs
        refine .inr (.inr ⟨hst, ⟨_, List.length_map _, ?_, hvs.symm⟩, ?_⟩)
        · intro v hv
          obtain ⟨q, -, rfl⟩ := List.mem_map.mp hv
          exact ⟨rfl, rfl⟩
        · exact (congrArg Sessioned.base hfiles).symm.trans hbase
  · obtain ⟨pre, a, post, hops, ha, hs⟩ := hbroke.behind_sequences
    refine .inr (.inl ⟨hst, ?_⟩)
    dsimp only at hs
    rw [hs]
    cases hacc : Sessioned.accept qs w.files with
    | none =>
        obtain ⟨-, -, -, hbase⟩ := srv.execAll_refused hacc pre
        rw [hbase]
    | some s =>
        have hpre : ∀ q, .sequence q ∉ pre := by
          intro q hq
          exact hplain q (hops ▸ List.mem_append_left _ hq)
        obtain ⟨-, hbase, -⟩ := srv.execAll_sessioned hpre s
        rw [Server.execAll_accepted hacc, hbase, Sessioned.accept_base hacc]
        exact batch_keeps (hg pre a post hops ha) _

/-- The call has the outcome and the effect of its operations, run once without
interruption. -/
structure Completed (ops : List Arg) (t t' : T) (out : Outcome) : Prop where
  tree_eq : t' = V.effect ops t
  outcome : ∃ rs r, kinds rs = ops.map Arg.decoder ∧ (∀ r ∈ rs, r.Clean) ∧
    out = (storeAll (srv.execAll ops (V.enter t)).1 rs, .ok r) ∧
    r.status = Server.overall (srv.execAll ops (V.enter t)).1

/-- The lasting state when an operation was put off, and what the client makes of the answer. -/
structure PutOff (rs : List Res) (t t' : T) (out : Outcome) : Prop where
  tree_eq : t' = t
  retriable : retriable out.2 = true
  kinds_eq : kinds out.1 = kinds rs
  clean : ∀ r ∈ out.1, r.Clean

/-- **What the client makes of the answer.** -/
lemma answer_effect {qs : List SequenceArgs} {comp : Compound} {rs : List Res}
    (hfit : V.Fits qs.length comp.ops) (hrs : kinds rs = comp.ops.map Arg.decoder)
    (hclean : ∀ r ∈ rs, r.Clean) {w w' : World (Sessioned F) D C} {f : Sessioned F}
    (hw : w.files = srv.sessioned.start f) {vs : List OpResult}
    (h : srv.sessioned.runOps (qs.map Arg.sequence ++ comp.ops) w = (vs, w')) {out : Outcome}
    (hout : unwrap qs.length (decodeReply (sequenceDecoders qs.length rs)
      (.ok (encodeReply (Server.overall vs) srv.tag vs))) = out) :
    (Sessioned.accept qs w.files = none ∧ V.tree w'.files.base = V.tree f.base ∧
        ∃ e, out.2 = .error e ∧ ∃ r : SequenceRefusal, e.asStatus = some r.status) ∨
      (isRetriableStatus (Server.overall vs) = true ∧
        PutOff rs (V.tree f.base) (V.tree w'.files.base) out) ∨
      (retriable out.2 = false ∧
        V.Completed comp.ops (V.tree f.base) (V.tree w'.files.base) out) := by
  have hserved := Server.served_of_runOps h
  have hbase : w.files.base = V.enter (V.tree f.base) := by
    rw [hw]
    exact V.start_eq f.base
  let c : Compound := { comp with ops := qs.map Arg.sequence ++ comp.ops }
  have hc : Prefixed (qs.map SequenceArgs.sessionID) comp c := ⟨qs, rfl, rfl⟩
  have hclen : c.ops.length < 2 ^ 32 := by simpa [c] using hfit.length_lt
  have hconf : Conforming c (encodeReply (Server.overall vs) srv.tag vs) (Server.overall vs) :=
    Served.conforming (c := c) hserved (by simp [c, hfit.ne_nil]) hclen srv.tag
  have hretry := hconf.retriable_eq hc hrs hfit.ne_nil
  rw [List.length_map, hout] at hretry
  rcases V.runOps_effect hfit.guards hfit.plain h with
    ⟨hacc, hlen, ⟨r, hr⟩, hkeep⟩ | ⟨hst, hkeep⟩ | ⟨hst, ⟨seqs, hlen, hseqs, rfl⟩, hfiles⟩
  · obtain ⟨rs', e, hu, he⟩ := unwrap_sequence_failed hfit.length_lt hrs hserved hlen
      (by rw [hr]; exact r.status_ne_ok) srv.tag
    rw [hout] at hu
    refine .inl ⟨hacc, ?_, e, congrArg Prod.snd hu, r, by rw [he, hr]⟩
    rw [hkeep, hbase, V.tree_enter]
  · obtain ⟨hkinds, hclean'⟩ := hconf.clean hst hc hrs hfit.ne_nil hfit.keeps hclean
    rw [List.length_map, hout] at hkinds hclean'
    refine .inr (.inl ⟨hst, ?_, hretry.trans hst, hkinds, hclean'⟩)
    rw [hkeep, hbase, V.tree_enter]
  · rw [hbase] at hfiles hout
    obtain ⟨r, hr, hstatus⟩ := unwrap_accepted (by rw [hlen]; exact hfit.length_lt) hrs
      (served_execAll srv comp.ops (V.enter (V.tree f.base))) hseqs srv.tag
    rw [hlen, hout] at hr
    exact .inr (.inr ⟨hretry.trans hst, congrArg V.tree hfiles, rs, r, hrs, hclean, hr, hstatus⟩)

/-! ## One attempt -/

/-- What an attempt comes to. -/
inductive Attempted (N : Link C) (ops : List Arg) (rs : List Res) (t t' : T) : Outcome → Prop
  /-- A session caller has given up before anything was sent. -/
  | aborted (e : CtxErr) (htree : t' = t) : Attempted N ops rs t t' (rs, .error (.ctx e))
  /-- The call was lost on its way. -/
  | lost {e : Err} (he : N.Loses e) (hplain : e.asStatus = none)
      (htree : t' = t ∨ t' = V.effect ops t) : Attempted N ops rs t t' (rs, .error e)
  /-- The server has refused a SEQUENCE. -/
  | refused {out : Outcome} {e : Err} (r : SequenceRefusal) (hout : out.2 = .error e)
      (he : e.asStatus = some r.status) (htree : t' = t) : Attempted N ops rs t t' out
  | putOff {out : Outcome} (h : PutOff rs t t' out) : Attempted N ops rs t t' out
  | done {out : Outcome} (hr : retriable out.2 = false) (h : V.Completed ops t t' out) :
      Attempted N ops rs t t' out

/-- **One attempt.** -/
theorem attempt_effect {N : Link C} {w w' : World (Sessioned F) D C} {ids : List SessionID}
    {comp : Compound} {rs : List Res} {es : List Event} {out : Outcome}
    (hatt : Attempt ids comp rs es out) (hrun : EnvRun (srv.sessioned.over N) w es w')
    (hfit : V.Fits ids.length comp.ops) (hrs : kinds rs = comp.ops.map Arg.decoder)
    (hclean : ∀ r ∈ rs, r.Clean) :
    V.Attempted N comp.ops rs (V.tree w.files.base) (V.tree w'.files.base) out := by
  cases hatt with
  | aborted e hids hes =>
      obtain ⟨contexts, rfl⟩ := world_of_no_call hes hrun
      exact .aborted e rfl
  | @replied es c reply hes hc =>
      obtain ⟨w₁, hbefore, w₂, hcall, rfl⟩ := envRun_append.mp hrun
      obtain ⟨contexts₁, rfl⟩ := world_of_no_call hes hbefore
      obtain ⟨qs, rfl, hcops⟩ := hc
      rw [List.length_map] at hfit ⊢
      obtain ⟨contexts, ⟨vs, rfl, hops⟩ | ⟨e, he, hplain, rfl, hw⟩⟩ := answered_over hcall
      · rw [hcops] at hops
        rcases V.answer_effect hfit hrs hclean rfl hops rfl with
          ⟨-, htree, e, hout, r, hr⟩ | ⟨-, hput⟩ | ⟨hr, hdone⟩
        · exact .refused r hout hr htree
        · exact .putOff hput
        · exact .done hr hdone
      · rw [unwrap_transport_error]
        refine .lost he hplain ?_
        rcases hw with rfl | ⟨vs, hops⟩
        · exact .inl rfl
        · rw [hcops] at hops
          have hbase : (srv.sessioned.start w.files).base = V.enter (V.tree w.files.base) :=
            V.start_eq w.files.base
          rcases V.runOps_effect hfit.guards hfit.plain hops with
            ⟨-, -, -, hkeep⟩ | ⟨-, hkeep⟩ | ⟨-, -, hfiles⟩
          · exact .inl (by rw [hkeep, hbase, V.tree_enter])
          · exact .inl (by rw [hkeep, hbase, V.tree_enter])
          · exact .inr (by rw [hfiles, hbase]; rfl)

end Durable

/-- An attempt together with the run of the environment. -/
lemma attempt_run {W : Type} {E : Env W} (ps : List ℕ) (comp : Compound) (rs : List Res)
    (n : Net W) :
    ∃ es, Attempt (n.stackIDs ps) comp rs es ((sessionStack ps).callCompound E comp rs n).1 ∧
      EnvRun E n.world es ((sessionStack ps).callCompound E comp rs n).2.world := by
  obtain ⟨es, hlog, hatt, -⟩ := attempt_of_call (E := E) ps comp rs n
  obtain ⟨es', hlog', hrun⟩ := runsTo_callCompound (E := E) (sessionStack ps) comp rs n
  obtain rfl : es = es' := List.append_cancel_left (hlog.symm.trans hlog')
  exact ⟨es, hatt, hrun⟩

/-! ## Whole calls -/

lemma carriesDelay_exhaustedErr {out : Except Err CompoundResult} (h : retriable out = true) :
    CarriesDelay (exhaustedErr out) := by
  cases out with
  | error e => simpa [retriable, CarriesDelay, exhaustedErr] using h
  | ok r => simpa [retriable, isRetriableStatus, CarriesDelay, errorHasStatus, exhaustedErr,
      Err.asStatus] using h

lemma carriesDelay_errOf {out : Except Err CompoundResult} (h : retriable out = true) :
    ∀ e, errOf out = some e → CarriesDelay e := by
  intro e he
  cases out with
  | error e' =>
      obtain rfl := Option.some.inj he
      exact carriesDelay_exhaustedErr h
  | ok r => simp [errOf] at he

lemma retriable_of_plain {e : Err} (h : e.asStatus = none) : retriable (.error e) = false := by
  simp [retriable, errorHasStatus, h]

lemma retriable_of_refusal {e : Err} {r : SequenceRefusal} (h : e.asStatus = some r.status) :
    retriable (.error e) = false := by
  have hr := r.status_not_retriable
  simp only [isRetriableStatus, Bool.or_eq_false_iff, decide_eq_false_iff_not] at hr
  simp [retriable, errorHasStatus, h, hr.1, hr.2]

/-- The errors with which a call gives up: a context is done, the server keeps putting the call
off, or it has refused a SEQUENCE. -/
def GivesUp (e : Err) : Prop :=
  (∃ x, e = .ctx x) ∨ CarriesDelay e ∨ ∃ r : SequenceRefusal, e.asStatus = some r.status

namespace Durable

variable {F D C T : Type} {srv : Server F D} (V : Durable srv T) {N : Link C}

/-- What a call comes to, with all its retries. -/
inductive Called (N : Link C) (ops : List Arg) (t t' : T) (out : Outcome) : Prop
  /-- It fails, and nothing has changed. -/
  | gaveUp {e : Err} (hout : out.2 = .error e) (he : GivesUp e) (htree : t' = t)
  /-- It was lost on its way. -/
  | lost {e : Err} (hout : out.2 = .error e) (he : N.Loses e)
      (htree : t' = t ∨ t' = V.effect ops t)
  | done (h : V.Completed ops t t' out)

/-- An attempt ends the call, or was put off. -/
lemma Attempted.called_or_putOff {ops : List Arg} {rs : List Res} {t t' : T} {out : Outcome}
    (h : V.Attempted N ops rs t t' out) :
    (retriable out.2 = false ∧ V.Called N ops t t' out) ∨ PutOff rs t t' out := by
  cases h with
  | aborted e htree => exact .inl ⟨retriable_of_plain rfl, .gaveUp rfl (.inl ⟨e, rfl⟩) htree⟩
  | lost he hplain htree => exact .inl ⟨retriable_of_plain hplain, .lost rfl he htree⟩
  | refused r hout he htree =>
      rw [hout]
      exact .inl ⟨retriable_of_refusal he, .gaveUp hout (.inr (.inr ⟨r, he⟩)) htree⟩
  | putOff hput => exact .inr hput
  | done hr hdone => exact .inl ⟨hr, .done hdone⟩

/-- **Atomicity**, for the loop of the retry caller. -/
lemma retryLoop_called {ps : List ℕ} {comp : Compound} (hfit : V.Fits ps.length comp.ops)
    (cfg : RetryConfig) (left : ℕ) (delay : Int64) {lastErr : Option Err} {rs : List Res}
    (n : Net (World (Sessioned F) D C)) (hlast : ∀ e, lastErr = some e → CarriesDelay e)
    (hrs : kinds rs = comp.ops.map Arg.decoder) (hclean : ∀ r ∈ rs, r.Clean)
    {R : Outcome × Net (World (Sessioned F) D C)}
    (hR : retryLoop (srv.sessioned.over N) cfg
      (fun rs n => (sessionStack ps).callCompound (srv.sessioned.over N) comp rs n) left delay
        lastErr rs n = R) :
    V.Called N comp.ops (V.tree n.world.files.base) (V.tree R.2.world.files.base) R.1 := by
  induction left using Nat.strongRecOn generalizing delay lastErr rs n with
  | ind left ih =>
      rcases hctx : (srv.sessioned.over N).ctxErr n.world with ⟨e, w⟩
      have hw : w.files = n.world.files := by rw [← (Prod.mk.inj hctx).2]
      cases e with
      | some e =>
          rw [retryLoop_stopped hctx] at hR
          obtain rfl := hR
          refine .gaveUp rfl ?_ (congrArg (fun f => V.tree f.base) hw)
          cases hl : lastErr with
          | none => exact .inl ⟨e, rfl⟩
          | some e' => exact .inr (.inl (hlast e' hl))
      | none =>
          rcases hcall : (sessionStack ps).callCompound (srv.sessioned.over N) comp rs
            (n.push (.ctxErr none) w) with ⟨⟨rs₁, out⟩, n₁⟩
          obtain ⟨es, hatt, hrun⟩ := attempt_run (E := srv.sessioned.over N) ps comp rs
            (n.push (.ctxErr none) w)
          rw [hcall] at hatt hrun
          have heffect := V.attempt_effect hatt hrun (by rwa [Net.length_stackIDs]) hrs hclean
          rw [show (n.push (.ctxErr none) w).world.files = n.world.files from hw] at heffect
          rcases heffect.called_or_putOff with ⟨hr, hcalled⟩ | ⟨htree, hr, hkinds, hclean'⟩
          · rw [retryLoop_final hctx hcall hr] at hR
            obtain rfl := hR
            exact hcalled
          · cases left with
            | zero =>
                rw [retryLoop_exhausted hctx hcall hr] at hR
                obtain rfl := hR
                exact .gaveUp rfl (.inr (.inl (carriesDelay_exhaustedErr hr))) htree
            | succ left =>
                rcases hs : (srv.sessioned.over N).sleep delay n₁.world with ⟨e, w₁⟩
                have hw₁ : w₁.files = n₁.world.files := by rw [← (Prod.mk.inj hs).2]
                have htree₁ : V.tree w₁.files.base = V.tree n.world.files.base := by
                  rw [hw₁, htree]
                cases e with
                | some e =>
                    rw [retryLoop_interrupted hctx hcall hr hs] at hR
                    obtain rfl := hR
                    exact .gaveUp rfl (.inl ⟨e, rfl⟩) htree₁
                | none =>
                    rw [retryLoop_again hctx hcall hr hs] at hR
                    have hrest := ih left (Nat.lt_succ_self left) (nextDelay cfg delay)
                      (n₁.push (.sleep delay none) w₁) (carriesDelay_errOf hr)
                      (hkinds.trans hrs) hclean' hR
                    rw [show V.tree (n₁.push (.sleep delay none) w₁).world.files.base
                      = V.tree n.world.files.base from htree₁] at hrest
                    exact hrest

end Durable

/-! ## Calls that are served -/

/-- No context is done, every reply arrives, and the session of the client, if it has one, is
ready and in step with the server. -/
structure Steady {F D C : Type} (N : Link C) (p : Option ℕ) (n : Net (World (Sessioned F) D C)) :
    Prop where
  link : N.Open
  ready : ∀ q ∈ p, (n.session q).Ready
  agrees : ∀ q ∈ p, (n.session q).Agrees n.world.files

section Steady

variable {F D C : Type} {srv : Server F D} {N : Link C} {p : Option ℕ}
  {n n₁ : Net (World (Sessioned F) D C)}

lemma Steady.push (h : Steady N p n) (ev : Event) {w : World (Sessioned F) D C}
    (hw : w.files = n.world.files) : Steady N p (n.push ev w) where
  link := h.link
  ready := h.ready
  agrees q hq := by
    show (n.session q).Agrees w.files
    rw [hw]
    exact h.agrees q hq

variable (srv) in
/-- Over an open link the server answers. -/
lemma base_over (hN : N.Open) (c : Compound) (w : World (Sessioned F) D C) :
    ∃ contexts vs w', (srv.sessioned.over N).base c w
        = (.ok (encodeReply (Server.overall vs) srv.tag vs), w') ∧
      srv.sessioned.runOps c.ops { w with contexts, files := srv.sessioned.start w.files }
        = (vs, w') := by
  have hopen := hN.trip w.contexts
  rcases htrip : N.trip w.contexts with ⟨l, contexts⟩
  obtain rfl : l = none := by rw [htrip] at hopen; exact hopen
  exact ⟨contexts, _, _, by simp only [Server.over, Contexts.env, htrip]; rfl, rfl⟩

lemma Net.session_set_self {W : Type} {n : Net W} {p : ℕ} (s : Session)
    (h : p < n.sessions.length) : (n.setSession p s).session p = s := by
  simp [Net.session, Net.setSession, h]

lemma Session.Ready.lt_length {W : Type} {n : Net W} {p : ℕ} (h : (n.session p).Ready) :
    p < n.sessions.length := by
  by_contra hp
  have hdefault : n.session p = default := by simp [Net.session, Nat.le_of_not_lt hp]
  rw [hdefault] at h
  exact absurd h.free_pos (by decide)

/-- A call through one session whose reply decodes. -/
lemma callCompound_session {W : Type} {E : Env W} {n n₁ : Net W} {q : ℕ} {s₁ s₂ : Session}
    {l : SlotLease} {w w' : W} {comp : Compound} {rs : List Res} {reply : Except Err Bytes}
    {out : Outcome} (hlt : q < n.sessions.length) (hsel : E.select n.world = (none, w))
    (ht : (n.session q).takeToken = some s₁) (hscan : s₁.scan = some (l, s₂))
    (hbase : E.base (wrapCompound (s₂.sequenceArgs l) comp) w = (reply, w'))
    (hok : (decodeReply (.sequence {} :: rs) reply).2.isOk = true)
    (hcall : (sessionStack [q]).callCompound E comp rs n = (out, n₁)) :
    unwrap 1 (decodeReply (sequenceDecoders 1 rs) reply) = out ∧ n₁.world = w' ∧
      n₁.session q = s₂.giveBack l true := by
  set c₁ := wrapCompound (s₂.sequenceArgs l) comp
  set n₀ := (n.push (.select none) w).setSession q s₂ with hn₀
  have hb : Caller.rpc.callCompound E c₁ (.sequence {} :: rs) n₀
      = (decodeReply (.sequence {} :: rs) reply, n₀.push (.call c₁ reply) w') := by
    have hworld : E.base c₁ n₀.world = (reply, w') := hbase
    simp only [Caller.callCompound, hworld]
  have hsession : (n₀.push (.call c₁ reply) w').session q = s₂ := Net.session_set_self s₂ hlt
  rw [sessionStack, sessionStack, callCompound_leased hsel ht hscan hb, hsession,
    afterBase_of_isOk hok] at hcall
  obtain ⟨rfl, rfl⟩ := Prod.mk.inj hcall
  refine ⟨rfl, rfl, Net.session_set_self _ ?_⟩
  simpa [hn₀, Net.push, Net.setSession] using hlt

/-- **An attempt in a steady state** is sent, its SEQUENCE is accepted, and the state is steady
again. -/
lemma Steady.sent (hst : Steady N p n) {comp : Compound} {rs : List Res}
    (hplain : ∀ q, .sequence q ∉ comp.ops) (hrs : kinds rs = comp.ops.map Arg.decoder)
    (hlen : p.toList.length + comp.ops.length < 2 ^ 32) {out : Outcome}
    (hcall : (sessionStack p.toList).callCompound (srv.sessioned.over N) comp rs n = (out, n₁)) :
    ∃ qs contexts vs, qs.length = p.toList.length ∧
      Sessioned.accept qs (srv.sessioned.start n.world.files) ≠ none ∧
      srv.sessioned.runOps (qs.map Arg.sequence ++ comp.ops)
        { n.world with contexts, files := srv.sessioned.start n.world.files } = (vs, n₁.world) ∧
      unwrap qs.length (decodeReply (sequenceDecoders qs.length rs)
        (.ok (encodeReply (Server.overall vs) srv.tag vs))) = out ∧ Steady N p n₁ := by
  cases p with
  | none =>
      obtain ⟨contexts, vs, w', hbase, hops⟩ := base_over srv hst.link comp n.world
      simp only [Option.toList_none, sessionStack, Caller.callCompound, hbase] at hcall
      obtain ⟨rfl, rfl⟩ := Prod.mk.inj hcall
      exact ⟨[], contexts, vs, rfl, by simp [Sessioned.accept], hops, rfl,
        hst.link, by simp, by simp⟩
  | some q =>
      have hready := hst.ready q rfl
      have hlt := hready.lt_length
      have hsel : (srv.sessioned.over N).select n.world
          = (none, { n.world with contexts := (N.select n.world.contexts).2 }) :=
        Prod.ext (hst.link.select n.world.contexts) rfl
      obtain ⟨s₁, l, s₂, ht, hscan, hid, hseq, hhigh, hready₂, hslots⟩ := hready.lease
      have hagrees : (n.session q).Agrees (srv.sessioned.start n.world.files) := hst.agrees q rfl
      obtain ⟨f, hcheck, hsessions⟩ := hagrees.accept rfl hid hseq hhigh
      have hacc : Sessioned.accept [s₂.sequenceArgs l] (srv.sessioned.start n.world.files)
          = some f := by
        simp only [Sessioned.accept, hcheck]
      obtain ⟨contexts, vs, w', hbase, hops⟩ := base_over srv hst.link
        (wrapCompound (s₂.sequenceArgs l) comp)
        { n.world with contexts := (N.select n.world.contexts).2 }
      have hrun : srv.sessioned.runOps ([s₂.sequenceArgs l].map Arg.sequence ++ comp.ops)
          { n.world with contexts, files := srv.sessioned.start n.world.files } = (vs, w') := hops
      have hok : (decodeReply (.sequence {} :: rs)
          (.ok (encodeReply (Server.overall vs) srv.tag vs))).2.isOk = true := by
        refine (Server.served_of_runOps hrun).decodes ?_
          (by simpa [Nat.add_comm] using hlen) srv.tag
        rw [List.map_append, ← hrs]
        rfl
      obtain ⟨hout, hworld, hsession⟩ := callCompound_session hlt hsel ht hscan hbase hok hcall
      refine ⟨[s₂.sequenceArgs l], contexts, vs, rfl, by simp [hacc], ?_, hout, hst.link, ?_, ?_⟩
      · rw [hworld]
        exact hrun
      · rintro _ ⟨⟩
        rwa [hsession]
      · rintro _ ⟨⟩
        have hfiles : n₁.world.files.sessions = f.sessions := by
          rw [hworld]
          exact Server.runOps_sessions hplain hacc hrun
        rw [hsession, Session.Agrees, Session.giveBack_id, hid, hslots, hfiles]
        exact hsessions

end Steady

namespace Durable

variable {F D C T : Type} {srv : Server F D} (V : Durable srv T) {N : Link C} {p : Option ℕ}
  {comp : Compound}

/-- An attempt in a steady state is put off or completes. -/
lemma attempt_steady (hfit : V.Fits p.toList.length comp.ops) {rank : D → ℕ}
    (hP : srv.Patience rank) {rs : List Res} {out : Outcome} {n n₁ : Net (World (Sessioned F) D C)}
    (hst : Steady N p n)
    (hcall : (sessionStack p.toList).callCompound (srv.sessioned.over N) comp rs n = (out, n₁))
    (hrs : kinds rs = comp.ops.map Arg.decoder) (hclean : ∀ r ∈ rs, r.Clean) :
    Steady N p n₁ ∧ rank n₁.world.load ≤ rank n.world.load ∧
      ((PutOff rs (V.tree n.world.files.base) (V.tree n₁.world.files.base) out ∧
          rank n₁.world.load < rank n.world.load) ∨
        (retriable out.2 = false ∧
          V.Completed comp.ops (V.tree n.world.files.base) (V.tree n₁.world.files.base) out)) := by
  obtain ⟨qs, contexts, vs, hqs, hacc, hrun, hout, hst'⟩ :=
    hst.sent hfit.plain hrs hfit.length_lt hcall
  rw [← hqs] at hfit
  obtain ⟨hle, hlt⟩ := hP.sessioned.runOps (qs.map Arg.sequence ++ comp.ops)
    { n.world with contexts, files := srv.sessioned.start n.world.files }
  rw [hrun] at hle hlt
  refine ⟨hst', hle, ?_⟩
  rcases V.answer_effect hfit hrs hclean rfl hrun hout with ⟨hnone, -⟩ | ⟨hst, hput⟩ | hdone
  · exact absurd hnone hacc
  · exact .inl ⟨hput, hlt hst⟩
  · exact .inr hdone

/-- **Progress**, for the loop of the retry caller. -/
lemma retryLoop_completes (hfit : V.Fits p.toList.length comp.ops) {rank : D → ℕ}
    (hP : srv.Patience rank) (cfg : RetryConfig) (left : ℕ) (delay : Int64)
    {lastErr : Option Err} {rs : List Res} (n : Net (World (Sessioned F) D C))
    (hst : Steady N p n) (hleft : rank n.world.load ≤ left)
    (hrs : kinds rs = comp.ops.map Arg.decoder) (hclean : ∀ r ∈ rs, r.Clean)
    {R : Outcome × Net (World (Sessioned F) D C)}
    (hR : retryLoop (srv.sessioned.over N) cfg
      (fun rs n => (sessionStack p.toList).callCompound (srv.sessioned.over N) comp rs n) left
        delay lastErr rs n = R) :
    V.Completed comp.ops (V.tree n.world.files.base) (V.tree R.2.world.files.base) R.1 ∧
      Steady N p R.2 ∧ rank R.2.world.load ≤ rank n.world.load := by
  induction left using Nat.strongRecOn generalizing delay lastErr rs n with
  | ind left ih =>
      have hctx : (srv.sessioned.over N).ctxErr n.world
          = (none, { n.world with contexts := (N.ctxErr n.world.contexts).2 }) :=
        Prod.ext (hst.link.ctxErr n.world.contexts) rfl
      rcases hcall : (sessionStack p.toList).callCompound (srv.sessioned.over N) comp rs
        (n.push (.ctxErr none) { n.world with contexts := (N.ctxErr n.world.contexts).2 })
        with ⟨⟨rs₁, out⟩, n₁⟩
      obtain ⟨hst₁, hle, ⟨⟨htree, hr, hkinds, hclean'⟩, hlt⟩ | ⟨hr, hdone⟩⟩ :=
        V.attempt_steady hfit hP
          (hst.push (.ctxErr none) (w := { n.world with contexts := (N.ctxErr _).2 }) rfl) hcall hrs
          hclean
      · -- the server has put an operation off, so there is an attempt left
        have hlt' : rank n₁.world.load < rank n.world.load := hlt
        obtain ⟨left, rfl⟩ : ∃ k, left = k + 1 := ⟨left - 1, by omega⟩
        have hs : (srv.sessioned.over N).sleep delay n₁.world
            = (none, { n₁.world with contexts := (N.sleep delay n₁.world.contexts).2 }) :=
          Prod.ext (hst.link.sleep delay n₁.world.contexts) rfl
        rw [retryLoop_again hctx hcall hr hs] at hR
        obtain ⟨hdone, hst', hrank⟩ := ih left (Nat.lt_succ_self left) (nextDelay cfg delay)
          (n₁.push (.sleep delay none) { n₁.world with contexts := (N.sleep delay _).2 })
          (hst₁.push _ rfl)
          (show rank n₁.world.load ≤ left by omega) (hkinds.trans hrs) hclean' hR
        refine ⟨?_, hst', hrank.trans hlt'.le⟩
        rw [show V.tree n.world.files.base = V.tree n₁.world.files.base from htree.symm]
        exact hdone
      · rw [retryLoop_final hctx hcall hr] at hR
        obtain rfl := hR
        exact ⟨hdone, hst₁, hle⟩

end Durable

/-! ## Methods of a connection -/

/-- What a multi-op method makes of the results of its operations. -/
def MultiOp.judge {α : Type} (m : MultiOp α) (vs : List OpResult) : Except Err α :=
  if Server.overall vs = nfs4Ok then .ok (m.value (storeAll vs m.results))
  else .error (m.wrapOverall (.status (Server.overall vs)))

section Methods

variable {F D C T α : Type} {srv : Server F D} {N : Link C} (V : Durable srv T)
  {ps : List ℕ} {p : Option ℕ} {cfg : RetryConfig} {c : Conn}

/-- A call that completes is judged by its results. -/
lemma Durable.Completed.finish {V : Durable srv T} (m : MultiOp α) {t t' : T} {out : Outcome}
    (h : V.Completed m.ops t t' out) :
    m.finish out = m.judge (srv.execAll m.ops (V.enter t)).1 := by
  obtain ⟨rs, r, hrs, hclean, rfl, hst⟩ := h.outcome
  have hserved := served_execAll srv m.ops (V.enter t)
  set vs := (srv.execAll m.ops (V.enter t)).1
  by_cases hok : Server.overall vs = nfs4Ok
  · obtain ⟨hlen, hoks⟩ := hserved.complete hok
    have hkind : vs.map OpResult.kind <+: kinds rs := by rw [hrs]; exact hserved.kinds_prefix
    have hrlen : vs.length = rs.length := by
      rw [hlen, ← length_kinds, hrs, List.length_map]
    have hstored : storeAll vs rs = storeAll vs m.results := by
      rw [storeAll_of_ok hrlen hkind hclean hoks, hrs, m.results_eq]
    -- every decoder shows NFS4_OK, the checked one among them
    have hstats : (storeAll vs rs).map Res.stat = vs.map OpResult.stat := by
      rw [storeAll, hrlen, List.drop_length, List.append_nil, map_stat_zipWith hkind]
    have hchecked : ((storeAll vs rs).getD m.checked default).stat = nfs4Ok :=
      statAt_of_forall (by rwa [hstats]) m.checked
    rw [hstored] at hchecked
    simp only [MultiOp.finish, hst, hok, statusErr_ok, hchecked, MultiOp.judge, if_true, hstored]
  · simp only [MultiOp.finish, hst, statusErr_of_ne hok, MultiOp.judge, hok, if_false]

/-- A method is a run of the retry loop, with fresh decoders, and the look at what came of it. -/
lemma MultiOp.exec_retries {W : Type} {E : Env W} (hc : c.caller = .retry (sessionStack ps) cfg)
    (m : MultiOp α) (n : Net W) :
    ∃ out n', m.exec E c n = (m.finish out, n') ∧
      retryLoop E cfg (fun rs n => (sessionStack ps).callCompound E (c.request m.ops) rs n)
        (cfg.maxAttempts.toNat - 1) cfg.initial none m.results n = (out, n') := by
  rcases hcall : c.caller.callCompound E (c.request m.ops) m.results n with ⟨out, n'⟩
  refine ⟨out, n', by simp only [MultiOp.exec, hcall], ?_⟩
  rw [hc, Caller.callCompound] at hcall
  exact hcall

lemma MultiOp.kinds_results (m : MultiOp α) :
    kinds m.results = (c.request m.ops).ops.map Arg.decoder := by
  rw [request_ops, m.results_eq, kinds_decoders]

lemma MultiOp.clean_results (m : MultiOp α) : ∀ r ∈ m.results, r.Clean := by
  rw [m.results_eq]
  exact clean_decoders m.ops

/-- What a method comes to. -/
inductive MultiOp.Called (m : MultiOp α) (N : Link C) (V : Durable srv T) (t t' : T)
    (r : Except Err α) : Prop
  | gaveUp {e : Err} (hr : r = .error (m.wrapCall e)) (he : GivesUp e) (htree : t' = t)
  | lost {e : Err} (hr : r = .error (m.wrapCall e)) (he : N.Loses e)
      (htree : t' = t ∨ t' = V.effect m.ops t)
  | done (hr : r = m.judge (srv.execAll m.ops (V.enter t)).1) (htree : t' = V.effect m.ops t)

/-- **A method is atomic.**  Whatever the server puts off, whenever the contexts end and whatever
gets lost on the way: the method gives up and has changed nothing; or its call is lost, and it
has changed nothing or what its operations change; or it returns what its operations yield and
leaves what they leave. -/
theorem MultiOp.exec_atomic (hc : c.caller = .retry (sessionStack ps) cfg) (m : MultiOp α)
    (hfit : V.Fits ps.length m.ops) (n : Net (World (Sessioned F) D C)) :
    m.Called N V (V.tree n.world.files.base)
      (V.tree (m.exec (srv.sessioned.over N) c n).2.world.files.base)
      (m.exec (srv.sessioned.over N) c n).1 := by
  obtain ⟨⟨rs, out⟩, n', hexec, hcall⟩ := m.exec_retries (E := srv.sessioned.over N) hc n
  rw [hexec]
  have hcalled := V.retryLoop_called (by rwa [request_ops]) cfg _ _ n (by simp) m.kinds_results
    m.clean_results hcall
  rw [request_ops] at hcalled
  cases hcalled with
  | gaveUp hout he htree =>
      obtain rfl : out = _ := hout
      exact .gaveUp rfl he htree
  | lost hout he htree =>
      obtain rfl : out = _ := hout
      exact .lost rfl he htree
  | done hdone => exact .done (hdone.finish m) hdone.tree_eq

/-- **A method is served.**  If the server puts off fewer operations than there are attempts and
the state is steady, the method returns what its operations yield and leaves what they leave. -/
theorem MultiOp.exec_completes {rank : D → ℕ} (hP : srv.Patience rank)
    (hc : c.caller = .retry (sessionStack p.toList) cfg) (m : MultiOp α)
    (hfit : V.Fits p.toList.length m.ops) {n : Net (World (Sessioned F) D C)}
    (hst : Steady N p n) (hleft : rank n.world.load < cfg.maxAttempts.toNat) :
    (m.exec (srv.sessioned.over N) c n).1
        = m.judge (srv.execAll m.ops (V.enter (V.tree n.world.files.base))).1 ∧
      V.tree (m.exec (srv.sessioned.over N) c n).2.world.files.base
        = V.effect m.ops (V.tree n.world.files.base) ∧
      Steady N p (m.exec (srv.sessioned.over N) c n).2 ∧
      rank (m.exec (srv.sessioned.over N) c n).2.world.load ≤ rank n.world.load := by
  obtain ⟨out, n', hexec, hcall⟩ := m.exec_retries (E := srv.sessioned.over N) hc n
  rw [hexec]
  obtain ⟨hdone, hst', hrank⟩ := V.retryLoop_completes (by rwa [request_ops]) hP cfg
    (cfg.maxAttempts.toNat - 1) _ n hst (by omega) m.kinds_results m.clean_results hcall
  rw [request_ops] at hdone
  exact ⟨hdone.finish m, hdone.tree_eq, hst', hrank⟩

/-! ### Single-op methods -/

/-- A compound of one operation is atomic. -/
lemma Durable.fits_singleton (V : Durable srv T) {a : Arg} (ha : ∀ q, a ≠ .sequence q) {k : ℕ}
    (hlen : k + 1 < 2 ^ 32) : V.Fits k [a] where
  guards := by
    intro pre b post hsplit _ x hx
    -- nothing stands in front of the only operation
    obtain rfl : pre = [] := by
      cases pre with
      | nil => rfl
      | cons y pre => simp at hsplit
    simp at hx
  plain q hq := ha q (List.mem_singleton.mp hq).symm
  ne_nil := by simp
  keeps := by simp [KeepsLast]
  length_lt := hlen

/-- What a single-op method makes of the result of its operation, read by a given decoder. -/
def SingleOp.judge (m : SingleOp) (v : OpResult) (r : Res) : Except Err Res :=
  if m.accepts v.stat then .ok (v.store r) else .error (m.wrapStatus (.status v.stat))

/-- **A single-op method is served**, likewise. -/
theorem SingleOp.exec_completes {rank : D → ℕ} (hP : srv.Patience rank)
    (hc : c.caller = .retry (sessionStack p.toList) cfg) (m : SingleOp)
    (hop : ∀ q, m.op ≠ .sequence q) {n : Net (World (Sessioned F) D C)} (hst : Steady N p n)
    (hleft : rank n.world.load < cfg.maxAttempts.toNat) :
    (∃ r, r.fresh = m.op.decoder ∧
        (m.exec (srv.sessioned.over N) c n).1
          = m.judge (srv.exec m.op (V.enter (V.tree n.world.files.base))).1 r) ∧
      V.tree (m.exec (srv.sessioned.over N) c n).2.world.files.base
        = V.tree (srv.exec m.op (V.enter (V.tree n.world.files.base))).2 ∧
      Steady N p (m.exec (srv.sessioned.over N) c n).2 ∧
      rank (m.exec (srv.sessioned.over N) c n).2.world.load ≤ rank n.world.load := by
  rcases hcall : c.caller.callCompound (srv.sessioned.over N) (c.request [m.op]) [m.result] n with
    ⟨out, n'⟩
  have hexec : m.exec (srv.sessioned.over N) c n = (m.finish out, n') := by
    simp only [SingleOp.exec, hcall]
  rw [hexec]
  rw [hc, Caller.callCompound] at hcall
  have hfresh : m.op.decoder.fresh = m.op.decoder := m.op.fresh_decoder
  have hfit : V.Fits p.toList.length (c.request [m.op]).ops :=
    V.fits_singleton hop (by cases p <;> simp)
  obtain ⟨hdone, hst', hrank⟩ := V.retryLoop_completes hfit hP cfg (cfg.maxAttempts.toNat - 1) _ n
    hst (by omega) (by simp [kinds, m.result_eq, hfresh])
    (by simpa [m.result_eq] using clean_decoders [m.op]) hcall
  rw [request_ops] at hdone
  refine ⟨?_, by rw [hdone.tree_eq, Durable.effect, execAll_singleton], hst', hrank⟩
  obtain ⟨rs, r, hrs, -, rfl, -⟩ := hdone.outcome
  rw [execAll_singleton]
  obtain ⟨res, rfl⟩ : ∃ res, rs = [res] := List.length_eq_one_iff.mp (by
    simpa using congrArg List.length hrs)
  have hkind : res.fresh = m.op.decoder := by simpa [kinds] using hrs
  refine ⟨res, hkind, ?_⟩
  have hstat := stat_store
    (hkind.trans (srv.kind_exec m.op (V.enter (V.tree n.world.files.base))).symm)
  simp only [SingleOp.finish, SingleOp.judge, storeAll, List.zipWith_cons_cons,
    List.zipWith_nil_left, List.singleton_append, List.getD_cons_zero, hstat]

end Methods

end NfsClient.Nfs4
