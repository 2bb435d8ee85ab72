import NfsClient.Nfs4.Completeness
import NfsClient.Nfs4.EnvRun
import NfsClient.Nfs4.ReplyDecoding

/-!
# Retried mutations

A server runs the operations of a compound in order and stops at the first one that fails.  It
may put an operation off, answering NFS4ERR_DELAY or NFS4ERR_GRACE without executing it, except
GETFH; all its replies arrive.  Each retry of the client runs the whole compound again, so how
often the operation that changes the file system is executed depends on where in the compound
the server stopped in each attempt.

The server is a state machine over an arbitrary file system `F` and an arbitrary state `D` from
which it decides what to put off; the contexts of the client are one over `C`.
-/

namespace NfsClient.Nfs4

open NfsClient.Nfs4.Format

/-! ## The server -/

/-- A server, by what it does with one operation. -/
structure Server (F D : Type) where
  /-- The tag of its replies. -/
  tag : Field
  /-- What the start of a compound does: there is no current file handle. -/
  start : F → F
  /-- The result with which the operation is put off, if it is. -/
  putOff : Arg → F → D → Option OpResult × D
  /-- The result of executing the operation. -/
  exec : Arg → F → OpResult × F
  kind_putOff : ∀ {a f d v}, (putOff a f d).1 = some v → v.kind = a.decoder
  kind_exec : ∀ a f, (exec a f).1.kind = a.decoder
  /-- An operation is put off with NFS4ERR_DELAY or NFS4ERR_GRACE. -/
  stat_putOff : ∀ {a f d v}, (putOff a f d).1 = some v → isRetriableStatus v.stat = true
  /-- These statuses mean that the operation is not executed. -/
  stat_exec : ∀ a f, isRetriableStatus (exec a f).1.stat = false
  /-- GETFH is never put off. -/
  putOff_getfh : ∀ f d, (putOff .getfh f d).1 = none

/-- The contexts of the client: when they are done. -/
structure Contexts (C : Type) where
  ctxErr : C → Option CtxErr × C
  select : C → Option CtxErr × C
  sleep : Int64 → C → Option CtxErr × C

/-- The state of the server, with a record of the operations it has executed and their
statuses, and the state of the contexts. -/
structure World (F D C : Type) where
  files : F
  load : D
  contexts : C
  executed : List (Arg × Status) := []

/-- The environment of a client with these contexts, over a transport. -/
def Contexts.env {F D C : Type} (X : Contexts C)
    (base : Compound → World F D C → Except Err Bytes × World F D C) : Env (World F D C) where
  ctxErr w := match X.ctxErr w.contexts with
    | (e, contexts) => (e, { w with contexts })
  select w := match X.select w.contexts with
    | (e, contexts) => (e, { w with contexts })
  sleep d w := match X.sleep d w.contexts with
    | (e, contexts) => (e, { w with contexts })
  base := base
  rand w := (.ok default, w)
  hostname w := (.ok [], w)

/-- The operations by which a method changes the file system. -/
def Arg.mutates : Arg → Bool
  | .create _ | .remove _ | .rename .. | .link _ | .setattr _ | .write _ => true
  | _ => false

/-- The mutations among operations with the given statuses: those that succeeded. -/
def mutationsOf (xs : List (Arg × Status)) : List Arg :=
  (xs.filter fun x => x.1.mutates && x.2 = nfs4Ok).map Prod.fst

namespace Server

variable {F D C : Type} (srv : Server F D)

/-- The operations of a compound, in order, up to the first that is put off or fails. -/
def runOps : List Arg → World F D C → List OpResult × World F D C
  | [], w => ([], w)
  | a :: as, w =>
    match srv.putOff a w.files w.load with
    | (some v, load) => ([v], { w with load })
    | (none, load) =>
      match srv.exec a w.files with
      | (v, files) =>
        let w₁ := { w with files, load, executed := w.executed ++ [(a, v.stat)] }
        if v.stat = nfs4Ok then
          match runOps as w₁ with
          | (vs, w₂) => (v :: vs, w₂)
        else ([v], w₁)

/-- The status of a compound: that of the last operation. -/
def overall : List OpResult → Status
  | [] => nfs4Ok
  | [v] => v.stat
  | _ :: v :: vs => overall (v :: vs)

/-- The server's answer to a compound. -/
def answer (c : Compound) (w : World F D C) : Bytes × World F D C :=
  match srv.runOps c.ops { w with files := srv.start w.files } with
  | (vs, w') => (encodeReply (overall vs) srv.tag vs, w')

/-- The environment: all the replies of the server arrive. -/
def env (X : Contexts C) : Env (World F D C) :=
  X.env fun c w => match srv.answer c w with
    | (b, w') => (.ok b, w')

end Server

/-! ## One compound at the server -/

/-- The results with which a server can answer the operations of a compound. -/
inductive Served : List Arg → List OpResult → Prop
  | nil : Served [] []
  /-- The operation is put off, or fails. -/
  | stop {a : Arg} {as : List Arg} {v : OpResult} (hk : v.kind = a.decoder)
      (hst : v.stat ≠ nfs4Ok) (hfh : a = .getfh → isRetriableStatus v.stat = false) :
      Served (a :: as) [v]
  | next {a : Arg} {as : List Arg} {v : OpResult} {vs : List OpResult} (hk : v.kind = a.decoder)
      (hst : v.stat = nfs4Ok) (h : Served as vs) : Served (a :: as) (v :: vs)

lemma ne_ok_of_retriable {s : Status} (h : isRetriableStatus s = true) : s ≠ nfs4Ok := by
  rintro rfl
  exact absurd h (by decide)

lemma mutationsOf_append (xs ys : List (Arg × Status)) :
    mutationsOf (xs ++ ys) = mutationsOf xs ++ mutationsOf ys := by
  simp [mutationsOf]

lemma mutationsOf_cons_mutation {a : Arg} (h : a.mutates = true) (xs : List (Arg × Status)) :
    mutationsOf ((a, nfs4Ok) :: xs) = a :: mutationsOf xs := by
  simp [mutationsOf, h]

/-- The answers of the server, and that the mutations it executes are those that its results
show: an operation that is put off shows none. -/
lemma served_runOps {F D C : Type} (srv : Server F D) (ops : List Arg) (w : World F D C) :
    Served ops (srv.runOps ops w).1 ∧
      mutationsOf (srv.runOps ops w).2.executed
        = mutationsOf w.executed
          ++ mutationsOf (ops.zip ((srv.runOps ops w).1.map OpResult.stat)) := by
  induction ops generalizing w with
  | nil => exact ⟨.nil, by simp [Server.runOps, mutationsOf]⟩
  | cons a as ih =>
      rcases hp : srv.putOff a w.files w.load with ⟨_ | v, load⟩
      · have hstat := srv.stat_exec a w.files
        have hkind := srv.kind_exec a w.files
        rcases he : srv.exec a w.files with ⟨v, files⟩
        rw [he] at hstat hkind
        -- the server goes on only after NFS4_OK; a failed operation is recorded, but is no mutation
        by_cases hok : v.stat = nfs4Ok
        · obtain ⟨hserved, hmut⟩ :=
            ih { w with files, load, executed := w.executed ++ [(a, v.stat)] }
          simp only [Server.runOps, hp, he, hok, if_true] at hserved hmut ⊢
          refine ⟨.next hkind hok hserved, ?_⟩
          rw [hmut, mutationsOf_append, List.append_assoc, ← mutationsOf_append]
          simp [hok]
        · simp only [Server.runOps, hp, he, hok, if_false]
          refine ⟨.stop hkind hok fun _ => hstat, ?_⟩
          rw [mutationsOf_append]
          simp
      · have hv : (srv.putOff a w.files w.load).1 = some v := by rw [hp]
        have hstat := srv.stat_putOff hv
        simp only [Server.runOps, hp]
        refine ⟨.stop (srv.kind_putOff hv) (ne_ok_of_retriable hstat) ?_, ?_⟩
        -- GETFH is never put off, so this branch cannot end a CREATE that has been executed
        · rintro rfl
          simp [srv.putOff_getfh] at hv
        · simp [mutationsOf, ne_ok_of_retriable hstat]

namespace Served

variable {ops : List Arg} {vs : List OpResult}

lemma kinds_prefix (h : Served ops vs) : vs.map OpResult.kind <+: ops.map Arg.decoder := by
  induction h with
  | nil => simp
  | stop hk _ _ => simp [hk]
  | next hk _ _ ih => simpa [hk, List.cons_prefix_cons] using ih

lemma length_le (h : Served ops vs) : vs.length ≤ ops.length := by
  simpa using h.kinds_prefix.length_le

/-- A result that succeeds leaves the status of the compound to those after it. -/
lemma overall_cons {v : OpResult} (hst : v.stat = nfs4Ok) (vs : List OpResult) :
    Server.overall (v :: vs) = Server.overall vs := by
  cases vs with
  | nil => exact hst
  | cons v' vs => rfl

/-- The only status that is not NFS4_OK is the status of the compound. -/
lemma firstBad_eq (h : Served ops vs) {q : Status} (hq : firstBad (vs.map OpResult.stat) = some q) :
    q = Server.overall vs ∧ q ≠ nfs4Ok := by
  induction h with
  | nil => simp at hq
  | stop hk hst hfh =>
      simp only [firstBad, List.map_cons, List.map_nil] at hq
      obtain rfl : _ = q := by simpa [hst] using hq
      exact ⟨rfl, hst⟩
  | next hk hst _ ih =>
      rw [overall_cons hst]
      refine ih ?_
      simpa [firstBad, hst] using hq

/-- A compound with status NFS4_OK is complete. -/
lemma complete (h : Served ops vs) (hok : Server.overall vs = nfs4Ok) :
    vs.length = ops.length ∧ ∀ s ∈ vs.map OpResult.stat, s = nfs4Ok := by
  induction h with
  | nil => simp
  | stop hk hst hfh => exact absurd hok hst
  | next hk hst _ ih =>
      rw [overall_cons hst] at hok
      obtain ⟨hlen, hall⟩ := ih hok
      refine ⟨by simp [hlen], ?_⟩
      simpa [hst] using hall

end Served

/-- The operations end in one mutation, or in one mutation and GETFH operations. -/
structure MutatesOnce (a : Arg) (ops : List Arg) : Prop where
  mutates : a.mutates = true
  split : ∃ before after, ops = before ++ a :: after ∧ (∀ x ∈ before, x.mutates = false) ∧
    ∀ x ∈ after, x = .getfh

lemma MutatesOnce.append {a : Arg} {ops pre : List Arg} (h : MutatesOnce a ops)
    (hpre : ∀ x ∈ pre, x.mutates = false) : MutatesOnce a (pre ++ ops) := by
  obtain ⟨before, after, rfl, hbefore, hafter⟩ := h.split
  refine ⟨h.mutates, pre ++ before, after, by simp, ?_, hafter⟩
  intro x hx
  rcases List.mem_append.mp hx with hx | hx
  · exact hpre x hx
  · exact hbefore x hx

/-- GETFH operations show no mutation, and do not end with an operation put off. -/
lemma Served.getfh {ops : List Arg} {vs : List OpResult} (h : Served ops vs)
    (hops : ∀ x ∈ ops, x = .getfh) :
    mutationsOf (ops.zip (vs.map OpResult.stat)) = [] ∧
      isRetriableStatus (Server.overall vs) = false := by
  induction h with
  | nil => exact ⟨rfl, by decide⟩
  | @stop a as v hk hst hfh =>
      obtain rfl : a = .getfh := hops a (by simp)
      exact ⟨by simp [mutationsOf, Arg.mutates], hfh rfl⟩
  | @next a as v vs hk hst _ ih =>
      obtain rfl : a = .getfh := hops a (by simp)
      obtain ⟨hmut, hr⟩ := ih fun x hx => hops x (by simp [hx])
      rw [Served.overall_cons hst]
      refine ⟨?_, hr⟩
      simpa [mutationsOf, Arg.mutates] using hmut

/-- **What one compound shows.**  No mutation if its status is NFS4ERR_DELAY or NFS4ERR_GRACE,
the one mutation if its status is NFS4_OK. -/
theorem Served.mutations {a : Arg} {ops : List Arg} {vs : List OpResult} (h : Served ops vs)
    (hops : MutatesOnce a ops) :
    (isRetriableStatus (Server.overall vs) = true →
        mutationsOf (ops.zip (vs.map OpResult.stat)) = []) ∧
      (Server.overall vs = nfs4Ok → mutationsOf (ops.zip (vs.map OpResult.stat)) = [a]) := by
  obtain ⟨hmut, before, after, rfl, hbefore, hafter⟩ := hops
  -- up to the mutation nothing is shown, and behind it only GETFH can stop the compound,
  -- with a status that is not retried
  induction before generalizing vs with
  | nil =>
      cases h with
      | stop hk hst hfh =>
          refine ⟨fun _ => by simp [mutationsOf, hst], fun hok => absurd hok hst⟩
      | next hk hst h =>
          obtain ⟨hnone, hr⟩ := h.getfh hafter
          rw [Served.overall_cons hst, hr]
          refine ⟨by simp, fun _ => ?_⟩
          rw [List.nil_append, List.map_cons, List.zip_cons_cons, hst,
            mutationsOf_cons_mutation hmut, hnone]
  | cons x before ih =>
      have hx : x.mutates = false := hbefore x (by simp)
      cases h with
      | stop hk hst hfh =>
          refine ⟨fun _ => by simp [mutationsOf, hst], fun hok => absurd hok hst⟩
      | next hk hst h =>
          rw [Served.overall_cons hst]
          have hrest := ih h fun y hy => hbefore y (by simp [hy])
          simpa [mutationsOf, hx] using hrest

/-! ## One attempt of the client -/

section Attempts

variable {F D C : Type} {srv : Server F D} {X : Contexts C} {w w' : World F D C}

/-- The mutations that the server has executed. -/
def World.mutations (w : World F D C) : List Arg := mutationsOf w.executed

/-- Only calls reach the transport. -/
lemma world_of_no_call {base : Compound → World F D C → Except Err Bytes × World F D C}
    {es : List Event} (h : ∀ ev ∈ es, ev.isCall = false)
    (hrun : EnvRun (X.env base) w es w') : ∃ contexts, w' = { w with contexts } := by
  induction es generalizing w with
  | nil => exact ⟨w.contexts, hrun⟩
  | cons ev es ih =>
      obtain ⟨w₁, hev, hes⟩ := hrun
      obtain ⟨contexts, rfl⟩ := ih (fun ev' hmem => h ev' (by simp [hmem])) hes
      cases ev with
      | call c reply => simp [Event.isCall] at h
      | ctxErr e | select e | sleep d e => exact ⟨contexts, by rw [← (Prod.mk.inj hev).2]⟩

/-- One compound at the server: what it answers, and what it executes. -/
lemma answered_call {c : Compound} {reply : Except Err Bytes}
    (h : (Event.call c reply).Answered (srv.env X) w w') :
    ∃ vs, reply = .ok (encodeReply (Server.overall vs) srv.tag vs) ∧ Served c.ops vs ∧
      w'.mutations = w.mutations ++ mutationsOf (c.ops.zip (vs.map OpResult.stat)) := by
  obtain ⟨hserved, hmut⟩ := served_runOps srv c.ops { w with files := srv.start w.files }
  obtain ⟨rfl, rfl⟩ := Prod.mk.inj h
  exact ⟨_, rfl, hserved, hmut⟩

/-- What the session callers make of a reply of the server: a result with the status of the
compound, or an error that carries it; and NFS4_OK in all the decoders if that is the
status. -/
lemma unwrap_served {c : Compound} {k : ℕ} {rs : List Res} {vs : List OpResult}
    (tag : Field) (hserved : Served c.ops vs)
    (hk : kinds (sequenceDecoders k rs) = c.ops.map Arg.decoder) (hlen : c.ops.length < 2 ^ 32) :
    ∃ rs' o, unwrap k (decodeReply (sequenceDecoders k rs)
        (.ok (encodeReply (Server.overall vs) tag vs))) = (rs', o) ∧ kinds rs' = kinds rs ∧
      (∀ r, o = .ok r → r.status = Server.overall vs) ∧
      (∀ e, o = .error e →
        e.asStatus = some (Server.overall vs) ∧ Server.overall vs ≠ nfs4Ok) ∧
      (Server.overall vs = nfs4Ok → ∀ j, statAt rs' j = nfs4Ok) := by
  have hparse := parseReply_encodeReply (hserved.length_le.trans_lt hlen)
    (by rw [hk]; exact hserved.kinds_prefix) (Server.overall vs) tag
  obtain ⟨rs', o, hu, hkinds, hst, hbad, hok⟩ := unwrap_of_parseReply hparse
  refine ⟨rs', o, hu, hkinds, ?_, ?_, ?_⟩
  · rintro r rfl
    cases hq : firstBad ((vs.map OpResult.stat).take k) with
    | none =>
        obtain ⟨r', hr', hstatus⟩ := hok hq
        obtain rfl : r = r' := by simpa using hr'
        exact hstatus
    | some q =>
        obtain ⟨e, he, -⟩ := hbad q hq
        simp at he
  · rintro e rfl
    cases hq : firstBad ((vs.map OpResult.stat).take k) with
    | none =>
        obtain ⟨r', hr', -⟩ := hok hq
        simp at hr'
    | some q =>
        obtain ⟨e', he', hstatus⟩ := hbad q hq
        obtain rfl : e = e' := by simpa using he'
        have hq' := (List.take_prefix k (vs.map OpResult.stat)).find?_eq_some hq
        obtain ⟨rfl, hne⟩ := hserved.firstBad_eq hq'
        exact ⟨hstatus, hne⟩
  · intro hall j
    obtain ⟨hcomplete, hoks⟩ := hserved.complete hall
    rw [hst, List.getD_eq_getElem?_getD]
    cases hget : (vs.map OpResult.stat)[k + j]? with
    | some s => exact hoks s (List.mem_of_getElem? hget)
    | none =>
        -- there is no such decoder
        have hdecoders := congrArg List.length hk
        rw [length_kinds, length_sequenceDecoders, List.length_map, ← hcomplete] at hdecoders
        rw [List.getElem?_eq_none_iff, List.length_map] at hget
        have hnone : rs[j]? = none := List.getElem?_eq_none (by omega)
        simp [statAt, List.getD_eq_getElem?_getD, hnone, default, Res.stat]

/-- What an attempt, or a whole call, has executed of the mutation `a`: nothing if its outcome
is retriable or an error with a retriable status, the one mutation if its outcome is
NFS4_OK, and then the decoders say so too. -/
structure Executed (a : Arg) (w w' : World F D C) (out : Outcome) (ms : List Arg) : Prop where
  mutations : w'.mutations = w.mutations ++ ms
  none_of_retriable : retriable out.2 = true → ms = []
  one_of_ok : ∀ r, out.2 = .ok r → r.status = nfs4Ok → ms = [a] ∧ ∀ j, statAt out.1 j = nfs4Ok

/-- **One attempt.** -/
lemma executed_attempt {a : Arg} {ids : List SessionID} {comp : Compound} {rs : List Res}
    {es : List Event} {out : Outcome} (hatt : Attempt ids comp rs es out)
    (hops : MutatesOnce a comp.ops) (hlen : ids.length + comp.ops.length < 2 ^ 32)
    (hrs : kinds rs = comp.ops.map Arg.decoder) (hrun : EnvRun (srv.env X) w es w') :
    (∃ ms, Executed a w w' out ms) ∧ kinds out.1 = kinds rs := by
  cases hatt with
  | aborted e hids hes =>
      obtain ⟨contexts, rfl⟩ := world_of_no_call hes hrun
      exact ⟨⟨[], by simp [World.mutations], fun _ => rfl, by simp⟩, rfl⟩
  | @replied es c reply hes hc =>
      obtain ⟨w₁, hbefore, w₂, hcall, rfl⟩ := envRun_append.mp hrun
      obtain ⟨vs, rfl, hserved, hmut⟩ := answered_call hcall
      obtain ⟨contexts, rfl⟩ := world_of_no_call hes hbefore
      obtain ⟨args, rfl, hcops⟩ := hc
      have hmutates : MutatesOnce a c.ops := by
        rw [hcops]
        refine hops.append ?_
        simp [Arg.mutates]
      have hk : kinds (sequenceDecoders (args.map SequenceArgs.sessionID).length rs)
          = c.ops.map Arg.decoder := by
        rw [hcops, List.map_append, ← hrs]
        simp [kinds, sequenceDecoders, Res.fresh, List.map_map, Function.comp_def, Arg.decoder,
          List.map_const']
      have hlen' : c.ops.length < 2 ^ 32 := by
        rw [hcops, List.length_append]
        simpa using hlen
      obtain ⟨rs', o, hu, hkinds, hok, herr, hstats⟩ := unwrap_served srv.tag hserved hk hlen'
      rw [hu]
      obtain ⟨hnone, hone⟩ := hserved.mutations hmutates
      refine ⟨⟨_, hmut, fun hr => hnone ?_, fun r hr hstatus => ?_⟩, hkinds⟩
      · cases o with
        | ok r => rw [← hok r rfl]; exact hr
        | error e =>
            obtain ⟨hstatus, -⟩ := herr e rfl
            simpa [retriable, errorHasStatus, hstatus, isRetriableStatus] using hr
      · have hall : Server.overall vs = nfs4Ok := by rw [← hok r hr, hstatus]
        exact ⟨hone hall, hstats hall⟩

lemma mutations_of_answered {ev : Event} (h : ev.isCall = false)
    (hev : ev.Answered (srv.env X) w w') : w'.mutations = w.mutations := by
  have hrun : EnvRun (srv.env X) w [ev] w' := ⟨w', hev, rfl⟩
  obtain ⟨contexts, rfl⟩ := world_of_no_call (by simpa using h) hrun
  rfl

/-- **A whole call.**  Only its last attempt can have executed the mutation: the earlier ones
were retriable. -/
theorem executed_transcript {a : Arg} {ids : List SessionID} {comp : Compound} {rs : List Res}
    {es : List Event} {out : Outcome} (htr : Transcript ids comp rs es out)
    (hops : MutatesOnce a comp.ops) (hlen : ids.length + comp.ops.length < 2 ^ 32)
    (hrs : kinds rs = comp.ops.map Arg.decoder) (hrun : EnvRun (srv.env X) w es w') :
    (∃ ms, Executed a w w' out ms) ∧ ∀ r, out.2 = .ok r → isRetriableStatus r.status = false := by
  induction htr generalizing w with
  | stopped e err =>
      obtain ⟨w₁, hev, rfl⟩ := hrun
      refine ⟨⟨[], ?_, fun _ => rfl, by simp⟩, by simp⟩
      rw [mutations_of_answered rfl hev, List.append_nil]
  | final hatt hr =>
      obtain ⟨w₁, hev, hes⟩ := hrun
      obtain ⟨⟨ms, hmut, hnone, hone⟩, -⟩ := executed_attempt hatt hops hlen hrs hes
      rw [mutations_of_answered rfl hev] at hmut
      exact ⟨⟨ms, hmut, hnone, hone⟩, fun r ho => by rwa [ho] at hr⟩
  | exhausted hatt hr =>
      obtain ⟨w₁, hev, hes⟩ := hrun
      obtain ⟨⟨ms, hmut, hnone, -⟩, -⟩ := executed_attempt hatt hops hlen hrs hes
      rw [mutations_of_answered rfl hev] at hmut
      exact ⟨⟨ms, hmut, fun _ => hnone hr, by simp⟩, by simp⟩
  | interrupted hatt hr d e =>
      obtain ⟨w₁, ⟨w₂, hev, hes⟩, w₃, hsleep, rfl⟩ := envRun_append.mp hrun
      obtain ⟨⟨ms, hmut, hnone, -⟩, -⟩ := executed_attempt hatt hops hlen hrs hes
      rw [mutations_of_answered rfl hev, ← mutations_of_answered rfl hsleep] at hmut
      exact ⟨⟨ms, hmut, fun _ => hnone hr, by simp⟩, by simp⟩
  | again hatt hr d _ ih =>
      obtain ⟨w₁, ⟨w₂, hev, hes⟩, w₃, hsleep, hrest⟩ := envRun_append.mp hrun
      obtain ⟨⟨ms, hmut, hnone, -⟩, hkinds⟩ := executed_attempt hatt hops hlen hrs hes
      obtain rfl := hnone hr
      rw [mutations_of_answered rfl hev, List.append_nil,
        ← mutations_of_answered rfl hsleep] at hmut
      obtain ⟨⟨ms', hmut', hnone', hone'⟩, hfinal⟩ := ih (hkinds.trans hrs) hrest
      rw [hmut] at hmut'
      exact ⟨⟨ms', hmut', hnone', hone'⟩, hfinal⟩

/-! ## The methods -/

/-- The error carries NFS4ERR_DELAY or NFS4ERR_GRACE. -/
def CarriesDelay (e : Err) : Prop :=
  errorHasStatus e nfs4errDelay = true ∨ errorHasStatus e nfs4errGrace = true

lemma retriable_of_carriesDelay {e : Err} (h : CarriesDelay e) : retriable (.error e) = true := by
  simpa [retriable, CarriesDelay] using h

/-- A multi-op method with one mutation. -/
lemma MultiOp.exec_executes {α : Type} {c : Conn} {ps : List ℕ} {cfg : RetryConfig} {a : Arg}
    (hc : c.caller = .retry (sessionStack ps) cfg) (m : MultiOp α) (hops : MutatesOnce a m.ops)
    (hlen : ps.length + m.ops.length < 2 ^ 32)
    (hwrap : ∀ e, (m.wrapCall e).asStatus = e.asStatus)
    (hover : ∀ e, (m.wrapOverall e).asStatus = e.asStatus) (n : Net (World F D C)) :
    ∃ ms, (m.exec (srv.env X) c n).2.world.mutations = n.world.mutations ++ ms ∧
      (errorOf (m.exec (srv.env X) c n).1 = none → ms = [a]) ∧
      ∀ e, errorOf (m.exec (srv.env X) c n).1 = some e → CarriesDelay e → ms = [] := by
  obtain ⟨es, htr, hrun⟩ :=
    transcript_run (E := srv.env X) cfg ps (c.request m.ops) m.results n
  have hself : kinds m.results = (c.request m.ops).ops.map Arg.decoder := by
    rw [request_ops, m.results_eq]
    simp [kinds, Arg.fresh_decoder]
  obtain ⟨⟨ms, hmut, hnone, hone⟩, hfinal⟩ := executed_transcript htr
    (by rwa [request_ops]) (by rwa [request_ops, Net.length_stackIDs]) hself hrun
  rw [← hc] at hmut hnone hone hfinal
  rcases hcall : c.caller.callCompound (srv.env X) (c.request m.ops) m.results n with ⟨⟨rs, o⟩, n'⟩
  rw [hcall] at hmut hnone hone hfinal
  have hexec : m.exec (srv.env X) c n = (m.finish (rs, o), n') := by
    simp only [MultiOp.exec, hcall]
  rw [hexec]
  refine ⟨ms, hmut, ?_⟩
  cases o with
  | error e =>
      refine ⟨by simp [MultiOp.finish, errorOf], ?_⟩
      rintro e' ⟨⟩ hdelay
      refine hnone (retriable_of_carriesDelay ?_)
      simpa [CarriesDelay, errorHasStatus, hwrap] using hdelay
  | ok r =>
      by_cases hok : r.status = nfs4Ok
      · obtain ⟨hms, hstats⟩ := hone r rfl hok
        have hchecked : (rs.getD m.checked default).stat = nfs4Ok := hstats m.checked
        simp only [MultiOp.finish, hok, statusErr_ok, hchecked, errorOf]
        exact ⟨fun _ => hms, by simp⟩
      · have hnot := hfinal r rfl
        simp only [MultiOp.finish, statusErr_of_ne hok, errorOf]
        refine ⟨by simp, ?_⟩
        rintro e' ⟨⟩ hdelay
        have : isRetriableStatus r.status = true := by
          simpa [CarriesDelay, errorHasStatus, hover, isRetriableStatus] using hdelay
        simp [this] at hnot

end Attempts

/-- The operation with which a method changes the file system. -/
def Method.mutation : Method → Option Arg
  | .mkdir _ name mask vals =>
      some (.create { type := 2, objName := name, attrMask := mask, attrVals := vals })
  | .symlink _ name target mask vals =>
      some (.create { type := 5, linkData := target, objName := name, attrMask := mask,
                      attrVals := vals })
  | .remove _ name => some (.remove name)
  | .rename _ old _ new => some (.rename old new)
  | .link _ _ new => some (.link new)
  | .setAttr _ sid mask vals =>
      some (.setattr { stateid := sid, attrMask := mask, attrVals := vals })
  | .write _ sid offset data stable => some (.write { stateid := sid, offset, stable, data })
  | _ => none

/-- **Retried mutations take effect at most once.**  Whatever the server puts off, whatever
file system it starts from and whenever the contexts end: over all the attempts of a call of
Mkdir, Symlink, Remove, Rename, Link, SetAttr or Write, the server executes the mutation
successfully exactly once if the method returns nil, and not at all if it returns an error
that carries NFS4ERR_DELAY or NFS4ERR_GRACE. -/
theorem mutation_at_most_once {F D C : Type} (srv : Server F D) (X : Contexts C) {c : Conn}
    {ps : List ℕ} {cfg : RetryConfig} (hc : c.caller = .retry (sessionStack ps) cfg)
    (hps : ps.length < 2 ^ 31) {m : Method} {a : Arg} (hm : m.mutation = some a)
    (n : Net (World F D C)) :
    ∃ ms, (m.run (srv.env X) c n).2.2.world.mutations = n.world.mutations ++ ms ∧
      (m.err (srv.env X) c n = none → ms = [a]) ∧
      ∀ e, m.err (srv.env X) c n = some e → CarriesDelay e → ms = [] := by
  cases m with
  | mkdir dir name mask vals | symlink dir name target mask vals =>
      obtain rfl := Option.some.inj hm
      exact MultiOp.exec_executes hc _ ⟨rfl, [.putfh dir], [.getfh], rfl, by simp [Arg.mutates],
        by simp⟩ (by simp [mkdirOp, symlinkOp, createOp]; omega) (fun _ => rfl) (fun _ => rfl) n
  | remove fh name | setAttr fh sid mask vals | write fh sid offset data stable =>
      obtain rfl := Option.some.inj hm
      exact MultiOp.exec_executes hc _ ⟨rfl, [.putfh fh], [], rfl, by simp [Arg.mutates],
        by simp⟩ (by simp [removeOp, setAttrOp, writeOp]; omega) (fun _ => rfl) (fun _ => rfl) n
  | rename src old dst new | link src dst new =>
      obtain rfl := Option.some.inj hm
      exact MultiOp.exec_executes hc _ ⟨rfl, [.putfh src, .savefh, .putfh dst], [], rfl,
        by simp [Arg.mutates], by simp⟩ (by simp [renameOp, linkOp]; omega) (fun _ => rfl)
        (fun _ => rfl) n
  | _ => simp [Method.mutation] at hm

/-- The result of an operation that does not succeed. -/
def failedResult (st : Status) (ne : st ≠ nfs4Ok ∧ st ≠ nfs4errClidInuse) (a : Arg) : OpResult :=
  match a with
  | .getfh => .getfh (.failed st ne.1)
  | .getattr _ => .getattr (.failed st ne.1)
  | .setclientid _ => .setclientid (.failed st ne)
  | .read _ => .read (.failed st ne.1)
  | .readdir _ => .readdir (.failed st ne.1)
  | .readlink => .readlink (.failed st ne.1)
  | .openFile _ => .openFile (.failed st ne.1)
  | .openConfirm .. => .openConfirm (.failed st ne.1)
  | .write _ => .write (.failed st ne.1)
  | .commit .. => .commit (.failed st ne.1)
  | .close .. => .close (.failed st ne.1)
  | .create _ => .create (.failed st ne.1)
  | .remove _ => .remove (.failed st ne.1)
  | .rename .. => .rename (.failed st ne.1)
  | .link _ => .link (.failed st ne.1)
  | .setattr _ => .setattr st ⟨[], by decide⟩
  | .exchangeID _ => .exchangeID (.failed st ne.1)
  | .createSession _ => .createSession (.failed st ne.1)
  | .destroySession _ => .destroySession st
  | .destroyClientID _ => .destroyClientID st
  | .reclaimComplete _ => .reclaimComplete st
  | .sequence _ => .sequence (.failed st ne.1)
  | a => .status a.op st

lemma kind_failedResult {st : Status} (ne : st ≠ nfs4Ok ∧ st ≠ nfs4errClidInuse) (a : Arg) :
    (failedResult st ne a).kind = a.decoder := by
  cases a <;> rfl

lemma stat_failedResult {st : Status} (ne : st ≠ nfs4Ok ∧ st ≠ nfs4errClidInuse) (a : Arg) :
    (failedResult st ne a).stat = st := by
  cases a <;> rfl

/-- A server of one directory, whose files can be removed.  It puts the next REMOVE operations
off, as many as its load says. -/
def slowServer : Server (List Bytes) ℕ where
  tag := ⟨[], by decide⟩
  start := id
  putOff a _ load :=
    match a, load with
    | .remove name, load + 1 => (some (failedResult nfs4errDelay (by decide) (.remove name)), load)
    | _, load => (none, load)
  exec a files :=
    match a with
    | .putfh _ => (.status opPutfh nfs4Ok, files)
    | .remove name => (.remove (.ok ⟨true, 0, 0⟩), files.erase name)
    | a => (failedResult nfs4errAccess (by decide) a, files)
  kind_putOff := by
    intro a f d v h
    split at h
    · obtain rfl := Option.some.inj h
      rfl
    · simp at h
  kind_exec := by
    intro a f
    split
    · rfl
    · rfl
    · exact kind_failedResult _ _
  stat_putOff := by
    intro a f d v h
    split at h
    · obtain rfl := Option.some.inj h
      rfl
    · simp at h
  stat_exec := by
    intro a f
    split
    · rfl
    · rfl
    · rw [stat_failedResult]
      rfl
  putOff_getfh _ _ := rfl

/-- Contexts that are never done. -/
def alwaysOn : Contexts Unit where
  ctxErr c := (none, c)
  select c := (none, c)
  sleep _ c := (none, c)

/-- REMOVE is put off twice and then executed once. -/
theorem mutation_at_most_once_delayed :
    (Method.remove none [97]).err (slowServer.env alwaysOn) (newConn .rpc {})
        { world := { files := [[97], [98]], load := 2, contexts := () } } = none ∧
      ((Method.remove none [97]).run (slowServer.env alwaysOn) (newConn .rpc {})
        { world := { files := [[97], [98]], load := 2, contexts := () } }).2.2.world.mutations
        = [.remove [97]] := by
  have hc : (newConn .rpc {}).caller = .retry (sessionStack []) (RetryConfig.withDefaults {}) := rfl
  have hnil : (Method.remove none [97]).err (slowServer.env alwaysOn) (newConn .rpc {})
      { world := { files := [[97], [98]], load := 2, contexts := () } } = none := by decide +kernel
  obtain ⟨ms, hmut, hone, -⟩ := mutation_at_most_once slowServer alwaysOn hc (by decide)
    (show (Method.remove none [97]).mutation = some (.remove [97]) from rfl)
    { world := { files := [[97], [98]], load := 2, contexts := () } }
  refine ⟨hnil, ?_⟩
  rw [hmut, hone hnil]
  rfl

end NfsClient.Nfs4
