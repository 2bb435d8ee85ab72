import NfsClient.Nfs4.SlotCount

/-!
# The slot table and the server's expected sequence ids

The server keeps one expected sequence id per slot, starting at 1, and increments it exactly
when it answers a SEQUENCE on that slot with NFS4_OK.  Between the moment a call hands its
compound to the base caller and the moment the reply is delivered, the server answers it; the
two are separate steps, so that answers and deliveries of different calls interleave freely.
Every reply arrives and decodes.

The client advances the sequence id of a slot whenever the base call returns without an
error, so also when SEQUENCE itself was refused or is missing from the reply.  `seq_drift`
says what comes of it: a free slot is ahead of the server by the number of such replies it
has seen.
-/

namespace NfsClient.Nfs4.SlotLockstep

open NfsClient.Lib NfsClient.Nfs4.SlotTable

/-! ## The model -/

/-- The shared state of the callers, the server's expected sequence id of each slot, and the
slots of the answers that did not accept their SEQUENCE. -/
structure Shared where
  client : SlotTable.Shared
  expected : UInt32 → UInt32
  refused : List UInt32 := []

/-- A call and the answer the server has given to it. -/
structure CallState where
  call : SlotTable.CallState
  reply : Option Bytes := none

/-- The steps: an action of a call other than the return of its base call, the server's
answer, and the delivery of the answer. -/
inductive Action
  | client (a : SlotTable.Action)
  | serve (reply : Bytes)
  | deliver

/-- The statuses of the resops of a reply to a session call. -/
def resopStatuses (c : SlotTable.CallState) (reply : Bytes) : Option (List Status) :=
  (parseReply (.sequence {} :: c.results) reply).map Prod.snd

/-- The server answers a SEQUENCE on slot `k`, in a reply whose resops have the given
statuses. -/
def serve (s : Shared) (k : UInt32) (sts : List Status) : Shared :=
  if sts.head? = some nfs4Ok then
    { s with expected := Function.update s.expected k (s.expected k + 1) }
  else { s with refused := k :: s.refused }

/-- One atomic step of one call, or of the server on its behalf. -/
def move (s : Shared) (c : CallState) : Action → Option (Shared × CallState)
  | .client (.baseReturn _) => none
  | .client a =>
      (SlotTable.move s.client c.call a).map fun q =>
        ({ s with client := q.1 }, { c with call := q.2 })
  | .serve reply =>
      match c.call.phase, c.reply with
      | .inFlight l, none =>
          (resopStatuses c.call reply).map fun sts =>
            (serve s l.slotID sts, { c with reply := some reply })
      | _, _ => none
  | .deliver =>
      c.reply.bind fun reply =>
        (SlotTable.move s.client c.call (.baseReturn (.ok reply))).map fun q =>
          ({ s with client := q.1 }, { c with call := q.2 })

/-- The session, its callers and the server. -/
abbrev State : Type := Pool Shared CallState

/-- The labels of a schedule. -/
abbrev Label : Type := PoolLabel (Compound × List Res) Action

/-- A call that has just entered `CallCompound`. -/
def newCall (x : Compound × List Res) : CallState := { call := SlotTable.newCall x }

/-- One step of the whole system. -/
abbrev step : State → Label → Option State := Pool.step newCall move

/-- A new session on both sides. -/
def initial (id : SessionID) (slotCount : ℕ) : State :=
  ⟨{ client := (SlotTable.initial id slotCount).shared, expected := fun _ => 1 }, []⟩

/-- The client's part of the system. -/
def client (p : State) : SlotTable.State := p.map Shared.client CallState.call

variable {n : ℕ} {s s' : Shared} {c c' : CallState} {a : Action} {p p' : State}

/-- What a step can do: a step of the client alone, an answer, or a delivery. -/
lemma move_cases (h : move s c a = some (s', c')) :
    (∃ b t d, a = .client b ∧ (∀ r, b ≠ .baseReturn r) ∧
      SlotTable.move s.client c.call b = some (t, d) ∧
      s' = { s with client := t } ∧ c' = { c with call := d }) ∨
    (∃ reply l sts, a = .serve reply ∧ c.call.phase = .inFlight l ∧ c.reply = none ∧
      resopStatuses c.call reply = some sts ∧ s' = serve s l.slotID sts ∧
      c' = { c with reply := some reply }) ∨
    ∃ reply t d, a = .deliver ∧ c.reply = some reply ∧
      SlotTable.move s.client c.call (.baseReturn (.ok reply)) = some (t, d) ∧
      s' = { s with client := t } ∧ c' = { c with call := d } := by
  cases a with
  | client b =>
      have hb : ∀ r, b ≠ .baseReturn r := by
        rintro r rfl
        simp [move] at h
      have hm : (SlotTable.move s.client c.call b).map (fun q =>
          (({ s with client := q.1 } : Shared), ({ c with call := q.2 } : CallState))) =
          some (s', c') := by
        cases b with
        | baseReturn r => exact absurd rfl (hb r)
        | _ => exact h
      obtain ⟨⟨t, d⟩, hmove, hq⟩ := Option.map_eq_some_iff.mp hm
      obtain ⟨rfl, rfl⟩ := by simpa using hq
      exact Or.inl ⟨b, t, d, rfl, hb, hmove, rfl, rfl⟩
  | serve reply =>
      simp only [move] at h
      split at h
      · next l hph hr =>
          obtain ⟨sts, hsts, hq⟩ := Option.map_eq_some_iff.mp h
          obtain ⟨rfl, rfl⟩ := by simpa using hq
          exact Or.inr (Or.inl ⟨reply, l, sts, rfl, hph, hr, hsts, rfl, rfl⟩)
      · simp at h
  | deliver =>
      obtain ⟨reply, hr, hm⟩ := Option.bind_eq_some_iff.mp h
      obtain ⟨⟨t, d⟩, hmove, hq⟩ := Option.map_eq_some_iff.mp hm
      obtain ⟨rfl, rfl⟩ := by simpa using hq
      exact Or.inr (Or.inr ⟨reply, t, d, rfl, hr, hmove, rfl, rfl⟩)

lemma serve_client (s : Shared) (k : UInt32) (sts : List Status) :
    (serve s k sts).client = s.client := by
  unfold serve
  split <;> rfl

/-- A step of a call of the client. -/
lemma client_act {i : ℕ} (hc : p.procs[i]? = some c) {b : SlotTable.Action}
    {t : SlotTable.Shared} {d : SlotTable.CallState}
    (hm : SlotTable.move p.shared.client c.call b = some (t, d)) :
    SlotTable.step (client p) (.act i b) =
      some (client ⟨{ p.shared with client := t }, p.procs.set i { c with call := d }⟩) := by
  refine Pool.step_act.mpr ⟨c.call, t, d, ?_, hm, ?_⟩
  · simp [client, Pool.map, hc]
  · simp [client, Pool.map, List.map_set]

/-! ## The drift of a slot -/

/-- The server's expected sequence id, plus the number of answers on the slot that did not
accept their SEQUENCE. -/
def ahead (s : Shared) (k : UInt32) : UInt32 :=
  s.expected k + UInt32.ofNat (s.refused.count k)

/-- An answer moves this number by one, whichever answer it is. -/
lemma ahead_serve_self (s : Shared) (k : UInt32) (sts : List Status) :
    ahead (serve s k sts) k = ahead s k + 1 := by
  unfold serve ahead
  split
  · simp only [Function.update_self]
    rw [UInt32.add_assoc, UInt32.add_comm 1, ← UInt32.add_assoc]
  · simp only [List.count_cons_self, UInt32.ofNat_add]
    rw [UInt32.add_assoc]
    rfl

lemma ahead_serve_ne {k k' : UInt32} (s : Shared) (sts : List Status) (h : k' ≠ k) :
    ahead (serve s k sts) k' = ahead s k' := by
  unfold serve ahead
  split
  · simp only [Function.update_of_ne h]
  · simp only [List.count_cons_of_ne (Ne.symm h)]

/-- The calls that the server has answered. -/
def replied (p : State) (i : ℕ) : Bool := (p.procs[i]?.bind CallState.reply).isSome

/-- The invariant of the whole system: the slots agree with `ahead`, and the answers given
decode. -/
structure Drift (n : ℕ) (p : State) : Prop where
  counts : Counts n (ahead p.shared) (replied p) (client p)
  decodes : ∀ (i : ℕ) (c : CallState) (reply : Bytes), p.procs[i]? = some c →
    c.reply = some reply → ∃ sts, resopStatuses c.call reply = some sts

lemma replied_eq {i : ℕ} (hc : p.procs[i]? = some c) : replied p i = c.reply.isSome := by
  simp [replied, hc]

lemma replied_set {i : ℕ} (hc : p.procs[i]? = some c) (d : SlotTable.CallState) :
    replied ⟨s', p.procs.set i { c with call := d }⟩ = replied p := by
  funext j
  by_cases hji : j = i
  · subst hji
    obtain ⟨hlt, rfl⟩ := List.getElem?_eq_some_iff.mp hc
    simp [replied, hlt]
  · simp [replied, List.getElem?_set_ne (Ne.symm hji)]

lemma replied_set_some {i : ℕ} (hc : p.procs[i]? = some c) (reply : Bytes) :
    replied ⟨s', p.procs.set i { c with reply := some reply }⟩ =
      Function.update (replied p) i true := by
  funext j
  by_cases hji : j = i
  · subst hji
    obtain ⟨hlt, -⟩ := List.getElem?_eq_some_iff.mp hc
    simp [replied, hlt]
  · simp [replied, List.getElem?_set_ne (Ne.symm hji), Function.update_of_ne hji]

/-- The results of a call are fixed, so an answer that decodes keeps decoding. -/
lemma results_of_move {t t' : SlotTable.Shared} {d d' : SlotTable.CallState}
    {b : SlotTable.Action} (h : SlotTable.move t d b = some (t', d')) : d'.results = d.results := by
  cases moves_of_move h <;> rfl

/-- A step of a call of the client, other than an unsuccessful return of its base call. -/
lemma Drift.client_step (hn : n ≤ 2 ^ 32) (hd : Drift n p) {i : ℕ} (hc : p.procs[i]? = some c)
    {b : SlotTable.Action} {t : SlotTable.Shared} {d : SlotTable.CallState}
    (hm : SlotTable.move p.shared.client c.call b = some (t, d))
    (hb : Succeeds (replied p) (client p) (.act i b)) :
    Drift n ⟨{ p.shared with client := t }, p.procs.set i { c with call := d }⟩ := by
  constructor
  · rw [replied_set hc]
    exact hd.counts.step hn hb (client_act hc hm)
  · intro j e reply he hr
    rcases Pool.getElem?_set_cases he with ⟨rfl, rfl⟩ | ⟨-, he'⟩
    · obtain ⟨sts, hsts⟩ := hd.decodes j c reply hc hr
      exact ⟨sts, by simpa only [resopStatuses, results_of_move hm] using hsts⟩
    · exact hd.decodes j e reply he' hr

/-- The server answers the request of a call. -/
lemma Drift.serve_step (hn : n ≤ 2 ^ 32) (hd : Drift n p) {i : ℕ} (hc : p.procs[i]? = some c)
    {l : SlotLease} {reply : Bytes} {sts : List Status} (hph : c.call.phase = .inFlight l)
    (hr : c.reply = none) (hsts : resopStatuses c.call reply = some sts) :
    Drift n ⟨serve p.shared l.slotID sts, p.procs.set i { c with reply := some reply }⟩ := by
  have hclient : client ⟨serve p.shared l.slotID sts,
      p.procs.set i { c with reply := some reply }⟩ = client p := by
    obtain ⟨hlt, rfl⟩ := List.getElem?_eq_some_iff.mp hc
    simp only [client, Pool.map, serve_client, List.map_set, Pool.mk.injEq, true_and]
    rw [← List.map_set, List.set_getElem_self]
  constructor
  · rw [replied_set_some hc, hclient]
    refine hd.counts.use hn (i := i) (c := c.call) (l := l) ?_ hph ?_ ?_ ?_
    · simp [client, Pool.map, hc]
    · rw [replied_eq hc, hr]
      rfl
    · exact ahead_serve_self _ _ _
    · exact fun k hk => ahead_serve_ne _ _ hk
  · intro j e reply' he hr'
    rcases Pool.getElem?_set_cases he with ⟨rfl, rfl⟩ | ⟨-, he'⟩
    · obtain rfl : reply = reply' := Option.some.inj hr'
      exact ⟨sts, hsts⟩
    · exact hd.decodes j e reply' he' hr'

/-- The return of a base call that delivers an answer of the server succeeds. -/
lemma Drift.succeeds (hd : Drift n p) {i : ℕ} (hc : p.procs[i]? = some c) {reply : Bytes}
    (hr : c.reply = some reply) :
    Succeeds (replied p) (client p) (.act i (.baseReturn (.ok reply))) := by
  refine ⟨by rw [replied_eq hc, hr]; rfl, fun d hdi => ?_⟩
  obtain rfl : c.call = d := by
    simpa [client, Pool.map, hc] using hdi
  obtain ⟨sts, hsts⟩ := hd.decodes i c reply hc hr
  obtain ⟨⟨r, sts'⟩, hparse, -⟩ := Option.map_eq_some_iff.mp hsts
  obtain ⟨rs, hdec, -⟩ := decodeReply_of_parseReply hparse
  rw [hdec]
  rfl

/-- One step of the system. -/
lemma drift_step (hn : n ≤ 2 ^ 32) {lab : Label} (hd : Drift n p) (h : step p lab = some p') :
    Drift n p' := by
  cases lab with
  | start x =>
      obtain rfl : _ = p' := Option.some.inj h
      constructor
      · have hrep : replied ⟨p.shared, p.procs ++ [newCall x]⟩ = replied p := by
          funext j
          rcases lt_trichotomy j p.procs.length with hj | rfl | hj
          · simp [replied, List.getElem?_append_left hj]
          · simp [replied, newCall]
          · simp [replied, List.getElem?_eq_none (l := p.procs) (i := j) hj.le,
              List.getElem?_eq_none (l := p.procs ++ [newCall x]) (i := j) (by simp; omega)]
        have hstart := hd.counts.start x
        simp only [hrep]
        simpa [client, Pool.map, newCall] using hstart
      · intro j e reply he hr
        rcases Pool.getElem?_snoc_cases he with he' | ⟨-, rfl⟩
        · exact hd.decodes j e reply he' hr
        · simp [newCall] at hr
  | act i a =>
      obtain ⟨c, s', c', hc, hm, rfl⟩ := Pool.step_act.mp h
      rcases move_cases hm with ⟨b, t, d, -, hb, hmove, rfl, rfl⟩ |
        ⟨reply, l, sts, -, hph, hr, hsts, rfl, rfl⟩ | ⟨reply, t, d, -, hr, hmove, rfl, rfl⟩
      · refine hd.client_step hn hc hmove ?_
        cases b with
        | baseReturn r => exact absurd rfl (hb r)
        | _ => trivial
      · exact hd.serve_step hn hc hph hr hsts
      · exact hd.client_step hn hc hmove (hd.succeeds hc hr)

lemma initial_drift (id : SessionID) (hn : 1 ≤ n) : Drift n (initial id n) := by
  refine ⟨?_, fun i c reply hc => by simp [initial] at hc⟩
  exact initial_counts id hn

/-- **The drift of the slots.**  In every state that a schedule reaches, a free slot is ahead
of the server by the number of answers on it that did not accept their SEQUENCE. -/
theorem seq_drift (hn : 1 ≤ n) (hn' : n ≤ 2 ^ 32) (id : SessionID) {ls : List Label}
    (h : run step (initial id n) ls = some p) (k : ℕ) (sl : Slot)
    (hk : p.shared.client.session.slots[k]? = some sl) (hfree : sl.inUse = false) :
    sl.seq = p.shared.expected (UInt32.ofNat k) +
      UInt32.ofNat (p.shared.refused.count (UInt32.ofNat k)) :=
  (run_invariant' (fun _ _ _ hd hs => drift_step hn' hd hs) (initial_drift id hn)
    h).counts.free k sl hk hfree

/-! ## Lockstep -/

/-- The client and the server agree: the sequence id of every free slot is the one the server
expects, and so is the one of every request the server has not answered yet. -/
structure InStep (p : State) : Prop where
  free_slots : ∀ (k : ℕ) (sl : Slot), p.shared.client.session.slots[k]? = some sl →
    sl.inUse = false → sl.seq = p.shared.expected (UInt32.ofNat k)
  requests : ∀ (i : ℕ) (c : CallState) (l : SlotLease), p.procs[i]? = some c →
    c.call.phase = .inFlight l → c.reply = none → l.seq = p.shared.expected l.slotID

/-- The answer, if the step is one, holds a SEQUENCE resop with status NFS4_OK. -/
def AcceptsSequence (p : State) : Label → Prop
  | .act i (.serve reply) => ∀ c ∈ p.procs[i]?,
      (resopStatuses c.call reply).bind List.head? = some nfs4Ok
  | _ => True

instance (p : State) : ∀ lab, Decidable (AcceptsSequence p lab)
  | .start _ | .act _ (.client _) | .act _ .deliver => inferInstanceAs (Decidable True)
  | .act i (.serve reply) =>
      inferInstanceAs (Decidable (∀ c ∈ p.procs[i]?,
        (resopStatuses c.call reply).bind List.head? = some nfs4Ok))

lemma refused_step {lab : Label} (ha : AcceptsSequence p lab) (hr : p.shared.refused = [])
    (h : step p lab = some p') : p'.shared.refused = [] := by
  cases lab with
  | start x =>
      obtain rfl : _ = p' := Option.some.inj h
      exact hr
  | act i a =>
      obtain ⟨c, s', c', hc, hm, rfl⟩ := Pool.step_act.mp h
      rcases move_cases hm with ⟨b, t, d, -, -, -, rfl, rfl⟩ |
        ⟨reply, l, sts, rfl, -, -, hsts, rfl, rfl⟩ | ⟨reply, t, d, -, -, -, rfl, rfl⟩
      · exact hr
      · have hok := ha c hc
        rw [hsts, Option.bind_some] at hok
        simp only [serve, hok, if_true]
        exact hr
      · exact hr

lemma Drift.inStep (hd : Drift n p) (hr : p.shared.refused = []) : InStep p := by
  have hahead : ∀ k, ahead p.shared k = p.shared.expected k := by
    intro k
    simp [ahead, hr]
  refine ⟨fun k sl hk hfree => ?_, fun i c l hc hph hrep => ?_⟩
  · exact (hd.counts.free k sl hk hfree).trans (hahead _)
  · have hcall := hd.counts.calls i c.call (by simp [client, Pool.map, hc])
    rw [replied_eq hc, hrep] at hcall
    simp only [Tracks, hph] at hcall
    rw [← hahead, ← hcall]
    simp

/-- **Lockstep.**  In every run in which the server accepts the SEQUENCE of each request it
answers, the client and the server agree in every state reached. -/
theorem lockstep_of_accepted (hn : 1 ≤ n) (hn' : n ≤ 2 ^ 32) (id : SessionID) (ls : List Label)
    (ha : Along step AcceptsSequence (initial id n) ls)
    (h : run step (initial id n) ls = some p) : InStep p := by
  have hinv := run_invariant (P := AcceptsSequence)
    (I := fun p => Drift n p ∧ p.shared.refused = [])
    (fun _ _ _ hd ha hs => ⟨drift_step hn' hd.1 hs, refused_step ha hd.2 hs⟩)
    ⟨initial_drift id hn, rfl⟩ ha h
  exact hinv.1.inStep hinv.2

/-- One call, answered with the given reply. -/
def oneCall (reply : Bytes) : List Label :=
  [.start (newCompound [], []), .act 0 (.client .takeToken), .act 0 (.client .scan),
    .act 0 (.client .send), .act 0 (.serve reply), .act 0 .deliver, .act 0 (.client .release),
    .act 0 (.client .sendToken), .act 0 (.client .runDefer)]

/-- A reply that accepts SEQUENCE. -/
def acceptedReply : Bytes := replyBytes nfs4Ok [⟨opSequence, nfs4Ok, List.replicate 36 0⟩]

/-- A reply in which SEQUENCE is answered with NFS4ERR_DELAY. -/
def delayedReply : Bytes := replyBytes nfs4errDelay [⟨opSequence, nfs4errDelay, []⟩]

theorem lockstep_oneCall :
    ∃ p, run step (initial (ByteArr.zero 16) 1) (oneCall acceptedReply) = some p ∧ InStep p :=
  ⟨_, rfl, lockstep_of_accepted (n := 1) (by decide) (by decide) (ByteArr.zero 16)
    (oneCall acceptedReply) (by decide) rfl⟩

/-- After one refused SEQUENCE the free slot holds 2 where the server still expects 1. -/
theorem not_inStep_delayed :
    ∃ p, run step (initial (ByteArr.zero 16) 1) (oneCall delayedReply) = some p ∧ ¬ InStep p := by
  refine ⟨_, rfl, fun h => ?_⟩
  have := h.free_slots 0 { seq := 2, inUse := false } rfl rfl
  exact absurd this (by decide)

end NfsClient.Nfs4.SlotLockstep
