import NfsClient.Lib.Pool
import NfsClient.Nfs4.OpenSeqid

/-!
# Concurrent opens

Any number of goroutines call `Open` and `CloseFile` on one v4.0 connection.  The atomic steps
of a call are: drawing a seqid with `nextSeqid`, acquiring the mutex of the RPC client and
sending the compound, and the return of the reply, which releases the mutex.  After an OPEN
that asks for a confirmation, OPEN_CONFIRM draws another seqid.

The mutex serialises the compounds, but nothing makes a goroutine that has drawn a seqid get
the mutex before one that has drawn a later one.  The seqids arrive in order as long as the
mutex is acquired in the order of the draws.
-/

namespace NfsClient.Nfs4.OpenOrder

open NfsClient.Lib

/-! ## The model -/

/-- Where a call stands. -/
inductive Phase
  /-- About to draw the seqid of OPEN or CLOSE. -/
  | fresh
  /-- The server asked for a confirmation; about to draw the seqid of OPEN_CONFIRM. -/
  | toConfirm (fh : FileHandle) (sid : Stateid)
  /-- The seqid is drawn and `comp` is built with it.  The ticket counts the draws before this
  one. -/
  | drawn (ticket : ℕ) (comp : Compound) (confirming : Bool)
  /-- The mutex is held and the compound is sent. -/
  | inFlight (confirming : Bool)
  | finished
deriving DecidableEq

/-- One call. -/
structure CallState where
  op : OwnerOp
  phase : Phase := .fresh

/-- What the calls share: the connection, whether the mutex of the RPC client is held, the
compounds in the order in which they reached the server, and the number of seqids drawn. -/
structure Shared where
  conn : Conn
  locked : Bool := false
  arrived : List Compound := []
  draws : ℕ := 0

/-- The atomic actions of a call.  All operations of a compound succeed; what the server returns
for OPEN is given with the reply. -/
inductive Action
  | draw
  | send
  | reply (fh : FileHandle) (res : OpenRes)

/-- The operations of the compound that a call builds with the seqid it has drawn. -/
def CallState.request (c : CallState) (conn : Conn) (seqid : UInt32) : Option (List Arg × Bool) :=
  match c.phase with
  | .fresh =>
    match c.op with
    | .openFile q => some ((openOp q.dir (conn.openArgs q seqid)).ops, false)
    | .closeFile fh sid => some ((closeFileOp fh sid seqid).ops, false)
  | .toConfirm fh sid => some ((openConfirmOp fh sid seqid).ops, true)
  | _ => none

/-- Where a call goes when its reply arrives. -/
def CallState.afterReply (c : CallState) (confirming : Bool) (fh : FileHandle) (res : OpenRes) :
    Phase :=
  match c.op with
  | .openFile _ => if !confirming && res.needsConfirm then .toConfirm fh res.stateid else .finished
  | .closeFile .. => .finished

/-- One atomic action of one call. -/
def move (s : Shared) (c : CallState) : Action → Option (Shared × CallState)
  | .draw =>
      (c.request s.conn s.conn.nextSeqid.1).map fun (ops, confirming) =>
        ({ s with conn := s.conn.nextSeqid.2, draws := s.draws + 1 },
          { c with phase := .drawn s.draws (s.conn.request ops) confirming })
  | .send =>
      match c.phase with
      | .drawn _ comp confirming =>
          if s.locked then none
          else some ({ s with locked := true, arrived := s.arrived ++ [comp] },
            { c with phase := .inFlight confirming })
      | _ => none
  | .reply fh res =>
      match c.phase with
      | .inFlight confirming =>
          some ({ s with locked := false }, { c with phase := c.afterReply confirming fh res })
      | _ => none

abbrev State : Type := Pool Shared CallState

abbrev Label : Type := PoolLabel OwnerOp Action

def step : State → Label → Option State := Pool.step (fun op => { op }) move

/-- No call is running. -/
def initial (c : Conn) : State := { shared := { conn := c }, procs := [] }

/-- The seqids in the order in which they reach the server. -/
def arrivals (p : State) : List UInt32 :=
  p.shared.arrived.filterMap fun comp => (seqidIn comp.ops).map fun x => x.2.2

/-- The ticket of a call that has drawn a seqid and not sent it yet. -/
def CallState.ticket? (c : CallState) : Option ℕ :=
  match c.phase with
  | .drawn t _ _ => some t
  | _ => none

/-- The condition on a step: the call that sends has drawn its seqid before all others that have
one to send. -/
def InDrawOrder (p : State) : Label → Prop
  | .act i .send => ∀ c ∈ p.procs[i]?, ∀ t ∈ c.ticket?, ∀ c' ∈ p.procs, ∀ t' ∈ c'.ticket?, t ≤ t'
  | _ => True

/-! ## One step -/

/-- What a move can do. -/
inductive Moves (s : Shared) (c : CallState) : Action → Shared → CallState → Prop
  | draw (comp : Compound) (i : ℕ) (o : Opnum) (confirming : Bool) (ht : c.ticket? = none)
      (hq : seqidIn comp.ops = some (i, o, s.conn.openSeqid + 1)) :
      Moves s c .draw { s with conn := s.conn.nextSeqid.2, draws := s.draws + 1 }
        { c with phase := .drawn s.draws comp confirming }
  | send (t : ℕ) (comp : Compound) (confirming : Bool) (hph : c.phase = .drawn t comp confirming)
      (hlock : s.locked = false) :
      Moves s c .send { s with locked := true, arrived := s.arrived ++ [comp] }
        { c with phase := .inFlight confirming }
  | reply (fh : FileHandle) (res : OpenRes) (c' : CallState) (ht : c.ticket? = none)
      (ht' : c'.ticket? = none) :
      Moves s c (.reply fh res) { s with locked := false } c'

/-- The compound that a call builds carries the seqid that it has drawn. -/
lemma seqidIn_request {c : CallState} {conn : Conn} {seqid : UInt32} {ops : List Arg}
    {confirming : Bool} (h : c.request conn seqid = some (ops, confirming)) :
    c.ticket? = none ∧ ∃ o, seqidIn ops = some (1, o, seqid) := by
  unfold CallState.request at h
  unfold CallState.ticket?
  cases hph : c.phase with
  | fresh =>
      rw [hph] at h
      refine ⟨rfl, ?_⟩
      cases hop : c.op with
      | openFile q =>
          simp only [hop, Option.some.injEq, Prod.mk.injEq] at h
          rw [← h.1]
          exact ⟨opOpen, seqidIn_open conn q seqid⟩
      | closeFile fh sid =>
          simp only [hop, Option.some.injEq, Prod.mk.injEq] at h
          rw [← h.1]
          exact ⟨opClose, rfl⟩
  | toConfirm fh sid =>
      simp only [hph, Option.some.injEq, Prod.mk.injEq] at h
      rw [← h.1]
      exact ⟨rfl, opOpenConfirm, rfl⟩
  | drawn t comp confirming => simp [hph] at h
  | inFlight confirming => simp [hph] at h
  | finished => simp [hph] at h

lemma moves_of_move {s s' : Shared} {c c' : CallState} {a : Action}
    (h : move s c a = some (s', c')) : Moves s c a s' c' := by
  cases a with
  | draw =>
      simp only [move, Option.map_eq_some_iff] at h
      obtain ⟨⟨ops, confirming⟩, hreq, heq⟩ := h
      obtain ⟨rfl, rfl⟩ := Prod.mk.inj heq
      obtain ⟨ht, o, hq⟩ := seqidIn_request hreq
      exact .draw _ 1 o confirming ht (by rw [request_ops, hq]; rfl)
  | send =>
      simp only [move] at h
      split at h
      · next t comp confirming hph =>
          split at h
          · simp at h
          · next hlock =>
              obtain ⟨rfl, rfl⟩ := Prod.mk.inj (Option.some.inj h)
              exact .send t comp confirming hph (by simpa using hlock)
      · simp at h
  | reply fh res =>
      simp only [move] at h
      split at h
      · next confirming hph =>
          obtain ⟨rfl, rfl⟩ := Prod.mk.inj (Option.some.inj h)
          refine .reply fh res _ (by simp [CallState.ticket?, hph]) ?_
          simp only [CallState.ticket?, CallState.afterReply]
          cases c.op with
          | openFile q => by_cases hc : (!confirming && res.needsConfirm) = true <;> simp [hc]
          | closeFile fh sid => rfl
      · simp at h

/-! ## The invariant -/

/-- The seqids that have arrived are the first ones that were drawn, and every later one is held
by exactly one call. -/
structure Ordered (q₀ : UInt32) (p : State) : Prop where
  drawn : p.shared.conn.openSeqid = q₀ + UInt32.ofNat p.shared.draws
  arrived : arrivals p = seqidsFrom q₀ p.shared.arrived.length
  le_draws : p.shared.arrived.length ≤ p.shared.draws
  pending : ∀ (i : ℕ) (c : CallState) (t : ℕ) (comp : Compound) (confirming : Bool),
    p.procs[i]? = some c → c.phase = .drawn t comp confirming →
      p.shared.arrived.length ≤ t ∧ t < p.shared.draws ∧
        ∃ k o, seqidIn comp.ops = some (k, o, q₀ + UInt32.ofNat t + 1)
  held : ∀ t, p.shared.arrived.length ≤ t → t < p.shared.draws →
    ∃ (i : ℕ) (c : CallState), p.procs[i]? = some c ∧ c.ticket? = some t
  distinct : ∀ (i j : ℕ) (c c' : CallState) (t : ℕ), p.procs[i]? = some c → p.procs[j]? = some c' →
    c.ticket? = some t → c'.ticket? = some t → i = j

variable {q₀ : UInt32} {p p' : State}

lemma ordered_initial (c : Conn) : Ordered c.openSeqid (initial c) := by
  refine ⟨by simp [initial], rfl, le_rfl, ?_, ?_, ?_⟩
  · intro i c t comp confirming hc
    simp [initial] at hc
  · intro t _ hlt
    simp [initial] at hlt
  · intro i j c c' t hc
    simp [initial] at hc

lemma CallState.ticket?_of_phase {c : CallState} {t : ℕ} {comp : Compound} {confirming : Bool}
    (h : c.phase = .drawn t comp confirming) : c.ticket? = some t := by
  simp [CallState.ticket?, h]

lemma CallState.phase_of_ticket? {c : CallState} {t : ℕ} (h : c.ticket? = some t) :
    ∃ comp confirming, c.phase = .drawn t comp confirming := by
  unfold CallState.ticket? at h
  split at h
  · next comp confirming hph =>
      obtain rfl := Option.some.inj h
      exact ⟨comp, confirming, hph⟩
  · simp at h

/-- A step after which the tickets are held as before. -/
lemma Ordered.quiet {s' : Shared} {procs : List CallState} (h : Ordered q₀ p)
    (hconn : s'.conn = p.shared.conn) (harr : s'.arrived = p.shared.arrived)
    (hdraws : s'.draws = p.shared.draws)
    (hold : ∀ (j : ℕ) (m : CallState), procs[j]? = some m → m.ticket? ≠ none → p.procs[j]? = some m)
    (hkeep : ∀ (j : ℕ) (m : CallState), p.procs[j]? = some m → m.ticket? ≠ none →
      procs[j]? = some m) : Ordered q₀ ⟨s', procs⟩ := by
  refine ⟨?_, ?_, ?_, ?_, ?_, ?_⟩
  · rw [hconn, hdraws]
    exact h.drawn
  · have harr' : arrivals ⟨s', procs⟩ = arrivals p := by rw [arrivals, harr, arrivals]
    rw [harr', harr, h.arrived]
  · rw [harr, hdraws]
    exact h.le_draws
  · intro i c t comp confirming hc hph
    rw [harr, hdraws]
    exact h.pending i c t comp confirming
      (hold i c hc (by simp [CallState.ticket?_of_phase hph])) hph
  · intro t hle hlt
    rw [harr] at hle
    rw [hdraws] at hlt
    obtain ⟨i, c, hc, ht⟩ := h.held t hle hlt
    exact ⟨i, c, hkeep i c hc (by simp [ht]), ht⟩
  · intro i j c c' t hc hc' ht ht'
    exact h.distinct i j c c' t (hold i c hc (by simp [ht])) (hold j c' hc' (by simp [ht'])) ht ht'

/-- A seqid is drawn. -/
lemma Ordered.draw {i : ℕ} {c : CallState} (h : Ordered q₀ p) (hc : p.procs[i]? = some c)
    (ht : c.ticket? = none) {comp : Compound} {k : ℕ} {o : Opnum} (confirming : Bool)
    (hq : seqidIn comp.ops = some (k, o, p.shared.conn.openSeqid + 1)) :
    Ordered q₀
      ⟨{ p.shared with conn := p.shared.conn.nextSeqid.2, draws := p.shared.draws + 1 },
        p.procs.set i { c with phase := .drawn p.shared.draws comp confirming }⟩ := by
  have hle := h.le_draws
  -- the call that draws held no ticket, so the holders of the others are still there
  have hkeep : ∀ (j : ℕ) (m : CallState) (t : ℕ), p.procs[j]? = some m → m.ticket? = some t →
      (p.procs.set i { c with phase := .drawn p.shared.draws comp confirming })[j]? = some m := by
    intro j m t hm hmt
    refine Pool.getElem?_set_keep hc hm ?_
    rintro rfl
    simp [ht] at hmt
  have hlt : ∀ (j : ℕ) (m : CallState) (t : ℕ), p.procs[j]? = some m → m.ticket? = some t →
      t < p.shared.draws := by
    intro j m t hm hmt
    obtain ⟨comp', confirming', hph⟩ := CallState.phase_of_ticket? hmt
    exact (h.pending j m t comp' confirming' hm hph).2.1
  refine ⟨?_, h.arrived, ?_, ?_, ?_, ?_⟩
  · have hdrawn := h.drawn
    have hnext : p.shared.conn.nextSeqid.2.openSeqid = p.shared.conn.openSeqid + 1 := rfl
    simp only [hnext, hdrawn, UInt32.ofNat_add, ← UInt32.add_assoc]
    rfl
  · simp only
    omega
  · intro j m t comp' confirming' hm hph
    rcases Pool.getElem?_set_cases hm with ⟨rfl, rfl⟩ | ⟨-, hm⟩
    · obtain ⟨rfl, rfl, rfl⟩ : p.shared.draws = t ∧ comp = comp' ∧ confirming = confirming' := by
        simpa using hph
      exact ⟨hle, Nat.lt_succ_self _, k, o, by rw [hq, h.drawn]⟩
    · obtain ⟨h₁, h₂, h₃⟩ := h.pending j m t comp' confirming' hm hph
      exact ⟨h₁, Nat.lt_succ_of_lt h₂, h₃⟩
  · intro t hle' hlt'
    rcases Nat.lt_succ_iff_lt_or_eq.mp hlt' with hlt' | rfl
    · obtain ⟨j, m, hm, hmt⟩ := h.held t hle' hlt'
      exact ⟨j, m, hkeep j m t hm hmt, hmt⟩
    · have hi := (List.getElem?_eq_some_iff.mp hc).1
      exact ⟨i, _, List.getElem?_set_self hi, rfl⟩
  · intro j j' m m' t hm hm' hmt hmt'
    rcases Pool.getElem?_set_cases hm with ⟨hj, rfl⟩ | ⟨-, hold⟩ <;>
      rcases Pool.getElem?_set_cases hm' with ⟨hj', rfl⟩ | ⟨-, hold'⟩
    · rw [hj, hj']
    · obtain rfl : p.shared.draws = t := by simpa [CallState.ticket?] using hmt
      exact absurd (hlt j' m' _ hold' hmt') (lt_irrefl _)
    · obtain rfl : p.shared.draws = t := by simpa [CallState.ticket?] using hmt'
      exact absurd (hlt j m _ hold hmt) (lt_irrefl _)
    · exact h.distinct j j' m m' t hold hold' hmt hmt'

/-- The first seqid that has not arrived yet is sent. -/
lemma Ordered.send {i : ℕ} {c : CallState} (h : Ordered q₀ p) (hc : p.procs[i]? = some c)
    {t : ℕ} {comp : Compound} {confirming : Bool} (hph : c.phase = .drawn t comp confirming)
    (hfirst : ∀ c' ∈ p.procs, ∀ t' ∈ c'.ticket?, t ≤ t') :
    Ordered q₀ ⟨{ p.shared with locked := true, arrived := p.shared.arrived ++ [comp] },
      p.procs.set i { c with phase := .inFlight confirming }⟩ := by
  obtain ⟨hle, hlt, k, o, hq⟩ := h.pending i c t comp confirming hc hph
  -- the ticket of the next seqid to arrive is held by some call, and this one is the first
  obtain rfl : t = p.shared.arrived.length := by
    obtain ⟨j, m, hm, hmt⟩ := h.held p.shared.arrived.length le_rfl (by omega)
    exact Nat.le_antisymm (hfirst m (List.mem_of_getElem? hm) _ hmt) hle
  have hother : ∀ (j : ℕ) (m : CallState) (t : ℕ), j ≠ i → p.procs[j]? = some m →
      m.ticket? = some t → t ≠ p.shared.arrived.length := by
    rintro j m t hji hm hmt rfl
    exact hji (h.distinct j i m c _ hm hc hmt (CallState.ticket?_of_phase hph))
  have hold : ∀ (j : ℕ) (m : CallState), m.ticket? ≠ none →
      (p.procs.set i { c with phase := .inFlight confirming })[j]? = some m →
      j ≠ i ∧ p.procs[j]? = some m := by
    intro j m hmt hm
    rcases Pool.getElem?_set_cases hm with ⟨-, rfl⟩ | hm
    · simp [CallState.ticket?] at hmt
    · exact hm
  refine ⟨h.drawn, ?_, ?_, ?_, ?_, ?_⟩
  · have happ : arrivals ⟨{ p.shared with locked := true, arrived := p.shared.arrived ++ [comp] },
        p.procs.set i { c with phase := .inFlight confirming }⟩ =
        arrivals p ++ [q₀ + UInt32.ofNat p.shared.arrived.length + 1] := by
      simp [arrivals, hq]
    rw [happ, h.arrived, List.length_append, List.length_singleton, seqidsFrom_succ]
  · simp only [List.length_append, List.length_singleton]
    omega
  · intro j m t comp' confirming' hm hph'
    have hmt := CallState.ticket?_of_phase hph'
    obtain ⟨hji, hm⟩ := hold j m (by simp [hmt]) hm
    obtain ⟨h₁, h₂, h₃⟩ := h.pending j m t comp' confirming' hm hph'
    have := hother j m t hji hm hmt
    simp only [List.length_append, List.length_singleton]
    exact ⟨by omega, h₂, h₃⟩
  · intro t hle' hlt'
    simp only [List.length_append, List.length_singleton] at hle'
    obtain ⟨j, m, hm, hmt⟩ := h.held t (by omega) hlt'
    refine ⟨j, m, Pool.getElem?_set_keep hc hm ?_, hmt⟩
    rintro rfl
    obtain rfl : p.shared.arrived.length = t := by
      simpa [CallState.ticket?, hph] using hmt
    omega
  · intro j j' m m' t hm hm' hmt hmt'
    exact h.distinct j j' m m' t (hold j m (by simp [hmt]) hm).2 (hold j' m' (by simp [hmt']) hm').2
      hmt hmt'

/-- One step in draw order. -/
lemma Ordered.step {lab : Label} (h : Ordered q₀ p) (hord : InDrawOrder p lab)
    (hs : step p lab = some p') : Ordered q₀ p' := by
  cases lab with
  | start op =>
      obtain rfl := Option.some.inj hs
      refine h.quiet rfl rfl rfl ?_ ?_
      · intro j m hm hmt
        rcases Pool.getElem?_snoc_cases hm with hm | ⟨-, rfl⟩
        · exact hm
        · simp [CallState.ticket?] at hmt
      · intro j m hm _
        rw [List.getElem?_append_left (List.getElem?_eq_some_iff.mp hm).1, hm]
  | act i a =>
      obtain ⟨c, s', c', hc, hm, rfl⟩ := Pool.step_act.mp hs
      cases moves_of_move hm with
      | draw comp k o confirming ht hq => exact h.draw hc ht confirming hq
      | send t comp confirming hph hlock =>
          exact h.send hc hph (hord c hc t (CallState.ticket?_of_phase hph))
      | reply fh res c' ht ht' =>
          refine h.quiet rfl rfl rfl ?_ ?_
          · intro j m hm hmt
            rcases Pool.getElem?_set_cases hm with ⟨-, rfl⟩ | ⟨-, hm⟩
            · exact absurd ht' hmt
            · exact hm
          · intro j m hm hmt
            refine Pool.getElem?_set_keep hc hm ?_
            rintro rfl
            exact hmt ht

/-- **Seqids arrive in order.**  In every run in which the mutex is acquired in the order of the
draws, the seqids of OPEN, OPEN_CONFIRM and CLOSE reach the server one after the other. -/
theorem arrivals_of_inDrawOrder (c : Conn) (labs : List Label) (p : State)
    (hord : Along step InDrawOrder (initial c) labs) (hrun : run step (initial c) labs = some p) :
    arrivals p = seqidsFrom c.openSeqid p.shared.arrived.length :=
  (run_invariant (I := Ordered c.openSeqid) (fun _ _ _ h hord hs => h.step hord hs)
    (ordered_initial c) hord hrun).arrived

instance (p : State) : ∀ lab, Decidable (InDrawOrder p lab)
  | .act i .send => inferInstanceAs (Decidable (∀ c ∈ p.procs[i]?, ∀ t ∈ CallState.ticket? c,
      ∀ c' ∈ p.procs, ∀ t' ∈ CallState.ticket? c', t ≤ t'))
  | .start _ | .act _ .draw | .act _ (.reply ..) => isTrue trivial

/-- One call opens a file and confirms it while another closes one. -/
def openAndClose : List Label :=
  [.start openRead, .start (.closeFile none {}), .act 0 .draw, .act 0 .send, .act 1 .draw,
    .act 0 (.reply none { rFlags := 2 }), .act 0 .draw, .act 1 .send, .act 1 (.reply none {}),
    .act 0 .send]

theorem arrivals_openAndClose :
    ∃ p ∈ run step (initial (newConn .rpc {})) openAndClose,
      p.shared.arrived.length = 3 ∧ arrivals p = seqidsFrom 0 p.shared.arrived.length := by
  obtain ⟨p, hp, hlen⟩ : ∃ p ∈ run step (initial (newConn .rpc {})) openAndClose,
      p.shared.arrived.length = 3 := by decide +kernel
  have hord : Along step InDrawOrder (initial (newConn .rpc {})) openAndClose := by decide +kernel
  exact ⟨p, hp, hlen, arrivals_of_inDrawOrder (newConn .rpc {}) openAndClose p hord hp⟩

/-- Two calls draw their seqids, and the second one gets the mutex first. -/
theorem arrivals_inverted :
    ∃ p ∈ run step (initial (newConn .rpc {}))
        [.start openRead, .start openRead, .act 0 .draw, .act 1 .draw, .act 1 .send],
      arrivals p = [2] ∧ ¬ arrivals p = seqidsFrom 0 p.shared.arrived.length := by
  decide +kernel

end NfsClient.Nfs4.OpenOrder
