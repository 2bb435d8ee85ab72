import NfsClient.Lib.Pool
import NfsClient.Nfs4.Caller
import NfsClient.Nfs4.Reply

/-!
# Concurrent calls over one slot table

Any number of goroutines call `sessionCaller.CallCompound` on one session.  The atomic steps
of a call are: the `select` that waits for a token (or gives up), the locked scan of the
table, handing the wrapped compound to the base caller, the return of the base caller, the
locked section of `release`, the send that returns the token, and the deferred function that
calls `Retry` unless the slot was released with `Done` before.

The main result is `slotTable_safe`: in every state that any schedule reaches, live leases
hold different slots, every token is accounted for (so that the scan always finds a free
slot and returning a token never blocks), and every call that took a slot has given it back
exactly once by the time it returns.
-/

namespace NfsClient.Nfs4.SlotTable

open NfsClient.Lib

/-! ## The model -/

/-- Where a call stands.  `l` is its lease, `out` what it is going to return. -/
inductive Phase
  /-- In the `select` of `AcquireSlot`. -/
  | select
  /-- A token was received; the scan comes next. -/
  | scan
  /-- The scan found no slot; the token is about to be put back. -/
  | fallThrough
  /-- A slot is leased; the compound has not been handed to the base caller yet. -/
  | leased (l : SlotLease)
  /-- The base caller is running. -/
  | inFlight (l : SlotLease)
  /-- Entering `release(advance)`, called by the deferred function or by `Done`. -/
  | release (l : SlotLease) (advance inDefer : Bool) (out : Outcome)
  /-- The table is unlocked again; the token is about to be sent. -/
  | token (l : SlotLease) (inDefer : Bool) (out : Outcome)
  /-- The body has returned; the deferred function runs next. -/
  | deferred (l : SlotLease) (advanced : Bool) (out : Outcome)
  /-- The call has returned. -/
  | finished (out : Outcome)
deriving DecidableEq

/-- One call: its arguments, where it stands, and how often it has leased a slot, given a
slot back and returned a token. -/
structure CallState where
  comp : Compound
  results : List Res
  phase : Phase := .select
  acquired : ℕ := 0
  gaveBack : ℕ := 0
  returned : ℕ := 0
deriving DecidableEq

/-- What the calls share: the session, and the compounds handed to the base caller. -/
structure Shared where
  session : Session
  sent : List (SequenceArgs × Compound) := []
deriving DecidableEq

/-- The atomic actions of a call. -/
inductive Action
  | cancel (e : CtxErr)
  | takeToken
  | scan
  | putBack
  | send
  | baseReturn (reply : Except Err Bytes)
  | release
  | sendToken
  | runDefer
deriving DecidableEq

/-- Where `release` returns to. -/
def afterRelease (l : SlotLease) (inDefer : Bool) (out : Outcome) : Phase :=
  if inDefer then .finished out else .deferred l true out

/-- One atomic action of one call. -/
def move (s : Shared) (c : CallState) : Action → Option (Shared × CallState)
  | .cancel e =>
      match c.phase with
      | .select => some (s, { c with phase := .finished (c.results, .error (.ctx e)) })
      | _ => none
  | .takeToken =>
      match c.phase with
      | .select => s.session.takeToken.map fun t =>
          ({ s with session := t }, { c with phase := .scan })
      | _ => none
  | .scan =>
      match c.phase with
      | .scan =>
          match s.session.scan with
          | some (l, t) =>
              some ({ s with session := t },
                { c with phase := .leased l, acquired := c.acquired + 1 })
          | none => some (s, { c with phase := .fallThrough })
      | _ => none
  | .putBack =>
      match c.phase with
      | .fallThrough => s.session.putToken.map fun t =>
          ({ s with session := t },
            { c with phase := .finished (c.results, .error (.ctx .canceled)) })
      | _ => none
  | .send =>
      match c.phase with
      | .leased l =>
          some ({ s with sent := s.sent ++ [(s.session.sequenceArgs l, c.comp)] },
            { c with phase := .inFlight l })
      | _ => none
  | .baseReturn reply =>
      match c.phase with
      | .inFlight l =>
          match afterBase (decodeReply (.sequence {} :: c.results) reply) with
          | (true, out) => some (s, { c with phase := .release l true false out })
          | (false, out) => some (s, { c with phase := .deferred l false out })
      | _ => none
  | .release =>
      match c.phase with
      | .release l advance inDefer out =>
          if l.released then some (s, { c with phase := afterRelease l inDefer out })
          else some ({ s with session := s.session.release l advance },
            { c with
              phase := .token { l with released := true } inDefer out
              gaveBack := c.gaveBack + 1 })
      | _ => none
  | .sendToken =>
      match c.phase with
      | .token l inDefer out => s.session.putToken.map fun t =>
          ({ s with session := t },
            { c with phase := afterRelease l inDefer out, returned := c.returned + 1 })
      | _ => none
  | .runDefer =>
      match c.phase with
      | .deferred l advanced out =>
          some (s,
            { c with phase := if advanced then .finished out else .release l false true out })
      | _ => none

/-- The state of the session with all its callers. -/
abbrev State : Type := Pool Shared CallState

/-- A schedule is a list of labels: a new call enters, or a call takes an action. -/
abbrev Label : Type := PoolLabel (Compound × List Res) Action

/-- A call that has just entered `CallCompound`. -/
def newCall (x : Compound × List Res) : CallState := { comp := x.1, results := x.2 }

/-- One step of the session with all its callers. -/
abbrev step : State → Label → Option State := Pool.step newCall move

/-- A new session without callers. -/
def initial (id : SessionID) (slotCount : ℕ) : State := ⟨{ session := newSession id slotCount }, []⟩

/-! ## Counting -/

/-- The lease of a call that holds a slot. -/
def Phase.live : Phase → Option SlotLease
  | .leased l | .inFlight l | .release l _ _ _ | .deferred l false _ => some l
  | _ => none

/-- 1 for a call between its token and its scan. -/
def Phase.scanning : Phase → ℕ
  | .scan | .fallThrough => 1
  | _ => 0

/-- 1 for a call that holds a slot. -/
def Phase.holding (ph : Phase) : ℕ := if ph.live.isSome then 1 else 0

/-- 1 for a call that has released its slot but not yet returned its token. -/
def Phase.returning : Phase → ℕ
  | .token .. => 1
  | _ => 0

/-- The callers between token and scan. -/
def scanning (p : State) : ℕ := p.total fun c => c.phase.scanning

/-- The live leases. -/
def holding (p : State) : ℕ := p.total fun c => c.phase.holding

/-- The releases that have not yet returned their token. -/
def returning (p : State) : ℕ := p.total fun c => c.phase.returning

/-- How often a call has leased, given back and returned a token, by where it stands. -/
def Accounted (c : CallState) : Prop :=
  match c.phase with
  | .select | .scan | .fallThrough => c.acquired = 0 ∧ c.gaveBack = 0 ∧ c.returned = 0
  | .leased _ | .inFlight _ | .release .. | .deferred _ false _ =>
      c.acquired = 1 ∧ c.gaveBack = 0 ∧ c.returned = 0
  | .token .. => c.acquired = 1 ∧ c.gaveBack = 1 ∧ c.returned = 0
  | .deferred _ true _ => c.acquired = 1 ∧ c.gaveBack = 1 ∧ c.returned = 1
  | .finished _ => c.acquired ≤ 1 ∧ c.gaveBack = c.acquired ∧ c.returned = c.acquired

/-! ## What a move can do -/

/-- The moves of a call, one constructor for each outcome of an action. -/
inductive Moves (s : Shared) (c : CallState) : Action → Shared → CallState → Prop
  | cancel (e : CtxErr) (h : c.phase = .select) :
      Moves s c (.cancel e) s { c with phase := .finished (c.results, .error (.ctx e)) }
  | takeToken (h : c.phase = .select) (hf : 0 < s.session.free) :
      Moves s c .takeToken { s with session := { s.session with free := s.session.free - 1 } }
        { c with phase := .scan }
  | scan (l : SlotLease) (t : Session) (h : c.phase = .scan) (ht : s.session.scan = some (l, t)) :
      Moves s c .scan { s with session := t }
        { c with phase := .leased l, acquired := c.acquired + 1 }
  | scanNone (h : c.phase = .scan) (ht : s.session.scan = none) :
      Moves s c .scan s { c with phase := .fallThrough }
  | putBack (t : Session) (h : c.phase = .fallThrough) (ht : s.session.putToken = some t) :
      Moves s c .putBack { s with session := t }
        { c with phase := .finished (c.results, .error (.ctx .canceled)) }
  | send (l : SlotLease) (h : c.phase = .leased l) :
      Moves s c .send { s with sent := s.sent ++ [(s.session.sequenceArgs l, c.comp)] }
        { c with phase := .inFlight l }
  | done (l : SlotLease) (reply : Except Err Bytes) (out : Outcome) (h : c.phase = .inFlight l)
      (ha : afterBase (decodeReply (.sequence {} :: c.results) reply) = (true, out)) :
      Moves s c (.baseReturn reply) s { c with phase := .release l true false out }
  | fail (l : SlotLease) (reply : Except Err Bytes) (out : Outcome) (h : c.phase = .inFlight l)
      (ha : afterBase (decodeReply (.sequence {} :: c.results) reply) = (false, out)) :
      Moves s c (.baseReturn reply) s { c with phase := .deferred l false out }
  | releaseAgain (l : SlotLease) (advance inDefer : Bool) (out : Outcome)
      (h : c.phase = .release l advance inDefer out) (hl : l.released = true) :
      Moves s c .release s { c with phase := afterRelease l inDefer out }
  | release (l : SlotLease) (advance inDefer : Bool) (out : Outcome)
      (h : c.phase = .release l advance inDefer out) (hl : l.released = false) :
      Moves s c .release { s with session := s.session.release l advance }
        { c with
          phase := .token { l with released := true } inDefer out
          gaveBack := c.gaveBack + 1 }
  | sendToken (l : SlotLease) (inDefer : Bool) (out : Outcome) (h : c.phase = .token l inDefer out)
      (hf : s.session.free < s.session.slots.length) :
      Moves s c .sendToken { s with session := { s.session with free := s.session.free + 1 } }
        { c with phase := afterRelease l inDefer out, returned := c.returned + 1 }
  | runDefer (l : SlotLease) (advanced : Bool) (out : Outcome)
      (h : c.phase = .deferred l advanced out) :
      Moves s c .runDefer s
        { c with phase := if advanced then .finished out else .release l false true out }

variable {n : ℕ} {s s' : Shared} {c c' : CallState} {a : Action} {p p' : State}

lemma moves_of_move (h : move s c a = some (s', c')) : Moves s c a s' c' := by
  cases a with
  | cancel e =>
      simp only [move] at h
      split at h
      · next hph =>
          obtain ⟨rfl, rfl⟩ := by simpa using h
          exact .cancel e hph
      · simp at h
  | takeToken =>
      simp only [move] at h
      split at h
      · next hph =>
          obtain ⟨t, ht, hq⟩ := Option.map_eq_some_iff.mp h
          obtain ⟨hf, rfl⟩ := Session.takeToken_eq_some.mp ht
          obtain ⟨rfl, rfl⟩ := by simpa using hq
          exact .takeToken hph hf
      · simp at h
  | scan =>
      simp only [move] at h
      split at h
      · next hph =>
          split at h
          · next l t ht =>
              obtain ⟨rfl, rfl⟩ := by simpa using h
              exact .scan l t hph ht
          · next ht =>
              obtain ⟨rfl, rfl⟩ := by simpa using h
              exact .scanNone hph ht
      · simp at h
  | putBack =>
      simp only [move] at h
      split at h
      · next hph =>
          obtain ⟨t, ht, hq⟩ := Option.map_eq_some_iff.mp h
          obtain ⟨rfl, rfl⟩ := by simpa using hq
          exact .putBack t hph ht
      · simp at h
  | send =>
      simp only [move] at h
      split at h
      · next l hph =>
          obtain ⟨rfl, rfl⟩ := by simpa using h
          exact .send l hph
      · simp at h
  | baseReturn reply =>
      simp only [move] at h
      split at h
      · next l hph =>
          split at h
          · next out ha =>
              obtain ⟨rfl, rfl⟩ := by simpa using h
              exact .done l reply out hph ha
          · next out ha =>
              obtain ⟨rfl, rfl⟩ := by simpa using h
              exact .fail l reply out hph ha
      · simp at h
  | release =>
      simp only [move] at h
      split at h
      · next l advance inDefer out hph =>
          split at h
          · next hl =>
              obtain ⟨rfl, rfl⟩ := by simpa using h
              exact .releaseAgain l advance inDefer out hph hl
          · next hl =>
              obtain ⟨rfl, rfl⟩ := by simpa using h
              exact .release l advance inDefer out hph (by simpa using hl)
      · simp at h
  | sendToken =>
      simp only [move] at h
      split at h
      · next l inDefer out hph =>
          obtain ⟨t, ht, hq⟩ := Option.map_eq_some_iff.mp h
          obtain ⟨hf, rfl⟩ := Session.putToken_eq_some.mp ht
          obtain ⟨rfl, rfl⟩ := by simpa using hq
          exact .sendToken l inDefer out hph hf
      · simp at h
  | runDefer =>
      simp only [move] at h
      split at h
      · next l advanced out hph =>
          obtain ⟨rfl, rfl⟩ := by simpa using h
          exact .runDefer l advanced out hph
      · simp at h

/-! ## The invariant -/

/-- The slot of a lease is marked, holds the sequence id that was leased, and is in
range. -/
structure Holds (n : ℕ) (s : Session) (l : SlotLease) : Prop where
  unreleased : l.released = false
  highest_lt : l.highest.toNat < n
  slot : s.slots[l.slotID.toNat]? = some { seq := l.seq, inUse := true }

/-- The invariant of the slot table of a session with `n` slots. -/
structure Inv (n : ℕ) (p : State) : Prop where
  length_eq : p.shared.session.slots.length = n
  tokens : p.shared.session.free + scanning p + holding p + returning p = n
  inUse : p.shared.session.slots.countP (·.inUse) = holding p
  leases : ∀ (i : ℕ) (c : CallState) (l : SlotLease), p.procs[i]? = some c →
    c.phase.live = some l → Holds n p.shared.session l
  distinct : ∀ (i j : ℕ) (c d : CallState) (l m : SlotLease), p.procs[i]? = some c →
    p.procs[j]? = some d → i ≠ j → c.phase.live = some l → d.phase.live = some m →
    l.slotID ≠ m.slotID
  highest_lt : p.shared.session.highest.toNat < n
  highest_ge : ∀ (j : ℕ) (sl : Slot), p.shared.session.slots[j]? = some sl → sl.inUse = true →
    j ≤ p.shared.session.highest.toNat
  accounted : ∀ (i : ℕ) (c : CallState), p.procs[i]? = some c → Accounted c
  found : ∀ (i : ℕ) (c : CallState), p.procs[i]? = some c → c.phase ≠ .fallThrough

lemma Holds.congr {t t' : Session} {l : SlotLease} (h : Holds n t l) (hs : t'.slots = t.slots) :
    Holds n t' l :=
  ⟨h.unreleased, h.highest_lt, by rw [hs]; exact h.slot⟩

/-- A lease of another slot does not notice a change of one slot. -/
lemma Holds.set {t t' : Session} {l : SlotLease} {k : ℕ} {sl : Slot} (h : Holds n t l)
    (hk : l.slotID.toNat ≠ k) (hs : t'.slots = t.slots.set k sl) : Holds n t' l := by
  refine ⟨h.unreleased, h.highest_lt, ?_⟩
  rw [hs, List.getElem?_set_ne (Ne.symm hk)]
  exact h.slot

lemma initial_inv (id : SessionID) (hn : 1 ≤ n) : Inv n (initial id n) := by
  have hif : ¬ n < 1 := by omega
  have hslot : ∀ (j : ℕ) (sl : Slot),
      (initial id n).shared.session.slots[j]? = some sl → sl.inUse = false := by
    intro j sl hsl
    have hmem := List.mem_of_getElem? hsl
    simp only [initial, newSession, List.mem_replicate] at hmem
    rw [hmem.2]
  have huse : (initial id n).shared.session.slots.countP (·.inUse) = 0 := by
    simp [initial, newSession, List.countP_replicate]
  constructor
  · simp [initial, newSession, hif]
  · simp [initial, newSession, hif, scanning, holding, returning, Pool.total]
  · rw [huse]
    rfl
  · intro i c l hc
    simp [initial] at hc
  · intro i j c d l m hc
    simp [initial] at hc
  · simp only [initial, newSession, UInt32.toNat_zero]
    omega
  · intro j sl hsl huse
    rw [hslot j sl hsl] at huse
    exact absurd huse (by simp)
  · intro i c hc
    simp [initial] at hc
  · intro i c hc
    simp [initial] at hc

lemma Inv.start (hi : Inv n p) (x : Compound × List Res) :
    Inv n ⟨p.shared, p.procs ++ [newCall x]⟩ := by
  have hlive : (newCall x).phase.live = none := rfl
  constructor
  · exact hi.length_eq
  · have := hi.tokens
    simp only [scanning, holding, returning, Pool.total_start] at this ⊢
    exact this
  · have := hi.inUse
    simp only [holding, Pool.total_start] at this ⊢
    exact this
  · intro i c l hc hl
    rcases Pool.getElem?_snoc_cases hc with hc | ⟨-, rfl⟩
    · exact hi.leases i c l hc hl
    · rw [hlive] at hl
      exact absurd hl (by simp)
  · intro i j c d l m hc hd hij hl hm
    rcases Pool.getElem?_snoc_cases hc with hc | ⟨-, rfl⟩
    · rcases Pool.getElem?_snoc_cases hd with hd | ⟨-, rfl⟩
      · exact hi.distinct i j c d l m hc hd hij hl hm
      · rw [hlive] at hm
        exact absurd hm (by simp)
    · rw [hlive] at hl
      exact absurd hl (by simp)
  · exact hi.highest_lt
  · exact hi.highest_ge
  · intro i c hc
    rcases Pool.getElem?_snoc_cases hc with hc | ⟨-, rfl⟩
    · exact hi.accounted i c hc
    · exact ⟨rfl, rfl, rfl⟩
  · intro i c hc
    rcases Pool.getElem?_snoc_cases hc with hc | ⟨-, rfl⟩
    · exact hi.found i c hc
    · simp [newCall]

/-- What has to be checked when one call moves.  The leases of the other calls are known to
hold slots different from the one the moving call holds. -/
lemma Inv.set (hi : Inv n p) {i : ℕ} (hc : p.procs[i]? = some c)
    (hlen : s'.session.slots.length = n)
    (htok : s'.session.free + c'.phase.scanning + c'.phase.holding + c'.phase.returning =
      p.shared.session.free + c.phase.scanning + c.phase.holding + c.phase.returning)
    (huse : s'.session.slots.countP (·.inUse) + c.phase.holding =
      p.shared.session.slots.countP (·.inUse) + c'.phase.holding)
    (hown : ∀ l, c'.phase.live = some l → Holds n s'.session l)
    (hother : ∀ m, Holds n p.shared.session m →
      (∀ l, c.phase.live = some l → m.slotID ≠ l.slotID) → Holds n s'.session m)
    (hdist : ∀ l m, c'.phase.live = some l → Holds n p.shared.session m →
      (∀ l, c.phase.live = some l → m.slotID ≠ l.slotID) → m.slotID ≠ l.slotID)
    (hlt : s'.session.highest.toNat < n)
    (hge : ∀ (j : ℕ) (sl : Slot), s'.session.slots[j]? = some sl → sl.inUse = true →
      j ≤ s'.session.highest.toNat)
    (hacc : Accounted c') (hfound : c'.phase ≠ .fallThrough) :
    Inv n ⟨s', p.procs.set i c'⟩ := by
  have hother' : ∀ (j : ℕ) (d : CallState) (m : SlotLease), j ≠ i → p.procs[j]? = some d →
      d.phase.live = some m → ∀ l, c.phase.live = some l → m.slotID ≠ l.slotID :=
    fun j d m hji hd hm l hl => hi.distinct j i d c m l hd hc hji hm hl
  constructor
  · exact hlen
  · have h₁ := Pool.total_set (fun c => c.phase.scanning) s' hc c'
    have h₂ := Pool.total_set (fun c => c.phase.holding) s' hc c'
    have h₃ := Pool.total_set (fun c => c.phase.returning) s' hc c'
    have := hi.tokens
    simp only [scanning, holding, returning] at this ⊢
    omega
  · have h₂ := Pool.total_set (fun c => c.phase.holding) s' hc c'
    have := hi.inUse
    simp only [holding] at this ⊢
    omega
  · intro j d m hd hm
    rcases Pool.getElem?_set_cases hd with ⟨-, rfl⟩ | ⟨hji, hd⟩
    · exact hown m hm
    · exact hother m (hi.leases j d m hd hm) (hother' j d m hji hd hm)
  · intro j k d e l m hd he hjk hl hm
    rcases Pool.getElem?_set_cases hd with ⟨rfl, rfl⟩ | ⟨hji, hd'⟩
    · rcases Pool.getElem?_set_cases he with ⟨rfl, -⟩ | ⟨hki, he⟩
      · exact absurd rfl hjk
      · exact (hdist l m hl (hi.leases k e m he hm) (hother' k e m hki he hm)).symm
    · rcases Pool.getElem?_set_cases he with ⟨rfl, rfl⟩ | ⟨-, he⟩
      · exact hdist m l hm (hi.leases j d l hd' hl) (hother' j d l hji hd' hl)
      · exact hi.distinct j k d e l m hd' he hjk hl hm
  · exact hlt
  · exact hge
  · intro j d hd
    rcases Pool.getElem?_set_cases hd with ⟨-, rfl⟩ | ⟨-, hd⟩
    · exact hacc
    · exact hi.accounted j d hd
  · intro j d hd
    rcases Pool.getElem?_set_cases hd with ⟨-, rfl⟩ | ⟨-, hd⟩
    · exact hfound
    · exact hi.found j d hd

/-- A move that changes neither the session nor what the call holds. -/
lemma Inv.quiet (hi : Inv n p) {i : ℕ} (hc : p.procs[i]? = some c)
    (hs : s'.session = p.shared.session) (hlive : c'.phase.live = c.phase.live)
    (hscan : c'.phase.scanning = c.phase.scanning)
    (hret : c'.phase.returning = c.phase.returning) (hacc : Accounted c')
    (hfound : c'.phase ≠ .fallThrough) : Inv n ⟨s', p.procs.set i c'⟩ := by
  have hhold : c'.phase.holding = c.phase.holding := by simp only [Phase.holding, hlive]
  apply hi.set hc
  · rw [hs]
    exact hi.length_eq
  · rw [hs]
    omega
  · rw [hs, hhold]
  · intro l hl
    rw [hs]
    exact hi.leases i c l hc (hlive ▸ hl)
  · intro m hm _
    rw [hs]
    exact hm
  · intro l m hl _ hne
    exact hne l (hlive ▸ hl)
  · rw [hs]
    exact hi.highest_lt
  · rw [hs]
    exact hi.highest_ge
  · exact hacc
  · exact hfound

/-! ## The steps keep the invariant -/

lemma countP_set_of_getElem? {sls : List Slot} {k : ℕ} {sl : Slot} (h : sls[k]? = some sl)
    (sl' : Slot) :
    (sls.set k sl').countP (·.inUse) + (if sl.inUse then 1 else 0) =
      sls.countP (·.inUse) + (if sl'.inUse then 1 else 0) := by
  obtain ⟨hlt, rfl⟩ := List.getElem?_eq_some_iff.mp h
  have hpos : (if (sls[k]).inUse = true then 1 else 0) ≤ sls.countP (·.inUse) := by
    split
    · next hu => exact List.countP_pos_iff.mpr ⟨_, List.getElem_mem hlt, hu⟩
    · omega
  rw [List.countP_set hlt]
  omega

/-- A call waiting for its scan finds a free slot: its token stands for one. -/
lemma Inv.inUse_lt (hi : Inv n p) {i : ℕ} (hc : p.procs[i]? = some c) (hph : c.phase = .scan) :
    p.shared.session.slots.countP (·.inUse) < p.shared.session.slots.length := by
  have hle : c.phase.scanning ≤ scanning p := Pool.le_total (fun c => c.phase.scanning) hc
  have hone : c.phase.scanning = 1 := by rw [hph]; rfl
  have htok := hi.tokens
  rw [hi.inUse, hi.length_eq]
  omega

lemma Inv.scan (hi : Inv n p) (hn : n ≤ 2 ^ 32) {i : ℕ} (hc : p.procs[i]? = some c)
    (hph : c.phase = .scan) {l : SlotLease} {t : Session}
    (ht : p.shared.session.scan = some (l, t)) :
    Inv n ⟨{ p.shared with session := t },
      p.procs.set i { c with phase := .leased l, acquired := c.acquired + 1 }⟩ := by
  obtain ⟨hslot, hrel, hmax, rfl⟩ := Session.scan_eq_some (hi.length_eq ▸ hn) ht
  have hlt : l.slotID.toNat < n := by
    rw [← hi.length_eq]
    exact (List.getElem?_eq_some_iff.mp hslot).1
  have hhigh : l.highest.toNat < n := by
    have := hi.highest_lt
    omega
  -- a slot in use is not the one that was found free
  have hne : ∀ m, Holds n p.shared.session m → m.slotID.toNat ≠ l.slotID.toNat := by
    intro m hm heq
    have := hm.slot
    rw [heq, hslot] at this
    exact absurd this (by simp)
  have hcount := countP_set_of_getElem? hslot { seq := l.seq, inUse := true }
  apply hi.set hc
  · simp [hi.length_eq]
  · simp [hph, Phase.scanning, Phase.holding, Phase.returning, Phase.live]
  · simpa [hph, Phase.holding, Phase.live] using hcount
  · intro m hm
    obtain rfl : l = m := by simpa [Phase.live] using hm
    refine ⟨hrel, hhigh, ?_⟩
    rw [← hi.length_eq] at hlt
    simp [List.getElem?_set_self hlt]
  · intro m hm _
    exact hm.set (hne m hm) rfl
  · intro k m hk hm _ heq
    obtain rfl : l = k := by simpa [Phase.live] using hk
    exact hne m hm (by rw [heq])
  · exact hhigh
  · intro j sl hsl huse
    rcases Pool.getElem?_set_cases hsl with ⟨rfl, -⟩ | ⟨-, hsl'⟩
    · simp only [hmax]
      omega
    · have := hi.highest_ge j sl hsl' huse
      simp only [hmax]
      omega
  · have := hi.accounted i c hc
    simp only [Accounted, hph] at this ⊢
    omega
  · simp

lemma Inv.release (hi : Inv n p) {i : ℕ} (hc : p.procs[i]? = some c) {l : SlotLease}
    {advance inDefer : Bool} {out : Outcome} (hph : c.phase = .release l advance inDefer out) :
    Inv n ⟨{ p.shared with session := p.shared.session.release l advance },
      p.procs.set i { c with
        phase := .token { l with released := true } inDefer out
        gaveBack := c.gaveBack + 1 }⟩ := by
  have hlive : c.phase.live = some l := by rw [hph]; rfl
  have hslot := (hi.leases i c l hc hlive).slot
  have hrel := Session.release_eq advance hslot
  have hcount := countP_set_of_getElem? hslot
    { seq := if advance then l.seq + 1 else l.seq, inUse := false }
  apply hi.set hc
  · simp [hi.length_eq]
  · simp [hph, Phase.scanning, Phase.holding, Phase.returning, Phase.live]
  · rw [hrel]
    simpa [hph, Phase.holding, Phase.live] using hcount
  · intro m hm
    simp [Phase.live] at hm
  · intro m hm hne
    simp only [hrel]
    exact hm.set (fun heq => hne l hlive (UInt32.toNat_inj.mp heq)) rfl
  · intro m _ hm
    simp [Phase.live] at hm
  · exact hi.highest_lt
  · intro j sl hsl huse
    rw [hrel] at hsl
    rcases Pool.getElem?_set_cases hsl with ⟨-, rfl⟩ | ⟨-, hsl'⟩
    · simp at huse
    · exact hi.highest_ge j sl hsl' huse
  · have := hi.accounted i c hc
    simp only [Accounted, hph] at this ⊢
    omega
  · simp

/-- A move that only takes or returns a token. -/
lemma Inv.free (hi : Inv n p) {i : ℕ} (hc : p.procs[i]? = some c) {k : ℕ}
    (htok : k + c'.phase.scanning + c'.phase.returning =
      p.shared.session.free + c.phase.scanning + c.phase.returning)
    (hlive : c.phase.live = none) (hlive' : c'.phase.live = none) (hacc : Accounted c')
    (hfound : c'.phase ≠ .fallThrough) :
    Inv n ⟨{ p.shared with session := { p.shared.session with free := k } },
      p.procs.set i c'⟩ := by
  have hhold : c.phase.holding = 0 := by simp [Phase.holding, hlive]
  have hhold' : c'.phase.holding = 0 := by simp [Phase.holding, hlive']
  apply hi.set hc
  · exact hi.length_eq
  · simp only
    omega
  · rw [hhold, hhold']
  · intro l hl
    simp [hlive'] at hl
  · intro m hm _
    exact hm.congr rfl
  · intro l m hl
    simp [hlive'] at hl
  · exact hi.highest_lt
  · exact hi.highest_ge
  · exact hacc
  · exact hfound

/-- **One step.**  Every action of every call keeps the invariant. -/
theorem inv_step (hn : n ≤ 2 ^ 32) {lab : Label} (hi : Inv n p) (h : step p lab = some p') :
    Inv n p' := by
  cases lab with
  | start x =>
      obtain rfl : _ = p' := Option.some.inj h
      exact hi.start x
  | act i a =>
      obtain ⟨c, s', c', hc, hm, rfl⟩ := Pool.step_act.mp h
      have hacc := hi.accounted i c hc
      cases moves_of_move hm with
      | cancel e hph =>
          apply hi.quiet hc rfl
          · simp [hph, Phase.live]
          · simp [hph, Phase.scanning]
          · simp [hph, Phase.returning]
          · simp only [Accounted, hph] at hacc ⊢
            omega
          · simp
      | takeToken hph hf =>
          apply hi.free hc
          · simp only [hph, Phase.scanning, Phase.returning]
            omega
          · rw [hph]; rfl
          · rfl
          · simpa only [Accounted, hph] using hacc
          · simp
      | scan l t hph ht => exact hi.scan hn hc hph ht
      | scanNone hph ht =>
          obtain ⟨l, t, hsome⟩ := Session.exists_scan (hi.inUse_lt hc hph)
          rw [hsome] at ht
          exact absurd ht (by simp)
      | putBack t hph ht => exact absurd hph (hi.found i c hc)
      | send l hph =>
          apply hi.quiet hc
          · rfl
          · simp [hph, Phase.live]
          · simp [hph, Phase.scanning]
          · simp [hph, Phase.returning]
          · simpa only [Accounted, hph] using hacc
          · simp
      | done l reply out hph ha =>
          apply hi.quiet hc rfl
          · simp [hph, Phase.live]
          · simp [hph, Phase.scanning]
          · simp [hph, Phase.returning]
          · simpa only [Accounted, hph] using hacc
          · simp
      | fail l reply out hph ha =>
          apply hi.quiet hc rfl
          · simp [hph, Phase.live]
          · simp [hph, Phase.scanning]
          · simp [hph, Phase.returning]
          · simpa only [Accounted, hph] using hacc
          · simp
      | releaseAgain l advance inDefer out hph hl =>
          -- the lease of a call that enters `release` has not been released
          have := (hi.leases i c l hc (by rw [hph]; rfl)).unreleased
          rw [hl] at this
          exact absurd this (by simp)
      | release l advance inDefer out hph hl => exact hi.release hc hph
      | sendToken l inDefer out hph hf =>
          apply hi.free hc
          · cases inDefer <;> simp [hph, afterRelease, Phase.scanning, Phase.returning]
          · rw [hph]; rfl
          · cases inDefer <;> rfl
          · simp only [Accounted, hph] at hacc
            cases inDefer <;> simp [Accounted, afterRelease, hacc]
          · cases inDefer <;> simp [afterRelease]
      | runDefer l advanced out hph =>
          apply hi.quiet hc rfl
          · cases advanced <;> simp [hph, Phase.live]
          · cases advanced <;> simp [hph, Phase.scanning]
          · cases advanced <;> simp [hph, Phase.returning]
          · cases advanced <;> simp only [Accounted, hph] at hacc <;> simp [Accounted, hacc]
          · cases advanced <;> simp

/-- **Whole runs.**  The invariant holds in every state that a schedule reaches. -/
theorem inv_run (hn : 1 ≤ n) (hn' : n ≤ 2 ^ 32) (id : SessionID) {ls : List Label}
    (h : run step (initial id n) ls = some p) : Inv n p :=
  run_invariant' (fun _ _ _ hi hs => inv_step hn' hi hs) (initial_inv id hn) h

/-! ## Safety -/

/-- A bound on the actions a call still takes before it returns. -/
def Phase.stepsLeft : Phase → ℕ
  | .select => 8
  | .scan => 7
  | .leased _ => 6
  | .inFlight _ => 5
  | .release _ _ inDefer _ => if inDefer then 2 else 4
  | .token _ inDefer _ => if inDefer then 1 else 3
  | .deferred _ advanced _ => if advanced then 1 else 3
  | .fallThrough => 1
  | .finished _ => 0

lemma stepsLeft_lt (h : move s c a = some (s', c')) : c'.phase.stepsLeft < c.phase.stepsLeft := by
  cases moves_of_move h with
  | cancel e hph => simp [hph, Phase.stepsLeft]
  | takeToken hph hf => simp [hph, Phase.stepsLeft]
  | scan l t hph ht => simp [hph, Phase.stepsLeft]
  | scanNone hph ht => simp [hph, Phase.stepsLeft]
  | putBack t hph ht => simp [hph, Phase.stepsLeft]
  | send l hph => simp [hph, Phase.stepsLeft]
  | done l reply out hph ha => simp [hph, Phase.stepsLeft]
  | fail l reply out hph ha => simp [hph, Phase.stepsLeft]
  | releaseAgain l advance inDefer out hph hl =>
      cases inDefer <;> simp [hph, Phase.stepsLeft, afterRelease]
  | release l advance inDefer out hph hl => cases inDefer <;> simp [hph, Phase.stepsLeft]
  | sendToken l inDefer out hph hf =>
      cases inDefer <;> simp [hph, Phase.stepsLeft, afterRelease]
  | runDefer l advanced out hph => cases advanced <;> simp [hph, Phase.stepsLeft]

/-- The safety of the slot table of a session with `n` slots. -/
structure Safe (n : ℕ) (p : State) : Prop where
  /-- No two live leases hold the same slot. -/
  distinct_slots : ∀ (i j : ℕ) (c d : CallState) (l m : SlotLease), p.procs[i]? = some c →
    p.procs[j]? = some d → i ≠ j → c.phase.live = some l → d.phase.live = some m →
    l.slotID ≠ m.slotID
  /-- The tokens are accounted for. -/
  balance : p.shared.session.free + scanning p + holding p + returning p = n
  /-- The scan finds a slot; the lease it makes carries a highest slot id that is in range
  and not below any slot in use at that moment. -/
  scan_finds : ∀ (i : ℕ) (c : CallState), p.procs[i]? = some c → c.phase = .scan →
    ∃ l t, p.shared.session.scan = some (l, t) ∧ l.highest.toNat < n ∧
      ∀ (j : ℕ) (sl : Slot), t.slots[j]? = some sl → sl.inUse = true → j ≤ l.highest.toNat
  /-- The fall-through at the end of `AcquireSlot` is not reached. -/
  no_fallThrough : ∀ (i : ℕ) (c : CallState), p.procs[i]? = some c → c.phase ≠ .fallThrough
  /-- Returning a token does not block. -/
  token_sends : ∀ (i : ℕ) (c : CallState) (l : SlotLease) (inDefer : Bool) (out : Outcome),
    p.procs[i]? = some c → c.phase = .token l inDefer out →
    ∃ q, move p.shared c .sendToken = some q
  /-- A call leases at most one slot, and gives back and returns a token for what it leased,
  at most once while it runs and exactly once when it has returned. -/
  given_back : ∀ (i : ℕ) (c : CallState), p.procs[i]? = some c →
    c.acquired ≤ 1 ∧ c.returned ≤ c.gaveBack ∧ c.gaveBack ≤ c.acquired ∧
      ∀ out, c.phase = .finished out → c.gaveBack = c.acquired ∧ c.returned = c.acquired
  /-- A call that leased a slot is not stuck before it has returned. -/
  proceeds : ∀ (i : ℕ) (c : CallState), p.procs[i]? = some c → c.acquired = 1 →
    (∃ out, c.phase = .finished out) ∨ ∃ a q, move p.shared c a = some q
  /-- Every action brings a call closer to its return. -/
  returns : ∀ (i : ℕ) (c : CallState) (a : Action) (s' : Shared) (c' : CallState),
    p.procs[i]? = some c → move p.shared c a = some (s', c') →
    c'.phase.stepsLeft < c.phase.stepsLeft
  /-- The highest slot id of a live lease is in range. -/
  highest_lt : ∀ (i : ℕ) (c : CallState) (l : SlotLease), p.procs[i]? = some c →
    c.phase.live = some l → l.highest.toNat < n

lemma Inv.scan_finds (hi : Inv n p) (hn : n ≤ 2 ^ 32) {i : ℕ} (hc : p.procs[i]? = some c)
    (hph : c.phase = .scan) :
    ∃ l t, p.shared.session.scan = some (l, t) ∧ l.highest.toNat < n ∧
      ∀ (j : ℕ) (sl : Slot), t.slots[j]? = some sl → sl.inUse = true → j ≤ l.highest.toNat := by
  obtain ⟨l, t, ht⟩ := Session.exists_scan (hi.inUse_lt hc hph)
  have hi' := hi.scan hn hc hph ht
  obtain ⟨-, -, -, rfl⟩ := Session.scan_eq_some (hi.length_eq ▸ hn) ht
  exact ⟨l, _, ht, hi'.highest_lt, hi'.highest_ge⟩

lemma Inv.token_sends (hi : Inv n p) {i : ℕ} (hc : p.procs[i]? = some c) {l : SlotLease}
    {inDefer : Bool} {out : Outcome} (hph : c.phase = .token l inDefer out) :
    ∃ q, move p.shared c .sendToken = some q := by
  have hle : c.phase.returning ≤ returning p := Pool.le_total (fun c => c.phase.returning) hc
  have hone : c.phase.returning = 1 := by rw [hph]; rfl
  have htok := hi.tokens
  have hfree : p.shared.session.free < p.shared.session.slots.length := by
    rw [hi.length_eq]
    omega
  have hput := Session.putToken_eq_some.mpr ⟨hfree, rfl⟩
  simp [move, hph, hput]

lemma Inv.proceeds (hi : Inv n p) {i : ℕ} (hc : p.procs[i]? = some c) (hacq : c.acquired = 1) :
    (∃ out, c.phase = .finished out) ∨ ∃ a q, move p.shared c a = some q := by
  have hacc := hi.accounted i c hc
  cases hph : c.phase with
  | select | scan | fallThrough =>
      simp only [Accounted, hph] at hacc
      omega
  | leased l => exact Or.inr ⟨.send, by simp [move, hph]⟩
  | inFlight l =>
      -- whatever the base caller returns
      refine Or.inr ⟨.baseReturn (.error .eof), ?_⟩
      simp only [move, hph]
      split <;> exact ⟨_, rfl⟩
  | release l advance inDefer out =>
      refine Or.inr ⟨.release, ?_⟩
      simp only [move, hph]
      split <;> exact ⟨_, rfl⟩
  | token l inDefer out => exact Or.inr ⟨.sendToken, hi.token_sends hc hph⟩
  | deferred l advanced out => exact Or.inr ⟨.runDefer, by simp [move, hph]⟩
  | finished out => exact Or.inl ⟨out, rfl⟩

lemma Accounted.given_back (h : Accounted c) :
    c.acquired ≤ 1 ∧ c.returned ≤ c.gaveBack ∧ c.gaveBack ≤ c.acquired ∧
      ∀ out, c.phase = .finished out → c.gaveBack = c.acquired ∧ c.returned = c.acquired := by
  unfold Accounted at h
  split at h <;> simp_all

/-- **Slot-table safety.**  In every state that a schedule of any number of calls reaches,
whatever the base caller answers and whichever callers give up waiting.  Slot ids are `uint32`;
so is the count that `createSession`, the only caller of `NewSession`, passes. -/
theorem slotTable_safe (hn : 1 ≤ n) (hn' : n ≤ 2 ^ 32) (id : SessionID) (ls : List Label)
    (h : run step (initial id n) ls = some p) : Safe n p := by
  have hi := inv_run hn hn' id h
  exact
    { distinct_slots := hi.distinct
      balance := hi.tokens
      scan_finds := fun _ _ hc hph => hi.scan_finds hn' hc hph
      no_fallThrough := hi.found
      token_sends := fun _ _ _ _ _ hc hph => hi.token_sends hc hph
      given_back := fun i c hc => (hi.accounted i c hc).given_back
      proceeds := fun _ _ hc hacq => hi.proceeds hc hacq
      returns := fun _ _ _ _ _ _ hm => stepsLeft_lt hm
      highest_lt := fun i c l hc hl => (hi.leases i c l hc hl).highest_lt }

/-- Three calls on two slots: the first scans second, the third gives up waiting, and the
base call of the second fails. -/
def threeCalls : List Label :=
  [.start (newCompound [], []), .start (newCompound [], []), .start (newCompound [], []),
    .act 0 .takeToken, .act 1 .takeToken, .act 1 .scan, .act 0 .scan,
    .act 2 (.cancel .canceled), .act 0 .send, .act 1 .send,
    .act 0 (.baseReturn (.ok (replyBytes nfs4Ok [⟨opSequence, nfs4Ok, List.replicate 36 0⟩]))),
    .act 0 .release, .act 1 (.baseReturn (.error .eof)), .act 0 .sendToken, .act 0 .runDefer,
    .act 1 .runDefer, .act 1 .release, .act 1 .sendToken]

theorem slotTable_safe_threeCalls :
    ∃ p, run step (initial (ByteArr.zero 16) 2) threeCalls = some p ∧ Safe 2 p :=
  ⟨_, rfl, slotTable_safe (by decide) (by decide) (ByteArr.zero 16) threeCalls rfl⟩

end NfsClient.Nfs4.SlotTable
