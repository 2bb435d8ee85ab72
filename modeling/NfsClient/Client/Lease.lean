import NfsClient.Lib.HandleTable
import NfsClient.Nfs4.Args

/-!
# The lease manager

`LeaseManager` renews the lease of a client in the background, recovers the client's state when
the server has lost it, and keeps a table of open stateids.  Renewing and recovering are
functions of the configuration; here they act on a state `σ` of which nothing is assumed.

The table is used by many goroutines, each method under the lock, so what they do to it is a
sequence of operations.
-/

namespace NfsClient.Client

open NfsClient.Lib NfsClient.Nfs4

/-- `isClientStateLost` reports whether an error says that the server has lost the client id or a
stateid. -/
def isClientStateLost (err : Err) : Bool :=
  match err.asStatus with
  | none => false
  | some s => s = nfs4errStaleClientid || s = nfs4errStaleStateid || s = nfs4errBadStateid ||
      s = nfs4errExpired

/-- `LeaseConfig`: the lease time in nanoseconds, and how to renew and to recover.  The clock is
part of the environment. -/
structure LeaseConfig (σ : Type) where
  leasePeriod : Int64 := 0
  renew : σ → Option Err × σ
  recover : σ → Option Err × σ

namespace LeaseConfig

variable {σ : Type} (cfg : LeaseConfig σ)

/-- What `NewLeaseManager` makes of the configuration: the lease time is 90 s unless it is
given. -/
def withDefaults : LeaseConfig σ :=
  { cfg with leasePeriod := if cfg.leasePeriod ≤ 0 then 90000000000 else cfg.leasePeriod }

/-- What one turn of the loop did: the error of `Renew`, and if `Recover` was called, its error,
which the loop drops. -/
structure Turn where
  renewed : Option Err
  recovered : Option (Option Err) := none
deriving DecidableEq

/-- The body of `loop` when the timer has fired. -/
def turn (s : σ) : Turn × σ :=
  match cfg.renew s with
  | (none, s₁) => ({ renewed := none }, s₁)
  | (some err, s₁) =>
    if isClientStateLost err then
      match cfg.recover s₁ with
      | (rerr, s₂) => ({ renewed := some err, recovered := some rerr }, s₂)
    else ({ renewed := some err }, s₁)

/-- One round of the loop: the state when the timer fired, what the turn did, and the state
afterwards. -/
structure Round (σ : Type) where
  before : σ
  turn : Turn
  after : σ

/-- The round that starts in a given state. -/
def round (s : σ) : Round σ where
  before := s
  turn := (cfg.turn s).1
  after := (cfg.turn s).2

/-- The rounds of the loop.  While the loop waits for the timer, the rest of the world goes on. -/
def rounds {δ : Type} (wait : δ → σ → σ) : List δ → σ → List (Round σ)
  | [], _ => []
  | d :: ds, s => cfg.round (wait d s) :: rounds wait ds (cfg.turn (wait d s)).2

variable {cfg} in
/-- What every round keeps and provides. -/
lemma forall_rounds {δ : Type} {wait : δ → σ → σ} {I : σ → Prop} {P : Round σ → Prop}
    {ds : List δ} (hstep : ∀ d ∈ ds, ∀ s, I s → P (cfg.round (wait d s)) ∧
      I (cfg.turn (wait d s)).2) {s : σ} (hs : I s) : ∀ r ∈ cfg.rounds wait ds s, P r := by
  induction ds generalizing s with
  | nil => exact List.forall_mem_nil _
  | cons d ds ih =>
      obtain ⟨hfirst, hnext⟩ := hstep d List.mem_cons_self s hs
      exact List.forall_mem_cons.mpr
        ⟨hfirst, ih (fun e he => hstep e (List.mem_cons_of_mem d he)) hnext⟩

/-- `WithRetry` runs `fn`, and once more after a recovery. -/
def withRetry (fn : σ → Option Err × σ) (s : σ) : Option Err × σ :=
  match fn s with
  | (none, s₁) => (none, s₁)
  | (some err, s₁) =>
    if !isClientStateLost err then (some err, s₁)
    else match cfg.recover s₁ with
      | (some rerr, s₂) => (some rerr, s₂)
      | (none, s₂) => fn s₂

end LeaseConfig

/-! ## The table of stateids -/

/-- `trackedStateid`. -/
structure TrackedStateid where
  key : Bytes
  sid : Stateid
deriving DecidableEq

/-- The fields `nextH` and `stateids` of a `LeaseManager`. -/
abbrev StateidTable : Type := HandleTable TrackedStateid

namespace StateidTable

/-- `TrackStateid`. -/
def trackStateid (t : StateidTable) (key : Bytes) (sid : Stateid) : UInt64 × StateidTable :=
  t.add { key, sid }

/-- `Stateid`: the zero stateid, if the handle is not tracked. -/
def stateid (t : StateidTable) (h : UInt64) : Stateid := (t.get? h).elim {} (·.sid)

/-- `ReissueStateid`. -/
def reissueStateid (t : StateidTable) (h : UInt64) (sid : Stateid) : StateidTable :=
  t.modify h fun tracked => { tracked with sid }

/-- `ForgetStateid`. -/
def forgetStateid (t : StateidTable) (h : UInt64) : StateidTable := t.remove h

/-- `TrackedKeys`; the order is that of a Go map, so any. -/
def trackedKeys (t : StateidTable) : List Bytes := t.values.map (·.key)

end StateidTable

/-- The methods that use the table. -/
inductive TableOp
  | track (key : Bytes) (sid : Stateid)
  | stateid (h : UInt64)
  | reissue (h : UInt64) (sid : Stateid)
  | forget (h : UInt64)
  | keys

/-- What they return. -/
inductive TableRes
  | handle (h : UInt64)
  | stateid (sid : Stateid)
  | keys (keys : List Bytes)
  | unit
deriving DecidableEq

namespace TableOp

/-- One method on the table. -/
def exec (t : StateidTable) : TableOp → TableRes × StateidTable
  | track key sid => match t.trackStateid key sid with
    | (h, t') => (.handle h, t')
  | stateid h => (.stateid (t.stateid h), t)
  | reissue h sid => (.unit, t.reissueStateid h sid)
  | forget h => (.unit, t.forgetStateid h)
  | keys => (.keys t.trackedKeys, t)

/-- What the table is for: every stateid that is tracked has a slot of its own, at the position
that is its handle, and the slot can be filled anew or emptied for good. -/
def spec (s : Slots TrackedStateid) : TableOp → TableRes × Slots TrackedStateid
  | track key sid => match s.add { key, sid } with
    | (h, s') => (.handle h, s')
  | stateid h => (.stateid ((s.get? h).elim {} (·.sid)), s)
  | reissue h sid => (.unit, s.modify h fun tracked => { tracked with sid })
  | forget h => (.unit, s.remove h)
  | keys => (.keys (s.values.map (·.key)), s)

/-- Run the methods, by any of the two. -/
def runWith {τ : Type} (step : τ → TableOp → TableRes × τ) : τ → List TableOp → List TableRes
  | _, [] => []
  | t, op :: ops => match step t op with
    | (r, t') => r :: runWith step t' ops

end TableOp

/-- The same result; keys are compared up to their order. -/
def TableRes.Same : TableRes → TableRes → Prop
  | keys ks, keys ks' => ks.Perm ks'
  | r, r' => r = r'

/-- A step adds at most one slot. -/
lemma length_spec_le (s : Slots TrackedStateid) (op : TableOp) :
    (op.spec s).2.length ≤ s.length + 1 := by
  cases op with
  | track key sid => simp [TableOp.spec, Slots.add]
  | stateid h | keys => exact Nat.le_succ _
  | reissue h sid =>
      simp only [TableOp.spec, Slots.modify]
      split <;> simp
  | forget h => simp [TableOp.spec, Slots.remove]

/-- One method on the table and on the slots that it stands for. -/
lemma exec_spec {t : StateidTable} {s : Slots TrackedStateid} (hts : t.Represents s)
    (hlen : s.length < 2 ^ 64) (op : TableOp) :
    (op.exec t).1.Same (op.spec s).1 ∧ (op.exec t).2.Represents (op.spec s).2 := by
  cases op with
  | track key sid =>
      obtain ⟨hh, hrep⟩ := hts.add hlen { key, sid }
      exact ⟨congrArg TableRes.handle hh, hrep⟩
  | stateid h =>
      refine ⟨?_, hts⟩
      show TableRes.stateid _ = .stateid _
      rw [StateidTable.stateid, hts.get?_eq]
  | reissue h sid => exact ⟨rfl, hts.modify h _⟩
  | forget h => exact ⟨rfl, hts.remove h⟩
  | keys => exact ⟨hts.values_perm.map _, hts⟩

lemma runWith_refines {t : StateidTable} {s : Slots TrackedStateid} (hts : t.Represents s)
    {ops : List TableOp} (hlen : s.length + ops.length < 2 ^ 64) :
    List.Forall₂ TableRes.Same (TableOp.runWith (fun t op => op.exec t) t ops)
      (TableOp.runWith (fun s op => op.spec s) s ops) := by
  induction ops generalizing t s with
  | nil => exact .nil
  | cons op ops ih =>
      rw [List.length_cons] at hlen
      obtain ⟨hres, hrep⟩ := exec_spec hts (by omega) op
      have hnext := length_spec_le s op
      have hrest := ih hrep (show (op.spec s).2.length + ops.length < 2 ^ 64 by omega)
      exact .cons hres hrest

/-- **The table of stateids is a list of slots.**  However the goroutines interleave their calls,
each call returns what it returns on a list of slots that only grows: the handle of a stateid is
the position of its slot, so no two stateids get the same handle; a handle yields the stateid
that was issued last for it; and a handle that was forgotten stays so, whatever is reissued. -/
theorem stateidTable_refines (ops : List TableOp) (hlen : ops.length < 2 ^ 64 - 1) :
    List.Forall₂ TableRes.Same (TableOp.runWith (fun t op => op.exec t) {} ops)
      (TableOp.runWith (fun s op => op.spec s) Slots.empty ops) :=
  runWith_refines .empty (by simp only [Slots.empty, List.length_singleton]; omega)

/-- Two stateids are tracked, the first is forgotten and cannot be reissued. -/
theorem stateidTable_refines_forget :
    List.Forall₂ TableRes.Same
      (TableOp.runWith (fun t op => op.exec t) {}
        [.track [97] {}, .track [98] { seqid := 1 }, .forget 1, .reissue 1 { seqid := 9 },
          .stateid 1, .stateid 2, .track [99] {}, .keys])
      [.handle 1, .handle 2, .unit, .unit, .stateid {}, .stateid { seqid := 1 }, .handle 3,
        .keys [[98], [99]]] :=
  stateidTable_refines
    [.track [97] {}, .track [98] { seqid := 1 }, .forget 1, .reissue 1 { seqid := 9 },
      .stateid 1, .stateid 2, .track [99] {}, .keys] (by decide)

end NfsClient.Client
