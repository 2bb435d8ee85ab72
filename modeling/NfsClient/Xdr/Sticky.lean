import NfsClient.Xdr.Emitter

/-!
# The sticky error

Callers decode a sequence of fields and check `Err` once at the end.  That works as long as a
decoder that has failed stays as it is: the first error is kept, later calls return zero values
and consume nothing, and `Union` does not run its arm.  The same goes for the encoder and the
writer beneath it.

A sequence of decoder calls is run with a trace, which holds one event for every call, those
that the arm of a union makes included.  All the methods but one look at the error first.
`FixedOpaque` with a negative length sets it to `ErrLimitExceeded`, whatever it was, and with a
length that the runtime cannot allocate it panics in `make`, whether the decoder has failed or
not.  A panic ends the sequence.
-/

namespace NfsClient.Xdr

open NfsClient.Lib

/-- `FixedOpaque` with any length.  It calls `make` before it looks at the error, and `make` panics
for a length above `maxAlloc`, the most that the runtime allocates at once (2⁴⁸ bytes on amd64).
Then nothing is returned.  (The lengths of `Opaque` are below 2³², which `make` accepts.) -/
def Decoder.fixedOpaqueInt (maxAlloc : ℕ) (n : Int64) : Dec (Option (Option Bytes)) := fun d =>
  if n < 0 then (some none, { d with err := some .limitExceeded })
  else if maxAlloc < n.toInt.toNat then (none, d)
  else (some <$> Decoder.fixedOpaque n.toInt.toNat) d

/-! ## Calls -/

/-- A call of a decoder method.  The arm of a union makes further calls, which depend on the
discriminant; it can also be nil. -/
inductive DecCall
  | uint32
  | int32
  | uint64
  | int64
  | bool
  | varOpaque
  | string
  | fixedOpaque (n : Int64)
  | unionNil
  | union (arm : UInt32 → List DecCall)

/-- What a call returns.  A byte slice can be nil. -/
inductive DecVal
  | uint32 (v : UInt32)
  | int32 (v : Int32)
  | uint64 (v : UInt64)
  | int64 (v : Int64)
  | bool (v : Bool)
  | bytes (p : Option Bytes)
  | string (s : Bytes)

/-- The zero values of Go. -/
def DecVal.IsZero : DecVal → Prop
  | .uint32 v => v = 0
  | .int32 v => v = 0
  | .uint64 v => v = 0
  | .int64 v => v = 0
  | .bool v => v = false
  | .bytes p => p = none
  | .string s => s = []

/-- A call that has been made: the decoder before and after it, the value that it returned, if it
did not panic, and whether it ran the arm of a union. -/
structure DecEvent where
  call : DecCall
  before : Decoder
  value : Option DecVal
  armRan : Bool
  after : Decoder

/-- What a sequence of calls did, and whether it ended in a panic. -/
structure Calls where
  events : List DecEvent
  panicked : Bool

/-- A call without an arm. -/
def made (c : DecCall) (x : Dec (Option DecVal)) : Dec Calls := fun d =>
  (⟨[⟨c, d, (x d).1, false, (x d).2⟩], (x d).1.isNone⟩, (x d).2)

/-- A call that cannot panic. -/
def returned (c : DecCall) (x : Dec DecVal) : Dec Calls := made c (some <$> x)

mutual

/-- Make a call, and record it with the calls that it makes in turn. -/
def DecCall.run (maxAlloc : ℕ) : DecCall → Dec Calls
  | .uint32 => returned .uint32 (.uint32 <$> Decoder.uint32)
  | .int32 => returned .int32 (.int32 <$> Decoder.int32)
  | .uint64 => returned .uint64 (.uint64 <$> Decoder.uint64)
  | .int64 => returned .int64 (.int64 <$> Decoder.int64)
  | .bool => returned .bool (.bool <$> Decoder.bool)
  | .varOpaque => returned .varOpaque (.bytes <$> Decoder.varOpaque)
  | .string => returned .string (.string <$> Decoder.string)
  | .fixedOpaque n =>
      made (.fixedOpaque n) (Option.map .bytes <$> Decoder.fixedOpaqueInt maxAlloc n)
  | .unionNil => returned .unionNil (.uint32 <$> Decoder.uint32)
  | .union arm => fun d =>
    match Decoder.union (fun disc => runCalls maxAlloc (arm disc)) d with
    | ((disc, none), d') => (⟨[⟨.union arm, d, some (.uint32 disc), false, d'⟩], false⟩, d')
    | ((disc, some ⟨es, panicked⟩), d') =>
      -- a panic in the arm goes through `Union`, which does not return either
      (⟨⟨.union arm, d, if panicked then none else some (.uint32 disc), true, d'⟩ :: es, panicked⟩,
        d')

/-- Make calls, one after the other, until one panics. -/
def runCalls (maxAlloc : ℕ) : List DecCall → Dec Calls
  | [] => pure ⟨[], false⟩
  | c :: cs => do
      let first ← c.run maxAlloc
      if first.panicked then return first
      let rest ← runCalls maxAlloc cs
      return ⟨first.events ++ rest.events, rest.panicked⟩

end

/-! ## What a failed decoder does -/

/-- On a decoder that has failed, the action does nothing and returns a certain value. -/
def Idle {α : Type} (x : Dec α) (z : α) : Prop := ∀ d, Failed d → x d = (z, d)

section Idle

variable {α β : Type}

lemma Idle.map {x : Dec α} {z : α} (h : Idle x z) (f : α → β) : Idle (f <$> x) (f z) := by
  intro d hd
  rw [map_run, h d hd]

lemma idle_read (n : ℕ) : Idle (Decoder.read n) [] := by
  intro d hd
  rw [Decoder.read, if_pos hd]

lemma idle_uint32 : Idle Decoder.uint32 0 := by
  intro d hd
  simp only [Decoder.uint32, idle_read 4 d hd, hd, if_true]

lemma idle_uint64 : Idle Decoder.uint64 0 := by
  intro d hd
  simp only [Decoder.uint64, idle_read 8 d hd, hd, if_true]

lemma idle_int32 : Idle Decoder.int32 0 := idle_uint32.map UInt32.toInt32

lemma idle_int64 : Idle Decoder.int64 0 := idle_uint64.map UInt64.toInt64

lemma idle_bool : Idle Decoder.bool false := idle_uint32.map (· != 0)

lemma idle_body (n : ℕ) : Idle (Decoder.body n) none := by
  intro d hd
  simp only [Decoder.body, idle_read n d hd, hd, if_true]

lemma idle_varOpaque : Idle Decoder.varOpaque none := by
  intro d hd
  simp only [Decoder.varOpaque, idle_uint32 d hd, hd, if_true]

lemma idle_string : Idle Decoder.string [] := idle_varOpaque.map (Option.getD · [])

lemma idle_fixedOpaqueInt {maxAlloc : ℕ} {n : Int64} (hn : ¬ n < 0)
    (hmax : ¬ maxAlloc < n.toInt.toNat) :
    Idle (Decoder.fixedOpaqueInt maxAlloc n) (some none) := by
  intro d hd
  rw [Decoder.fixedOpaqueInt, if_neg hn, if_neg hmax]
  exact (idle_body _).map some d hd

end Idle

/-! ## The discipline -/

/-- A call on a decoder that has failed keeps the error, returns a zero value, runs no arm and
consumes nothing. -/
def DecEvent.Sticky (e : DecEvent) : Prop :=
  ∀ x, e.before.err = some x →
    e.after.err = some x ∧ (∃ v, e.value = some v ∧ v.IsZero) ∧ e.armRan = false ∧
      e.after.r = e.before.r

/-- A call of `FixedOpaque` with a negative length on a decoder that has failed with another error
than the one that it sets. -/
def DecEvent.Overwrites (e : DecEvent) : Prop :=
  ∃ n x, e.call = .fixedOpaque n ∧ n < 0 ∧ e.before.err = some x ∧ x ≠ .limitExceeded

/-- A call of `FixedOpaque` with a length that cannot be allocated, on a decoder that has failed. -/
def DecEvent.Overallocates (maxAlloc : ℕ) (e : DecEvent) : Prop :=
  ∃ n x, e.call = .fixedOpaque n ∧ maxAlloc < n.toInt.toNat ∧ e.before.err = some x

/-- A call of `FixedOpaque` that breaks the discipline. -/
def DecEvent.Breaks (maxAlloc : ℕ) (e : DecEvent) : Prop :=
  e.Overwrites ∨ e.Overallocates maxAlloc

section Discipline

variable {maxAlloc : ℕ} {c : DecCall} {d : Decoder}

lemma sticky_made {x : Dec (Option DecVal)} {z : DecVal} (hx : Idle x (some z)) (hz : z.IsZero) :
    ∀ e ∈ (made c x d).1.events, e.Sticky := by
  intro e he
  obtain rfl := List.mem_singleton.mp he
  intro y hy
  have hidle : x d = (some z, d) := hx d (by rw [Failed, hy]; rfl)
  exact ⟨by rw [hidle]; exact hy, ⟨z, by rw [hidle], hz⟩, rfl, by rw [hidle]⟩

/-- An event of a call that is not of `FixedOpaque`. -/
lemma sticky_iff_of_sticky {e : DecEvent} (hcall : ∀ n, e.call ≠ .fixedOpaque n) (h : e.Sticky) :
    e.Sticky ↔ ¬ e.Breaks maxAlloc := by
  refine iff_of_true h ?_
  rintro (⟨n, -, hn, -⟩ | ⟨n, -, hn, -⟩)
  · exact hcall n hn
  · exact hcall n hn

lemma sticky_iff_returned {x : Dec DecVal} {z : DecVal} (hc : ∀ n, c ≠ .fixedOpaque n)
    (hx : Idle x z) (hz : z.IsZero) :
    ∀ e ∈ (returned c x d).1.events, e.Sticky ↔ ¬ e.Breaks maxAlloc := by
  intro e he
  refine sticky_iff_of_sticky (fun n => ?_) (sticky_made (hx.map some) hz e he)
  obtain rfl := List.mem_singleton.mp he
  exact hc n

lemma toNat_of_neg {n : Int64} (hn : n < 0) : n.toInt.toNat = 0 := by
  rw [Int64.lt_iff_toInt_lt] at hn
  exact Int.toNat_of_nonpos hn.le

lemma sticky_iff_fixedOpaque (n : Int64) :
    ∀ e ∈ (DecCall.run maxAlloc (.fixedOpaque n) d).1.events, e.Sticky ↔ ¬ e.Breaks maxAlloc := by
  intro e he
  rw [DecCall.run] at he
  by_cases hn : n < 0
  · -- the error is overwritten, unless it is the same
    obtain rfl := List.mem_singleton.mp he
    simp only [map_run, Decoder.fixedOpaqueInt, if_pos hn]
    constructor
    · rintro h (⟨-, y, -, -, hy, hne⟩ | ⟨m, y, hm, hlt, -⟩)
      · exact hne (Option.some.inj (h y hy).1).symm
      · cases hm
        rw [toNat_of_neg hn] at hlt
        exact absurd hlt (Nat.not_lt_zero _)
    · intro h y hy
      have heq : y = .limitExceeded := by
        by_contra hne
        exact h (.inl ⟨n, y, rfl, hn, hy, hne⟩)
      exact ⟨by rw [heq], ⟨_, rfl, rfl⟩, rfl, rfl⟩
  · by_cases hmax : maxAlloc < n.toInt.toNat
    · -- nothing is returned
      obtain rfl := List.mem_singleton.mp he
      simp only [map_run, Decoder.fixedOpaqueInt, if_neg hn, if_pos hmax]
      constructor
      · rintro h (⟨m, -, hm, hlt, -⟩ | ⟨-, y, -, -, hy⟩)
        · cases hm
          exact hn hlt
        · obtain ⟨-, ⟨v, hv, -⟩, -⟩ := h y hy
          simp at hv
      · intro h y hy
        exact absurd (.inr ⟨n, y, rfl, hmax, hy⟩) h
    · have hidle := (idle_fixedOpaqueInt hn hmax).map (Option.map DecVal.bytes)
      refine iff_of_true (sticky_made hidle rfl e he) ?_
      obtain rfl := List.mem_singleton.mp he
      rintro (⟨m, -, hm, hlt, -⟩ | ⟨m, -, hm, hlt, -⟩)
      · cases hm
        exact hn hlt
      · cases hm
        exact hmax hlt

/-- A union whose discriminant cannot be read. -/
lemma run_union_of_failed {arm : UInt32 → List DecCall} (h : Failed (Decoder.uint32 d).2) :
    (DecCall.union arm).run maxAlloc d
      = (⟨[⟨.union arm, d, some (.uint32 0), false, (Decoder.uint32 d).2⟩], false⟩,
        (Decoder.uint32 d).2) := by
  have hu : Decoder.union (fun disc => runCalls maxAlloc (arm disc)) d
      = ((0, none), (Decoder.uint32 d).2) := if_pos h
  simp only [DecCall.run, hu]

/-- A union whose arm is run. -/
lemma run_union_of_ok (maxAlloc : ℕ) (arm : UInt32 → List DecCall)
    (h : ¬ Failed (Decoder.uint32 d).2) :
    ∃ v, (DecCall.union arm).run maxAlloc d
      = (⟨⟨.union arm, d, v, true,
            (runCalls maxAlloc (arm (Decoder.uint32 d).1) (Decoder.uint32 d).2).2⟩ ::
          (runCalls maxAlloc (arm (Decoder.uint32 d).1) (Decoder.uint32 d).2).1.events,
          (runCalls maxAlloc (arm (Decoder.uint32 d).1) (Decoder.uint32 d).2).1.panicked⟩,
        (runCalls maxAlloc (arm (Decoder.uint32 d).1) (Decoder.uint32 d).2).2) := by
  have hu : Decoder.union (fun disc => runCalls maxAlloc (arm disc)) d
      = (((Decoder.uint32 d).1,
          some (runCalls maxAlloc (arm (Decoder.uint32 d).1) (Decoder.uint32 d).2).1),
        (runCalls maxAlloc (arm (Decoder.uint32 d).1) (Decoder.uint32 d).2).2) := if_neg h
  simp only [DecCall.run, hu]
  exact ⟨_, rfl⟩

/-- The calls after the first one are made unless it panicked. -/
lemma runCalls_cons (c : DecCall) (cs : List DecCall) (d : Decoder) :
    runCalls maxAlloc (c :: cs) d
      = if (c.run maxAlloc d).1.panicked then c.run maxAlloc d
        else (⟨(c.run maxAlloc d).1.events ++ (runCalls maxAlloc cs (c.run maxAlloc d).2).1.events,
            (runCalls maxAlloc cs (c.run maxAlloc d).2).1.panicked⟩,
          (runCalls maxAlloc cs (c.run maxAlloc d).2).2) := by
  rw [runCalls, bind_run]
  split <;> rfl

end Discipline

mutual

/-- The events of a call, and those of the calls that it makes in turn. -/
lemma DecCall.sticky_iff (maxAlloc : ℕ) : ∀ (c : DecCall) (d : Decoder),
    ∀ e ∈ (c.run maxAlloc d).1.events, (e.Sticky ↔ ¬ e.Breaks maxAlloc)
  | .uint32, d => by
      rw [DecCall.run]
      exact sticky_iff_returned (by simp) (idle_uint32.map DecVal.uint32) rfl
  | .int32, d => by
      rw [DecCall.run]
      exact sticky_iff_returned (by simp) (idle_int32.map DecVal.int32) rfl
  | .uint64, d => by
      rw [DecCall.run]
      exact sticky_iff_returned (by simp) (idle_uint64.map DecVal.uint64) rfl
  | .int64, d => by
      rw [DecCall.run]
      exact sticky_iff_returned (by simp) (idle_int64.map DecVal.int64) rfl
  | .bool, d => by
      rw [DecCall.run]
      exact sticky_iff_returned (by simp) (idle_bool.map DecVal.bool) rfl
  | .varOpaque, d => by
      rw [DecCall.run]
      exact sticky_iff_returned (by simp) (idle_varOpaque.map DecVal.bytes) rfl
  | .string, d => by
      rw [DecCall.run]
      exact sticky_iff_returned (by simp) (idle_string.map DecVal.string) rfl
  | .fixedOpaque n, d => sticky_iff_fixedOpaque n
  | .unionNil, d => by
      rw [DecCall.run]
      exact sticky_iff_returned (by simp) (idle_uint32.map DecVal.uint32) rfl
  | .union arm, d => by
      intro e he
      by_cases hdisc : Failed (Decoder.uint32 d).2
      · rw [run_union_of_failed hdisc] at he
        obtain rfl := List.mem_singleton.mp he
        refine sticky_iff_of_sticky (by simp) fun y hy => ?_
        rw [idle_uint32 d (by rw [Failed, hy]; rfl)]
        exact ⟨hy, ⟨_, rfl, rfl⟩, rfl, rfl⟩
      · obtain ⟨v, hrun⟩ := run_union_of_ok maxAlloc arm hdisc
        rw [hrun] at he
        rcases List.mem_cons.mp he with rfl | he
        · -- the decoder had not failed before the call
          refine sticky_iff_of_sticky (by simp) fun y hy => absurd ?_ hdisc
          have hd : Failed d := by rw [Failed, hy]; rfl
          rw [idle_uint32 d hd]
          exact hd
        · exact runCalls_sticky_iff maxAlloc (arm (Decoder.uint32 d).1) (Decoder.uint32 d).2 e he

/-- All the events of a sequence of calls. -/
lemma runCalls_sticky_iff (maxAlloc : ℕ) : ∀ (cs : List DecCall) (d : Decoder),
    ∀ e ∈ (runCalls maxAlloc cs d).1.events, (e.Sticky ↔ ¬ e.Breaks maxAlloc)
  | [], d => by
      intro e he
      simp [runCalls] at he
  | c :: cs, d => by
      intro e he
      rw [runCalls_cons] at he
      split at he
      · exact c.sticky_iff maxAlloc d e he
      · rcases List.mem_append.mp he with he | he
        · exact c.sticky_iff maxAlloc d e he
        · exact runCalls_sticky_iff maxAlloc cs _ e he

end

/-! ## Whole runs -/

section Run

variable {maxAlloc : ℕ} {cs : List DecCall} {d : Decoder}

/-- The first event of a call is that of the call itself. -/
lemma DecCall.exists_run_eq (maxAlloc : ℕ) (c : DecCall) (d : Decoder) :
    ∃ v ran es, (c.run maxAlloc d).1.events = ⟨c, d, v, ran, (c.run maxAlloc d).2⟩ :: es := by
  cases c with
  | union arm =>
      by_cases hdisc : Failed (Decoder.uint32 d).2
      · rw [run_union_of_failed hdisc]
        exact ⟨_, _, _, rfl⟩
      · obtain ⟨v, hrun⟩ := run_union_of_ok maxAlloc arm hdisc
        rw [hrun]
        exact ⟨_, _, _, rfl⟩
  | _ =>
      rw [DecCall.run]
      exact ⟨_, _, _, rfl⟩

lemma runCalls_append (cs₁ cs₂ : List DecCall) (d : Decoder) :
    runCalls maxAlloc (cs₁ ++ cs₂) d
      = if (runCalls maxAlloc cs₁ d).1.panicked then runCalls maxAlloc cs₁ d
        else (⟨(runCalls maxAlloc cs₁ d).1.events ++
              (runCalls maxAlloc cs₂ (runCalls maxAlloc cs₁ d).2).1.events,
            (runCalls maxAlloc cs₂ (runCalls maxAlloc cs₁ d).2).1.panicked⟩,
          (runCalls maxAlloc cs₂ (runCalls maxAlloc cs₁ d).2).2) := by
  induction cs₁ generalizing d with
  | nil => rfl
  | cons c cs₁ ih =>
      rw [List.cons_append, runCalls_cons, runCalls_cons]
      cases hc : (c.run maxAlloc d).1.panicked with
      | true => simp [hc]
      | false =>
          simp only [Bool.false_eq_true, if_false, ih]
          cases hcs : (runCalls maxAlloc cs₁ (c.run maxAlloc d).2).1.panicked with
          | true => simp [hcs]
          | false => simp

/-- If all the calls are sticky, a decoder that has failed is left as it is. -/
lemma runCalls_of_failed {x : DecodeErr} (hd : d.err = some x)
    (h : ∀ e ∈ (runCalls maxAlloc cs d).1.events, e.Sticky) :
    (runCalls maxAlloc cs d).2.err = some x ∧ (runCalls maxAlloc cs d).2.r = d.r := by
  induction cs generalizing d with
  | nil => exact ⟨hd, rfl⟩
  | cons c cs ih =>
      have hfirst : (∀ e ∈ (c.run maxAlloc d).1.events, e.Sticky) →
          (c.run maxAlloc d).2.err = some x ∧ (c.run maxAlloc d).2.r = d.r := by
        intro hmem
        obtain ⟨v, ran, es, hrun⟩ := c.exists_run_eq maxAlloc d
        rw [hrun] at hmem
        obtain ⟨herr, -, -, hr⟩ := hmem _ List.mem_cons_self x hd
        exact ⟨herr, hr⟩
      rw [runCalls_cons] at h ⊢
      split
      · next hp =>
          rw [if_pos hp] at h
          exact hfirst h
      · next hp =>
          rw [if_neg hp] at h
          obtain ⟨herr, hr⟩ := hfirst fun e he => h e (List.mem_append_left _ he)
          obtain ⟨herr', hr'⟩ := ih herr fun e he => h e (List.mem_append_right _ he)
          exact ⟨herr', hr'.trans hr⟩

/-- The discipline of a decoder over a sequence of calls: every call on a decoder that has failed
is sticky, and an error that the decoder has at some point, it has at the end, where nothing more
has been consumed. -/
structure Disciplined (maxAlloc : ℕ) (cs : List DecCall) (d : Decoder) : Prop where
  sticky : ∀ e ∈ (runCalls maxAlloc cs d).1.events, e.Sticky
  kept : ∀ cs₁ cs₂ x, cs = cs₁ ++ cs₂ → (runCalls maxAlloc cs₁ d).2.err = some x →
    (runCalls maxAlloc cs d).2.err = some x ∧
      (runCalls maxAlloc cs d).2.r = (runCalls maxAlloc cs₁ d).2.r

lemma disciplined_iff :
    Disciplined maxAlloc cs d ↔ ∀ e ∈ (runCalls maxAlloc cs d).1.events, ¬ e.Breaks maxAlloc := by
  constructor
  · intro h e he
    exact (runCalls_sticky_iff maxAlloc cs d e he).mp (h.sticky e he)
  · intro h
    have hsticky : ∀ e ∈ (runCalls maxAlloc cs d).1.events, e.Sticky := fun e he =>
      (runCalls_sticky_iff maxAlloc cs d e he).mpr (h e he)
    refine ⟨hsticky, ?_⟩
    rintro cs₁ cs₂ x rfl hx
    rw [runCalls_append] at hsticky ⊢
    split
    · exact ⟨hx, rfl⟩
    · next hp =>
        rw [if_neg hp] at hsticky
        exact runCalls_of_failed hx fun e he => hsticky e (List.mem_append_right _ he)

end Run

/-- **When the sticky-error discipline holds.**  Over any sequence of decoder calls, it holds
exactly if `FixedOpaque` is never called on a decoder that has failed, with a negative length (the
error being another one than `ErrLimitExceeded`) or with a length that the runtime cannot
allocate.  The encoder keeps to it over any sequence of calls and any writer: nothing is written
after the first write that fails, and its error is kept. -/
theorem stickyErrors_iff (maxAlloc : ℕ) (cs : List DecCall) (d : Decoder) {ω ε : Type}
    (W : Writer UInt8 ω ε) (is : List Item) (w : ω) :
    (Disciplined maxAlloc cs d ↔
        ∀ e ∈ (runCalls maxAlloc cs d).1.events, ¬ e.Overwrites ∧ ¬ e.Overallocates maxAlloc) ∧
      emitItems W is ⟨w, none⟩ = ⟨(emitItems W.recorded is ⟨(w, []), none⟩).w.1,
        (emitItems W.recorded is ⟨(w, []), none⟩).err⟩ ∧
      Latch.StopsAtFailure (emitItems W.recorded is ⟨(w, []), none⟩).w.2
        (emitItems W.recorded is ⟨(w, []), none⟩).err := by
  refine ⟨?_, ?_⟩
  · simp only [disciplined_iff, DecEvent.Breaks, not_or]
  · simp only [emitItems_eq]
    refine ⟨Latch.writeAll_recorded W _ w none [], ?_⟩
    obtain ⟨calls, hcalls, hrec⟩ := Latch.calls_writeAll W (itemsWrites is) w []
    rw [hrec, List.nil_append]
    exact hcalls.stopsAtFailure

/-- On an empty input, `Uint32` fails with `io.EOF`; then `FixedOpaque(-1)` replaces the error, and
`FixedOpaque(1 << 62)` panics. -/
theorem stickyErrors_overwritten :
    (runCalls (2 ^ 48) [.uint32] (newDecoder [])).2.err = some .eof ∧
      (runCalls (2 ^ 48) [.uint32, .fixedOpaque (-1)] (newDecoder [])).2.err
        = some .limitExceeded ∧
      ¬ Disciplined (2 ^ 48) [.uint32, .fixedOpaque (-1)] (newDecoder []) ∧
      (runCalls (2 ^ 48) [.uint32, .fixedOpaque ((1 : Int64) <<< 62)] (newDecoder [])).1.panicked
        = true ∧
      ¬ Disciplined (2 ^ 48) [.uint32, .fixedOpaque ((1 : Int64) <<< 62)] (newDecoder []) := by
  refine ⟨by decide, by decide, fun h => ?_, by decide, fun h => ?_⟩
  · have hkept := (h.kept [.uint32] [.fixedOpaque (-1)] .eof rfl (by decide)).1
    exact absurd hkept (by decide)
  · refine disciplined_iff.mp h _ (List.mem_cons_of_mem _ List.mem_cons_self) (.inr ?_)
    exact ⟨(1 : Int64) <<< 62, .eof, rfl, by decide, by decide⟩

end NfsClient.Xdr
