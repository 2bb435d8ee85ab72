import NfsClient.Client.Lease
import NfsClient.Lib.Pool

/-!
# Starting and stopping the renewal loop

`Start` launches the goroutine of `loop`, and any number of goroutines may call `Stop`.  They
communicate over two channels that are closed to give a signal: `stopCh` tells the loop to
exit, and the loop closes `doneCh` when it has.  Closing a channel twice panics.

The goroutines are processes over the two channels, and a schedule is a list of their actions.
What `Renew` and `Recover` do is no part of the schedule, only when they are called and when they
return.
-/

namespace NfsClient.Client

open NfsClient.Lib

/-! ## The goroutines -/

/-- The channels of a `LeaseManager`, closed or not, and its `stopOnce`. -/
structure Channels where
  stopOnce : Bool := false
  stopCh : Bool := false
  doneCh : Bool := false
  /-- A closed channel was closed. -/
  panicked : Bool := false
deriving DecidableEq

namespace Channels

/-- `close(lm.stopCh)` -/
def closeStop (s : Channels) : Channels :=
  if s.stopCh then { s with panicked := true } else { s with stopCh := true }

/-- `close(lm.doneCh)` -/
def closeDone (s : Channels) : Channels :=
  if s.doneCh then { s with panicked := true } else { s with doneCh := true }

end Channels

/-- Where a goroutine is. -/
inductive LeaseProc
  /-- `loop`, in its `select`. -/
  | waiting
  /-- `loop`, in the call of `Renew`. -/
  | renewing
  /-- `loop`, in the call of `Recover`. -/
  | recovering
  /-- `loop` has returned. -/
  | exited
  /-- `Stop`, before `stopOnce.Do`. -/
  | stopping
  /-- `Stop`, in its `select`. -/
  | awaiting
  /-- `Stop` has returned because `doneCh` was closed. -/
  | stopped
  /-- `Stop` has returned because a second has passed. -/
  | timedOut
deriving DecidableEq

/-- What starts a goroutine. -/
inductive LeaseCall
  | start
  | stop
deriving DecidableEq

def LeaseCall.proc : LeaseCall → LeaseProc
  | start => .waiting
  | stop => .stopping

/-- The actions of the goroutines. -/
inductive LeaseAct
  /-- The `select` of `loop` takes `<-lm.stopCh`. -/
  | seeStop
  /-- The `select` of `loop` takes the timer, and `Renew` is called. -/
  | fire
  /-- `Renew` returns; `Recover` is called if the state is lost. -/
  | renewed (lost : Bool)
  /-- `Recover` returns. -/
  | recovered
  /-- `stopOnce.Do`. -/
  | doStop
  /-- The `select` of `Stop` takes `<-lm.doneCh`. -/
  | seeDone
  /-- The `select` of `Stop` takes its timer. -/
  | timeout
deriving DecidableEq

/-- One action of a goroutine. -/
def leaseMove (s : Channels) : LeaseProc → LeaseAct → Option (Channels × LeaseProc)
  | .waiting, .seeStop => if s.stopCh then some (s.closeDone, .exited) else none
  | .waiting, .fire => some (s, .renewing)
  | .renewing, .renewed lost => some (s, if lost then .recovering else .waiting)
  | .recovering, .recovered => some (s, .waiting)
  | .stopping, .doStop =>
    if s.stopOnce then some (s, .awaiting)
    else some ({ s with stopOnce := true }.closeStop, .awaiting)
  | .awaiting, .seeDone => if s.doneCh then some (s, .stopped) else none
  | .awaiting, .timeout => some (s, .timedOut)
  | _, _ => none

/-- The goroutines of a `LeaseManager`. -/
abbrev LeasePool : Type := Pool Channels LeaseProc

abbrev LeaseLabel : Type := PoolLabel LeaseCall LeaseAct

def leaseStep : LeasePool → LeaseLabel → Option LeasePool := Pool.step LeaseCall.proc leaseMove

/-- The goroutine of `loop`. -/
def LeaseProc.isLoop : LeaseProc → Bool
  | waiting | renewing | recovering | exited => true
  | _ => false

/-- `Start` is called at most once. -/
def StartsOnce (p : LeasePool) : LeaseLabel → Prop
  | .start .start => ∀ q ∈ p.procs, q.isLoop = false
  | _ => True

instance (p : LeasePool) : DecidablePred (StartsOnce p)
  | .start .start => inferInstanceAs (Decidable (∀ q ∈ p.procs, q.isLoop = false))
  | .start .stop | .act _ _ => inferInstanceAs (Decidable True)

/-! ## The invariant -/

namespace LeaseProc

/-- The number of goroutines of `loop` that have not returned, and of those that have. -/
def running : LeaseProc → ℕ
  | .waiting | .renewing | .recovering => 1
  | _ => 0

def done : LeaseProc → ℕ
  | .exited => 1
  | _ => 0

end LeaseProc

open LeaseProc (running done)

/-- What the channels say about the goroutines. -/
structure LeaseInv (p : LeasePool) : Prop where
  /-- At most one loop was started. -/
  one : p.total running + p.total done ≤ 1
  /-- `doneCh` is closed when the loop has returned, and only then. -/
  doneCh : p.total done = p.shared.doneCh.toNat
  /-- `stopCh` is closed by `stopOnce`. -/
  stopCh : p.shared.stopCh = p.shared.stopOnce
  panicked : p.shared.panicked = false
  stopped : ∀ q ∈ p.procs, q = .stopped → p.shared.doneCh = true

lemma leaseInv_init : LeaseInv ⟨{}, []⟩ where
  one := by simp [Pool.total]
  doneCh := by simp [Pool.total]
  stopCh := rfl
  panicked := rfl
  stopped := by simp

/-- What one action does: nothing that the channels show, or the loop returns, or the first `Stop`
closes `stopCh`, or a `Stop` finds `doneCh` closed. -/
lemma leaseMove_cases {s s' : Channels} {q q' : LeaseProc} {a : LeaseAct}
    (h : leaseMove s q a = some (s', q')) :
    (running q' = running q ∧ done q' = done q ∧ q' ≠ .stopped ∧ s' = s) ∨
      (running q = 1 ∧ done q = 0 ∧ q' = .exited ∧ s' = s.closeDone) ∨
      (q = .stopping ∧ q' = .awaiting ∧ s.stopOnce = false ∧
        s' = { s with stopOnce := true }.closeStop) ∨
      (q = .awaiting ∧ q' = .stopped ∧ s.doneCh = true ∧ s' = s) := by
  unfold leaseMove at h
  split at h
  · split at h
    · obtain ⟨rfl, rfl⟩ := Prod.mk.inj (Option.some.inj h)
      exact .inr (.inl ⟨rfl, rfl, rfl, rfl⟩)
    · simp at h
  · obtain ⟨rfl, rfl⟩ := Prod.mk.inj (Option.some.inj h)
    exact .inl ⟨rfl, rfl, by decide, rfl⟩
  · next lost =>
      obtain ⟨rfl, rfl⟩ := Prod.mk.inj (Option.some.inj h)
      cases lost
      · exact .inl ⟨rfl, rfl, by decide, rfl⟩
      · exact .inl ⟨rfl, rfl, by decide, rfl⟩
  · obtain ⟨rfl, rfl⟩ := Prod.mk.inj (Option.some.inj h)
    exact .inl ⟨rfl, rfl, by decide, rfl⟩
  · split at h
    · obtain ⟨rfl, rfl⟩ := Prod.mk.inj (Option.some.inj h)
      exact .inl ⟨rfl, rfl, by decide, rfl⟩
    · next honce =>
        obtain ⟨rfl, rfl⟩ := Prod.mk.inj (Option.some.inj h)
        exact .inr (.inr (.inl ⟨rfl, rfl, Bool.eq_false_iff.mpr honce, rfl⟩))
  · split at h
    · next hdone =>
        obtain ⟨rfl, rfl⟩ := Prod.mk.inj (Option.some.inj h)
        exact .inr (.inr (.inr ⟨rfl, rfl, hdone, rfl⟩))
    · simp at h
  · obtain ⟨rfl, rfl⟩ := Prod.mk.inj (Option.some.inj h)
    exact .inl ⟨rfl, rfl, by decide, rfl⟩
  · simp at h

lemma weights_of_not_loop {q : LeaseProc} (h : q.isLoop = false) : running q = 0 ∧ done q = 0 := by
  cases q with
  | waiting | renewing | recovering | exited => simp [LeaseProc.isLoop] at h
  | stopping | awaiting | stopped | timedOut => exact ⟨rfl, rfl⟩

/-- Without a loop, no goroutine has a weight. -/
lemma total_eq_zero {p : LeasePool} {w : LeaseProc → ℕ} (h : ∀ q ∈ p.procs, w q = 0) :
    p.total w = 0 := by
  refine List.sum_eq_zero fun x hx => ?_
  obtain ⟨q, hq, rfl⟩ := List.mem_map.mp hx
  exact h q hq

lemma leaseInv_start {p : LeasePool} (hp : LeaseInv p) (x : LeaseCall)
    (honce : StartsOnce p (.start x)) : LeaseInv ⟨p.shared, p.procs ++ [x.proc]⟩ := by
  have hrun := Pool.total_start (p := p) running p.shared x.proc
  have hdone := Pool.total_start (p := p) done p.shared x.proc
  have hstopped : ∀ q ∈ p.procs ++ [x.proc], q = .stopped → p.shared.doneCh = true := by
    intro q hq hst
    rcases List.mem_append.mp hq with hq | hq
    · exact hp.stopped q hq hst
    · rw [List.mem_singleton.mp hq] at hst
      cases x <;> simp [LeaseCall.proc] at hst
  cases x with
  | start =>
      have hnone : ∀ q ∈ p.procs, q.isLoop = false := honce
      have hr : p.total running = 0 :=
        total_eq_zero fun q hq => (weights_of_not_loop (hnone q hq)).1
      have hd : p.total done = 0 := total_eq_zero fun q hq => (weights_of_not_loop (hnone q hq)).2
      simp only [LeaseCall.proc, running, done] at hrun hdone
      exact ⟨by simp only [LeaseCall.proc]; omega,
        by rw [← hp.doneCh]; simp only [LeaseCall.proc]; omega, hp.stopCh, hp.panicked, hstopped⟩
  | stop =>
      have hone := hp.one
      simp only [LeaseCall.proc, running, done] at hrun hdone
      exact ⟨by simp only [LeaseCall.proc]; omega,
        by rw [← hp.doneCh]; simp only [LeaseCall.proc]; omega, hp.stopCh, hp.panicked, hstopped⟩

/-- An action keeps what the channels say about the goroutines. -/
lemma leaseInv_act {p : LeasePool} (hp : LeaseInv p) {i : ℕ} {q q' : LeaseProc} {s' : Channels}
    {a : LeaseAct} (hq : p.procs[i]? = some q) (hmove : leaseMove p.shared q a = some (s', q')) :
    LeaseInv ⟨s', p.procs.set i q'⟩ := by
  have hrun := Pool.total_set running s' hq q'
  have hdone := Pool.total_set done s' hq q'
  have hone := hp.one
  have hdoneCh := hp.doneCh
  have hold : ∀ {q₁}, q₁ ∈ p.procs.set i q' → q₁ = .stopped → q₁ = q' ∨ p.shared.doneCh = true := by
    intro q₁ hmem hst
    rcases List.mem_or_eq_of_mem_set hmem with hmem | heq
    · exact .inr (hp.stopped q₁ hmem hst)
    · exact .inl heq
  rcases leaseMove_cases hmove with ⟨hr, hd, hne, rfl⟩ | ⟨hr, hd, rfl, rfl⟩ |
    ⟨rfl, rfl, hfirst, rfl⟩ | ⟨rfl, rfl, hclosed, rfl⟩
  · refine ⟨by omega, ?_, hp.stopCh, hp.panicked, fun q₁ hmem hst => ?_⟩
    · show Pool.total done _ = p.shared.doneCh.toNat
      omega
    · exact (hold hmem hst).resolve_left fun heq => hne (heq ▸ hst)
  · -- the loop returns: none has before, so `doneCh` is still open
    have hle := Pool.le_total running hq
    have hopen : p.shared.doneCh = false := Bool.toNat_eq_zero.mp (by omega)
    have hr' : running .exited = 0 := rfl
    have hd' : done .exited = 1 := rfl
    simp only [Channels.closeDone, hopen, Bool.false_eq_true, if_false] at hrun hdone ⊢
    refine ⟨by omega, ?_, hp.stopCh, hp.panicked, fun _ _ _ => rfl⟩
    show Pool.total done _ = 1
    omega
  · -- `stopOnce` has not run, so `stopCh` is still open
    have hopen : p.shared.stopCh = false := hp.stopCh.trans hfirst
    simp only [Channels.closeStop, hopen, Bool.false_eq_true, if_false] at hrun hdone ⊢
    simp only [running, done] at hrun hdone
    refine ⟨by omega, ?_, rfl, hp.panicked, fun q₁ hmem hst => ?_⟩
    · show Pool.total done _ = p.shared.doneCh.toNat
      omega
    · exact (hold hmem hst).resolve_left fun heq => by rw [heq] at hst; simp at hst
  · simp only [running, done] at hrun hdone
    refine ⟨by omega, ?_, hp.stopCh, hp.panicked, fun _ _ _ => hclosed⟩
    show Pool.total done _ = p.shared.doneCh.toNat
    omega

lemma leaseInv_step (p : LeasePool) (l : LeaseLabel) (p' : LeasePool) (hp : LeaseInv p)
    (honce : StartsOnce p l) (h : leaseStep p l = some p') : LeaseInv p' := by
  cases l with
  | start x =>
      obtain rfl : (⟨p.shared, p.procs ++ [x.proc]⟩ : LeasePool) = p' := Option.some.inj h
      exact leaseInv_start hp x honce
  | act i a =>
      obtain ⟨q, s', q', hq, hmove, rfl⟩ := Pool.step_act.mp h
      exact leaseInv_act hp hq hmove

/-! ## After `Stop` -/

/-- The actions of the goroutine of `loop`. -/
def LeaseAct.ofLoop : LeaseAct → Bool
  | seeStop | fire | renewed _ | recovered => true
  | _ => false

/-- Once `doneCh` is closed, no loop is running. -/
lemma running_eq_zero {p : LeasePool} (hp : LeaseInv p) (hdone : p.shared.doneCh = true) :
    ∀ q ∈ p.procs, running q = 0 := by
  intro q hq
  obtain ⟨i, hi⟩ := List.mem_iff_getElem?.mp hq
  have hle := Pool.le_total running hi
  have hone := hp.one
  have hd := hp.doneCh
  rw [hdone, Bool.toNat_true] at hd
  omega

/-- An action of the loop is taken by a loop that is running. -/
lemma running_of_ofLoop {s : Channels} {q : LeaseProc} {a : LeaseAct} {r : Channels × LeaseProc}
    (h : leaseMove s q a = some r) (ha : a.ofLoop = true) : running q = 1 := by
  unfold leaseMove at h
  split at h
  · rfl
  · rfl
  · rfl
  · rfl
  · simp [LeaseAct.ofLoop] at ha
  · simp [LeaseAct.ofLoop] at ha
  · simp [LeaseAct.ofLoop] at ha
  · simp at h

/-- A channel that is closed stays closed. -/
lemma doneCh_step {p p' : LeasePool} {l : LeaseLabel} (h : leaseStep p l = some p')
    (hdone : p.shared.doneCh = true) : p'.shared.doneCh = true := by
  cases l with
  | start x =>
      obtain rfl : (⟨p.shared, p.procs ++ [x.proc]⟩ : LeasePool) = p' := Option.some.inj h
      exact hdone
  | act i a =>
      obtain ⟨q, s', q', -, hmove, rfl⟩ := Pool.step_act.mp h
      rcases leaseMove_cases hmove with ⟨-, -, -, rfl⟩ | ⟨-, -, -, rfl⟩ | ⟨-, -, -, rfl⟩ |
        ⟨-, -, -, rfl⟩
      · exact hdone
      · simp [Channels.closeDone, hdone]
      · simp only [Channels.closeStop]
        split <;> exact hdone
      · exact hdone

/-- Once `doneCh` is closed, the loop does not act any more. -/
lemma quiet_run {p p' : LeasePool} {ls : List LeaseLabel} (hp : LeaseInv p)
    (hdone : p.shared.doneCh = true) (honce : Along leaseStep StartsOnce p ls)
    (hrun : run leaseStep p ls = some p') {i : ℕ} {a : LeaseAct} (ha : .act i a ∈ ls) :
    a.ofLoop = false := by
  induction ls generalizing p with
  | nil => simp at ha
  | cons l ls ih =>
      obtain ⟨p₁, hstep, hrest⟩ := run_cons_eq_some.mp hrun
      rcases List.mem_cons.mp ha with rfl | ha
      · obtain ⟨q, s', q', hq, hmove, -⟩ := Pool.step_act.mp hstep
        have hzero := running_eq_zero hp hdone q (List.mem_of_getElem? hq)
        refine Bool.eq_false_iff.mpr fun hloop => ?_
        rw [running_of_ofLoop hmove hloop] at hzero
        exact one_ne_zero hzero
      · exact ih (leaseInv_step p l p₁ hp honce.1 hstep) (doneCh_step hstep hdone)
          (honce.2 p₁ hstep) hrest ha

/-- **`Stop` stops the loop.**  Let `Start` be called at most once and `Stop` any number of times,
by any goroutines.  No channel is ever closed twice.  When a call of `Stop` has returned because
the loop was done, the loop is in no call of `Renew` or `Recover`, and it takes no action any
more, so it never calls them again. -/
theorem stop_ends_loop {ls : List LeaseLabel} {p : LeasePool}
    (hrun : run leaseStep ⟨{}, []⟩ ls = some p) (honce : Along leaseStep StartsOnce ⟨{}, []⟩ ls) :
    p.shared.panicked = false ∧
      (.stopped ∈ p.procs → (∀ q ∈ p.procs, q ≠ .renewing ∧ q ≠ .recovering) ∧
        ∀ ls' p', Along leaseStep StartsOnce p ls' → run leaseStep p ls' = some p' →
          ∀ i a, .act i a ∈ ls' → a.ofLoop = false) := by
  have hp : LeaseInv p := run_invariant leaseInv_step leaseInv_init honce hrun
  refine ⟨hp.panicked, fun hstopped => ?_⟩
  have hdone : p.shared.doneCh = true := hp.stopped _ hstopped rfl
  refine ⟨fun q hq => ?_, fun ls' p' honce' hrun' i a ha => quiet_run hp hdone honce' hrun' ha⟩
  have hzero := running_eq_zero hp hdone q hq
  constructor
  · rintro rfl
    simp [running] at hzero
  · rintro rfl
    simp [running] at hzero

/-- Two calls of `Stop`, the first while `Renew` is under way. -/
def stopTwice : List LeaseLabel :=
  [.start .start, .act 0 .fire, .start .stop, .act 1 .doStop, .act 0 (.renewed true),
    .act 0 .recovered, .start .stop, .act 0 .seeStop, .act 1 .seeDone, .act 2 .doStop,
    .act 2 .seeDone]

theorem stop_ends_loop_twice :
    (run leaseStep ⟨{}, []⟩ stopTwice).map (·.procs) = some [.exited, .stopped, .stopped] ∧
      ∀ p, run leaseStep ⟨{}, []⟩ stopTwice = some p → p.shared.panicked = false :=
  ⟨by decide, fun _ h => (stop_ends_loop h (by decide)).1⟩

/-- A second `Start` makes two loops close `doneCh`. -/
example : (run leaseStep ⟨{}, []⟩ [.start .start, .start .start, .start .stop, .act 2 .doStop,
    .act 0 .seeStop, .act 1 .seeStop]).map (·.shared.panicked) = some true := by decide

end NfsClient.Client
