import NfsClient.Nfs4.Caller

/-!
# The contract of the retry caller

`CallCompound` returns a pointer to a result and an error, and nothing in its type says that
exactly one of the two is set.  Here `retryCaller.CallCompound` is modelled with such pairs, as
the source has it, and compared with `retryLoop`.  A `Script` fixes what the base caller and the
context answer, each in the order in which it is asked; its environment records the questions.
How a call ends is one of four cases, `Script.Ends`, and from them one can read off what the
call returns, how often the base is called and how long the caller sleeps.
-/

namespace NfsClient.Nfs4

/-! ## Pairs of a result and an error -/

/-- What `CallCompound` returns; `none` is nil. -/
structure Returned where
  result : Option CompoundResult := none
  err : Option Err := none
deriving DecidableEq

namespace Returned

/-- Exactly one of the result and the error is not nil. -/
def ExactlyOne (r : Returned) : Prop := r.err.isSome = !r.result.isSome

instance (r : Returned) : Decidable r.ExactlyOne := inferInstanceAs (Decidable (_ = _))

/-- `retriable` on a result and an error. -/
def retriable (r : Returned) : Bool :=
  r.result.any (fun r => isRetriableStatus r.status) ||
    r.err.any (fun e => errorHasStatus e nfs4errDelay || errorHasStatus e nfs4errGrace)

/-- The NFS status of the result, or the one that the error carries. -/
def status (r : Returned) : Option Status :=
  match r.result with
  | some res => some res.status
  | none => r.err.bind Err.asStatus

/-- A result or an error, as a pair. -/
def of : Except Err CompoundResult → Returned
  | .ok r => { result := some r }
  | .error e => { err := some e }

lemma retriable_of (x : Except Err CompoundResult) : (of x).retriable = Nfs4.retriable x := by
  cases x <;> simp [of, retriable, Nfs4.retriable]

/-- A pair with exactly one component is a result or an error. -/
lemma ExactlyOne.cases {r : Returned} (h : r.ExactlyOne) : ∃ x, r = of x := by
  obtain ⟨_ | res, _ | e⟩ := r
  · simp [ExactlyOne] at h
  · exact ⟨.error e, rfl⟩
  · exact ⟨.ok res, rfl⟩
  · simp [ExactlyOne] at h

end Returned

/-! ## The retry caller -/

lemma RetryConfig.one_le_maxAttempts (cfg : RetryConfig) :
    1 ≤ cfg.withDefaults.maxAttempts.toNat := by
  unfold RetryConfig.withDefaults
  dsimp only
  split <;> omega

namespace RetryCaller

variable {W : Type}

/-- The base caller. -/
abbrev Base (W : Type) : Type := List Res → Net W → (List Res × Returned) × Net W

/-- What is returned behind the loop, from `lastRes` and `lastErr`. -/
def exhausted (last : Returned) : Returned :=
  match last.err, last.result with
  | none, some r => { err := statusErr r.status }
  | err, _ => { err := err }

/-- The loop of `CallCompound`; the first argument is `MaxAttempts - attempt`. -/
def loop (E : Env W) (cfg : RetryConfig) (base : Base W) : ℕ → Int64 → Returned → Base W
  | 0, _, last, rs, n => ((rs, exhausted last), n)
  | left + 1, delay, last, rs, n =>
    match E.ctxErr n.world with
    | (some e, w) => ((rs, { err := last.err.or (some (.ctx e)) }), n.push (.ctxErr (some e)) w)
    | (none, w) =>
      match base rs (n.push (.ctxErr none) w) with
      | ((rs₁, r), n₁) =>
        if !r.retriable then ((rs₁, r), n₁)
        else if left = 0 then ((rs₁, exhausted r), n₁)
        else
          match E.sleep delay n₁.world with
          | (some e, w₁) => ((rs₁, { err := some (.ctx e) }), n₁.push (.sleep delay (some e)) w₁)
          | (none, w₁) =>
            loop E cfg base left (nextDelay cfg delay) r rs₁ (n₁.push (.sleep delay none) w₁)

/-- `retryCaller.CallCompound`. -/
def callCompound (E : Env W) (cfg : RetryConfig) (base : Base W) : Base W :=
  loop E cfg base cfg.maxAttempts.toNat cfg.initial {}

section Turns

variable {E : Env W} {cfg : RetryConfig} {base : Base W} {left : ℕ} {delay : Int64}
  {last r : Returned} {rs rs₁ : List Res} {n n₁ : Net W} {w w₁ : W} {e : CtxErr}

lemma loop_stopped (hctx : E.ctxErr n.world = (some e, w)) :
    loop E cfg base (left + 1) delay last rs n
      = ((rs, { err := last.err.or (some (.ctx e)) }), n.push (.ctxErr (some e)) w) := by
  simp only [loop, hctx]

lemma loop_final (hctx : E.ctxErr n.world = (none, w))
    (hbase : base rs (n.push (.ctxErr none) w) = ((rs₁, r), n₁)) (hr : r.retriable = false) :
    loop E cfg base (left + 1) delay last rs n = ((rs₁, r), n₁) := by
  simp only [loop, hctx, hbase, hr, Bool.not_false, if_true]

lemma loop_exhausted (hctx : E.ctxErr n.world = (none, w))
    (hbase : base rs (n.push (.ctxErr none) w) = ((rs₁, r), n₁)) (hr : r.retriable = true) :
    loop E cfg base 1 delay last rs n = ((rs₁, exhausted r), n₁) := by
  simp only [loop, hctx, hbase, hr, Bool.not_true, Bool.false_eq_true, if_false, if_true]

lemma loop_interrupted (hctx : E.ctxErr n.world = (none, w))
    (hbase : base rs (n.push (.ctxErr none) w) = ((rs₁, r), n₁)) (hr : r.retriable = true)
    (hs : E.sleep delay n₁.world = (some e, w₁)) :
    loop E cfg base (left + 2) delay last rs n
      = ((rs₁, { err := some (.ctx e) }), n₁.push (.sleep delay (some e)) w₁) := by
  rw [loop]
  simp only [hctx, hbase, hr, Bool.not_true, Bool.false_eq_true, if_false, hs,
    Nat.add_one_ne_zero]

lemma loop_again (hctx : E.ctxErr n.world = (none, w))
    (hbase : base rs (n.push (.ctxErr none) w) = ((rs₁, r), n₁)) (hr : r.retriable = true)
    (hs : E.sleep delay n₁.world = (none, w₁)) :
    loop E cfg base (left + 2) delay last rs n
      = loop E cfg base (left + 1) (nextDelay cfg delay) r rs₁
        (n₁.push (.sleep delay none) w₁) := by
  rw [loop]
  simp only [hctx, hbase, hr, Bool.not_true, Bool.false_eq_true, if_false, hs,
    Nat.add_one_ne_zero]

end Turns

/-! ### The caller stack -/

/-- The outcome of a call, as a pair. -/
def returned (x : Outcome × Net W) : (List Res × Returned) × Net W := ((x.1.1, .of x.1.2), x.2)

lemma exhausted_of {x : Except Err CompoundResult} (h : Nfs4.retriable x = true) :
    exhausted (.of x) = .of (.error (exhaustedErr x)) := by
  cases x with
  | error e => rfl
  | ok r =>
      have hne : r.status ≠ nfs4Ok := by
        intro hok
        simp [Nfs4.retriable, hok, isRetriableStatus, nfs4Ok, nfs4errDelay, nfs4errGrace] at h
      simp only [exhausted, Returned.of, statusErr_of_ne hne, exhaustedErr]

/-- On a base that returns a result or an error, the loop on pairs is `retryLoop`. -/
lemma loop_eq_retryLoop (E : Env W) (cfg : RetryConfig) (call : Call W) (left : ℕ) (delay : Int64)
    (last : Returned) (rs : List Res) (n : Net W) :
    loop E cfg (fun rs n => returned (call rs n)) (left + 1) delay last rs n
      = returned (retryLoop E cfg call left delay last.err rs n) := by
  -- the number of attempts left matters only after a retriable answer
  induction left using Nat.strongRecOn generalizing delay last rs n with
  | ind left ih =>
      rcases hctx : E.ctxErr n.world with ⟨_ | e, w⟩
      · rcases hcall : call rs (n.push (.ctxErr none) w) with ⟨⟨rs₁, out⟩, n₁⟩
        have hbase : returned (call rs (n.push (.ctxErr none) w)) = ((rs₁, .of out), n₁) := by
          rw [hcall]
          rfl
        have hret := Returned.retriable_of out
        cases hr : Nfs4.retriable out with
        | false =>
            rw [retryLoop_final hctx hcall hr, loop_final hctx hbase (hret.trans hr)]
            rfl
        | true =>
            cases left with
            | zero =>
                rw [retryLoop_exhausted hctx hcall hr, loop_exhausted hctx hbase (hret.trans hr),
                  exhausted_of hr]
                rfl
            | succ left =>
                rcases hs : E.sleep delay n₁.world with ⟨_ | e, w₁⟩
                · rw [retryLoop_again hctx hcall hr hs, loop_again hctx hbase (hret.trans hr) hs,
                    ih left (Nat.lt_succ_self left)]
                  cases out <;> rfl
                · rw [retryLoop_interrupted hctx hcall hr hs,
                    loop_interrupted hctx hbase (hret.trans hr) hs]
                  rfl
      · rw [retryLoop_stopped hctx, loop_stopped hctx]
        cases last.err <;> rfl

/-- **The model on pairs and the model of the caller stack agree.** -/
theorem callCompound_eq (E : Env W) (cfg : RetryConfig) (base : Caller) (comp : Compound)
    (rs : List Res) (n : Net W) :
    callCompound E cfg.withDefaults (fun rs n => returned (base.callCompound E comp rs n)) rs n
      = returned ((newRetryCaller base cfg).callCompound E comp rs n) := by
  obtain ⟨left, hleft⟩ := Nat.exists_eq_add_of_le' cfg.one_le_maxAttempts
  rw [callCompound, hleft, loop_eq_retryLoop, newRetryCaller, Caller.callCompound, hleft]
  rfl

end RetryCaller

/-! ## Scripts -/

/-- A question of the retry caller; the context's answer is recorded with it. -/
inductive Asked
  | ctxErr (e : Option CtxErr)
  | call
  | sleep (d : Int64) (e : Option CtxErr)
deriving DecidableEq

/-- The context is seen done. -/
def Asked.Done : Asked → Prop
  | .ctxErr e | .sleep _ e => e.isSome
  | .call => False

/-- The delay of a sleep. -/
def Asked.delay? : Asked → Option Int64
  | .sleep d _ => some d
  | _ => none

/-- The number of calls of the base caller. -/
def calls (w : List Asked) : ℕ := w.count .call

/-- The delays that were passed to `sleep`. -/
def delays (w : List Asked) : List Int64 := w.filterMap Asked.delay?

/-- The answers of the base caller and of the context: the `i`-th attempt looks at `ctxErr i` and
gets `outcome i`, and the sleep that follows it ends with `sleep i`. -/
structure Script where
  outcome : ℕ → List Res × Returned
  ctxErr : ℕ → Option CtxErr
  sleep : ℕ → Option CtxErr
  exactlyOne : ∀ i, (outcome i).2.ExactlyOne

/-- The delay of the `i`-th sleep. -/
def delayAt (cfg : RetryConfig) : ℕ → Int64
  | 0 => cfg.initial
  | i + 1 => nextDelay cfg (delayAt cfg i)

/-- The record of `k` attempts that were all answered with a retriable status and followed by a
whole sleep. -/
def turns (cfg : RetryConfig) : ℕ → List Asked
  | 0 => []
  | k + 1 => turns cfg k ++ [.ctxErr none, .call, .sleep (delayAt cfg k) none]

lemma calls_append (w w' : List Asked) : calls (w ++ w') = calls w + calls w' := List.count_append

lemma delays_append (w w' : List Asked) : delays (w ++ w') = delays w ++ delays w' :=
  List.filterMap_append

@[simp] lemma calls_turns (cfg : RetryConfig) (k : ℕ) : calls (turns cfg k) = k := by
  induction k with
  | zero => rfl
  | succ k ih =>
      rw [turns, calls_append, ih]
      rfl

@[simp] lemma delays_turns (cfg : RetryConfig) (k : ℕ) :
    delays (turns cfg k) = (List.range k).map (delayAt cfg) := by
  induction k with
  | zero => rfl
  | succ k ih =>
      rw [turns, delays_append, ih, List.range_succ, List.map_append]
      rfl

lemma not_done_of_mem_turns {cfg : RetryConfig} {k : ℕ} {a : Asked} (h : a ∈ turns cfg k) :
    ¬ a.Done := by
  induction k with
  | zero => simp [turns] at h
  | succ k ih =>
      rcases List.mem_append.mp h with h | h
      · exact ih h
      · simp only [List.mem_cons, List.not_mem_nil, or_false] at h
        rcases h with rfl | rfl | rfl <;> simp [Asked.Done]

namespace Script

variable (s : Script)

/-- The environment that answers by the script and records the questions.  The retry caller asks
for nothing but its context and the sleeps. -/
def env : Env (List Asked) where
  ctxErr w := (s.ctxErr (calls w), w ++ [.ctxErr (s.ctxErr (calls w))])
  sleep d w := (s.sleep (calls w - 1), w ++ [.sleep d (s.sleep (calls w - 1))])
  select w := (none, w)
  base _ w := (.error .eof, w)
  rand w := (.ok default, w)
  hostname w := (.ok [], w)

/-- The base caller of the script. -/
def base : RetryCaller.Base (List Asked) := fun _ n =>
  (s.outcome (calls n.world), { n with world := n.world ++ [.call] })

/-- A call of the retry caller that `newRetryCaller` makes, and the questions it asks. -/
def run (cfg : RetryConfig) (rs : List Res) : (List Res × Returned) × List Asked :=
  match RetryCaller.callCompound s.env cfg.withDefaults s.base rs { world := [] } with
  | (out, n) => (out, n.world)

/-- The result decoders before the `k`-th attempt. -/
def decoders (rs : List Res) : ℕ → List Res
  | 0 => rs
  | k + 1 => (s.outcome k).1

/-- `lastRes` and `lastErr` before the `k`-th attempt. -/
def last : ℕ → Returned
  | 0 => {}
  | k + 1 => (s.outcome k).2

/-- The first `k` attempts are retriable and nothing interrupts them or the sleeps after them. -/
def Passed (k : ℕ) : Prop :=
  ∀ i < k, s.ctxErr i = none ∧ (s.outcome i).2.retriable = true ∧ s.sleep i = none

/-- How a call with at most `N` attempts can end: what it returns and what it has asked. -/
inductive Ends (cfg : RetryConfig) (rs : List Res) (N : ℕ) :
    List Res × Returned → List Asked → Prop
  /-- The context is done at the head of the loop. -/
  | stopped (k : ℕ) (hk : k < N) (h : s.Passed k) {e : CtxErr} (hctx : s.ctxErr k = some e) :
      Ends cfg rs N (s.decoders rs k, { err := (s.last k).err.or (some (.ctx e)) })
        (turns cfg k ++ [.ctxErr (some e)])
  /-- The answer is not retriable. -/
  | final (k : ℕ) (hk : k < N) (h : s.Passed k) (hctx : s.ctxErr k = none)
      (hr : (s.outcome k).2.retriable = false) :
      Ends cfg rs N (s.outcome k) (turns cfg k ++ [.ctxErr none, .call])
  /-- The last attempt is answered with a retriable status. -/
  | exhausted (k : ℕ) (hk : k + 1 = N) (h : s.Passed k) (hctx : s.ctxErr k = none)
      (hr : (s.outcome k).2.retriable = true) :
      Ends cfg rs N ((s.outcome k).1, RetryCaller.exhausted (s.outcome k).2)
        (turns cfg k ++ [.ctxErr none, .call])
  /-- The context is done in a sleep. -/
  | interrupted (k : ℕ) (hk : k + 1 < N) (h : s.Passed k) (hctx : s.ctxErr k = none)
      (hr : (s.outcome k).2.retriable = true) {e : CtxErr} (hs : s.sleep k = some e) :
      Ends cfg rs N ((s.outcome k).1, { err := some (.ctx e) })
        (turns cfg k ++ [.ctxErr none, .call, .sleep (delayAt cfg k) (some e)])

variable {s}

lemma Passed.succ {k : ℕ} (h : s.Passed k) (hctx : s.ctxErr k = none)
    (hr : (s.outcome k).2.retriable = true) (hs : s.sleep k = none) : s.Passed (k + 1) := by
  intro i hi
  rcases Nat.lt_succ_iff_lt_or_eq.mp hi with hlt | rfl
  · exact h i hlt
  · exact ⟨hctx, hr, hs⟩

/-- From the head of the loop after `k` such attempts. -/
lemma ends_loop (cfg : RetryConfig) (rs : List Res) (left : ℕ) {k : ℕ} (h : s.Passed k)
    (n : Net (List Asked)) (hn : n.world = turns cfg k) :
    s.Ends cfg rs (k + (left + 1))
      (RetryCaller.loop s.env cfg s.base (left + 1) (delayAt cfg k) (s.last k)
        (s.decoders rs k) n).1
      (RetryCaller.loop s.env cfg s.base (left + 1) (delayAt cfg k) (s.last k)
        (s.decoders rs k) n).2.world := by
  induction left using Nat.strongRecOn generalizing k n with
  | ind left ih =>
      have hctx : s.env.ctxErr n.world = (s.ctxErr k, turns cfg k ++ [.ctxErr (s.ctxErr k)]) := by
        simp only [env, hn, calls_turns]
      rcases he : s.ctxErr k with _ | e
      · rw [he] at hctx
        obtain ⟨n₁, hn₁, hbase⟩ : ∃ n₁ : Net (List Asked),
            n₁.world = turns cfg k ++ [.ctxErr none, .call] ∧
            s.base (s.decoders rs k) (n.push (.ctxErr none) (turns cfg k ++ [.ctxErr none]))
              = (((s.outcome k).1, (s.outcome k).2), n₁) := by
          have hcalls : calls (turns cfg k ++ [.ctxErr none]) = k := by
            rw [calls_append, calls_turns]
            rfl
          refine ⟨_, List.append_assoc .., Prod.ext ?_ rfl⟩
          simp only [base, Net.push, hcalls]
        have hsleep : s.env.sleep (delayAt cfg k) n₁.world
            = (s.sleep k, n₁.world ++ [.sleep (delayAt cfg k) (s.sleep k)]) := by
          have hcalls : calls n₁.world = k + 1 := by
            rw [hn₁, calls_append, calls_turns]
            rfl
          simp only [env, hcalls, Nat.add_sub_cancel]
        cases hr : (s.outcome k).2.retriable with
        | false =>
            rw [RetryCaller.loop_final hctx hbase hr, hn₁]
            exact .final k (by omega) h he hr
        | true =>
            cases left with
            | zero =>
                rw [RetryCaller.loop_exhausted hctx hbase hr, hn₁]
                exact .exhausted k rfl h he hr
            | succ left =>
                rcases hs : s.sleep k with _ | e
                · rw [hs] at hsleep
                  rw [RetryCaller.loop_again hctx hbase hr hsleep,
                    show k + (left + 1 + 1) = k + 1 + (left + 1) by omega]
                  exact ih left (Nat.lt_succ_self left) (h.succ he hr hs) _
                    (by simp [Net.push, hn₁, turns])
                · rw [hs] at hsleep
                  rw [RetryCaller.loop_interrupted hctx hbase hr hsleep, hn₁]
                  have hend : s.Ends cfg rs (k + (left + 1 + 1)) _ _ :=
                    .interrupted k (by omega) h he hr hs
                  simpa [Net.push] using hend
      · rw [he] at hctx
        rw [RetryCaller.loop_stopped hctx]
        exact .stopped k (by omega) h he

/-- **A call ends in one of the four ways.** -/
theorem ends_run (s : Script) (cfg : RetryConfig) (rs : List Res) :
    s.Ends cfg.withDefaults rs cfg.withDefaults.maxAttempts.toNat (s.run cfg rs).1
      (s.run cfg rs).2 := by
  obtain ⟨left, hleft⟩ := Nat.exists_eq_add_of_le' cfg.one_le_maxAttempts
  have hpassed : s.Passed 0 := fun i hi => absurd hi (Nat.not_lt_zero i)
  have h := ends_loop cfg.withDefaults rs left hpassed { world := [] } rfl
  rw [Nat.zero_add, ← hleft] at h
  exact h

/-- Nothing is cancelled up to the `k`-th attempt. -/
def Undisturbed (s : Script) (k : ℕ) : Prop :=
  (∀ i ≤ k, s.ctxErr i = none) ∧ ∀ i < k, s.sleep i = none

/-! ## The contract -/

section Contract

variable {cfg : RetryConfig} {rs : List Res} {N : ℕ} {out : List Res × Returned} {w : List Asked}

/-- An answer that can be retried has a status, DELAY or GRACE. -/
lemma status_of_retriable {x : Except Err CompoundResult} (h : Nfs4.retriable x = true) :
    ∃ st, (Returned.of x).status = some st ∧ isRetriableStatus st = true ∧
      (exhaustedErr x).asStatus = some st := by
  cases x with
  | ok r => exact ⟨r.status, rfl, h, rfl⟩
  | error e =>
      simp only [Nfs4.retriable, errorHasStatus, Bool.or_eq_true, beq_iff_eq] at h
      rcases h with h | h
      · exact ⟨nfs4errDelay, h, rfl, h⟩
      · exact ⟨nfs4errGrace, h, rfl, h⟩

lemma Ends.calls_le (h : s.Ends cfg rs N out w) : calls w ≤ N := by
  cases h with
  | stopped k hk =>
      rw [calls_append, calls_turns]
      exact hk.le
  | final k hk =>
      rw [calls_append, calls_turns]
      exact hk
  | exhausted k hk =>
      rw [calls_append, calls_turns]
      exact hk.le
  | interrupted k hk =>
      rw [calls_append, calls_turns]
      exact hk.le

/-- Before the last question the context is not seen done. -/
lemma Ends.exists_snoc (h : s.Ends cfg rs N out w) :
    ∃ u a, w = u ++ [a] ∧ ∀ b ∈ u, ¬ b.Done := by
  cases h with
  | stopped k => exact ⟨_, _, rfl, fun b hb => not_done_of_mem_turns hb⟩
  | final k | exhausted k =>
      refine ⟨turns cfg k ++ [.ctxErr none], .call, by simp, fun b hb => ?_⟩
      rcases List.mem_append.mp hb with hb | hb
      · exact not_done_of_mem_turns hb
      · simp [List.mem_singleton.mp hb, Asked.Done]
  | @interrupted k _ _ _ _ e _ =>
      refine ⟨turns cfg k ++ [.ctxErr none, .call], .sleep (delayAt cfg k) (some e), by simp,
        fun b hb => ?_⟩
      rcases List.mem_append.mp hb with hb | hb
      · exact not_done_of_mem_turns hb
      · simp only [List.mem_cons, List.not_mem_nil, or_false] at hb
        rcases hb with rfl | rfl <;> simp [Asked.Done]

lemma Ends.no_call_after_done (h : s.Ends cfg rs N out w) {pre post : List Asked} {a : Asked}
    (hw : w = pre ++ a :: post) (ha : a.Done) : .call ∉ post := by
  obtain ⟨u, b, hu, hnot⟩ := h.exists_snoc
  rcases List.eq_nil_or_concat post with rfl | ⟨post', c, rfl⟩
  · exact List.not_mem_nil
  · -- then `a` is not the last question
    have hsplit : u ++ [b] = (pre ++ a :: post') ++ [c] := by
      rw [← hu, hw]
      simp
    have hmem : a ∈ u := by
      rw [(List.append_inj' hsplit rfl).1]
      simp
    exact absurd ha (hnot a hmem)

/-- If nothing is cancelled, the call ends with the first answer that is not retriable. -/
lemma Ends.eq_of_final (h : s.Ends cfg rs N out w) {k : ℕ} (hk : k < N)
    (hbefore : ∀ i < k, (s.outcome i).2.retriable = true)
    (hr : (s.outcome k).2.retriable = false) (hu : s.Undisturbed k) :
    out = s.outcome k ∧ calls w = k + 1 ∧ (delays w).length = k := by
  cases h with
  | @stopped j hj hpassed e hctx =>
      rcases le_or_gt j k with hle | hlt
      · simp [hu.1 j hle] at hctx
      · simp [(hpassed k hlt).2.1] at hr
  | final j hj hpassed hctx hr' =>
      obtain rfl : j = k := by
        rcases lt_trichotomy j k with hlt | heq | hlt
        · simp [hbefore j hlt] at hr'
        · exact heq
        · simp [(hpassed k hlt).2.1] at hr
      exact ⟨rfl, by rw [calls_append, calls_turns]; rfl,
        by rw [delays_append, delays_turns]; simp [delays, Asked.delay?]⟩
  | exhausted j hj hpassed hctx hr' =>
      rcases Nat.lt_or_eq_of_le (show k ≤ j by omega) with hlt | rfl
      · simp [(hpassed k hlt).2.1] at hr
      · simp [hr'] at hr
  | @interrupted j hj hpassed hctx hr' e hs =>
      rcases lt_trichotomy j k with hlt | rfl | hlt
      · simp [hu.2 j hlt] at hs
      · simp [hr'] at hr
      · simp [(hpassed k hlt).2.1] at hr

/-- If nothing is cancelled and every answer is retriable, all attempts are used up. -/
lemma Ends.eq_of_exhausted (h : s.Ends cfg rs N out w)
    (hall : ∀ i < N, (s.outcome i).2.retriable = true) (hu : s.Undisturbed (N - 1)) :
    out.2 = RetryCaller.exhausted (s.outcome (N - 1)).2 ∧ calls w = N ∧
      (delays w).length = N - 1 := by
  cases h with
  | @stopped j hj hpassed e hctx => simp [hu.1 j (by omega)] at hctx
  | final j hj hpassed hctx hr => simp [hall j hj] at hr
  | exhausted j hj hpassed hctx hr =>
      obtain rfl := hj
      exact ⟨rfl, by rw [calls_append, calls_turns]; rfl,
        by rw [delays_append, delays_turns]; simp [delays, Asked.delay?]⟩
  | @interrupted j hj hpassed hctx hr e hs => simp [hu.2 j (by omega)] at hs

/-- Whatever happens, exactly one of result and error is returned, and no result with a retriable
status. -/
lemma Ends.exactlyOne (h : s.Ends cfg rs N out w) :
    out.2.ExactlyOne ∧ ∀ r, out.2.result = some r → isRetriableStatus r.status = false := by
  cases h with
  | @stopped k _ _ e =>
      refine ⟨?_, by simp⟩
      simp only [Returned.ExactlyOne]
      cases (s.last k).err <;> rfl
  | final k hk h hctx hr =>
      refine ⟨s.exactlyOne k, fun r hres => ?_⟩
      rw [Returned.retriable, hres, Bool.or_eq_false_iff] at hr
      exact hr.1
  | exhausted k hk h hctx hr =>
      obtain ⟨x, hx⟩ := (s.exactlyOne k).cases
      rw [hx, Returned.retriable_of] at hr
      rw [hx, RetryCaller.exhausted_of hr]
      exact ⟨rfl, by simp [Returned.of]⟩
  | interrupted k => exact ⟨rfl, by simp⟩

end Contract

/-- **The contract of the retry loop.**  For every configuration, every sequence of answers of the
base caller and every cancellation of the context: the base is called at most `MaxAttempts`
times, and not any more once the context is seen done; the first answer that is not retriable is
returned, after as many calls and one sleep less; if there is none, an error with the status of
the last answer is returned, after `MaxAttempts` calls and one sleep less; and exactly one of
result and error is returned, never a result with a retriable status. -/
theorem run_contract (s : Script) (cfg : RetryConfig) (rs : List Res) :
    let N := cfg.withDefaults.maxAttempts.toNat
    let out := (s.run cfg rs).1
    let w := (s.run cfg rs).2
    calls w ≤ N ∧
      (∀ pre a post, w = pre ++ a :: post → a.Done → .call ∉ post) ∧
      (∀ k < N, (∀ i < k, (s.outcome i).2.retriable = true) →
        (s.outcome k).2.retriable = false → s.Undisturbed k →
        out = s.outcome k ∧ calls w = k + 1 ∧ (delays w).length = k) ∧
      ((∀ i < N, (s.outcome i).2.retriable = true) → s.Undisturbed (N - 1) →
        out.2.result = none ∧ (∃ e st, out.2.err = some e ∧ e.asStatus = some st ∧
          (s.outcome (N - 1)).2.status = some st ∧ (st = nfs4errDelay ∨ st = nfs4errGrace)) ∧
        calls w = N ∧ (delays w).length = N - 1) ∧
      out.2.ExactlyOne ∧ ∀ r, out.2.result = some r → isRetriableStatus r.status = false := by
  intro N out w
  have h : s.Ends cfg.withDefaults rs N out w := s.ends_run cfg rs
  refine ⟨h.calls_le, fun pre a post => h.no_call_after_done, fun k hk => h.eq_of_final hk, ?_,
    h.exactlyOne⟩
  intro hall hu
  obtain ⟨hout, hcalls, hdelays⟩ := h.eq_of_exhausted hall hu
  have hlast : N - 1 < N := Nat.sub_one_lt_of_lt cfg.one_le_maxAttempts
  obtain ⟨x, hx⟩ := (s.exactlyOne (N - 1)).cases
  have hr := hall (N - 1) hlast
  rw [hx, Returned.retriable_of] at hr
  obtain ⟨st, hst, hretry, hcarried⟩ := status_of_retriable hr
  rw [hout, hx, RetryCaller.exhausted_of hr]
  refine ⟨rfl, ⟨_, st, rfl, hcarried, hst, ?_⟩, hcalls, hdelays⟩
  simpa [isRetriableStatus] using hretry

end Script

end NfsClient.Nfs4
