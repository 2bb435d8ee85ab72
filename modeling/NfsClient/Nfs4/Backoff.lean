import Mathlib.Algebra.Order.Ring.Int
import NfsClient.Nfs4.RetryContract
import NfsClient.Lib.MachineInt

/-!
# The delays of the retry caller

The first delay is `Initial` as it stands; every further one is twice the previous one, in
64-bit arithmetic, and only then cut off at `Max`.  As long as `Initial` is not above `Max` and
no delay that is doubled reaches 2⁶² ns, the delays are `min (Initial * 2 ^ i) Max`.  In every
other case one of them is not.
-/

namespace NfsClient.Nfs4

open NfsClient.Lib

/-- What the delays of a call should be: positive, at most `Max`, never decreasing, and the `i`-th
one `min (Initial * 2 ^ i) Max` in exact arithmetic. -/
structure BackedOff (cfg : RetryConfig) (ds : List Int64) : Prop where
  bounds : ∀ d ∈ ds, 0 < d ∧ d ≤ cfg.max
  sorted : ds.Pairwise (· ≤ ·)
  value : ∀ i (hi : i < ds.length), ds[i].toInt = min (cfg.initial.toInt * 2 ^ i) cfg.max.toInt

/-- The `i`-th delay in exact arithmetic. -/
def exactDelay (cfg : RetryConfig) (i : ℕ) : ℤ := min (cfg.initial.toInt * 2 ^ i) cfg.max.toInt

section Delays

variable {cfg : RetryConfig}

lemma RetryConfig.initial_pos (cfg : RetryConfig) : 0 < cfg.withDefaults.initial.toInt := by
  unfold RetryConfig.withDefaults
  dsimp only
  split
  · decide
  · next h =>
      rw [Int64.le_iff_toInt_le, Int64.toInt_zero] at h
      omega

lemma RetryConfig.max_pos (cfg : RetryConfig) : 0 < cfg.withDefaults.max.toInt := by
  unfold RetryConfig.withDefaults
  dsimp only
  split
  · decide
  · next h =>
      rw [Int64.le_iff_toInt_le, Int64.toInt_zero] at h
      omega

lemma exactDelay_mono (hpos : 0 < cfg.initial.toInt) {i j : ℕ} (h : i ≤ j) :
    exactDelay cfg i ≤ exactDelay cfg j := by
  have hpow : (2 : ℤ) ^ i ≤ 2 ^ j := pow_le_pow_right₀ (by decide) h
  exact min_le_min_right _ (mul_le_mul_of_nonneg_left hpow hpos.le)

lemma exactDelay_pos (hpos : 0 < cfg.initial.toInt) (hmax : 0 < cfg.max.toInt) (i : ℕ) :
    0 < exactDelay cfg i :=
  lt_min (mul_pos hpos (pow_pos (by decide) i)) hmax

/-- Doubling a delay below 2⁶² does not overflow. -/
lemma nextDelay_of_lt {d : Int64} (h0 : 0 < d.toInt) (h : d.toInt < 2 ^ 62) :
    (nextDelay cfg d).toInt = min (d.toInt * 2) cfg.max.toInt := by
  have hmul : (d * 2).toInt = d.toInt * 2 := by
    rw [Int64.toInt_mul, show (2 : Int64).toInt = 2 from rfl]
    apply Int.bmod_eq_of_le <;> omega
  unfold nextDelay
  split
  · next hlt =>
      rw [Int64.lt_iff_toInt_lt, hmul] at hlt
      omega
  · next hlt =>
      rw [Int64.lt_iff_toInt_lt, hmul] at hlt
      omega

/-- Doubling a delay from 2⁶² on gives a negative number, which is not above `Max`. -/
lemma nextDelay_of_le {d : Int64} (hmax : 0 < cfg.max.toInt) (h : 2 ^ 62 ≤ d.toInt) :
    (nextDelay cfg d).toInt < 0 := by
  have hlt := d.toInt_lt
  have hmul : (d * 2).toInt = d.toInt * 2 - 2 ^ 64 := by
    rw [Int64.toInt_mul, show (2 : Int64).toInt = 2 from rfl, bmod_of_wrap] <;> omega
  unfold nextDelay
  rw [if_neg]
  · rw [hmul]
    omega
  · rw [Int64.lt_iff_toInt_lt, hmul]
    omega

/-- Without overflow the delays are the exact ones. -/
lemma delayAt_eq (hpos : 0 < cfg.initial.toInt) (hmax : 0 < cfg.max.toInt)
    (hle : cfg.initial ≤ cfg.max) {i : ℕ} (h : ∀ j < i, exactDelay cfg j < 2 ^ 62) :
    (delayAt cfg i).toInt = exactDelay cfg i := by
  induction i with
  | zero =>
      rw [Int64.le_iff_toInt_le] at hle
      simp [delayAt, exactDelay, hle]
  | succ i ih =>
      have hi := ih fun j hj => h j (by omega)
      rw [delayAt, nextDelay_of_lt (hi ▸ exactDelay_pos hpos hmax i) (hi ▸ h i (by omega)), hi]
      have hdouble : cfg.initial.toInt * 2 ^ (i + 1) = cfg.initial.toInt * 2 ^ i * 2 := by
        rw [pow_succ, mul_assoc]
      simp only [exactDelay, hdouble]
      omega

/-- `m` delays are as they should be exactly if the first one is not above `Max` and all that are
doubled are below 2⁶². -/
lemma backedOff_iff (hpos : 0 < cfg.initial.toInt) (hmax : 0 < cfg.max.toInt) (m : ℕ) :
    BackedOff cfg ((List.range m).map (delayAt cfg)) ↔
      ¬ 0 < m ∨ cfg.initial ≤ cfg.max ∧ ∀ i, i + 1 < m → exactDelay cfg i < 2 ^ 62 := by
  constructor
  · intro h
    by_cases hm : 0 < m
    · refine .inr ⟨?_, fun i hi => ?_⟩
      · exact (h.bounds _ (List.mem_map_of_mem (List.mem_range.mpr hm))).2
      · -- the delay after one from 2⁶² on is not positive
        by_contra hge
        have hvalue : (delayAt cfg i).toInt = exactDelay cfg i := by
          have hi := h.value i (by simp; omega)
          simp only [List.getElem_map, List.getElem_range] at hi
          exact hi
        rw [← hvalue, not_lt] at hge
        have hnext : delayAt cfg (i + 1) ∈ (List.range m).map (delayAt cfg) :=
          List.mem_map_of_mem (List.mem_range.mpr hi)
        have hneg := nextDelay_of_le hmax hge
        have hbound := (h.bounds _ hnext).1
        rw [Int64.lt_iff_toInt_lt, Int64.toInt_zero, delayAt] at hbound
        omega
    · exact .inl hm
  · rintro (hm | ⟨hle, hsmall⟩)
    · obtain rfl : m = 0 := by omega
      exact ⟨by simp, by simp, by simp⟩
    · have hvalue : ∀ i < m, (delayAt cfg i).toInt = exactDelay cfg i :=
        fun i hi => delayAt_eq hpos hmax hle fun j hj => hsmall j (by omega)
      refine ⟨?_, ?_, ?_⟩
      · intro d hd
        obtain ⟨i, hi, rfl⟩ := List.mem_map.mp hd
        have hi := hvalue i (List.mem_range.mp hi)
        rw [Int64.lt_iff_toInt_lt, Int64.le_iff_toInt_le, hi, Int64.toInt_zero]
        exact ⟨exactDelay_pos hpos hmax i, min_le_right _ _⟩
      · rw [List.pairwise_map]
        refine List.Pairwise.imp_of_mem ?_ List.pairwise_lt_range
        intro i j hi hj hij
        rw [Int64.le_iff_toInt_le, hvalue i (List.mem_range.mp hi), hvalue j (List.mem_range.mp hj)]
        exact exactDelay_mono hpos hij.le
      · intro i hi
        simp only [List.getElem_map, List.getElem_range]
        exact hvalue i (by simpa using hi)

end Delays

namespace Script

/-- The `i`-th sleep takes place: the attempts up to it are made and answered with a retriable
status, the sleeps before it are not interrupted, and there is an attempt left. -/
def Sleeps (s : Script) (N i : ℕ) : Prop :=
  i + 1 < N ∧ s.Passed i ∧ s.ctxErr i = none ∧ (s.outcome i).2.retriable = true

section Sleeps

variable {s : Script} {N k i : ℕ}

lemma Passed.sleeps (h : s.Passed k) (hk : k < N) (hi : i < k) : s.Sleeps N i :=
  ⟨by omega, fun j hj => h j (hj.trans hi), (h i hi).1, (h i hi).2.1⟩

/-- There is no sleep behind a turn that is not passed. -/
lemma Sleeps.le (h : s.Sleeps N i)
    (hk : ¬ (s.ctxErr k = none ∧ (s.outcome k).2.retriable = true ∧ s.sleep k = none)) : i ≤ k := by
  by_contra hlt
  exact hk (h.2.1 k (Nat.lt_of_not_le hlt))

/-- The delays that a call passes to `sleep`, one for each sleep that takes place. -/
lemma Ends.exists_delays_eq {cfg : RetryConfig} {rs : List Res} {out : List Res × Returned}
    {w : List Asked} (h : s.Ends cfg rs N out w) :
    ∃ m, delays w = (List.range m).map (delayAt cfg) ∧ ∀ i, i < m ↔ s.Sleeps N i := by
  cases h with
  | stopped k hk hpassed hctx =>
      refine ⟨k, by rw [delays_append, delays_turns]; exact List.append_nil _, fun i => ?_⟩
      refine ⟨hpassed.sleeps hk, fun h => Nat.lt_of_le_of_ne (h.le (by simp [hctx])) ?_⟩
      rintro rfl
      simp [h.2.2.1] at hctx
  | final k hk hpassed hctx hr =>
      refine ⟨k, by rw [delays_append, delays_turns]; exact List.append_nil _, fun i => ?_⟩
      refine ⟨hpassed.sleeps hk, fun h => Nat.lt_of_le_of_ne (h.le (by simp [hr])) ?_⟩
      rintro rfl
      simp [h.2.2.2] at hr
  | exhausted k hk hpassed =>
      refine ⟨k, by rw [delays_append, delays_turns]; exact List.append_nil _, fun i => ?_⟩
      refine ⟨hpassed.sleeps (by omega), fun h => ?_⟩
      have := h.1
      omega
  | interrupted k hk hpassed hctx hr hs =>
      refine ⟨k + 1, ?_, fun i => ⟨fun hi => ?_, fun h => Nat.lt_succ_of_le (h.le (by simp [hs]))⟩⟩
      · rw [delays_append, delays_turns, List.range_succ, List.map_append]
        rfl
      · rcases Nat.lt_succ_iff_lt_or_eq.mp hi with hlt | rfl
        · exact hpassed.sleeps (by omega) hlt
        · exact ⟨hk, hpassed, hctx, hr⟩

end Sleeps

/-- **The delays of the backoff.**  In every call of the retry caller the delays that it passes to
`sleep` are positive, at most `Max`, never decreasing and `min (Initial * 2 ^ i) Max` exactly if
there is no sleep, or `Initial` is at most `Max` and every delay that is followed by another sleep,
and so is doubled, is below 2⁶². -/
theorem run_backedOff_iff (s : Script) (cfg : RetryConfig) (rs : List Res) :
    let c := cfg.withDefaults
    let N := c.maxAttempts.toNat
    BackedOff c (delays (s.run cfg rs).2) ↔ ¬ s.Sleeps N 0 ∨ c.initial ≤ c.max ∧
      ∀ i, s.Sleeps N (i + 1) → min (c.initial.toInt * 2 ^ i) c.max.toInt < 2 ^ 62 := by
  intro c N
  have hends : s.Ends c rs N (s.run cfg rs).1 (s.run cfg rs).2 := s.ends_run cfg rs
  obtain ⟨m, hm, hsleeps⟩ := hends.exists_delays_eq
  rw [hm, backedOff_iff cfg.initial_pos cfg.max_pos]
  simp only [hsleeps]
  rfl

/-- The server answers every attempt with NFS4ERR_DELAY. -/
def alwaysDelayed : Script where
  outcome _ := ([], { result := some { status := nfs4errDelay, tag := [], numResults := 0 } })
  ctxErr _ := none
  sleep _ := none
  exactlyOne _ := rfl

/-- With `Initial` set to 5 s and nothing else, the second delay is shorter than the first; with
2⁶² ns and no bound, it is negative. -/
theorem run_not_backedOff :
    (delays (alwaysDelayed.run { initial := 5000000000, maxAttempts := 3 } []).2
        = [5000000000, 1000000000] ∧
      ¬ BackedOff (RetryConfig.withDefaults { initial := 5000000000, maxAttempts := 3 })
        (delays (alwaysDelayed.run { initial := 5000000000, maxAttempts := 3 } []).2)) ∧
    delays (alwaysDelayed.run
        { initial := 4611686018427387904, max := 9223372036854775807, maxAttempts := 3 } []).2
      = [4611686018427387904, -9223372036854775808] := by
  have hds : delays (alwaysDelayed.run { initial := 5000000000, maxAttempts := 3 } []).2
      = [5000000000, 1000000000] := by decide
  refine ⟨⟨hds, fun h => ?_⟩, by decide⟩
  rw [hds] at h
  exact absurd (h.bounds 5000000000 (by simp)).2 (by decide)

end Script

end NfsClient.Nfs4
