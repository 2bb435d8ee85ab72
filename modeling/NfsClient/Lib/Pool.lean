import NfsClient.Lib.Run
import Mathlib.Algebra.Order.BigOperators.Group.List
import Mathlib.Algebra.Order.Ring.Nat

/-!
# Processes interleaved over a shared state

Any number of processes run over a shared state of type `σ`.  Each has a local state of type
`ℓ`.  New processes may be started at any time; a step of the pool is either the start of a
process or one atomic action of one process, given by
`move : σ → ℓ → A → Option (σ × ℓ)`.  A list of labels is a schedule, so that a statement
about all lists of labels is a statement about all interleavings.

The rules below reduce a step of the pool to the move of the process that takes it: the
total of a weight over the processes changes by the change of that process's weight, and a
pairwise or pointwise property has to be checked for that process only.
-/

namespace NfsClient.Lib

/-- The state of a pool of processes. -/
@[ext] structure Pool (σ ℓ : Type*) where
  shared : σ
  procs : List ℓ

/-- The labels of a pool: a process is started with an argument, or process number `i` takes
the action `a`. -/
inductive PoolLabel (N A : Type*)
  | start (x : N)
  | act (i : ℕ) (a : A)

namespace Pool

variable {σ ℓ N A : Type*} (init : N → ℓ) (move : σ → ℓ → A → Option (σ × ℓ))

/-- One step of a pool. -/
def step (p : Pool σ ℓ) : PoolLabel N A → Option (Pool σ ℓ)
  | .start x => some { p with procs := p.procs ++ [init x] }
  | .act i a => p.procs[i]?.bind fun l =>
      (move p.shared l a).map fun q => ⟨q.1, p.procs.set i q.2⟩

variable {init move} {p p' : Pool σ ℓ}

lemma step_act {i : ℕ} {a : A} :
    step init move p (.act i a) = some p' ↔
      ∃ l s' l', p.procs[i]? = some l ∧ move p.shared l a = some (s', l') ∧
        p' = ⟨s', p.procs.set i l'⟩ := by
  simp only [step, Option.bind_eq_some_iff, Option.map_eq_some_iff]
  constructor
  · rintro ⟨l, hl, ⟨s', l'⟩, hm, rfl⟩
    exact ⟨l, s', l', hl, hm, rfl⟩
  · rintro ⟨l, s', l', hl, hm, rfl⟩
    exact ⟨l, hl, (s', l'), hm, rfl⟩

/-! ## Totals -/

/-- The total of a weight over all processes. -/
def total (w : ℓ → ℕ) (p : Pool σ ℓ) : ℕ := (p.procs.map w).sum

lemma sum_map_set (w : ℓ → ℕ) {ls : List ℓ} {i : ℕ} {l : ℓ} (h : ls[i]? = some l) (l' : ℓ) :
    ((ls.set i l').map w).sum + w l = (ls.map w).sum + w l' := by
  induction ls generalizing i with
  | nil => simp at h
  | cons a ls ih =>
      cases i with
      | zero =>
          obtain rfl : a = l := by simpa using h
          simp only [List.set_cons_zero, List.map_cons, List.sum_cons]
          omega
      | succ i =>
          have := ih (i := i) (by simpa using h)
          simp only [List.set_cons_succ, List.map_cons, List.sum_cons]
          omega

lemma total_start (w : ℓ → ℕ) (s : σ) (l : ℓ) :
    total w (⟨s, p.procs ++ [l]⟩ : Pool σ ℓ) = total w p + w l := by
  simp [total]

lemma total_set (w : ℓ → ℕ) (s : σ) {i : ℕ} {l : ℓ} (h : p.procs[i]? = some l) (l' : ℓ) :
    total w (⟨s, p.procs.set i l'⟩ : Pool σ ℓ) + w l = total w p + w l' :=
  sum_map_set w h l'

lemma le_total (w : ℓ → ℕ) {i : ℕ} {l : ℓ} (h : p.procs[i]? = some l) : w l ≤ total w p := by
  have hmem : w l ∈ p.procs.map w := List.mem_map_of_mem (List.mem_of_getElem? h)
  exact List.single_le_sum (fun _ _ => Nat.zero_le _) _ hmem

/-! ## Pointwise and pairwise properties -/

/-- After a process has changed its local state, each process is that one or is as it
was. -/
lemma getElem?_set_cases {ls : List ℓ} {i j : ℕ} {l' m : ℓ} (h : (ls.set i l')[j]? = some m) :
    (j = i ∧ m = l') ∨ (j ≠ i ∧ ls[j]? = some m) := by
  rw [List.getElem?_set] at h
  by_cases hij : i = j
  · subst hij
    rw [if_pos rfl] at h
    split at h
    · exact Or.inl ⟨rfl, (Option.some.inj h).symm⟩
    · simp at h
  · rw [if_neg hij] at h
    exact Or.inr ⟨fun hji => hij hji.symm, h⟩

/-- A process other than the one that has changed its local state is as it was. -/
lemma getElem?_set_keep {ls : List ℓ} {i j : ℕ} {l l' m : ℓ} (hl : ls[i]? = some l)
    (hm : ls[j]? = some m) (hne : l ≠ m) : (ls.set i l')[j]? = some m := by
  have hij : i ≠ j := by
    rintro rfl
    exact hne (Option.some.inj (hl.symm.trans hm))
  rw [List.getElem?_set_ne hij, hm]

lemma getElem?_snoc_cases {ls : List ℓ} {j : ℕ} {l m : ℓ} (h : (ls ++ [l])[j]? = some m) :
    ls[j]? = some m ∨ (j = ls.length ∧ m = l) := by
  rw [List.getElem?_append] at h
  split at h
  · exact Or.inl h
  · have hlen := (List.getElem?_eq_some_iff.mp h).1
    have hj : j = ls.length := by
      simp only [List.length_singleton] at hlen
      omega
    subst hj
    simp only [Nat.sub_self, List.getElem?_cons_zero, Option.some.injEq] at h
    exact Or.inr ⟨rfl, h.symm⟩

/-! ## Forgetting a part of the state -/

/-- Map the shared state and every local state. -/
def map {σ' ℓ' : Type*} (f : σ → σ') (g : ℓ → ℓ') (p : Pool σ ℓ) : Pool σ' ℓ' :=
  ⟨f p.shared, p.procs.map g⟩

end Pool

end NfsClient.Lib
