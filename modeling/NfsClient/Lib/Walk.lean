import NfsClient.Lib.Routine

/-!
# Walks

From node to node along a list of labels, with a lookup that may fail and may change a state.
-/

namespace NfsClient.Lib

variable {N L ε σ σ' : Type}

/-- Follow the labels from a node, until a lookup fails. -/
def walk (lookup : N → L → σ → Except ε N × σ) : List L → N → σ → Except ε N × σ
  | [], x, s => (.ok x, s)
  | l :: ls, x, s =>
    match lookup x l s with
    | (.error e, s') => (.error e, s')
    | (.ok y, s') => walk lookup ls y s'

variable {lookup : N → L → σ → Except ε N × σ}

lemma walk_append (ls ms : List L) (x : N) (s : σ) :
    walk lookup (ls ++ ms) x s =
      match walk lookup ls x s with
      | (.error e, s') => (.error e, s')
      | (.ok y, s') => walk lookup ms y s' := by
  induction ls generalizing x s with
  | nil => rfl
  | cons l ls ih =>
      simp only [List.cons_append, walk]
      rcases lookup x l s with ⟨e | y, s'⟩
      · rfl
      · exact ih y s'

lemma walk_singleton (l : L) (x : N) (s : σ) : walk lookup [l] x s = lookup x l s := by
  simp only [walk]
  rcases lookup x l s with ⟨e | y, s'⟩ <;> rfl

/-- What every lookup keeps, a walk keeps. -/
lemma walk_invariant {I : σ → Prop} (hI : ∀ x l s, I s → I (lookup x l s).2) (ls : List L) (x : N)
    {s : σ} (h : I s) : I (walk lookup ls x s).2 := by
  induction ls generalizing x s with
  | nil => exact h
  | cons l ls ih =>
      have hstep := hI x l s h
      rw [walk]
      rcases hl : lookup x l s with ⟨e | y, s'⟩
      · rwa [hl] at hstep
      · rw [hl] at hstep
        exact ih y hstep

/-- A walk over lookups that restrict others restricts the walk over these. -/
lemma walk_restricts {g : σ' → σ} {lookup' : N → L → σ' → Except ε N × σ'}
    (h : ∀ x l, Restricts g _ (lookup x l) (lookup' x l)) (ls : List L) (x : N) :
    Restricts g _ (walk lookup ls x) (walk lookup' ls x) := by
  intro s
  induction ls generalizing x s with
  | nil => rfl
  | cons l ls ih =>
      rw [walk, walk, h x l s]
      rcases lookup' x l s with ⟨e | y, s'⟩
      · rfl
      · exact ih y s'

end NfsClient.Lib
