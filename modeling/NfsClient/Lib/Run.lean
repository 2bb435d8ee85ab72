import Mathlib.Data.List.Basic

/-!
# Finite runs of a labelled transition function

A system is given by a *partial* step function `step : S → L → Option S`: the label says
which atomic action is taken, `none` says that the action is not enabled.  Everything is
executable, so that a concrete schedule can be evaluated; the rules below turn the analysis
of a system into the analysis of one step.

* `run step s ls` executes the labels `ls` from `s`;
* `Along step P s ls` says that every step of that execution meets `P`, a condition on the
  state before the step and its label;
* `run_invariant` is the induction: what each step preserves, a whole run preserves.
-/

namespace NfsClient.Lib

variable {S L : Type*}

/-- Execute a list of labels; `none` if one of them is not enabled when its turn comes. -/
def run (step : S → L → Option S) : S → List L → Option S
  | s, [] => some s
  | s, l :: ls => (step s l).bind fun s' => run step s' ls

/-- Every step of the execution of `ls` from `s` meets `P`. -/
def Along (step : S → L → Option S) (P : S → L → Prop) : S → List L → Prop
  | _, [] => True
  | s, l :: ls => P s l ∧ ∀ s', step s l = some s' → Along step P s' ls

variable {step : S → L → Option S} {P : S → L → Prop}

lemma run_cons_eq_some {s s'' : S} {l : L} {ls : List L} :
    run step s (l :: ls) = some s'' ↔
      ∃ s', step s l = some s' ∧ run step s' ls = some s'' := by
  rw [run, Option.bind_eq_some_iff]

lemma along_cons_of_some {s s' : S} {l : L} {ls : List L} (hs : step s l = some s') :
    P s l ∧ Along step P s' ls ↔ Along step P s (l :: ls) :=
  ⟨fun h => ⟨h.1, fun _ hs' => Option.some.inj (hs.symm.trans hs') ▸ h.2⟩,
    fun h => ⟨h.1, h.2 s' hs⟩⟩

lemma along_cons_of_none {s : S} {l : L} {ls : List L} (hs : step s l = none) :
    P s l ↔ Along step P s (l :: ls) :=
  ⟨fun h => ⟨h, fun s' hs' => by simp [hs] at hs'⟩, And.left⟩

instance decidableAlong [∀ s l, Decidable (P s l)] :
    ∀ (s : S) (ls : List L), Decidable (Along step P s ls)
  | _, [] => isTrue trivial
  | s, l :: ls =>
    match hs : step s l with
    | none => decidable_of_iff _ (along_cons_of_none hs)
    | some s' =>
      haveI := decidableAlong s' ls
      decidable_of_iff _ (along_cons_of_some hs)

/-- Two conditions that agree where an invariant holds, which the one of them preserves, agree
along every run that starts there. -/
lemma along_congr {Q : S → L → Prop} {I : S → Prop} (hPQ : ∀ s l, I s → (P s l ↔ Q s l))
    (hstep : ∀ s l s', I s → P s l → step s l = some s' → I s') {s : S} (hs : I s) (ls : List L) :
    Along step P s ls ↔ Along step Q s ls := by
  induction ls generalizing s with
  | nil => exact Iff.rfl
  | cons l ls ih =>
      have hrest : P s l → ∀ s', step s l = some s' →
          (Along step P s' ls ↔ Along step Q s' ls) :=
        fun hp s' hs' => ih (hstep s l s' hs hp hs')
      refine ⟨fun h => ?_, fun h => ?_⟩
      · exact ⟨(hPQ s l hs).mp h.1, fun s' hs' => (hrest h.1 s' hs').mp (h.2 s' hs')⟩
      · have hp := (hPQ s l hs).mpr h.1
        exact ⟨hp, fun s' hs' => (hrest hp s' hs').mpr (h.2 s' hs')⟩

/-- **Induction over a run.**  An invariant of the initial state that every step meeting `P`
preserves holds in the state a run ends in, if all the steps of the run meet `P`. -/
theorem run_invariant {I : S → Prop}
    (hstep : ∀ s l s', I s → P s l → step s l = some s' → I s')
    {s s' : S} {ls : List L} (hs : I s) (ha : Along step P s ls)
    (hrun : run step s ls = some s') : I s' := by
  induction ls generalizing s with
  | nil =>
      obtain rfl : s = s' := Option.some.inj hrun
      exact hs
  | cons l ls ih =>
      obtain ⟨s₁, h₁, h₂⟩ := run_cons_eq_some.mp hrun
      exact ih (hstep s l s₁ hs ha.1 h₁) (ha.2 s₁ h₁) h₂

/-- The unconditional form of `run_invariant`. -/
theorem run_invariant' {I : S → Prop}
    (hstep : ∀ s l s', I s → step s l = some s' → I s')
    {s s' : S} {ls : List L} (hs : I s) (hrun : run step s ls = some s') : I s' := by
  induction ls generalizing s with
  | nil =>
      obtain rfl : s = s' := Option.some.inj hrun
      exact hs
  | cons l ls ih =>
      obtain ⟨s₁, h₁, h₂⟩ := run_cons_eq_some.mp hrun
      exact ih (hstep s l s₁ hs h₁) h₂

end NfsClient.Lib
