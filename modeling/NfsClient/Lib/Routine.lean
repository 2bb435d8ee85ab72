import Mathlib.Data.Prod.Basic

/-!
# Routines

A computation over a shared state that makes one atomic call after the other.  Computations of
the same shape over two states are compared call by call: any relation that returning and
composing keep holds between the computations if it holds between their calls.
-/

namespace NfsClient.Lib

/-- A computation over a shared state: it returns, or makes an atomic call and goes on with what
it has seen there. -/
inductive Routine (τ σ ρ : Type)
  | ret (r : ρ)
  | call (tag : τ) (upd : σ → σ) (next : σ → Routine τ σ ρ)

namespace Routine

variable {τ σ ρ ρ' β : Type}

/-- The computation, undisturbed. -/
def run : Routine τ σ ρ → σ → ρ × σ
  | ret r, s => (r, s)
  | call _ upd next, s => (next s).run (upd s)

/-- One call, and what is done with its result. -/
def invoke (tag : τ) (f : σ → β × σ) (k : β → Routine τ σ ρ) : Routine τ σ ρ :=
  .call tag (fun s => (f s).2) fun s => k (f s).1

@[simp] lemma run_ret (r : ρ) (s : σ) : (ret r : Routine τ σ ρ).run s = (r, s) := rfl

@[simp] lemma run_invoke (tag : τ) (f : σ → β × σ) (k : β → Routine τ σ ρ) (s : σ) :
    (invoke tag f k).run s = (k (f s).1).run (f s).2 := rfl

/-- Apply a function to the result. -/
def map (g : ρ → ρ') : Routine τ σ ρ → Routine τ σ ρ'
  | ret r => ret (g r)
  | call tag upd next => call tag upd fun s => (next s).map g

@[simp] lemma run_map (g : ρ → ρ') (t : Routine τ σ ρ) (s : σ) :
    (t.map g).run s = (g (t.run s).1, (t.run s).2) := by
  induction t generalizing s with
  | ret r => rfl
  | call tag upd next ih => exact ih s (upd s)

/-- Whatever it sees, the computation makes calls with tags in `S` only, and returns something
in `Q`. -/
def Obeys (S : τ → Prop) (Q : ρ → Prop) : Routine τ σ ρ → Prop
  | ret r => Q r
  | call tag _ next => S tag ∧ ∀ s, (next s).Obeys S Q

lemma Obeys.map {S : τ → Prop} {Q : ρ → Prop} {Q' : ρ' → Prop} {g : ρ → ρ'} {t : Routine τ σ ρ}
    (h : t.Obeys S Q) (hg : ∀ r, Q r → Q' (g r)) : (t.map g).Obeys S Q' := by
  induction t with
  | ret r => exact hg r h
  | call tag upd next ih => exact ⟨h.1, fun s => ih s (h.2 s)⟩

lemma obeys_invoke {S : τ → Prop} {Q : ρ → Prop} {tag : τ} {f : σ → β × σ} {k : β → Routine τ σ ρ}
    (htag : S tag) (hk : ∀ b, (k b).Obeys S Q) : (invoke tag f k).Obeys S Q :=
  ⟨htag, fun s => hk (f s).1⟩

/-- Two computations of the same shape over two states: their calls are related by `R`, and after
the same answer they go on alike. -/
inductive Alike {σ' : Type} (R : (β : Type) → (σ → β × σ) → (σ' → β × σ') → Prop) :
    Routine τ σ ρ → Routine τ σ' ρ → Prop
  | ret (r : ρ) : Alike R (.ret r) (.ret r)
  | invoke {β : Type} (tag : τ) {f : σ → β × σ} {f' : σ' → β × σ'} {k : β → Routine τ σ ρ}
      {k' : β → Routine τ σ' ρ} (hf : R β f f') (hk : ∀ b, Alike R (k b) (k' b)) :
      Alike R (invoke tag f k) (invoke tag f' k')

end Routine

/-- A relation between computations over two states that returning and composing keep. -/
structure Transports {σ σ' : Type} (R : (β : Type) → (σ → β × σ) → (σ' → β × σ') → Prop) :
    Prop where
  ret : ∀ {ρ : Type} (r : ρ), R ρ (fun s => (r, s)) (fun s => (r, s))
  bind : ∀ {β ρ : Type} {f : σ → β × σ} {f' : σ' → β × σ'} {k : β → σ → ρ × σ}
    {k' : β → σ' → ρ × σ'}, R β f f' → (∀ b, R ρ (k b) (k' b)) →
    R ρ (fun s => k (f s).1 (f s).2) (fun s => k' (f' s).1 (f' s).2)

namespace Routine

variable {τ σ σ' ρ ρ' : Type} {R : (β : Type) → (σ → β × σ) → (σ' → β × σ') → Prop}
  {t : Routine τ σ ρ} {t' : Routine τ σ' ρ}

lemma Alike.map (h : Alike R t t') (g : ρ → ρ') : Alike R (t.map g) (t'.map g) := by
  induction h with
  | ret r => exact .ret (g r)
  | invoke tag hf _ ih => exact .invoke tag hf ih

/-- Computations that are alike are related. -/
lemma Alike.run (hR : Transports R) (h : Alike R t t') : R ρ t.run t'.run := by
  induction h with
  | ret r => exact hR.ret r
  | invoke tag hf _ ih => exact hR.bind hf ih

end Routine

/-- On the states that `g` maps to, the first computation does what the second does. -/
abbrev Restricts {σ σ' : Type} (g : σ' → σ) (β : Type) (f : σ → β × σ) (f' : σ' → β × σ') : Prop :=
  ∀ s, f (g s) = (f' s).map id g

lemma transports_restricts {σ σ' : Type} (g : σ' → σ) : Transports (Restricts g) where
  ret _ _ := rfl
  bind hf hk s := by
    simp only [hf s]
    exact hk _ _

end NfsClient.Lib
