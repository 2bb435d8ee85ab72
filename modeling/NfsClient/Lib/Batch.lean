import Mathlib.Data.List.Basic

/-!
# Batches that stop at the first failure

A batch is a list of instructions that are executed in order; the first one that does not
succeed is the last.  A machine may also break a batch off, before one of its instructions,
and then it has executed the instructions in front of that one and nothing else.
-/

namespace NfsClient.Lib

variable {I S R T : Type*} (exec : I → S → R × S) (ok : R → Bool)

/-- The instructions of a batch, in order, up to the first whose result is not `ok`. -/
def batch : List I → S → List R × S
  | [], s => ([], s)
  | i :: is, s =>
    match exec i s with
    | (r, s') =>
      if ok r then
        match batch is s' with
        | (rs, s'') => (r :: rs, s'')
      else ([r], s')

variable {exec ok} {i : I} {is : List I} {s s' : S} {r : R}

@[simp] lemma batch_nil (s : S) : batch exec ok [] s = ([], s) := rfl

lemma batch_cons_of_ok (h : exec i s = (r, s')) (hok : ok r = true) :
    batch exec ok (i :: is) s
      = (r :: (batch exec ok is s').1, (batch exec ok is s').2) := by
  simp only [batch, h, hok, if_true]

lemma batch_cons_of_failed (h : exec i s = (r, s')) (hok : ok r = false) :
    batch exec ok (i :: is) s = ([r], s') := by
  simp only [batch, h, hok, Bool.false_eq_true, if_false]

/-- What every instruction keeps, the batch keeps. -/
lemma batch_keeps {π : S → T} (h : ∀ i ∈ is, ∀ s, π (exec i s).2 = π s) (s : S) :
    π (batch exec ok is s).2 = π s := by
  induction is generalizing s with
  | nil => rfl
  | cons i is ih =>
      have hi := h i (by simp) s
      rcases he : exec i s with ⟨r, s'⟩
      rw [he] at hi
      cases hok : ok r with
      | true =>
          rw [batch_cons_of_ok he hok]
          exact (ih (fun j hj => h j (by simp [hj])) s').trans hi
      | false =>
          rw [batch_cons_of_failed he hok]
          exact hi

variable (exec ok) in
/-- The batch was broken off before an instruction that satisfies `P`. -/
def BrokenOff (P : I → Prop) (is : List I) (s s' : S) : Prop :=
  ∃ pre i post, is = pre ++ i :: post ∧ P i ∧ s' = (batch exec ok pre s).2

/-- The next instruction succeeds, and the rest is broken off. -/
lemma BrokenOff.cons {P : I → Prop} {s'' : S} (h : exec i s = (r, s')) (hok : ok r = true)
    (hrest : BrokenOff exec ok P is s' s'') : BrokenOff exec ok P (i :: is) s s'' := by
  obtain ⟨pre, j, post, rfl, hP, rfl⟩ := hrest
  exact ⟨i :: pre, j, post, rfl, hP, by rw [batch_cons_of_ok h hok]⟩

/-- What the instructions in front of every breaking point keep, a batch that is broken off
keeps. -/
lemma BrokenOff.keeps {P : I → Prop} {π : S → T} (h : BrokenOff exec ok P is s s')
    (hkeep : ∀ pre i post, is = pre ++ i :: post → P i →
      ∀ j ∈ pre, ∀ s, π (exec j s).2 = π s) : π s' = π s := by
  obtain ⟨pre, i, post, his, hP, rfl⟩ := h
  exact batch_keeps (hkeep pre i post his hP) s

end NfsClient.Lib
