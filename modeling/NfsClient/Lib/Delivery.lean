import Mathlib.Data.List.Basic

/-!
# Delivering a list piece by piece

A reader goes through a list and hands out one piece after the other.  `Delivered xs pos pieces`
says that `pieces` are what it hands out from position `pos` on: consecutive parts of the list,
none of them empty before the end, and empty ones from then on.
-/

namespace NfsClient.Lib

variable {α : Type*} {xs : List α} {pos : ℕ} {pieces : List (List α)}

/-- The pieces handed out from position `pos` on. -/
inductive Delivered (xs : List α) : ℕ → List (List α) → Prop
  | nil (pos : ℕ) : Delivered xs pos []
  | more {pos : ℕ} {piece : List α} {pieces : List (List α)} (hne : piece ≠ [])
      (hpre : piece <+: xs.drop pos) (h : Delivered xs (pos + piece.length) pieces) :
      Delivered xs pos (piece :: pieces)
  /-- At the end there is nothing left. -/
  | done {pos : ℕ} {pieces : List (List α)} (hend : xs.length ≤ pos) (h : Delivered xs pos pieces) :
      Delivered xs pos ([] :: pieces)

namespace Delivered

/-- A first part and the position behind it. -/
lemma drop_eq_append {piece : List α} (h : piece <+: xs.drop pos) :
    xs.drop pos = piece ++ xs.drop (pos + piece.length) := by
  obtain ⟨rest, hrest⟩ := h
  rw [← List.drop_drop, ← hrest, List.drop_left]

/-- Nothing is lost, duplicated or reordered. -/
lemma flatten_isPrefix (h : Delivered xs pos pieces) : pieces.flatten <+: xs.drop pos := by
  induction h with
  | nil pos => exact List.nil_prefix
  | more hne hpre _ ih =>
      rw [List.flatten_cons, drop_eq_append hpre]
      exact (List.prefix_append_right_inj _).mpr ih
  | done hend _ ih => simpa using ih

/-- As many pieces as there are elements are enough. -/
lemma flatten_eq (h : Delivered xs pos pieces) (hlen : xs.length ≤ pos + pieces.length) :
    pieces.flatten = xs.drop pos := by
  induction h with
  | nil pos => simpa using hlen
  | more hne hpre _ ih =>
      have hpos := List.length_pos_iff.mpr hne
      rw [List.length_cons] at hlen
      rw [List.flatten_cons, drop_eq_append hpre, ih (by omega)]
  | done hend h ih =>
      rw [List.drop_eq_nil_of_le hend]
      have hpre := h.flatten_isPrefix
      rw [List.drop_eq_nil_of_le hend] at hpre
      simpa using hpre

/-- A piece is empty exactly if the pieces before it are all there is. -/
lemma eq_nil_iff (h : Delivered xs pos pieces) {i : ℕ} (hi : i < pieces.length) :
    pieces[i] = [] ↔ (pieces.take i).flatten = xs.drop pos := by
  induction h generalizing i with
  | nil pos => simp at hi
  | @more pos piece pieces hne hpre _ ih =>
      cases i with
      | zero =>
          have hdrop : xs.drop pos ≠ [] := by
            rw [drop_eq_append hpre]
            exact List.append_ne_nil_of_left_ne_nil hne _
          simp [hne, hdrop.symm]
      | succ i =>
          rw [List.getElem_cons_succ, ih (by simpa using hi), List.take_succ_cons,
            List.flatten_cons, drop_eq_append hpre, List.append_cancel_left_eq]
  | @done pos pieces hend h ih =>
      cases i with
      | zero => simp [List.drop_eq_nil_of_le hend]
      | succ i =>
          rw [List.getElem_cons_succ, ih (by simpa using hi), List.take_succ_cons,
            List.flatten_cons, List.nil_append]

end Delivered

end NfsClient.Lib
