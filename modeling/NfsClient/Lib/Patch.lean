import Mathlib.Data.List.Basic

/-!
# Growable arrays

A list over any type is read as an array that can be resized and written to at any
position.  Growing fills up with a given element, also when something is written past the
end.  The rule `patch_patch` says that data may be written piece by piece.
-/

namespace NfsClient.Lib

variable {α : Type*} (z : α)

/-- Truncate to `n` elements, or fill up with `z`. -/
def resize (n : ℕ) (l : List α) : List α := l.take n ++ List.replicate (n - l.length) z

/-- Write `data` at position `off`. -/
def patch (off : ℕ) (data l : List α) : List α :=
  resize z off l ++ data ++ l.drop (off + data.length)

@[simp] lemma length_resize (n : ℕ) (l : List α) : (resize z n l).length = n := by
  simp only [resize, List.length_append, List.length_take, List.length_replicate]
  omega

lemma length_patch (off : ℕ) (data l : List α) :
    (patch z off data l).length = max l.length (off + data.length) := by
  simp only [patch, List.length_append, length_resize, List.length_drop]
  omega

lemma resize_of_le {n : ℕ} {l : List α} (h : n ≤ l.length) : resize z n l = l.take n := by
  rw [resize, Nat.sub_eq_zero_of_le h, List.replicate_zero, List.append_nil]

/-- Writing `a` and then, right after it, `b` writes `a ++ b`. -/
lemma patch_patch (off : ℕ) (a b l : List α) :
    patch z (off + a.length) b (patch z off a l) = patch z off (a ++ b) l := by
  have hlen : (resize z off l ++ a).length = off + a.length := by simp
  have hfront : resize z (off + a.length) (patch z off a l) = resize z off l ++ a := by
    rw [resize_of_le _ (by rw [length_patch]; exact Nat.le_max_right ..), patch,
      List.take_left' hlen]
  have hback : (patch z off a l).drop (off + a.length + b.length) =
      l.drop (off + (a ++ b).length) := by
    rw [patch, ← List.drop_drop, List.drop_left' hlen, List.drop_drop, List.length_append,
      Nat.add_assoc]
  rw [patch, hfront, hback, patch]
  simp only [List.append_assoc]

end NfsClient.Lib
