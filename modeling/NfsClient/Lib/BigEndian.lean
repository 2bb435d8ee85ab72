import Mathlib.Data.UInt
import Mathlib.Tactic.Ring

/-!
# Big-endian numbers

The value of a byte sequence read most significant byte first, and the `n`-byte
representation of a number.  The two are inverse to each other on sequences of length `n`
and on numbers below `256 ^ n`.
-/

namespace NfsClient.Lib

/-- The number that a byte sequence represents, most significant byte first. -/
def beNat (bs : List UInt8) : ℕ := bs.foldl (fun acc b => acc * 256 + b.toNat) 0

/-- The `n` low bytes of `v`, most significant byte first. -/
def beBytes : ℕ → ℕ → List UInt8
  | 0, _ => []
  | n + 1, v => beBytes n (v / 256) ++ [UInt8.ofNat v]

@[simp] lemma beNat_snoc (bs : List UInt8) (b : UInt8) :
    beNat (bs ++ [b]) = beNat bs * 256 + b.toNat := by
  simp [beNat, List.foldl_append]

@[simp] lemma length_beBytes (n v : ℕ) : (beBytes n v).length = n := by
  induction n generalizing v with
  | zero => rfl
  | succ n ih => simp [beBytes, ih]

/-- Writing a number and reading it back. -/
lemma beNat_beBytes {n v : ℕ} (h : v < 256 ^ n) : beNat (beBytes n v) = v := by
  induction n generalizing v with
  | zero =>
      have : v = 0 := by simpa using h
      subst this
      rfl
  | succ n ih =>
      have hdiv : v / 256 < 256 ^ n := by
        rw [Nat.div_lt_iff_lt_mul (by norm_num)]
        rwa [pow_succ] at h
      rw [beBytes, beNat_snoc, ih hdiv, UInt8.toNat_ofNat']
      omega

lemma beNat_lt (bs : List UInt8) : beNat bs < 256 ^ bs.length := by
  induction bs using List.reverseRecOn with
  | nil => simp [beNat]
  | append_singleton bs b ih =>
      have hb := b.toNat_lt
      rw [beNat_snoc, List.length_append, List.length_singleton, pow_succ]
      omega

end NfsClient.Lib
