import Mathlib.Data.UInt

/-!
# 64-bit integers

Sums and conversions of signed and unsigned 64-bit integers, as long as nothing leaves the
range that both types share; and where an integer ends up that has left the range of `int64`
upwards.
-/

namespace NfsClient.Lib

/-- An integer that has left the range of `int64` upwards comes back from below. -/
lemma bmod_of_wrap {z : ℤ} (h₁ : 2 ^ 63 ≤ z) (h₂ : z < 2 ^ 64 + 2 ^ 63) :
    z.bmod (2 ^ 64) = z - 2 ^ 64 := by
  rw [Int.bmod_def]
  split <;> omega

/-- Integers become the same `int64` if they differ by a multiple of 2⁶⁴. -/
lemma ofInt_eq_iff_dvd {v : ℤ} {x : Int64} : Int64.ofInt v = x ↔ (2 : ℤ) ^ 64 ∣ v - x.toInt := by
  have h₁ := x.le_toInt
  have h₂ := x.toInt_lt
  rw [Int64.ofInt_eq_iff_bmod_eq_toInt, Int.bmod_def]
  split <;> omega

/-- The sign of an integer that is taken for an `int64`. -/
lemma ofInt_lt_zero_iff {v : ℤ} (h₁ : -2 ^ 63 ≤ v) (h₂ : v < 2 ^ 64 + 2 ^ 63) :
    Int64.ofInt v < 0 ↔ v < 0 ∨ 2 ^ 63 ≤ v ∧ v < 2 ^ 64 := by
  have hmod : (Int64.ofInt v).toInt = v.bmod (2 ^ 64) := Int64.toInt_ofInt
  rw [Int64.lt_iff_toInt_lt, Int64.toInt_zero, hmod, Int.bmod_def]
  split <;> omega

/-- `int64(x)` for an unsigned `x`. -/
lemma ofInt_toNat (x : UInt64) : Int64.ofInt x.toNat = x.toInt64 := by
  rw [Int64.ofInt_eq_ofNat, ← UInt64.toInt64_ofNat', UInt64.ofNat_toNat]

/-- The sum of an integer as an `int64` and an `int64`. -/
lemma ofInt_add_toInt (v : ℤ) (x : Int64) : Int64.ofInt (v + x.toInt) = Int64.ofInt v + x := by
  rw [Int64.ofInt_add, Int64.ofInt_toInt]

/-- A sum that does not leave the range of `int64`. -/
lemma toInt_add_of_range {x y : Int64} (h₁ : -2 ^ 63 ≤ x.toInt + y.toInt)
    (h₂ : x.toInt + y.toInt < 2 ^ 63) : (x + y).toInt = x.toInt + y.toInt := by
  rw [Int64.toInt_add]
  apply Int.bmod_eq_of_le <;> omega

/-- `uint64(x)` for an `x` that is not negative. -/
lemma toNat_toUInt64 {x : Int64} {k : ℕ} (h : x.toInt = k) : x.toUInt64.toNat = k := by
  have hle : 0 ≤ x := by
    rw [Int64.le_iff_toInt_le, h]
    exact Int.natCast_nonneg k
  rw [Int64.toNat_toUInt64_of_le hle, Int64.toNatClampNeg, h, Int.toNat_natCast]

/-- `int64(x)` for an `x` below 2⁶³. -/
lemma toInt_toInt64 {x : UInt64} (h : x.toNat < 2 ^ 63) : x.toInt64.toInt = x.toNat := by
  have hmod : (x.toInt64.toBitVec).toNat = x.toNat := rfl
  rw [Int64.toInt, BitVec.toInt_eq_toNat_of_lt, hmod]
  rw [hmod]
  omega

/-- A sum of unsigned integers that does not wrap. -/
lemma toNat_add_ofNat {x : UInt64} {k : ℕ} (h : x.toNat + k < 2 ^ 64) :
    (x + UInt64.ofNat k).toNat = x.toNat + k := by
  rw [UInt64.toNat_add, UInt64.toNat_ofNat', Nat.add_mod_mod, Nat.mod_eq_of_lt h]

end NfsClient.Lib
