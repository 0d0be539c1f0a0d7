import Mathlib.Data.Rat.Floor

/-! Rounding of exact rational results to single precision. Only two facts are
used of it, and they are carried by the structure: rounding is monotone, and it
leaves the integers of a 24-bit significand alone. -/
namespace Foundation

structure Rounding where
  round : ℚ → ℚ
  monotone : Monotone round
  fixes : ∀ n : ℕ, n ≤ 2 ^ 24 → round n = n

namespace Rounding

/-- Arithmetic over the rationals themselves. -/
def exact : Rounding := ⟨id, monotone_id, fun _ _ => rfl⟩

variable (fp : Rounding)

/-- The product of a converted count and a constant, converted back. -/
def scaled (n : ℕ) (factor : ℚ) : ℕ := ⌊fp.round (fp.round n * factor)⌋.toNat

theorem scaled_one_small {n : ℕ} (small : n ≤ 2 ^ 24) : fp.scaled n 1 = n := by
  rw [scaled, mul_one, fp.fixes n small, fp.fixes n small]
  simp

/-- Large counts may round, but never below a small one. -/
theorem le_scaled_one {m n : ℕ} (small : m ≤ 2 ^ 24) (le : m ≤ n) : m ≤ fp.scaled n 1 := by
  have once : (m : ℚ) ≤ fp.round n := by
    rw [← fp.fixes m small]
    exact fp.monotone (by exact_mod_cast le)
  have twice : (m : ℚ) ≤ fp.round (fp.round n) := by
    rw [← fp.fixes m small]
    exact fp.monotone once
  have floor : (m : ℤ) ≤ ⌊fp.round (fp.round n)⌋ := Int.le_floor.mpr (by exact_mod_cast twice)
  rw [scaled, mul_one]
  omega

end Rounding
end Foundation
