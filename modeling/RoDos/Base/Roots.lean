import Mathlib.Data.Nat.Sqrt
import Mathlib.Tactic.Linarith

set_option autoImplicit false

namespace Base

theorem root_le_average (n x : Nat) (positive : 0 < x) : Nat.sqrt n ≤ (x + n / x) / 2 := by
  have square := Nat.sqrt_le n
  generalize Nat.sqrt n = r at square
  have missing : 2 * r - x ≤ n / x := by
    rw [Nat.le_div_iff_mul_le positive]
    refine Nat.le_trans ?_ square
    by_cases small : 2 * r ≤ x
    · rw [Nat.sub_eq_zero_of_le small, Nat.zero_mul]
      exact Nat.zero_le _
    · obtain ⟨rest, sum⟩ := Nat.exists_eq_add_of_le (Nat.le_of_not_le small)
      have difference : 2 * r - x = rest := by omega
      rw [difference]
      nlinarith [sq_nonneg ((x : Int) - rest)]
  omega

theorem stopped_le_root (n x : Nat) (stopped : x ≤ (x + n / x) / 2) : x ≤ Nat.sqrt n :=
  Nat.le_sqrt.mpr ((Nat.mul_le_mul_left x (by omega)).trans (Nat.mul_div_le n x))

end Base
