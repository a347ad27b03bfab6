import Mathlib.Algebra.Ring.Nat
import Mathlib.Tactic.Common

set_option autoImplicit false

namespace Base

-- The naturals cut into blocks of given sizes, one behind the other.
section
variable (size : Nat → Nat)

def blockStart : Nat → Nat
  | 0 => 0
  | k + 1 => blockStart k + size k

def blockOf : Nat → Nat
  | 0 => 0
  | n + 1 => if n + 1 < blockStart size (blockOf n + 1) then blockOf n else blockOf n + 1

variable (least : Nat) (sized : ∀ k, least ≤ size k)
include sized

theorem block_start_add (k extra : Nat) : blockStart size k + extra * least ≤ blockStart size (k + extra) := by
  induction extra with
  | zero => rw [Nat.zero_mul, Nat.add_zero, Nat.add_zero]
  | succ extra ih =>
      have next := sized (k + extra)
      rw [Nat.succ_mul, ← Nat.add_assoc, ← Nat.add_assoc, blockStart]
      omega

theorem block_start_le (k other : Nat) (ahead : k ≤ other) : blockStart size k ≤ blockStart size other := by
  have added := block_start_add size least sized k (other - k)
  rw [Nat.add_sub_cancel' ahead] at added
  exact Nat.le_trans (Nat.le_add_right _ _) added

variable (positive : 0 < least)
include positive

theorem block_bounds (n : Nat) : blockStart size (blockOf size n) ≤ n ∧ n < blockStart size (blockOf size n + 1) := by
  induction n with
  | zero =>
      refine ⟨Nat.le_refl _, ?_⟩
      have first := sized 0
      rw [blockOf, blockStart, blockStart]
      omega
  | succ n ih =>
      rw [blockOf]
      by_cases inside : n + 1 < blockStart size (blockOf size n + 1)
      · rw [if_pos inside]
        exact ⟨by omega, inside⟩
      · have next := sized (blockOf size n + 1)
        rw [if_neg inside]
        refine ⟨Nat.le_of_not_lt inside, ?_⟩
        rw [blockStart]
        omega

theorem block_of_eq (n k : Nat) (from' : blockStart size k ≤ n) (until' : n < blockStart size (k + 1)) :
    blockOf size n = k := by
  obtain ⟨low, high⟩ := block_bounds size least sized positive n
  rcases Nat.lt_trichotomy (blockOf size n) k with below | same | above
  · have reached := block_start_le size least sized (blockOf size n + 1) k below
    omega
  · exact same
  · have reached := block_start_le size least sized (k + 1) (blockOf size n) above
    omega

theorem block_of_le (n later : Nat) (ahead : n ≤ later) : blockOf size n ≤ blockOf size later := by
  obtain ⟨low, high⟩ := block_bounds size least sized positive n
  obtain ⟨lowLater, highLater⟩ := block_bounds size least sized positive later
  by_contra behind
  have reached := block_start_le size least sized (blockOf size later + 1) (blockOf size n) (by omega)
  omega

theorem block_of_apart (n later extra : Nat) (ahead : blockOf size n + extra + 1 ≤ blockOf size later) :
    n + extra * least < later := by
  obtain ⟨low, high⟩ := block_bounds size least sized positive n
  obtain ⟨lowLater, highLater⟩ := block_bounds size least sized positive later
  have added := block_start_add size least sized (blockOf size n + 1) extra
  have reached := block_start_le size least sized (blockOf size n + 1 + extra) (blockOf size later) (by omega)
  omega

theorem same_place_apart (n later : Nat) (ahead : blockOf size n < blockOf size later)
    (place : n - blockStart size (blockOf size n) = later - blockStart size (blockOf size later)) : n + least ≤ later := by
  obtain ⟨low, high⟩ := block_bounds size least sized positive n
  obtain ⟨lowLater, highLater⟩ := block_bounds size least sized positive later
  have added := block_start_add size least sized (blockOf size n) 1
  have reached := block_start_le size least sized (blockOf size n + 1) (blockOf size later) ahead
  omega

omit sized positive

section
variable (period : Nat) (periodic : ∀ k, size (k + period) = size k)
include periodic

theorem block_start_periodic (k turns : Nat) :
    blockStart size (k + turns * period) = blockStart size k + turns * blockStart size period := by
  have once (k : Nat) : blockStart size (k + period) = blockStart size k + blockStart size period := by
    induction k with
    | zero => rw [Nat.zero_add, blockStart, Nat.zero_add]
    | succ k ih =>
        rw [Nat.add_right_comm, blockStart, ih, periodic, blockStart]
        omega
  induction turns with
  | zero => rw [Nat.zero_mul, Nat.zero_mul, Nat.add_zero, Nat.add_zero]
  | succ turns ih => rw [Nat.succ_mul, ← Nat.add_assoc, once, ih, Nat.succ_mul, Nat.add_assoc]
end
end

end Base
