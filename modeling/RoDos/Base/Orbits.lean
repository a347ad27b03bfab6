import Mathlib.Data.Fintype.EquivFin
import Mathlib.Data.Set.Finite.Basic
import Mathlib.Logic.Function.Iterate
import Mathlib.Tactic.Common

set_option autoImplicit false

namespace Base

section
variable {α : Type} (step : α → α) (goes : α → Prop)

def WalksTo (start : α) (k : Nat) : Prop := ∀ j < k, goes (step^[j] start)

theorem walks_to_zero (start : α) : WalksTo step goes start 0 := fun _ below => absurd below (Nat.not_lt_zero _)

theorem walks_to_succ (start : α) (k : Nat) :
    WalksTo step goes start (k + 1) ↔ goes start ∧ WalksTo step goes (step start) k := by
  constructor
  · intro walks
    exact ⟨walks 0 (Nat.succ_pos k), fun j below => walks (j + 1) (Nat.succ_lt_succ below)⟩
  · rintro ⟨first, walks⟩ j below
    cases j with
    | zero => exact first
    | succ j => exact walks j (Nat.lt_of_succ_lt_succ below)

variable (start : α)

theorem walks_to_less (i k : Nat) (less : i ≤ k) (walks : WalksTo step goes start k) : WalksTo step goes start i :=
  fun j below => walks j (Nat.lt_of_lt_of_le below less)

theorem walks_to_weaken (other : α → Prop) (weaker : ∀ element, goes element → other element) (k : Nat)
    (walks : WalksTo step goes start k) : WalksTo step other start k :=
  fun j below => weaker _ (walks j below)

theorem walk_returns (i k : Nat) (before : i < k) (walks : WalksTo step goes start k)
    (same : step^[i] start = step^[k] start) (n : Nat) : goes (step^[n] start) := by
  induction n using Nat.strongRecOn with
  | ind n ih =>
      rcases Nat.lt_or_ge n k with below | past
      · exact walks n below
      · have round : step^[n] start = step^[n - k + i] start := by
          conv_lhs => rw [show n = (n - k) + k by omega, Function.iterate_add_apply, ← same, ← Function.iterate_add_apply]
        rw [round]
        exact ih (n - k + i) (by omega)

theorem walk_ends_iff (finite : {element | goes element}.Finite) :
    (∃ n, ¬ goes (step^[n] start)) ↔
      ∀ i k, i < k → WalksTo step goes start k → step^[i] start ≠ step^[k] start := by
  constructor
  · rintro ⟨n, stops⟩ i k before walks same
    exact stops (walk_returns step goes start i k before walks same n)
  · intro once
    by_contra endless
    have going (n : Nat) : goes (step^[n] start) := by
      by_contra stops
      exact endless ⟨n, stops⟩
    have injective : Function.Injective fun n => (⟨step^[n] start, going n⟩ : {element | goes element}) := by
      intro i k same
      have equal : step^[i] start = step^[k] start := congrArg Subtype.val same
      rcases Nat.lt_trichotomy i k with before | rfl | behind
      · exact absurd equal (once i k before fun j _ => going j)
      · rfl
      · exact absurd equal.symm (once k i behind fun j _ => going j)
    have := finite.to_subtype
    exact not_injective_infinite_finite _ injective
end

end Base
