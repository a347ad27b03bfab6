import Mathlib.Algebra.Ring.Nat
import Mathlib.Data.List.Nodup
import Mathlib.Tactic.Common

set_option autoImplicit false

namespace Base

-- Cells of positive length laid end to end from low to high; a cell is named by its start.
def Tiles (length : Nat → Nat) : Nat → List Nat → Nat → Prop
  | low, [], high => low = high
  | low, cell :: rest, high => cell = low ∧ Tiles length (low + length low) rest high

section
variable {length : Nat → Nat}

theorem tiles_append (low high : Nat) (front back : List Nat) :
    Tiles length low (front ++ back) high ↔
      ∃ middle, Tiles length low front middle ∧ Tiles length middle back high := by
  induction front generalizing low with
  | nil => simp [Tiles]
  | cons cell rest ih => simp [Tiles, ih, and_assoc]

theorem tiles_congr (other : Nat → Nat) (low high : Nat) (cells : List Nat)
    (same : ∀ cell ∈ cells, other cell = length cell) (tiles : Tiles length low cells high) :
    Tiles other low cells high := by
  induction cells generalizing low with
  | nil => exact tiles
  | cons cell rest ih =>
      obtain ⟨rfl, further⟩ := tiles
      refine ⟨rfl, ?_⟩
      rw [same cell (by simp)]
      exact ih _ (fun other member => same other (by simp [member])) further

theorem tiles_bounds (low high : Nat) (cells : List Nat) (tiles : Tiles length low cells high) :
    low ≤ high ∧ ∀ cell ∈ cells, low ≤ cell ∧ cell + length cell ≤ high := by
  induction cells generalizing low with
  | nil => exact ⟨Nat.le_of_eq tiles, by simp⟩
  | cons cell rest ih =>
      obtain ⟨rfl, further⟩ := tiles
      obtain ⟨ordered, inside⟩ := ih _ further
      refine ⟨by omega, fun other member => ?_⟩
      rcases List.mem_cons.mp member with rfl | later
      · exact ⟨Nat.le_refl _, ordered⟩
      · have bound := inside other later
        omega

theorem tiles_apart (low high : Nat) (cells : List Nat) (tiles : Tiles length low cells high)
    (a b : Nat) (left : a ∈ cells) (right : b ∈ cells) (different : a ≠ b) :
    a + length a ≤ b ∨ b + length b ≤ a := by
  induction cells generalizing low with
  | nil => simp at left
  | cons cell rest ih =>
      obtain ⟨rfl, further⟩ := tiles
      have inside := (tiles_bounds _ _ _ further).2
      rcases List.mem_cons.mp left with rfl | leftLater
      · rcases List.mem_cons.mp right with rfl | rightLater
        · exact absurd rfl different
        · exact Or.inl (inside b rightLater).1
      · rcases List.mem_cons.mp right with rfl | rightLater
        · exact Or.inr (inside a leftLater).1
        · exact ih _ further leftLater rightLater

theorem tiles_nodup (positive : ∀ cell, 0 < length cell) (low high : Nat) (cells : List Nat)
    (tiles : Tiles length low cells high) : cells.Nodup := by
  induction cells generalizing low with
  | nil => exact List.nodup_nil
  | cons cell rest ih =>
      obtain ⟨rfl, further⟩ := tiles
      refine List.nodup_cons.mpr ⟨fun member => ?_, ih _ further⟩
      have bound := (tiles_bounds _ _ _ further).2 cell member
      have := positive cell
      omega

theorem tiles_sum (low high : Nat) (cells : List Nat) (tiles : Tiles length low cells high) :
    low + (cells.map length).sum = high := by
  induction cells generalizing low with
  | nil => simpa [Tiles] using tiles
  | cons cell rest ih =>
      obtain ⟨rfl, further⟩ := tiles
      have total := ih _ further
      simp only [List.map_cons, List.sum_cons]
      omega

theorem tiles_cut (low high : Nat) (cells : List Nat) (tiles : Tiles length low cells high)
    (cell : Nat) (member : cell ∈ cells) :
    ∃ front back, cells = front ++ cell :: back ∧ Tiles length low front cell ∧
      Tiles length (cell + length cell) back high := by
  obtain ⟨front, back, rfl⟩ := List.append_of_mem member
  obtain ⟨middle, before, same, after⟩ := (tiles_append _ _ _ _).mp tiles
  subst same
  exact ⟨front, back, rfl, before, after⟩

theorem tiles_neighbour (positive : ∀ cell, 0 < length cell) (low high : Nat) (cells : List Nat)
    (tiles : Tiles length low cells high) (a : Nat) (left : a ∈ cells) (right : a + length a ∈ cells) :
    ∃ front back, cells = front ++ a :: (a + length a) :: back ∧ Tiles length low front a ∧
      Tiles length (a + length a + length (a + length a)) back high := by
  obtain ⟨front, back, rfl, before, after⟩ := tiles_cut _ _ _ tiles a left
  cases back with
  | nil =>
      have bound := (tiles_bounds _ _ _ tiles).2 _ right
      have := positive (a + length a)
      simp only [Tiles] at after
      omega
  | cons next rest =>
      obtain ⟨rfl, further⟩ := after
      exact ⟨front, rest, rfl, before, further⟩

theorem tiles_split (other : Nat → Nat) (low high a : Nat) (front back : List Nat)
    (tiles : Tiles length low (front ++ a :: back) high)
    (kept : ∀ cell, cell ∈ front ∨ cell ∈ back → other cell = length cell)
    (divided : other a + other (a + other a) = length a) :
    Tiles other low (front ++ a :: (a + other a) :: back) high := by
  obtain ⟨middle, before, same, after⟩ := (tiles_append _ _ _ _).mp tiles
  subst same
  refine (tiles_append _ _ _ _).mpr ⟨a, ?_, rfl, rfl, ?_⟩
  · exact tiles_congr other _ _ _ (fun cell member => kept cell (Or.inl member)) before
  · rw [Nat.add_assoc, divided]
    exact tiles_congr other _ _ _ (fun cell member => kept cell (Or.inr member)) after

theorem tiles_join (other : Nat → Nat) (low high a b : Nat) (front back : List Nat)
    (tiles : Tiles length low (front ++ a :: b :: back) high)
    (kept : ∀ cell, cell ∈ front ∨ cell ∈ back → other cell = length cell)
    (joined : other a = length a + length b) :
    Tiles other low (front ++ a :: back) high := by
  obtain ⟨middle, before, same, next, after⟩ := (tiles_append _ _ _ _).mp tiles
  subst same
  refine (tiles_append _ _ _ _).mpr ⟨a, ?_, rfl, ?_⟩
  · exact tiles_congr other _ _ _ (fun cell member => kept cell (Or.inl member)) before
  · have start : a + other a = a + length a + length (a + length a) := by rw [joined, next, Nat.add_assoc]
    rw [start]
    exact tiles_congr other _ _ _ (fun cell member => kept cell (Or.inr member)) after
end

end Base
