import Mathlib.Data.Nat.ModEq
import Mathlib.Logic.Function.Basic
import Mathlib.Tactic.Common

set_option autoImplicit false

namespace Base

-- How far a free-running counter modulo m is ahead of another.
def distance (m head tail : Nat) : Nat := (tail + m - head) % m

-- The values between two counters in a ring of q cells; the ring is never cleared behind them.
def ringSlots {α : Type} (q m : Nat) (ring : Nat → α) (head tail : Nat) : List α :=
  (List.range (distance m head tail)).map fun i => ring ((head + i) % q)

section
variable {α : Type} (q m : Nat) (ring : Nat → α) (head tail : Nat)

theorem ring_slots_length : (ringSlots q m ring head tail).length = distance m head tail := by
  rw [ringSlots, List.length_map, List.length_range]

theorem distance_self : distance m head head = 0 := by
  rw [distance, Nat.add_sub_cancel_left, Nat.mod_self]

theorem ring_slots_empty : ringSlots q m ring head head = [] := by
  rw [ringSlots, distance_self m head]
  rfl

theorem distance_cases (headInside : head < m) (tailInside : tail < m) :
    (head ≤ tail ∧ distance m head tail = tail - head) ∨ (tail < head ∧ distance m head tail = tail + m - head) := by
  rw [distance]
  by_cases order : head ≤ tail
  · refine Or.inl ⟨order, ?_⟩
    rw [Nat.sub_add_comm order, Nat.add_mod_right, Nat.mod_eq_of_lt (by omega)]
  · exact Or.inr ⟨by omega, Nat.mod_eq_of_lt (by omega)⟩

theorem next_cases (inside : head < m) : ((head + 1) % m = head + 1 ∧ head + 1 < m) ∨ ((head + 1) % m = 0 ∧ head + 1 = m) := by
  by_cases last : head + 1 = m
  · exact Or.inr ⟨by rw [last, Nat.mod_self], last⟩
  · exact Or.inl ⟨Nat.mod_eq_of_lt (by omega), by omega⟩

theorem distance_front (headInside : head < m) (tailInside : tail < m) (nonempty : head ≠ tail) :
    distance m head tail = distance m ((head + 1) % m) tail + 1 := by
  have before := distance_cases m head tail headInside tailInside
  have after := distance_cases m ((head + 1) % m) tail (Nat.mod_lt _ (by omega)) tailInside
  have next := next_cases m head headInside
  omega

theorem distance_back (headInside : head < m) (tailInside : tail < m) (room : distance m head tail + 1 < m) :
    distance m head ((tail + 1) % m) = distance m head tail + 1 := by
  have before := distance_cases m head tail headInside tailInside
  have after := distance_cases m head ((tail + 1) % m) headInside (Nat.mod_lt _ (by omega))
  have next := next_cases m tail tailInside
  omega

variable (whole : q ∣ m)
include whole

theorem tail_cell (headInside : head < m) (tailInside : tail < m) :
    tail % q = (head + distance m head tail) % q := by
  have same : tail = (head + distance m head tail) % m := by
    rcases distance_cases m head tail headInside tailInside with ⟨order, length⟩ | ⟨order, length⟩
    · rw [length, Nat.add_sub_cancel' order, Nat.mod_eq_of_lt tailInside]
    · rw [length, Nat.add_sub_cancel' (by omega), Nat.add_mod_right, Nat.mod_eq_of_lt tailInside]
  have cell := Nat.mod_mod_of_dvd (head + distance m head tail) whole
  rw [← same] at cell
  exact cell

theorem ring_slots_front (headInside : head < m) (tailInside : tail < m) (nonempty : head ≠ tail) :
    ringSlots q m ring head tail = ring (head % q) :: ringSlots q m ring ((head + 1) % m) tail := by
  rw [ringSlots, distance_front m head tail headInside tailInside nonempty, List.range_succ_eq_map, List.map_cons,
    List.map_map, ringSlots, Nat.add_zero]
  refine congrArg _ (List.map_congr_left fun i _ => congrArg ring ?_)
  have cell : ((head + 1) % m + i) % q = (head + 1 + i) % q := by
    rw [Nat.add_mod, Nat.mod_mod_of_dvd _ whole, ← Nat.add_mod]
  rw [cell, Nat.add_assoc, Nat.add_comm 1 i]

theorem ring_slots_back (headInside : head < m) (tailInside : tail < m) (room : distance m head tail + 1 < m) :
    ringSlots q m ring head ((tail + 1) % m) = ringSlots q m ring head tail ++ [ring (tail % q)] := by
  rw [ringSlots, distance_back m head tail headInside tailInside room, List.range_succ, List.map_append,
    List.map_singleton, ← tail_cell q m head tail whole headInside tailInside, ringSlots]

theorem ring_slots_spare (headInside : head < m) (tailInside : tail < m) (spare : distance m head tail < q) (value : α) :
    ringSlots q m (Function.update ring (tail % q) value) head tail = ringSlots q m ring head tail := by
  rw [ringSlots, ringSlots]
  refine List.map_congr_left fun i member => ?_
  have before := List.mem_range.mp member
  rw [tail_cell q m head tail whole headInside tailInside, Function.update_of_ne]
  intro same
  have small : i % q = distance m head tail % q := Nat.ModEq.add_left_cancel' head same
  rw [Nat.mod_eq_of_lt (by omega), Nat.mod_eq_of_lt spare] at small
  omega
end

def newest {α : Type} (q : Nat) (values : List α) : List α := values.drop (values.length - q)

-- The values of a ring that is written round and round; count stops at q.
def recent {α : Type} (q : Nat) (ring : Nat → α) (pos count : Nat) : List α :=
  (List.range count).map fun k => ring ((pos + q - count + k) % q)

section
variable {α : Type} (q : Nat)

theorem newest_length (values : List α) : (newest q values).length = min values.length q := by
  rw [newest, List.length_drop]
  omega

theorem newest_push (positive : 0 < q) (values : List α) (value : α) :
    newest q (values ++ [value]) = (newest q values ++ [value]).drop ((newest q values).length + 1 - q) := by
  by_cases few : values.length < q
  · have all : newest q values = values := by rw [newest, Nat.sub_eq_zero_of_le (Nat.le_of_lt few), List.drop_zero]
    rw [all, newest, List.length_append, List.length_singleton]
  · have many : q ≤ values.length := Nat.le_of_not_lt few
    have past : values.length + 1 - q = values.length - q + 1 := by omega
    rw [newest_length, Nat.min_eq_right many, Nat.add_sub_cancel_left, newest, newest, List.length_append,
      List.length_singleton, past, List.drop_append_of_le_length (by omega),
      List.drop_append_of_le_length (by rw [List.length_drop]; omega), List.drop_drop]

variable (ring : Nat → α) (pos count : Nat) (value : α) (inside : pos < q)
include inside

theorem update_behind (k : Nat) (positive : 0 < k) (small : k < q) :
    Function.update ring pos value ((pos + k) % q) = ring ((pos + k) % q) := by
  refine Function.update_of_ne (fun same => ?_) _ _
  have round : (pos + k) % q = (pos + 0) % q := by rw [same, Nat.add_zero, Nat.mod_eq_of_lt inside]
  have zero : k % q = 0 % q := Nat.ModEq.add_left_cancel' pos round
  rw [Nat.mod_eq_of_lt small, Nat.zero_mod] at zero
  exact Nat.ne_of_gt positive zero

theorem update_round (k : Nat) (round : k + 1 = q) :
    Function.update ring pos value (((pos + 1) % q + k) % q) = value := by
  have whole : pos + 1 + k = pos + q := by omega
  rw [Nat.mod_add_mod, whole, Nat.add_mod_right, Nat.mod_eq_of_lt inside, Function.update_self]

theorem recent_push_few (room : count < q) :
    recent q (Function.update ring pos value) ((pos + 1) % q) (count + 1) = recent q ring pos count ++ [value] := by
  rw [recent, List.range_succ, List.map_append, List.map_singleton, recent]
  refine congrArg₂ _ (List.map_congr_left fun k member => ?_) (congrArg (fun last => [last]) ?_)
  · have small := List.mem_range.mp member
    have left : (pos + 1) % q + q - (count + 1) + k = (pos + 1) % q + (q - (count + 1) + k) := by omega
    have right : pos + 1 + (q - (count + 1) + k) = pos + (q - count + k) := by omega
    have same : pos + q - count + k = pos + (q - count + k) := by omega
    rw [left, Nat.mod_add_mod, right, same]
    exact update_behind q ring pos value inside (q - count + k) (by omega) (by omega)
  · have last : (pos + 1) % q + q - (count + 1) + count = (pos + 1) % q + (q - 1) := by omega
    rw [last]
    exact update_round q ring pos value inside (q - 1) (by omega)

theorem recent_push_full : recent q (Function.update ring pos value) ((pos + 1) % q) q =
    (recent q ring pos q).drop 1 ++ [value] := by
  obtain ⟨rest, rfl⟩ : ∃ rest, q = rest + 1 := ⟨q - 1, by omega⟩
  rw [recent, List.range_succ, List.map_append, List.map_singleton, recent, List.range_succ_eq_map, List.map_cons,
    List.drop_one, List.tail_cons, List.map_map, Nat.add_sub_cancel, Nat.add_sub_cancel]
  refine congrArg₂ _ (List.map_congr_left fun k member => ?_) (congrArg (fun last => [last]) ?_)
  · have small := List.mem_range.mp member
    have next : pos + 1 + k = pos + (k + 1) := by omega
    rw [Nat.mod_add_mod, next]
    exact update_behind (rest + 1) ring pos value inside (k + 1) (Nat.succ_pos k) (by omega)
  · exact update_round (rest + 1) ring pos value inside rest rfl

theorem recent_push (full : count ≤ q) :
    recent q (Function.update ring pos value) ((pos + 1) % q) (if count < q then count + 1 else count) =
      (recent q ring pos count ++ [value]).drop (count + 1 - q) := by
  by_cases room : count < q
  · have nothing : count + 1 - q = 0 := by omega
    rw [if_pos room, nothing, List.drop_zero]
    exact recent_push_few q ring pos count value inside room
  · have all : count = q := Nat.le_antisymm full (Nat.le_of_not_lt room)
    subst all
    have length : (recent count ring pos count).length = count := by rw [recent, List.length_map, List.length_range]
    rw [if_neg room, Nat.add_sub_cancel_left, List.drop_append_of_le_length (by rw [length]; omega)]
    exact recent_push_full count ring pos value inside
end

end Base
