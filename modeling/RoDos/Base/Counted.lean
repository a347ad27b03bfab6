import Mathlib.Data.List.Basic
import Mathlib.Logic.Function.Basic

set_option autoImplicit false

namespace Base

-- An array whose first count cells are in use, changed one store at a time.
structure Counted (α : Type) where
  cells : Nat → α
  count : Int

inductive CellWrite (α : Type) where
  | change (i : Nat) (f : α → α)
  | move (target source : Nat)
  | count (n : Int)

variable {α : Type}

def Counted.store (table : Counted α) : CellWrite α → Counted α
  | .change i f => { table with cells := Function.update table.cells i (f (table.cells i)) }
  | .move target source => { table with cells := Function.update table.cells target (table.cells source) }
  | .count n => { table with count := n }

def Counted.storeAll (table : Counted α) (writes : List (CellWrite α)) : Counted α := writes.foldl Counted.store table

def Counted.Holds (table : Counted α) (items : List α) : Prop :=
  table.count = items.length ∧ ∀ i x, items[i]? = some x → table.cells i = x

def Counted.Fits (capacity : Nat) (table : Counted α) : Prop := 0 ≤ table.count ∧ table.count ≤ capacity

def CellWrite.InCells (capacity : Nat) : CellWrite α → Prop
  | .change i _ => i < capacity
  | .move target source => target < capacity ∧ source < capacity
  | .count n => 0 ≤ n ∧ n ≤ capacity

def appendWrites (count : Nat) (x : α) : List (CellWrite α) := [.change count fun _ => x, .count (count + 1)]

-- for (j = i; j < i + k; j++) cells[j] = cells[j + 1];
def shiftWrites (i k : Nat) : List (CellWrite α) := (List.range' i k).map fun j => .move j (j + 1)

def removeWrites (count i : Nat) : List (CellWrite α) := shiftWrites i (count - 1 - i) ++ [.count ((count : Int) - 1)]

def fillWrites (start : Nat) : List α → List (CellWrite α)
  | [] => []
  | x :: rest => appendWrites start x ++ fillWrites (start + 1) rest

theorem store_all_append (table : Counted α) (front back : List (CellWrite α)) :
    table.storeAll (front ++ back) = (table.storeAll front).storeAll back := List.foldl_append

theorem store_fits (capacity : Nat) (table : Counted α) (write : CellWrite α) (fits : table.Fits capacity)
    (inside : write.InCells capacity) : (table.store write).Fits capacity := by
  cases write with
  | change i f => exact fits
  | move target source => exact fits
  | count n => exact inside

section
variable (table : Counted α) (items : List α)

theorem holds_fits (capacity : Nat) (held : table.Holds items) (fits : items.length ≤ capacity) :
    table.Fits capacity := by
  rw [Counted.Fits, held.1]
  omega

def Counted.ofList (spare : α) : Counted α := ⟨fun i => items.getD i spare, items.length⟩

theorem of_list_holds (spare : α) : (Counted.ofList items spare).Holds items := by
  refine ⟨rfl, fun i x found => ?_⟩
  show items.getD i spare = x
  rw [List.getD_eq_getElem?_getD, found, Option.getD_some]

theorem holds_empty (empty : table.count = 0) : table.Holds [] := ⟨empty, fun _ _ found => nomatch found⟩

theorem change_holds (held : table.Holds items) (i : Nat) (f : α → α) :
    (table.store (.change i f)).Holds (items.modify i f) := by
  refine ⟨by rw [List.length_modify]; exact held.1, fun j x found => ?_⟩
  rw [List.getElem?_modify] at found
  obtain ⟨old, there, same⟩ := Option.map_eq_some_iff.mp found
  have cell := held.2 j old there
  show Function.update table.cells i (f (table.cells i)) j = x
  by_cases here : i = j
  · rw [if_pos here] at same
    rw [here, Function.update_self, cell, same]
  · rw [if_neg here] at same
    rw [Function.update_of_ne (Ne.symm here), cell, ← same]

theorem append_holds (held : table.Holds items) (x : α) :
    (table.storeAll (appendWrites items.length x)).Holds (items ++ [x]) := by
  refine ⟨by rw [List.length_append, List.length_singleton]; rfl, fun i y found => ?_⟩
  show Function.update table.cells items.length x i = y
  by_cases last : i = items.length
  · rw [last, List.getElem?_concat_length] at found
    rw [last, Function.update_self, Option.some.inj found]
  · have before : i < items.length := by
      have inside := (List.getElem?_eq_some_iff.mp found).1
      rw [List.length_append, List.length_singleton] at inside
      omega
    rw [List.getElem?_append_left before] at found
    rw [Function.update_of_ne last, held.2 i y found]

theorem take_back_holds (held : table.Holds items) (x : α) :
    ((table.storeAll (appendWrites items.length x)).store (.count ((items.length + 1 : Int) - 1))).Holds items := by
  refine ⟨Int.add_sub_cancel _ _, fun i y found => ?_⟩
  have before := (List.getElem?_eq_some_iff.mp found).1
  show Function.update table.cells items.length x i = y
  rw [Function.update_of_ne (Nat.ne_of_lt before), held.2 i y found]

theorem fill_holds (held : table.Holds items) (more : List α) :
    (table.storeAll (fillWrites items.length more)).Holds (items ++ more) := by
  induction more generalizing table items with
  | nil =>
      rw [List.append_nil]
      exact held
  | cons x rest ih =>
      have first := append_holds table items held x
      have later := ih _ _ first
      rw [List.length_append, List.length_singleton, List.append_assoc, List.singleton_append] at later
      rw [fillWrites, store_all_append]
      exact later

theorem shift_cells (i k : Nat) : (table.storeAll (shiftWrites i k)).count = table.count ∧
    ∀ p, (table.storeAll (shiftWrites i k)).cells p = if i ≤ p ∧ p < i + k then table.cells (p + 1) else table.cells p := by
  induction k with
  | zero => exact ⟨rfl, fun p => (if_neg (by omega)).symm⟩
  | succ k ih =>
      have last : shiftWrites i (k + 1) = (shiftWrites i k : List (CellWrite α)) ++ [.move (i + k) (i + k + 1)] := by
        rw [shiftWrites, List.range'_concat, List.map_append, Nat.one_mul]
        rfl
      rw [last, store_all_append]
      refine ⟨ih.1, fun p => ?_⟩
      show Function.update (table.storeAll (shiftWrites i k)).cells (i + k) _ p = _
      by_cases here : p = i + k
      · rw [here, Function.update_self, ih.2, if_neg (by omega), if_pos (by omega)]
      · rw [Function.update_of_ne here, ih.2]
        by_cases shifted : i ≤ p ∧ p < i + k
        · rw [if_pos shifted, if_pos (by omega)]
        · rw [if_neg shifted, if_neg (by omega)]

theorem remove_holds (held : table.Holds items) (i : Nat) (inside : i < items.length) :
    (table.storeAll (removeWrites items.length i)).Holds (items.eraseIdx i) := by
  have cells := (shift_cells table i (items.length - 1 - i)).2
  rw [removeWrites, store_all_append]
  refine ⟨?_, fun p x found => ?_⟩
  · rw [List.length_eraseIdx_of_lt inside]
    show (items.length : Int) - 1 = _
    omega
  · have short := (List.getElem?_eq_some_iff.mp found).1
    rw [List.length_eraseIdx_of_lt inside] at short
    rw [List.getElem?_eraseIdx] at found
    refine (cells p).trans ?_
    by_cases before : p < i
    · rw [if_pos before] at found
      rw [if_neg (by omega), held.2 p x found]
    · rw [if_neg before] at found
      rw [if_pos (by omega), held.2 (p + 1) x found]
end

section
variable (capacity count : Nat)

theorem append_in_cells (room : count < capacity) (x : α) :
    ∀ write ∈ appendWrites count x, write.InCells capacity := by
  intro write member
  rcases List.mem_pair.mp member with rfl | rfl
  · exact room
  · exact ⟨by omega, by omega⟩

theorem fill_in_cells (items : List α) (start : Nat) (room : start + items.length ≤ capacity) :
    ∀ write ∈ fillWrites start items, write.InCells capacity := by
  induction items generalizing start with
  | nil => exact fun write member => nomatch member
  | cons x rest ih =>
      rw [List.length_cons] at room
      rw [fillWrites]
      intro write member
      cases List.mem_append.mp member with
      | inl first => exact append_in_cells capacity start (by omega) x write first
      | inr later => exact ih (start + 1) (by omega) write later

theorem remove_in_cells (fits : count ≤ capacity) (i : Nat) (inside : i < count) :
    ∀ write ∈ (removeWrites count i : List (CellWrite α)), write.InCells capacity := by
  intro write member
  cases List.mem_append.mp member with
  | inl shift =>
      obtain ⟨j, range, rfl⟩ := List.mem_map.mp shift
      rw [List.mem_range'_1] at range
      exact ⟨by omega, by omega⟩
  | inr final =>
      rw [List.mem_singleton.mp final]
      exact ⟨by omega, by omega⟩
end

end Base
