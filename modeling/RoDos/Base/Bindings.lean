import Mathlib.Data.List.Basic
import Mathlib.Data.List.Induction
import Mathlib.Tactic.Common

set_option autoImplicit false

namespace Base

section Bindings

variable {Key Value : Type} [DecidableEq Key]

-- A store goes to the first row of its key; a key without a row takes the next one while there is room.
def assignRow (capacity : Nat) (table : List (Key × Value)) (key : Key) (value : Value) : List (Key × Value) :=
  match table.findIdx? fun row => row.1 = key with
  | some i => table.set i (key, value)
  | none => if table.length < capacity then table ++ [(key, value)] else table

def lookupRow (table : List (Key × Value)) (key : Key) : Option Value := (table.find? fun row => row.1 = key).map Prod.snd

def boundKeys (capacity : Nat) (history : List (Key × Value)) : List Key := (history.map Prod.fst).eraseDups.take capacity

def lastValue (history : List (Key × Value)) (key : Key) : Option Value := lookupRow history.reverse key

def boundValue (capacity : Nat) (history : List (Key × Value)) (key : Key) : Option Value :=
  if key ∈ boundKeys capacity history then lastValue history key else none

structure Binds (capacity : Nat) (table history : List (Key × Value)) : Prop where
  keys : table.map Prod.fst = boundKeys capacity history
  values : ∀ key, lookupRow table key = boundValue capacity history key

theorem lookup_row_cons (row : Key × Value) (table : List (Key × Value)) (key : Key) :
    lookupRow (row :: table) key = if row.1 = key then some row.2 else lookupRow table key := by
  rw [lookupRow, List.find?_cons]
  by_cases same : row.1 = key
  · simp [same]
  · simp [same, lookupRow]

theorem lookup_row_snoc (table : List (Key × Value)) (key other : Key) (value : Value) (absent : key ∉ table.map Prod.fst) :
    lookupRow (table ++ [(key, value)]) other = if other = key then some value else lookupRow table other := by
  induction table with
  | nil =>
      rw [List.nil_append, lookup_row_cons]
      exact if_congr eq_comm rfl rfl
  | cons row table ih =>
      rw [List.map_cons, List.mem_cons, not_or] at absent
      rw [List.cons_append, lookup_row_cons, lookup_row_cons, ih absent.2]
      by_cases first : row.1 = other
      · rw [if_pos first, if_pos first, if_neg fun same => absent.1 (same.symm.trans first.symm)]
      · rw [if_neg first, if_neg first]

theorem lookup_row_set (table : List (Key × Value)) (key other : Key) (value : Value) (i : Nat)
    (found : table.findIdx? (fun row => row.1 = key) = some i) :
    lookupRow (table.set i (key, value)) other = if other = key then some value else lookupRow table other := by
  induction table generalizing i with
  | nil => cases found
  | cons row table ih =>
      rw [List.findIdx?_cons] at found
      by_cases first : row.1 = key
      · rw [if_pos (decide_eq_true first)] at found
        cases found
        rw [List.set_cons_zero, lookup_row_cons, lookup_row_cons, first]
        by_cases same : key = other
        · rw [if_pos same, if_pos same.symm]
        · rw [if_neg same, if_neg (Ne.symm same), if_neg same]
      · rw [if_neg (by simpa using first), Option.map_eq_some_iff] at found
        obtain ⟨j, later, rfl⟩ := found
        rw [List.set_cons_succ, lookup_row_cons, lookup_row_cons, ih j later]
        by_cases same : row.1 = other
        · rw [if_pos same, if_pos same, if_neg fun both => first (same.trans both)]
        · rw [if_neg same, if_neg same]

theorem set_row_keys (table : List (Key × Value)) (key : Key) (value : Value) (i : Nat)
    (found : table.findIdx? (fun row => row.1 = key) = some i) : (table.set i (key, value)).map Prod.fst = table.map Prod.fst := by
  induction table generalizing i with
  | nil => cases found
  | cons row table ih =>
      rw [List.findIdx?_cons] at found
      by_cases first : row.1 = key
      · rw [if_pos (decide_eq_true first)] at found
        cases found
        rw [List.set_cons_zero, List.map_cons, List.map_cons, first]
      · rw [if_neg (by simpa using first), Option.map_eq_some_iff] at found
        obtain ⟨j, later, rfl⟩ := found
        rw [List.set_cons_succ, List.map_cons, List.map_cons, ih j later]

theorem row_found_iff (table : List (Key × Value)) (key : Key) :
    table.findIdx? (fun row => row.1 = key) = none ↔ key ∉ table.map Prod.fst := by
  rw [List.findIdx?_eq_none_iff, List.mem_map]
  constructor
  · rintro absent ⟨row, member, same⟩
    exact of_decide_eq_false (absent row member) same
  · intro absent row member
    exact decide_eq_false fun same => absent ⟨row, member, same⟩

theorem assign_row_cases (capacity : Nat) (table : List (Key × Value)) (key : Key) (value : Value) :
    (key ∈ table.map Prod.fst ∧ (assignRow capacity table key value).map Prod.fst = table.map Prod.fst ∧
      ∀ other, lookupRow (assignRow capacity table key value) other = if other = key then some value else lookupRow table other) ∨
    (key ∉ table.map Prod.fst ∧ table.length < capacity ∧ assignRow capacity table key value = table ++ [(key, value)]) ∨
    (key ∉ table.map Prod.fst ∧ capacity ≤ table.length ∧ assignRow capacity table key value = table) := by
  rw [assignRow]
  cases found : table.findIdx? fun row => row.1 = key with
  | some i =>
      have known : key ∈ table.map Prod.fst := by
        by_contra absent
        rw [(row_found_iff table key).mpr absent] at found
        cases found
      exact Or.inl ⟨known, set_row_keys table key value i found, fun other => lookup_row_set table key other value i found⟩
  | none =>
      have absent := (row_found_iff table key).mp found
      by_cases room : table.length < capacity
      · exact Or.inr (Or.inl ⟨absent, room, if_pos room⟩)
      · exact Or.inr (Or.inr ⟨absent, Nat.le_of_not_lt room, if_neg room⟩)

theorem last_value_snoc (history : List (Key × Value)) (key other : Key) (value : Value) :
    lastValue (history ++ [(key, value)]) other = if other = key then some value else lastValue history other := by
  rw [lastValue, List.reverse_append, List.reverse_singleton, List.singleton_append, lookup_row_cons]
  exact if_congr eq_comm rfl rfl

theorem bound_keys_snoc (capacity : Nat) (history : List (Key × Value)) (key : Key) (value : Value) :
    boundKeys capacity (history ++ [(key, value)]) =
      if key ∈ boundKeys capacity history ∨ capacity ≤ (boundKeys capacity history).length then boundKeys capacity history
      else boundKeys capacity history ++ [key] := by
  rw [boundKeys, boundKeys, List.map_append, List.map_singleton, List.eraseDups_append]
  by_cases seen : key ∈ history.map Prod.fst
  · have same : ([key].removeAll (history.map Prod.fst)).eraseDups = [] := by simp [List.removeAll, seen]
    rw [same, List.append_nil, if_pos]
    by_cases room : (history.map Prod.fst).eraseDups.length ≤ capacity
    · rw [List.take_of_length_le room]
      exact Or.inl (List.mem_eraseDups.mpr seen)
    · rw [List.length_take]
      exact Or.inr (by omega)
  · have new : ([key].removeAll (history.map Prod.fst)).eraseDups = [key] := by simp [List.removeAll, seen, List.eraseDups_cons]
    have absent : key ∉ (history.map Prod.fst).eraseDups.take capacity := fun member =>
      seen (List.mem_eraseDups.mp (List.mem_of_mem_take member))
    rw [new, List.take_append, List.length_take]
    by_cases full : capacity ≤ (history.map Prod.fst).eraseDups.length
    · rw [if_pos (Or.inr (by omega)), Nat.sub_eq_zero_of_le full, List.take_zero, List.append_nil]
    · rw [if_neg (by
        rintro (member | large)
        · exact absent member
        · omega), List.take_of_length_le (l := [key]) (by rw [List.length_singleton]; omega)]

theorem binds_start (capacity : Nat) : Binds capacity ([] : List (Key × Value)) [] := by
  refine ⟨?_, fun key => ?_⟩
  · rw [boundKeys, List.map_nil, List.eraseDups_nil, List.take_nil]
  · rw [boundValue, boundKeys, List.map_nil, List.eraseDups_nil, List.take_nil, if_neg List.not_mem_nil]
    rfl

theorem binds_assign (capacity : Nat) (table history : List (Key × Value)) (key : Key) (value : Value)
    (binds : Binds capacity table history) : Binds capacity (assignRow capacity table key value) (history ++ [(key, value)]) := by
  have lengths : (boundKeys capacity history).length = table.length := by rw [← binds.keys, List.length_map]
  have keys := bound_keys_snoc capacity history key value
  rw [← binds.keys, List.length_map] at keys
  rcases assign_row_cases capacity table key value with ⟨known, same, values⟩ | ⟨absent, room, stored⟩ | ⟨absent, full, stored⟩
  · rw [if_pos (Or.inl known)] at keys
    refine ⟨same.trans keys.symm, fun other => ?_⟩
    rw [values other, binds.values other, boundValue, boundValue, keys, last_value_snoc, binds.keys]
    by_cases equal : other = key
    · rw [if_pos equal, if_pos equal, equal, if_pos (binds.keys ▸ known)]
    · rw [if_neg equal, if_neg equal]
  · rw [if_neg (by
      rintro (member | large)
      · exact absent member
      · omega)] at keys
    refine ⟨by rw [stored, keys, List.map_append, List.map_singleton], fun other => ?_⟩
    rw [stored, lookup_row_snoc table key other value absent, binds.values other, boundValue, boundValue, keys, last_value_snoc,
      binds.keys]
    by_cases equal : other = key
    · rw [if_pos equal, if_pos equal, equal, if_pos (List.mem_append_right _ List.mem_cons_self)]
    · have member : other ∈ boundKeys capacity history ++ [key] ↔ other ∈ boundKeys capacity history := by simp [equal]
      rw [if_neg equal, if_neg equal, if_congr member rfl rfl]
  · rw [if_pos (Or.inr full)] at keys
    refine ⟨by rw [stored, keys], fun other => ?_⟩
    rw [stored, binds.values other, boundValue, boundValue, keys, last_value_snoc, binds.keys]
    by_cases equal : other = key
    · rw [equal, if_neg (binds.keys ▸ absent), if_neg (binds.keys ▸ absent)]
    · rw [if_neg equal]

end Bindings

end Base
