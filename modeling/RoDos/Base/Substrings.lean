import Mathlib.Data.List.GetD
import Mathlib.Data.List.Infix
import Mathlib.Tactic.Common

set_option autoImplicit false

namespace Base

section Substrings

variable {α : Type}

structure FirstAt (pattern text : List α) (i : Nat) : Prop where
  here : pattern <+: text.drop i
  earlier : ∀ j < i, ¬ pattern <+: text.drop j

theorem first_at_unique (pattern text : List α) (i j : Nat) (first : FirstAt pattern text i) (other : FirstAt pattern text j) : i = j := by
  rcases Nat.lt_trichotomy i j with below | same | above
  · exact absurd first.here (other.earlier i below)
  · exact same
  · exact absurd other.here (first.earlier j above)

theorem first_at_zero (pattern text : List α) (here : pattern <+: text) : FirstAt pattern text 0 :=
  ⟨here, fun _ below => absurd below (Nat.not_lt_zero _)⟩

theorem first_at_succ_iff (pattern text : List α) (a : α) (i : Nat) (apart : ¬ pattern <+: a :: text) :
    FirstAt pattern (a :: text) (i + 1) ↔ FirstAt pattern text i := by
  constructor
  · intro first
    exact ⟨first.here, fun j below => first.earlier (j + 1) (Nat.succ_lt_succ below)⟩
  · intro first
    refine ⟨first.here, fun j below => ?_⟩
    cases j with
    | zero => exact apart
    | succ j => exact first.earlier j (Nat.lt_of_succ_lt_succ below)

theorem prefix_iff_get (pattern text : List α) (fill : α) (solid : ∀ a ∈ pattern, a ≠ fill) :
    pattern <+: text ↔ ∀ k < pattern.length, text.getD k fill = pattern.getD k fill := by
  induction pattern generalizing text with
  | nil => exact iff_of_true (List.nil_prefix) fun k below => absurd below (Nat.not_lt_zero k)
  | cons a pattern ih =>
      cases text with
      | nil =>
          refine iff_of_false (fun starts => List.cons_ne_nil a pattern (List.prefix_nil.mp starts)) fun same => ?_
          exact solid a List.mem_cons_self (same 0 (Nat.succ_pos _)).symm
      | cons b text =>
          rw [List.cons_prefix_cons, ih text fun c member => solid c (List.mem_cons_of_mem _ member)]
          constructor
          · rintro ⟨first, rest⟩ k below
            cases k with
            | zero => exact first.symm
            | succ k => exact rest k (Nat.lt_of_succ_lt_succ below)
          · exact fun same => ⟨(same 0 (Nat.succ_pos _)).symm, fun k below => same (k + 1) (Nat.succ_lt_succ below)⟩

theorem prefix_drop_iff_get (pattern text : List α) (fill : α) (solid : ∀ a ∈ pattern, a ≠ fill) (i : Nat) :
    pattern <+: text.drop i ↔ ∀ k < pattern.length, text.getD (i + k) fill = pattern.getD k fill := by
  rw [prefix_iff_get pattern _ fill solid]
  refine forall₂_congr fun k _ => ?_
  rw [List.getD_eq_getElem?_getD (l := text.drop i), List.getElem?_drop, ← List.getD_eq_getElem?_getD]

variable [DecidableEq α]

def findSub (pattern : List α) : List α → Option Nat
  | [] => if pattern = [] then some 0 else none
  | a :: text => if pattern.isPrefixOf (a :: text) then some 0 else (findSub pattern text).map (· + 1)

theorem find_sub_some_iff (pattern text : List α) (i : Nat) : findSub pattern text = some i ↔ FirstAt pattern text i := by
  induction text generalizing i with
  | nil =>
      rw [findSub]
      by_cases empty : pattern = []
      · rw [if_pos empty]
        constructor
        · rintro ⟨⟩
          exact first_at_zero _ _ (by rw [empty])
        · intro first
          exact congrArg some (first_at_unique _ _ 0 i (first_at_zero _ _ (by rw [empty])) first)
      · rw [if_neg empty]
        refine iff_of_false (Option.some_ne_none i).symm fun first => empty ?_
        exact List.prefix_nil.mp (List.drop_nil ▸ first.here)
  | cons a text ih =>
      rw [findSub]
      by_cases here : pattern <+: a :: text
      · rw [if_pos (List.isPrefixOf_iff_prefix.mpr here)]
        constructor
        · rintro ⟨⟩
          exact first_at_zero _ _ here
        · exact fun first => congrArg some (first_at_unique _ _ 0 i (first_at_zero _ _ here) first)
      · rw [if_neg fun starts => here (List.isPrefixOf_iff_prefix.mp starts), Option.map_eq_some_iff]
        cases i with
        | zero => exact iff_of_false (fun ⟨_, _, same⟩ => Nat.succ_ne_zero _ same) fun first => here first.here
        | succ i =>
            rw [first_at_succ_iff pattern text a i here, ← ih i]
            exact ⟨fun ⟨j, found, same⟩ => Nat.succ.inj same ▸ found, fun found => ⟨i, found, rfl⟩⟩

theorem find_sub_none_iff (pattern text : List α) : findSub pattern text = none ↔ ¬ pattern <:+: text := by
  induction text with
  | nil =>
      rw [findSub, List.infix_nil]
      split
      · rename_i empty
        exact iff_of_false (Option.some_ne_none 0) (not_not.mpr empty)
      · rename_i some'
        exact iff_of_true rfl some'
  | cons a text ih =>
      rw [findSub, List.infix_cons_iff, not_or, ← ih]
      by_cases here : pattern <+: a :: text
      · rw [if_pos (List.isPrefixOf_iff_prefix.mpr here)]
        exact iff_of_false (Option.some_ne_none 0) fun apart => apart.1 here
      · rw [if_neg fun starts => here (List.isPrefixOf_iff_prefix.mp starts), Option.map_eq_none_iff]
        exact (and_iff_right here).symm

theorem find_sub_skip (head : α) (pattern front text : List α) (free : head ∉ front) :
    findSub (head :: pattern) (front ++ text) = (findSub (head :: pattern) text).map (· + front.length) := by
  induction front with
  | nil => simp
  | cons a front ih =>
      rw [List.mem_cons, not_or] at free
      have apart : ¬ (head :: pattern).isPrefixOf (a :: (front ++ text)) = true := fun starts =>
        free.1 (List.cons_prefix_cons.mp (List.isPrefixOf_iff_prefix.mp starts)).1
      rw [List.cons_append, findSub, if_neg apart, ih free.2, Option.map_map]
      exact congrArg (Option.map · _) (funext fun i => by rw [List.length_cons, Function.comp_apply, Nat.add_assoc])

theorem find_range_sub (pattern text : List α) (some' : pattern ≠ []) (test : Nat → Bool)
    (same : ∀ i < text.length + 1 - pattern.length, test i = true ↔ pattern <+: text.drop i) :
    (List.range (text.length + 1 - pattern.length)).find? test = findSub pattern text := by
  cases found : findSub pattern text with
  | none =>
      rw [find_sub_none_iff] at found
      refine List.find?_eq_none.mpr fun i inside here => found ?_
      rw [same i (List.mem_range.mp inside)] at here
      exact here.isInfix.trans (List.drop_suffix i text).isInfix
  | some i =>
      rw [find_sub_some_iff] at found
      have fits := found.here.length_le
      have positive := List.length_pos_iff.mpr some'
      rw [List.length_drop] at fits
      refine List.find?_range_eq_some.mpr ⟨(same i (by omega)).mpr found.here, List.mem_range.mpr (by omega), fun j below => ?_⟩
      rw [Bool.not_eq_true', Bool.eq_false_iff]
      exact fun here => found.earlier j below ((same j (by omega)).mp here)

end Substrings

end Base
