import Mathlib.Tactic.Common

set_option autoImplicit false

namespace Base

section
variable {κ ν : Type} [DecidableEq κ] (slots : List (Option (κ × ν)))

def findSlot (key : κ) : Option ν :=
  slots.findSome? fun slot => slot.bind fun held => if held.1 = key then some held.2 else none

omit [DecidableEq κ] in
def KeysOnce : Prop :=
  ∀ (i j : Nat) (one two : κ × ν), slots[i]? = some (some one) → slots[j]? = some (some two) → one.1 = two.1 → i = j

variable (i : Nat) (key : κ) (value : ν)

omit [DecidableEq κ] in
def heldKey : Option κ := slots[i]?.join.map Prod.fst

omit [DecidableEq κ] in
theorem held_key_some : heldKey slots i = some key ↔ ∃ held : κ × ν, slots[i]? = some (some held) ∧ held.1 = key := by
  rw [heldKey, Option.map_eq_some_iff]
  exact exists_congr fun held => and_congr_left fun _ => Option.join_eq_some_iff

theorem find_slot_written (inside : i < slots.length) (absent : findSlot slots key = none) :
    findSlot (slots.set i (some (key, value))) key = some value := by
  rw [findSlot] at absent
  rw [findSlot]
  induction slots generalizing i with
  | nil => exact absurd inside (Nat.not_lt_zero i)
  | cons slot rest ih =>
      rw [List.findSome?_cons] at absent
      cases found : slot.bind fun held => if held.1 = key then some held.2 else none with
      | some other =>
          rw [found] at absent
          cases absent
      | none =>
          rw [found] at absent
          cases i with
          | zero => rw [List.set_cons_zero, List.findSome?_cons, Option.bind_some, if_pos rfl]
          | succ i =>
              rw [List.set_cons_succ, List.findSome?_cons, found]
              exact ih i (Nat.lt_of_succ_lt_succ inside) absent

theorem find_slot_some (once : KeysOnce slots) :
    findSlot slots key = some value ↔ ∃ j : Nat, slots[j]? = some (some (key, value)) := by
  rw [findSlot, List.findSome?_eq_some_iff]
  constructor
  · rintro ⟨front, slot, back, split, found, _⟩
    cases slot with
    | none => cases found
    | some held =>
        rw [Option.bind_some] at found
        by_cases same : held.1 = key
        · rw [if_pos same, Option.some.injEq] at found
          refine ⟨front.length, ?_⟩
          rw [split, List.getElem?_append_right (Nat.le_refl _), Nat.sub_self, List.getElem?_cons_zero, ← same, ← found]
        · rw [if_neg same] at found
          cases found
  · rintro ⟨j, here⟩
    obtain ⟨inside, same⟩ := List.getElem?_eq_some_iff.mp here
    refine ⟨slots.take j, some (key, value), slots.drop (j + 1), ?_, ?_, fun slot member => ?_⟩
    · rw [← same, List.getElem_cons_drop, List.take_append_drop]
    · rw [Option.bind_some, if_pos rfl]
    · cases slot with
      | none => rfl
      | some held =>
          obtain ⟨k, before, there⟩ := List.mem_iff_getElem.mp member
          rw [List.length_take] at before
          rw [List.getElem_take] at there
          have other : held.1 ≠ key := fun equal => by
            have index := once k j held (key, value) (List.getElem?_eq_some_iff.mpr ⟨by omega, there⟩) here equal
            omega
          rw [Option.bind_some, if_neg other]

theorem find_slot_none (once : KeysOnce slots) :
    findSlot slots key = none ↔ ∀ (j : Nat) (held : κ × ν), slots[j]? = some (some held) → held.1 ≠ key := by
  constructor
  · intro absent j held here same
    have found := (find_slot_some slots key held.2 once).mpr ⟨j, by rw [here, ← same]⟩
    rw [absent] at found
    cases found
  · intro fresh
    by_contra present
    obtain ⟨value, found⟩ := Option.ne_none_iff_exists'.mp present
    obtain ⟨j, here⟩ := (find_slot_some slots key value once).mp found
    exact fresh j _ here rfl

def FreshBut : Prop := ∀ (j : Nat) (held : κ × ν), j ≠ i → slots[j]? = some (some held) → held.1 ≠ key

theorem fresh_but_iff (once : KeysOnce slots) :
    FreshBut slots i key ↔ findSlot slots key = none ∨ heldKey slots i = some key := by
  constructor
  · intro fresh
    cases found : findSlot slots key with
    | none => exact Or.inl rfl
    | some value =>
        obtain ⟨j, here⟩ := (find_slot_some slots key value once).mp found
        by_cases own : j = i
        · exact Or.inr ((held_key_some slots i key).mpr ⟨(key, value), own ▸ here, rfl⟩)
        · exact absurd rfl (fresh j _ own here)
  · rintro (absent | held) j other different there same
    · exact (find_slot_none slots key once).mp absent j other there same
    · obtain ⟨one, here, own⟩ := (held_key_some slots i key).mp held
      exact different (once j i other one there here (same.trans own.symm))

omit [DecidableEq κ] in
theorem keys_once_set (inside : i < slots.length) (once : KeysOnce slots) :
    KeysOnce (slots.set i (some (key, value))) ↔ FreshBut slots i key := by
  constructor
  · intro after j held other here same
    have first : (slots.set i (some (key, value)))[i]? = some (some (key, value)) := List.getElem?_set_self inside
    have second : (slots.set i (some (key, value)))[j]? = some (some held) := by
      rw [List.getElem?_set_ne (Ne.symm other), here]
    exact other (after j i held (key, value) second first same)
  · intro fresh a b one two first second same
    rw [List.getElem?_set] at first second
    by_cases left : i = a
    · by_cases right : i = b
      · exact left.symm.trans right
      · rw [if_pos left, if_pos inside] at first
        rw [if_neg right] at second
        cases first
        exact absurd same.symm (fresh b two (Ne.symm right) second)
    · rw [if_neg left] at first
      by_cases right : i = b
      · rw [if_pos right, if_pos inside] at second
        cases second
        exact absurd same (fresh a one (Ne.symm left) first)
      · rw [if_neg right] at second
        exact once a b one two first second same

theorem find_slot_set (inside : i < slots.length) (once : KeysOnce slots) (fresh : FreshBut slots i key) (other : κ) :
    findSlot (slots.set i (some (key, value))) other =
      if other = key then some value
      else if heldKey slots i = some other then none else findSlot slots other := by
  have after := (keys_once_set slots i key value inside once).mpr fresh
  by_cases own : other = key
  · rw [if_pos own, own, find_slot_some _ _ _ after]
    exact ⟨i, List.getElem?_set_self inside⟩
  rw [if_neg own]
  by_cases lost : heldKey slots i = some other
  · obtain ⟨held, here, same⟩ := (held_key_some slots i other).mp lost
    rw [if_pos lost, find_slot_none _ _ after]
    intro j next there equal
    rw [List.getElem?_set] at there
    by_cases at' : i = j
    · rw [if_pos at', if_pos inside] at there
      cases there
      exact own equal.symm
    · rw [if_neg at'] at there
      exact at' (once i j held next here there (same.trans equal.symm))
  · rw [if_neg lost]
    apply Option.ext
    intro found
    rw [find_slot_some _ _ _ after, find_slot_some _ _ _ once]
    refine exists_congr fun j => ?_
    rw [List.getElem?_set]
    by_cases at' : i = j
    · rw [if_pos at', if_pos inside]
      refine iff_of_false (fun same => ?_) fun same =>
        lost ((held_key_some slots i other).mpr ⟨(other, found), by rw [at', same], rfl⟩)
      cases same
      exact own rfl
    · rw [if_neg at']
end

end Base
