import Mathlib.Tactic.Common

set_option autoImplicit false

namespace Base

-- The stack below a frame pointer: word k stands at [ebp - 4 * (k + 1)], and depth words are pushed. A store may
-- well go below the stack pointer.
structure CallStack where
  words : Nat → Nat
  depth : Nat

namespace CallStack

def slot (below : Nat) : Nat := below / 4 - 1

def push (stack : CallStack) (value : Nat) : CallStack :=
  ⟨fun k => if k = stack.depth then value else stack.words k, stack.depth + 1⟩

def top (stack : CallStack) : Nat := stack.words (stack.depth - 1)

def pop (stack : CallStack) : CallStack := ⟨stack.words, stack.depth - 1⟩

def load (stack : CallStack) (below : Nat) : Nat := stack.words (slot below)

def store (stack : CallStack) (below value : Nat) : CallStack :=
  ⟨fun k => if k = slot below then value else stack.words k, stack.depth⟩

def call (stack : CallStack) (leaves : Nat → Nat) : CallStack :=
  ⟨fun k => if k < stack.depth then stack.words k else leaves k, stack.depth⟩

structure Holds (stack : CallStack) (pushed : List Nat) : Prop where
  depth : stack.depth = pushed.length
  words : ∀ k < pushed.length, pushed[k]? = some (stack.words k)

section
variable (stack : CallStack) (pushed : List Nat)

theorem push_words (value k : Nat) : (stack.push value).words k = if k = stack.depth then value else stack.words k := rfl

theorem call_words (leaves : Nat → Nat) (k : Nat) :
    (stack.call leaves).words k = if k < stack.depth then stack.words k else leaves k := rfl

theorem store_words (below value k : Nat) :
    (stack.store below value).words k = if k = slot below then value else stack.words k := rfl

theorem holds_push (value : Nat) (holds : stack.Holds pushed) : (stack.push value).Holds (pushed ++ [value]) := by
  refine ⟨by rw [push, holds.depth, List.length_append, List.length_singleton], fun k below => ?_⟩
  rw [List.length_append, List.length_singleton] at below
  rw [push_words, holds.depth]
  rcases Nat.lt_or_ge k pushed.length with before | last
  · rw [List.getElem?_append_left before, if_neg (Nat.ne_of_lt before)]
    exact holds.words k before
  · have same : k = pushed.length := by omega
    rw [List.getElem?_append_right last, if_pos same, same, Nat.sub_self]
    rfl

theorem holds_top (value : Nat) (holds : stack.Holds (pushed ++ [value])) : stack.top = value := by
  have depth := holds.depth
  rw [List.length_append, List.length_singleton] at depth
  have word := holds.words pushed.length (by rw [List.length_append, List.length_singleton]; omega)
  rw [List.getElem?_append_right (Nat.le_refl _), Nat.sub_self] at word
  rw [top, depth, Nat.add_sub_cancel]
  exact (Option.some.inj word).symm

theorem holds_pop (value : Nat) (holds : stack.Holds (pushed ++ [value])) : stack.pop.Holds pushed := by
  have depth := holds.depth
  rw [List.length_append, List.length_singleton] at depth
  refine ⟨by rw [pop, depth, Nat.add_sub_cancel], fun k below => ?_⟩
  have word := holds.words k (by rw [List.length_append, List.length_singleton]; omega)
  rwa [List.getElem?_append_left below] at word

theorem holds_call (leaves : Nat → Nat) (holds : stack.Holds pushed) : (stack.call leaves).Holds pushed := by
  refine ⟨holds.depth, fun k below => ?_⟩
  rw [call_words, holds.depth, if_pos below]
  exact holds.words k below

theorem holds_load (below value : Nat) (holds : stack.Holds pushed) (inside : pushed[slot below]? = some value) :
    stack.load below = value := by
  have bound := (List.getElem?_eq_some_iff.mp inside).1
  have word := holds.words (slot below) bound
  rw [inside] at word
  exact (Option.some.inj word).symm

theorem holds_store (below value : Nat) (holds : stack.Holds pushed) :
    (stack.store below value).Holds (pushed.set (slot below) value) := by
  refine ⟨by rw [store, holds.depth, List.length_set], fun k inside => ?_⟩
  rw [List.length_set] at inside
  rw [store_words]
  by_cases same : k = slot below
  · rw [if_pos same, ← same, List.getElem?_set_self inside]
  · rw [if_neg same, List.getElem?_set_ne (Ne.symm same)]
    exact holds.words k inside

theorem holds_store_below (below value : Nat) (holds : stack.Holds pushed) (outside : pushed.length ≤ slot below) :
    (stack.store below value).Holds pushed := by
  have stored := holds_store stack pushed below value holds
  rwa [List.set_eq_of_length_le outside] at stored
end

end CallStack

end Base
