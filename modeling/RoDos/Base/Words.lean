import Mathlib.Data.List.TakeWhile

set_option autoImplicit false

namespace Base

variable {α : Type} (space : α → Bool)

-- The longest runs without a separator.
def words (s : List α) : List (List α) := (s.splitOnP space).filter fun word => word ≠ []

def leadingWord (s : List α) : List α := (s.dropWhile space).takeWhile fun a => !space a

def behindWord (s : List α) : List α := (s.dropWhile space).dropWhile fun a => !space a

theorem words_space (a : α) (separates : space a = true) (front back : List α) :
    words space (front ++ a :: back) = words space front ++ words space back := by
  rw [words, List.splitOnP_append_cons front back separates, List.filter_append]
  rfl

theorem words_solid (s : List α) (solid : ∀ a ∈ s, space a = false) (some' : s ≠ []) : words space s = [s] := by
  rw [words, List.splitOnP_eq_singleton solid]
  exact List.filter_cons_of_pos (decide_eq_true some')

theorem words_drop (s : List α) : words space (s.dropWhile space) = words space s := by
  induction s with
  | nil => rfl
  | cons a rest ih =>
      rw [List.dropWhile_cons]
      split
      · rename_i separates
        have front := words_space space a separates [] rest
        rw [List.nil_append] at front
        rw [ih, front]
        rfl
      · rfl

theorem leading_word_solid (s : List α) : ∀ a ∈ leadingWord space s, space a = false := by
  intro a member
  have solid := List.mem_takeWhile_imp member
  simpa using solid

theorem word_split (s : List α) : s.dropWhile space = leadingWord space s ++ behindWord space s :=
  (List.takeWhile_append_dropWhile).symm

theorem behind_word_space (s : List α) (a : α) (rest : List α) (behind : behindWord space s = a :: rest) :
    space a = true := by
  have head := List.head?_dropWhile_not (fun a => !space a) (s.dropWhile space)
  rw [← behindWord, behind] at head
  simpa using head

theorem leading_word_nil (s : List α) : leadingWord space s = [] ↔ s.dropWhile space = [] := by
  constructor
  · intro none'
    rw [word_split space s, none', List.nil_append]
    cases behind : behindWord space s with
    | nil => rfl
    | cons a rest =>
        have separates := behind_word_space space s a rest behind
        have first := List.head?_dropWhile_not space s
        rw [word_split space s, none', List.nil_append, behind] at first
        exact Bool.noConfusion (separates.symm.trans first)
  · intro empty
    rw [leadingWord, empty]
    rfl

theorem words_leading (s : List α) : words space s =
    if s.dropWhile space = [] then [] else leadingWord space s :: words space (behindWord space s) := by
  by_cases empty : s.dropWhile space = []
  · rw [if_pos empty, ← words_drop space s, empty]
    rfl
  · have some' : leadingWord space s ≠ [] := fun none' => empty ((leading_word_nil space s).mp none')
    have solid := words_solid space _ (leading_word_solid space s) some'
    rw [if_neg empty, ← words_drop space s, word_split space s]
    cases behind : behindWord space s with
    | nil => rw [List.append_nil, solid]; rfl
    | cons a rest =>
        have separates := behind_word_space space s a rest behind
        have later := words_space space a separates [] rest
        rw [List.nil_append] at later
        rw [words_space space a separates, solid, later]
        rfl

theorem cut_unique (a : α) (front other back further : List α) (fresh : a ∉ front) (fresh' : a ∉ other)
    (same : front ++ a :: back = other ++ a :: further) : front = other ∧ back = further := by
  induction front generalizing other with
  | nil =>
      cases other with
      | nil => exact ⟨rfl, (List.cons.inj same).2⟩
      | cons b rest => exact absurd ((List.cons.inj same).1 ▸ List.mem_cons_self) fresh'
  | cons b front ih =>
      cases other with
      | nil => exact absurd ((List.cons.inj same).1 ▸ List.mem_cons_self) fresh
      | cons c rest =>
          obtain ⟨head, tail⟩ := List.cons.inj same
          obtain ⟨fronts, backs⟩ := ih rest (fun member => fresh (List.mem_cons_of_mem _ member))
            (fun member => fresh' (List.mem_cons_of_mem _ member)) tail
          exact ⟨by rw [head, fronts], backs⟩

theorem word_framed (front word back : List α) (before : ∀ a ∈ front, space a = true)
    (solid : ∀ a ∈ word, space a = false) (some' : word ≠ []) (after : ∀ a ∈ back, space a = true) :
    leadingWord space (front ++ word ++ back) = word ∧ behindWord space (front ++ word ++ back) = back := by
  have open' : ∀ a ∈ word, (!space a) = true := fun a member => by rw [solid a member]; rfl
  have start : (front ++ word ++ back).dropWhile space = word ++ back := by
    rw [List.append_assoc, List.dropWhile_append_of_pos before]
    cases word with
    | nil => exact absurd rfl some'
    | cons a rest => rw [List.cons_append, List.dropWhile_cons, if_neg (by rw [solid a List.mem_cons_self]; exact Bool.false_ne_true)]
  rw [leadingWord, behindWord, start, List.takeWhile_append_of_pos open', List.dropWhile_append_of_pos open']
  cases back with
  | nil => exact ⟨List.append_nil word, rfl⟩
  | cons a rest =>
      have closed : (!space a) = false := by rw [after a List.mem_cons_self]; rfl
      rw [List.takeWhile_cons, List.dropWhile_cons, closed]
      exact ⟨List.append_nil word, rfl⟩

end Base
