import RoDos.Base.CString
import RoDos.Base.Words

set_option autoImplicit false

namespace RoDos

open Base

def isSpace (byte : UInt8) : Bool := byte = 32 ∨ byte = 9

def skipSpaces (s : List UInt8) : List UInt8 := s.dropWhile isSpace

-- The token, cut to max - 1 bytes, and the string from where the copying stopped.
def getToken (s : List UInt8) (max : Nat) : List UInt8 × List UInt8 :=
  let start := skipSpaces s
  let token := (start.takeWhile fun byte => !isSpace byte).take (max - 1)
  (token, start.drop token.length)

theorem get_token_length (s : List UInt8) (max : Nat) : (getToken s max).1.length ≤ max - 1 := List.length_take_le _ _

theorem get_token_rest (s : List UInt8) (max : Nat) : (getToken s max).2.length ≤ s.length :=
  Nat.le_trans (List.drop_sublist _ _).length_le (List.dropWhile_sublist _).length_le

theorem get_token_subset (s : List UInt8) (max : Nat) (byte : UInt8) (member : byte ∈ (getToken s max).1) :
    byte ∈ s ∧ isSpace byte = false := by
  have inside := List.mem_of_mem_take member
  have solid := List.mem_takeWhile_imp inside
  refine ⟨(List.dropWhile_sublist _).subset ((List.takeWhile_sublist _).subset inside), ?_⟩
  simpa using solid

theorem get_token_leading (s : List UInt8) (max : Nat) : getToken s max =
    ((leadingWord isSpace s).take (max - 1), (leadingWord isSpace s).drop (max - 1) ++ behindWord isSpace s) := by
  have split := word_split isSpace s
  have token : (getToken s max).1 = (leadingWord isSpace s).take (max - 1) := rfl
  refine Prod.ext token ?_
  show (skipSpaces s).drop (getToken s max).1.length = _
  rw [token, skipSpaces, split, List.drop_append, List.length_take]
  by_cases fits : (leadingWord isSpace s).length ≤ max - 1
  · rw [Nat.min_eq_right fits, Nat.sub_self, List.drop_zero, List.drop_of_length_le (Nat.le_refl _),
      List.drop_of_length_le fits]
  · have inside : max - 1 - (leadingWord isSpace s).length = 0 := by omega
    rw [Nat.min_eq_left (by omega), inside, List.drop_zero]

theorem get_token_fits (s : List UInt8) (max : Nat) (fits : (leadingWord isSpace s).length ≤ max - 1) :
    getToken s max = (leadingWord isSpace s, behindWord isSpace s) := by
  rw [get_token_leading, List.take_of_length_le fits, List.drop_of_length_le fits, List.nil_append]

theorem get_token_behind (s : List UInt8) (max : Nat) :
    (getToken s max).2 = behindWord isSpace s ↔ (leadingWord isSpace s).length ≤ max - 1 := by
  constructor
  · intro behind
    have lengths := congrArg List.length behind
    rw [get_token_leading, List.length_append, List.length_drop] at lengths
    omega
  · intro fits
    rw [get_token_fits s max fits]

theorem get_token_shortens (s : List UInt8) (max : Nat) (positive : 1 < max) (word : skipSpaces s ≠ []) :
    (getToken s max).2.length < s.length := by
  have some' : leadingWord isSpace s ≠ [] := fun none' => word ((leading_word_nil isSpace s).mp none')
  have positive' := List.length_pos_iff.mpr some'
  have lengths := congrArg List.length (word_split isSpace s)
  have kept := (List.dropWhile_sublist (l := s) isSpace).length_le
  rw [List.length_append] at lengths
  rw [get_token_leading, List.length_append, List.length_drop]
  omega

theorem get_token_map (f : UInt8 → UInt8) (same : ∀ byte, isSpace (f byte) = isSpace byte) (s : List UInt8) (max : Nat) :
    getToken (s.map f) max = ((getToken s max).1.map f, (getToken s max).2.map f) := by
  have spaces : (isSpace ∘ f) = isSpace := funext same
  have solids : ((fun byte => !isSpace byte) ∘ f) = fun byte => !isSpace byte := funext fun byte => by simp [same]
  simp only [getToken, skipSpaces, List.dropWhile_map, List.takeWhile_map, spaces, solids, ← List.map_take,
    List.length_map, List.map_drop]

end RoDos
