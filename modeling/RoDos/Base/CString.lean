import Mathlib.Data.List.DropRight
import Mathlib.Data.List.GetD
import Mathlib.Tactic.Common

set_option autoImplicit false

namespace Base

def cString (buffer : List UInt8) : List UInt8 := buffer.takeWhile fun byte => byte ≠ 0

-- The bounded copy loop: at most max - 1 bytes, then a NUL; the rest of the buffer stays.
def strCopy (dst src : List UInt8) (max : Nat) : List UInt8 :=
  let kept := (cString src).take (max - 1)
  kept ++ 0 :: dst.drop (kept.length + 1)

def ascii (text : String) : List UInt8 := text.toList.map fun char => UInt8.ofNat char.toNat

theorem c_string_no_nul (buffer : List UInt8) : ∀ byte ∈ cString buffer, byte ≠ 0 := by
  intro byte member
  simpa using List.mem_takeWhile_imp member

theorem c_string_terminated (text rest : List UInt8) (noNul : ∀ byte ∈ text, byte ≠ 0) :
    cString (text ++ 0 :: rest) = text := by
  have whole : text.takeWhile (fun byte => byte ≠ 0) = text :=
    List.takeWhile_eq_self_iff.mpr fun byte member => by simpa using noNul byte member
  rw [cString, List.takeWhile_append, if_pos (by rw [whole])]
  simp

theorem c_string_self (text : List UInt8) (noNul : ∀ byte ∈ text, byte ≠ 0) : cString text = text :=
  List.takeWhile_eq_self_iff.mpr fun byte member => by simpa using noNul byte member

theorem c_string_split (buffer : List UInt8) :
    buffer = cString buffer ∨ ∃ rest, buffer = cString buffer ++ 0 :: rest := by
  induction buffer with
  | nil => exact Or.inl rfl
  | cons byte rest ih =>
      by_cases nul : byte = 0
      · exact Or.inr ⟨rest, by simp [cString, nul]⟩
      · have step : cString (byte :: rest) = byte :: cString rest := by simp [cString, nul]
        rw [step]
        rcases ih with same | ⟨tail, same⟩
        · exact Or.inl (by rw [← same])
        · exact Or.inr ⟨tail, by rw [List.cons_append, ← same]⟩

theorem c_string_copy (dst src : List UInt8) (max : Nat) :
    cString (strCopy dst src max) = (cString src).take (max - 1) :=
  c_string_terminated _ _ fun byte member => c_string_no_nul src byte (List.mem_of_mem_take member)

theorem str_copy_length (dst src : List UInt8) (max : Nat) (room : max ≤ dst.length) (positive : 0 < max) :
    (strCopy dst src max).length = dst.length := by
  have kept := List.length_take_le (max - 1) (cString src)
  rw [strCopy, List.length_append, List.length_cons, List.length_drop]
  omega

theorem get_behind (front back : List UInt8) (i : Nat) : (front ++ back).getD (front.length + i) 0 = back.getD i 0 := by
  rw [List.getD_append_right _ _ _ _ (Nat.le_add_right _ _), Nat.add_sub_cancel_left]

end Base
