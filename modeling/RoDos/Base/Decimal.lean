import RoDos.Base.Writes
import Mathlib.Data.Nat.Digits.Lemmas

set_option autoImplicit false

namespace Base

def decimalBody (n : Nat) : List UInt8 := (Nat.digits 10 n).reverse.map fun d => UInt8.ofNat (48 + d)

def decimalText (n : Nat) : List UInt8 := if n = 0 then [48] else decimalBody n

def signedDecimal (n : Int) : List UInt8 := if n < 0 then 45 :: decimalText n.natAbs else decimalText n.natAbs

def isDigit (byte : UInt8) : Bool := 48 ≤ byte ∧ byte ≤ 57

def decimalValue (digits : List UInt8) : Nat := digits.foldl (fun n byte => n * 10 + (byte.toNat - 48)) 0

theorem digit_byte (d : Nat) (small : d < 10) : (UInt8.ofNat (48 + d)).toNat = 48 + d :=
  UInt8.toNat_ofNat_of_lt' (Nat.lt_of_lt_of_le (Nat.add_lt_add_left small 48) (by decide))

theorem digit_is_digit (d : Nat) (small : d < 10) : isDigit (UInt8.ofNat (48 + d)) = true := by
  have byte := digit_byte d small
  refine decide_eq_true ⟨UInt8.le_iff_toNat_le.mpr ?_, UInt8.le_iff_toNat_le.mpr ?_⟩
  · rw [byte]
    exact Nat.le_add_right 48 d
  · rw [byte]
    exact Nat.add_le_add_left (Nat.le_of_lt_succ small) 48

theorem is_digit_range (byte : UInt8) (digit : isDigit byte = true) : 48 ≤ byte.toNat ∧ byte.toNat ≤ 57 := by
  have range := of_decide_eq_true digit
  exact ⟨UInt8.le_iff_toNat_le.mp range.1, UInt8.le_iff_toNat_le.mp range.2⟩

theorem digit_of_byte (byte : UInt8) (digit : isDigit byte = true) : UInt8.ofNat (48 + (byte.toNat - 48)) = byte := by
  have range := is_digit_range byte digit
  have sum : 48 + (byte.toNat - 48) = byte.toNat := by omega
  rw [sum, UInt8.ofNat_toNat]

theorem decimal_body_zero : decimalBody 0 = [] := rfl

theorem decimal_body_step (n : Nat) (positive : 0 < n) :
    decimalBody n = decimalBody (n / 10) ++ [UInt8.ofNat (48 + n % 10)] := by
  rw [decimalBody, Nat.digits_def' (by decide) positive, List.reverse_cons, List.map_append, ← decimalBody]
  rfl

theorem decimal_body_length (n k : Nat) : (decimalBody n).length ≤ k ↔ n < 10 ^ k := by
  rw [decimalBody, List.length_map, List.length_reverse]
  exact Nat.digits_length_le_iff (by decide) n

theorem decimal_body_digits (n : Nat) : ∀ byte ∈ decimalBody n, isDigit byte = true := by
  intro byte member
  obtain ⟨d, inDigits, rfl⟩ := List.mem_map.mp member
  exact digit_is_digit d (Nat.digits_lt_base (by decide) (List.mem_reverse.mp inDigits))

theorem decimal_value_snoc (front : List UInt8) (byte : UInt8) :
    decimalValue (front ++ [byte]) = decimalValue front * 10 + (byte.toNat - 48) := by
  rw [decimalValue, List.foldl_append]
  rfl

theorem decimal_body_value (n : Nat) : decimalValue (decimalBody n) = n := by
  induction n using Nat.strongRecOn with
  | ind n ih =>
      by_cases zero : n = 0
      · rw [zero]
        rfl
      · have positive := Nat.pos_of_ne_zero zero
        rw [decimal_body_step n positive, decimal_value_snoc, ih (n / 10) (Nat.div_lt_self positive (by decide)),
          digit_byte _ (Nat.mod_lt n (by decide))]
        omega

theorem decimal_text_digits (n : Nat) : ∀ byte ∈ decimalText n, isDigit byte = true := by
  rw [decimalText]
  split
  · intro byte member
    rw [List.mem_singleton.mp member]
    decide
  · exact decimal_body_digits n

theorem decimal_text_value (n : Nat) : decimalValue (decimalText n) = n := by
  rw [decimalText]
  split
  · rename_i zero
    rw [zero]
    rfl
  · exact decimal_body_value n

theorem decimal_text_length (n k : Nat) (small : n < 10 ^ (k + 1)) : (decimalText n).length ≤ k + 1 := by
  rw [decimalText]
  split
  · exact Nat.le_add_left 1 k
  · exact (decimal_body_length n (k + 1)).mpr small

theorem digit_not_nul (byte : UInt8) (digit : isDigit byte = true) : byte ≠ 0 := by
  rintro rfl
  exact absurd digit (by decide)

theorem decimal_text_digit (byte : UInt8) (digit : isDigit byte = true) : decimalText (byte.toNat - 48) = [byte] := by
  have range := is_digit_range byte digit
  have same := digit_of_byte byte digit
  rw [decimalText]
  split
  · rename_i zero
    rw [zero] at same
    rw [← same]
    rfl
  · rename_i some'
    rw [decimal_body_step _ (Nat.pos_of_ne_zero some'), Nat.div_eq_of_lt (by omega), decimal_body_zero,
      Nat.mod_eq_of_lt (by omega), same, List.nil_append]

theorem decimal_text_snoc (n : Nat) (positive : 0 < n) (byte : UInt8) (digit : isDigit byte = true) :
    decimalText (n * 10 + (byte.toNat - 48)) = decimalText n ++ [byte] := by
  have range := is_digit_range byte digit
  rw [decimalText, if_neg (by omega), decimal_body_step _ (by omega), decimalText, if_neg (by omega)]
  have front : (n * 10 + (byte.toNat - 48)) / 10 = n := by omega
  have last : (n * 10 + (byte.toNat - 48)) % 10 = byte.toNat - 48 := by omega
  rw [front, last, digit_of_byte byte digit]

theorem decimal_text_signed (n : Nat) (value : Int) : decimalText n = signedDecimal value ↔ (n : Int) = value := by
  rw [signedDecimal]
  by_cases negative : value < 0
  · rw [if_pos negative]
    refine iff_of_false (fun same => ?_) (by omega)
    have digit := decimal_text_digits n 45 (same ▸ List.mem_cons_self)
    exact absurd digit (by decide)
  · rw [if_neg negative]
    constructor
    · intro same
      have values := congrArg decimalValue same
      rw [decimal_text_value, decimal_text_value] at values
      omega
    · intro same
      have naturals : n = value.natAbs := by omega
      rw [naturals]

end Base
