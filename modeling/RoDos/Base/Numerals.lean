import RoDos.Base.Decimal

set_option autoImplicit false

namespace Base

def numeralDigit (d : Nat) : UInt8 := UInt8.ofNat (if 9 < d then d - 10 + 65 else 48 + d)

def numeralBody (base n : Nat) : List UInt8 := (Nat.digits base n).reverse.map numeralDigit

def numeral (base n : Nat) : List UInt8 := if n = 0 then [48] else numeralBody base n

def IsNumeralDigit (base : Nat) (byte : UInt8) : Prop := ∃ d, d < base ∧ byte = numeralDigit d

instance (base : Nat) (byte : UInt8) : Decidable (IsNumeralDigit base byte) :=
  inferInstanceAs (Decidable (∃ d, d < base ∧ byte = numeralDigit d))

theorem numeral_digit_value (d : Nat) (small : d < 36) : (numeralDigit d).toNat = if 9 < d then d - 10 + 65 else 48 + d := by
  refine UInt8.toNat_ofNat_of_lt' (Nat.lt_of_lt_of_le (m := 91) ?_ (by decide))
  split <;> omega

theorem numeral_digit_range (d : Nat) (small : d < 36) : 48 ≤ (numeralDigit d).toNat := by
  rw [numeral_digit_value d small]
  split <;> omega

theorem numeral_digit_solid (d : Nat) (small : d < 36) : numeralDigit d ≠ 0 := by
  intro nul
  have range := numeral_digit_range d small
  rw [nul] at range
  exact absurd range (by decide)

theorem numeral_digit_decimal (d : Nat) (small : d < 10) : numeralDigit d = UInt8.ofNat (48 + d) := by
  rw [numeralDigit, if_neg (by omega)]

theorem decimal_numeral (n : Nat) : decimalText n = numeral 10 n := by
  have body : decimalBody n = numeralBody 10 n :=
    List.map_congr_left fun d member => (numeral_digit_decimal d (Nat.digits_lt_base (by decide) (List.mem_reverse.mp member))).symm
  rw [decimalText, numeral, body]

theorem numeral_body_length (base n : Nat) : (numeralBody base n).length = (Nat.digits base n).length := by
  rw [numeralBody, List.length_map, List.length_reverse]

section
variable (base : Nat) (proper : 1 < base)
include proper

theorem numeral_body_step (n : Nat) (positive : 0 < n) :
    numeralBody base n = numeralBody base (n / base) ++ [numeralDigit (n % base)] := by
  rw [numeralBody, Nat.digits_def' proper positive, List.reverse_cons, List.map_append]
  rfl

theorem numeral_digits (n : Nat) : ∀ byte ∈ numeral base n, IsNumeralDigit base byte := by
  intro byte member
  rw [numeral] at member
  by_cases zero : n = 0
  · rw [if_pos zero] at member
    exact ⟨0, by omega, List.mem_singleton.mp member⟩
  · rw [if_neg zero] at member
    obtain ⟨d, inDigits, same⟩ := List.mem_map.mp member
    exact ⟨d, Nat.digits_lt_base proper (List.mem_reverse.mp inDigits), same.symm⟩

theorem numeral_all (test : UInt8 → Prop) (passed : ∀ d, d < base → test (numeralDigit d)) (n : Nat) :
    ∀ byte ∈ numeral base n, test byte := by
  intro byte member
  obtain ⟨d, small, rfl⟩ := numeral_digits base proper n byte member
  exact passed d small

theorem numeral_some (n : Nat) : numeral base n ≠ [] := by
  rw [numeral]
  by_cases zero : n = 0
  · rw [if_pos zero]
    exact List.cons_ne_nil _ _
  · rw [if_neg zero, numeral_body_step base proper n (Nat.pos_of_ne_zero zero)]
    exact List.append_ne_nil_of_right_ne_nil _ (List.cons_ne_nil _ _)

-- A reader that takes digit after digit reads the number: cast is what it holds for a number that was read.
theorem numeral_read {α : Type} (f : α → UInt8 → α) (cast : Nat → α)
    (step : ∀ a d, d < base → f (cast a) (numeralDigit d) = cast (a * base + d)) (n : Nat) :
    (numeral base n).foldl f (cast 0) = cast n := by
  have body : ∀ n, (numeralBody base n).foldl f (cast 0) = cast n := by
    intro n
    induction n using Nat.strongRecOn with
    | ind n ih =>
        by_cases zero : n = 0
        · rw [zero, numeralBody, Nat.digits_zero]
          rfl
        · have positive := Nat.pos_of_ne_zero zero
          rw [numeral_body_step base proper n positive, List.foldl_append, ih (n / base) (Nat.div_lt_self positive proper),
            List.foldl_cons, List.foldl_nil, step _ _ (Nat.mod_lt n (by omega)), Nat.div_add_mod']
  rw [numeral]
  by_cases zero : n = 0
  · have first := step 0 0 (by omega)
    rw [Nat.zero_mul, Nat.add_zero] at first
    rw [if_pos zero, List.foldl_cons, List.foldl_nil, zero]
    exact first
  · rw [if_neg zero, body n]
end

theorem numeral_solid (base n : Nat) (proper : 1 < base) (small : base ≤ 36) : ∀ byte ∈ numeral base n, byte ≠ 0 :=
  numeral_all base proper (fun byte => byte ≠ 0) (fun d below => numeral_digit_solid d (by omega)) n

end Base
