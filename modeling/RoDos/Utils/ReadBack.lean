import RoDos.Fs.Model
import RoDos.Gui.Calculator
import RoDos.Utils.Convert

set_option autoImplicit false

namespace RoDos.Utils

open Base Fs Gui

-- A prefix of '0' and a letter, which htoi and btoi pass over.
def skipPrefix (lower upper : UInt8) (str : List UInt8) : List UInt8 :=
  if str.getD 0 0 = 48 ∧ (str.getD 1 0 = lower ∨ str.getD 1 0 = upper) then str.drop 2 else str

def hexValue (c : UInt8) : Option UInt32 :=
  if 48 ≤ c ∧ c ≤ 57 then some (c - 48).toUInt32
  else if 97 ≤ c ∧ c ≤ 102 then some (c - 97 + 10).toUInt32
  else if 65 ≤ c ∧ c ≤ 70 then some (c - 65 + 10).toUInt32
  else none

def htoiLoop : List UInt8 → UInt32 → UInt32
  | [], result => result
  | c :: str, result =>
      if c = 0 then result
      else
        match hexValue c with
        | some value => htoiLoop str (result <<< 4 ||| value)
        | none => result

def htoi (memory : List UInt8) (str : Nat) : UInt32 :=
  if str = 0 then 0 else htoiLoop (skipPrefix 120 88 ((memory.drop str).dropWhile isspace)) 0

-- while (*str == '0' || *str == '1') { result = (result << 1) + (*str++ - '0'); }
def btoiLoop (str : List UInt8) : UInt32 :=
  (str.takeWhile fun byte => byte = 48 ∨ byte = 49).foldl (fun result byte => (result <<< 1) + (byte - 48).toUInt32) 0

def btoi (memory : List UInt8) (str : Nat) : UInt32 :=
  if str = 0 then 0 else btoiLoop (skipPrefix 98 66 ((memory.drop str).dropWhile isspace))

-- int_to_str with its buffer at a place of the memory.
def intToStrAt (memory : List UInt8) (n : UInt32) (buf : Nat) : List UInt8 := setAll memory (shifted buf (intToStr n.toNat))

def hexadecimal : Radix := ⟨16, by decide, by decide⟩
def binary : Radix := ⟨2, by decide, by decide⟩
def decimal : Radix := ⟨10, by decide, by decide⟩

theorem no_prefix (lower upper : UInt8) (base n : Nat) (proper : 1 < base) (rest : List UInt8) (solid : lower ≠ 0 ∧ upper ≠ 0)
    (letters : ¬IsNumeralDigit base lower ∧ ¬IsNumeralDigit base upper) :
    skipPrefix lower upper (numeral base n ++ 0 :: rest) = numeral base n ++ 0 :: rest := by
  have digits := numeral_digits base proper n
  have second : (numeral base n ++ 0 :: rest).getD 1 0 = 0 ∨ IsNumeralDigit base ((numeral base n ++ 0 :: rest).getD 1 0) := by
    obtain ⟨first, others, split⟩ := List.exists_cons_of_ne_nil (numeral_some base proper n)
    rw [split] at digits ⊢
    cases others with
    | nil => exact Or.inl rfl
    | cons next others => exact Or.inr (digits next (List.mem_cons_of_mem _ List.mem_cons_self))
  refine if_neg fun skipped => ?_
  rcases skipped.2 with same | same
  · rw [same] at second
    exact second.elim solid.1 letters.1
  · rw [same] at second
    exact second.elim solid.2 letters.2

theorem hex_pushed (a d : Nat) (small : d < 16) : UInt32.ofNat a <<< 4 ||| UInt32.ofNat d = UInt32.ofNat (a * 16 + d) := by
  have high : (UInt32.ofNat a <<< 4).toNat = (a % 2 ^ 28) <<< 4 := by
    rw [UInt32.toNat_shiftLeft, UInt32.toNat_ofNat', Nat.shiftLeft_eq, Nat.shiftLeft_eq]
    show a % 2 ^ 32 * 2 ^ 4 % 2 ^ 32 = a % 2 ^ 28 * 2 ^ 4
    omega
  rw [← UInt32.toNat_inj, UInt32.toNat_or, high, UInt32.toNat_ofNat', UInt32.toNat_ofNat',
    Nat.mod_eq_of_lt (show d < 2 ^ 32 by omega), ← Nat.shiftLeft_add_eq_or_of_lt (i := 4) small, Nat.shiftLeft_eq]
  omega

theorem bit_pushed (a d : Nat) : (UInt32.ofNat a <<< 1) + UInt32.ofNat d = UInt32.ofNat (a * 2 + d) := by
  have high : (UInt32.ofNat a <<< 1).toNat = a * 2 % 2 ^ 32 := by
    rw [UInt32.toNat_shiftLeft, UInt32.toNat_ofNat', Nat.shiftLeft_eq]
    show a % 2 ^ 32 * 2 ^ 1 % 2 ^ 32 = a * 2 % 2 ^ 32
    omega
  rw [← UInt32.toNat_inj, UInt32.toNat_add, high, UInt32.toNat_ofNat', UInt32.toNat_ofNat']
  omega

theorem htoi_loop_fold (text rest : List UInt8) (digits : ∀ byte ∈ text, IsNumeralDigit 16 byte) (result : UInt32) :
    htoiLoop (text ++ 0 :: rest) result = text.foldl (fun (result : UInt32) c => result <<< 4 ||| (hexValue c).getD 0) result := by
  induction text generalizing result with
  | nil => exact if_pos rfl
  | cons c text ih =>
      have values : ∀ d : Nat, d < 16 → numeralDigit d ≠ 0 ∧ (hexValue (numeralDigit d)).isSome := by decide
      obtain ⟨d, small, same⟩ := digits c List.mem_cons_self
      obtain ⟨solid, known⟩ := values d small
      rw [← same] at solid known
      obtain ⟨value, read⟩ := Option.isSome_iff_exists.mp known
      rw [List.cons_append, htoiLoop, if_neg solid, read, List.foldl_cons, read]
      exact ih (fun byte member => digits byte (List.mem_cons_of_mem _ member)) _

theorem htoi_loop_numeral (n : Nat) (rest : List UInt8) : htoiLoop (numeral 16 n ++ 0 :: rest) 0 = UInt32.ofNat n := by
  have value : ∀ d : Nat, d < 16 → (hexValue (numeralDigit d)).getD 0 = UInt32.ofNat d := by decide
  rw [htoi_loop_fold _ rest (numeral_digits 16 (by decide) n)]
  refine numeral_read 16 (by decide) _ UInt32.ofNat (fun a d small => ?_) n
  rw [value d small, hex_pushed a d small]

theorem btoi_loop_numeral (n : Nat) (rest : List UInt8) : btoiLoop (numeral 2 n ++ 0 :: rest) = UInt32.ofNat n := by
  have digits : ∀ d : Nat, d < 2 → (numeralDigit d = 48 ∨ numeralDigit d = 49) ∧ (numeralDigit d - 48).toUInt32 = UInt32.ofNat d := by
    decide
  have passed := numeral_all 2 (by decide) (fun byte => decide (byte = 48 ∨ byte = 49) = true) (fun d small => decide_eq_true (digits d small).1) n
  rw [btoiLoop, List.takeWhile_append_of_pos passed, List.takeWhile_cons_of_neg (by decide), List.append_nil]
  refine numeral_read 2 (by decide) _ UInt32.ofNat (fun a d small => ?_) n
  rw [(digits d small).2, bit_pushed]

theorem str_to_int_numeral (n : Nat) : strToInt (numeral 10 n) = UInt32.ofNat n := by
  have digits : ∀ d : Nat, d < 10 → (48 ≤ numeralDigit d ∧ numeralDigit d ≤ 57) ∧ (numeralDigit d - 48).toUInt32 = UInt32.ofNat d := by
    decide
  have passed := numeral_all 10 (by decide) (fun byte => decide (48 ≤ byte ∧ byte ≤ 57) = true) (fun d small => decide_eq_true (digits d small).1) n
  rw [strToInt, List.takeWhile_eq_self_iff.mpr passed]
  refine numeral_read 10 (by decide) _ UInt32.ofNat (fun a d small => ?_) n
  rw [(digits d small).2, UInt32.ofNat_add, UInt32.ofNat_mul]
  rfl

theorem int_to_str_at_stored (memory : List UInt8) (n : UInt32) (buf : Nat) (room : buf + (numeral 10 n.toNat).length < memory.length) :
    intToStrAt memory n buf = storeText memory buf (numeral 10 n.toNat) := by
  rw [← decimal_numeral] at room ⊢
  have bytes := int_to_str_bytes (memory.drop buf) n.toNat (by rw [List.length_drop]; omega)
  rw [intToStrAt, set_all_shifted memory buf (by omega), bytes, store_text_split memory buf _ room, List.drop_drop, List.append_assoc,
    Nat.add_assoc]

theorem int_to_str_writes (n : Nat) : (intToStr n).length = (decimalText n).length + 1 := by
  have puts : ∀ n i, (putDigits n i).length = (decimalBody n).length := by
    intro n
    induction n using Nat.strongRecOn with
    | ind n ih =>
        intro i
        rw [putDigits]
        by_cases zero : n = 0
        · rw [if_pos zero, zero, decimal_body_zero, List.length_nil, List.length_nil]
        · rw [if_neg zero, List.length_cons, ih _ (Nat.div_lt_self (Nat.pos_of_ne_zero zero) (by decide)),
            decimal_body_step n (Nat.pos_of_ne_zero zero), List.length_append, List.length_singleton]
  rw [intToStr, decimalText]
  by_cases zero : n = 0
  · rw [if_pos zero, if_pos zero]
    rfl
  · rw [if_neg zero, if_neg zero, List.length_cons, puts]

section
variable (memory : List UInt8) (str : Nat) (some' : str ≠ 0) (v : UInt32)

section
include some'

theorem htoi_utoa (room : str + (numeral 16 v.toNat).length < memory.length) : htoi (utoa memory v str 16).1 str = v := by
  have stored : utoa memory v str 16 = (storeText memory str (numeral 16 v.toNat), str) :=
    utoa_stored memory str some' hexadecimal v room
  rw [stored]
  dsimp only
  rw [htoi, if_neg some', store_text_drop memory str _ room, (numeral_starts 16 v.toNat (by decide) (by decide) _).1,
    no_prefix 120 88 16 v.toNat (by decide) _ (by decide) (by decide), htoi_loop_numeral, UInt32.ofNat_toNat]

theorem btoi_utoa (room : str + (numeral 2 v.toNat).length < memory.length) : btoi (utoa memory v str 2).1 str = v := by
  have stored : utoa memory v str 2 = (storeText memory str (numeral 2 v.toNat), str) := utoa_stored memory str some' binary v room
  rw [stored]
  dsimp only
  rw [btoi, if_neg some', store_text_drop memory str _ room, (numeral_starts 2 v.toNat (by decide) (by decide) _).1,
    no_prefix 98 66 2 v.toNat (by decide) _ (by decide) (by decide), btoi_loop_numeral, UInt32.ofNat_toNat]

theorem utoa_int_to_str (room : str + (numeral 10 v.toNat).length < memory.length) : (utoa memory v str 10).1 = intToStrAt memory v str := by
  have stored : utoa memory v str 10 = (storeText memory str (numeral 10 v.toNat), str) := utoa_stored memory str some' decimal v room
  rw [stored, int_to_str_at_stored memory v str room]
end

theorem str_to_int_int_to_str (room : str + (numeral 10 v.toNat).length < memory.length) :
    strToInt (textAt (intToStrAt memory v str) str) = v := by
  rw [int_to_str_at_stored memory v str room,
    store_text_text memory str _ (numeral_solid 10 v.toNat (by decide) (by decide)) room, str_to_int_numeral, UInt32.ofNat_toNat]

theorem printed_read_back (some' : str ≠ 0) :
    (str + (numeral 16 v.toNat).length < memory.length → htoi (utoa memory v str 16).1 str = v) ∧
    (str + (numeral 2 v.toNat).length < memory.length → btoi (utoa memory v str 2).1 str = v) ∧
    (str + (numeral 10 v.toNat).length < memory.length →
      strToInt (textAt (intToStrAt memory v str) str) = v ∧
      textAt (utoa memory v str 10).1 str = textAt (intToStrAt memory v str) str) ∧
    Inside 11 (intToStr v.toNat) ∧ (intToStr v.toNat).length ≤ 11 := by
  have short := decimal_text_length v.toNat 9 (Nat.lt_trans v.toNat_lt (by decide))
  refine ⟨htoi_utoa memory str some' v, btoi_utoa memory str some' v, fun room => ⟨str_to_int_int_to_str memory str v room, ?_⟩,
    int_to_str_inside v.toNat 11 (by omega), ?_⟩
  · rw [utoa_int_to_str memory str some' v room]
  · rw [int_to_str_writes]
    omega
end

theorem printed_read_back_largest :
    htoi (utoa (List.replicate 40 7) 4294967295 4 16).1 4 = 4294967295 ∧
    btoi (utoa (List.replicate 40 7) 4294967295 4 2).1 4 = 4294967295 ∧
    strToInt (textAt (intToStrAt (List.replicate 40 7) 4294967295 4) 4) = 4294967295 :=
  have all := printed_read_back (List.replicate 40 7) 4 4294967295 (by decide)
  ⟨all.1 (by decide), all.2.1 (by decide), (all.2.2.1 (by decide)).1⟩

end RoDos.Utils
