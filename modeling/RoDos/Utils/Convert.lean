import RoDos.Base.Numerals
import RoDos.Base.Pointers
import RoDos.Base.Signed

set_option autoImplicit false

namespace RoDos.Utils

open Base

structure Radix where
  base : Int32
  low : 2 ≤ base
  high : base ≤ 36

def Radix.value (radix : Radix) : Nat := radix.base.toUInt32.toNat

theorem Radix.value_base (radix : Radix) : (radix.value : Int) = radix.base.toInt := by
  have value := to_uint32_value radix.base
  have low : (2 : Int) ≤ radix.base.toInt := Int32.le_iff_toInt_le.mp radix.low
  have high : radix.base.toInt ≤ 36 := Int32.le_iff_toInt_le.mp radix.high
  rw [Radix.value, value]
  omega

theorem Radix.value_range (radix : Radix) : 2 ≤ radix.value ∧ radix.value ≤ 36 := by
  have value := radix.value_base
  have low : (2 : Int) ≤ radix.base.toInt := Int32.le_iff_toInt_le.mp radix.low
  have high : radix.base.toInt ≤ 36 := Int32.le_iff_toInt_le.mp radix.high
  omega

theorem Radix.value_ten (radix : Radix) : radix.value = 10 ↔ radix.base = 10 := by
  have value := radix.value_base
  have ten : radix.base = 10 ↔ radix.base.toInt = 10 := Int32.toInt_inj.symm
  rw [ten]
  omega

def strlen (memory : List UInt8) (str : Nat) : Nat := if str = 0 then 0 else (textAt memory str).length

-- while (end > start) { tmp = *start; *start++ = *end; *end-- = tmp; }
def strrevLoop (memory : List UInt8) (start last : Nat) : List UInt8 :=
  if start < last then
    strrevLoop ((memory.set start (byteAt memory last)).set last (byteAt memory start)) (start + 1) (last - 1)
  else memory
termination_by last - start

-- The memory behind the call, and the pointer that is returned.
def strrev (memory : List UInt8) (str : Nat) : List UInt8 × Nat :=
  if str = 0 then (memory, 0)
  else
    let len := strlen memory str
    if len = 0 then (memory, str) else (strrevLoop memory str (str + len - 1), str)

-- *ptr++ = (rem > 9) ? (rem - 10) + 'A' : rem + '0', for the unsigned and for the signed remainder.
def utoaDigit (rem : UInt32) : UInt8 := (if 9 < rem then rem - 10 + 65 else rem + 48).toUInt8

def itoaDigit (rem : Int32) : UInt8 := (if 9 < rem then rem - 10 + 65 else rem + 48).toInt8.toUInt8

theorem utoa_loop_ends (radix : Radix) (value : UInt32) (some' : value ≠ 0) :
    (value / radix.base.toUInt32).toNat < value.toNat := by
  rw [UInt32.toNat_div]
  exact Nat.div_lt_self (Nat.pos_of_ne_zero fun zero => some' (UInt32.toNat_inj.mp zero)) radix.value_range.1

theorem itoa_quotient (radix : Radix) (num : Int32) : (num / radix.base).toInt = num.toInt.tdiv radix.value := by
  rw [radix.value_base]
  have low : (2 : Int) ≤ radix.base.toInt := Int32.le_iff_toInt_le.mp radix.low
  refine Int32.toInt_div_of_ne_right num radix.base fun least => ?_
  rw [least] at low
  exact absurd low (by decide)

theorem itoa_loop_ends (radix : Radix) (num : Int32) (some' : num ≠ 0) :
    (num / radix.base).toInt.natAbs < num.toInt.natAbs := by
  rw [itoa_quotient, Int.natAbs_tdiv, Int.natAbs_natCast]
  refine Nat.div_lt_self (Int.natAbs_pos.mpr fun zero => some' (Int32.toInt_inj.mp zero)) radix.value_range.1

-- The characters that the loops write, the last digit first.
def utoaLoop (radix : Radix) (value : UInt32) : List UInt8 :=
  if value = 0 then [] else utoaDigit (value % radix.base.toUInt32) :: utoaLoop radix (value / radix.base.toUInt32)
termination_by value.toNat
decreasing_by exact utoa_loop_ends radix value ‹_›

def itoaLoop (radix : Radix) (num : Int32) : List UInt8 :=
  if num = 0 then [] else itoaDigit (num % radix.base) :: itoaLoop radix (num / radix.base)
termination_by num.toInt.natAbs
decreasing_by exact itoa_loop_ends radix num ‹_›

-- With the memory behind the call, the pointer that is returned.
def utoa (memory : List UInt8) (value : UInt32) (str : Nat) (base : Int32) : List UInt8 × Nat :=
  if proper : str ≠ 0 ∧ 2 ≤ base ∧ base ≤ 36 then
    if value = 0 then (storeText memory str [48], str)
    else strrev (storeText memory str (utoaLoop ⟨base, proper.2.1, proper.2.2⟩ value)) str
  else (memory, 0)

-- What num holds where the loop starts; the unsigned value is stored back into the signed num.
def itoaNum (value base : Int32) : Int32 :=
  if value < 0 ∧ base = 10 then -value else if value < 0 then value.toUInt32.toInt32 else value

def itoa (memory : List UInt8) (value : Int32) (str : Nat) (base : Int32) : List UInt8 × Nat :=
  if proper : str ≠ 0 ∧ 2 ≤ base ∧ base ≤ 36 then
    if value = 0 then (storeText memory str [48], str)
    else
      let digits := itoaLoop ⟨base, proper.2.1, proper.2.2⟩ (itoaNum value base)
      strrev (storeText memory str (if value < 0 ∧ base = 10 then digits ++ [45] else digits)) str
  else (memory, 0)

def isspace (byte : UInt8) : Bool := byte = 32 ∨ byte = 9 ∨ byte = 10 ∨ byte = 13 ∨ byte = 12 ∨ byte = 11

-- while (isdigit(*str)) { result = result * 10 + (*str - '0'); str++; }
def atoiLoop (str : List UInt8) : Int32 :=
  (str.takeWhile isDigit).foldl (fun result byte => result * 10 + (byte - 48).toUInt32.toInt32) 0

-- The sign, and what stands behind it.
def atoiSign (str : List UInt8) : Int32 × List UInt8 :=
  if str.headD 0 = 45 then (-1, str.tail) else if str.headD 0 = 43 then (1, str.tail) else (1, str)

def atoi (memory : List UInt8) (str : Nat) : Int32 :=
  if str = 0 then 0
  else
    let signed := atoiSign ((memory.drop str).dropWhile isspace)
    signed.1 * atoiLoop signed.2

def itoaText (radix : Radix) (value : Int32) : List UInt8 :=
  if value < 0 ∧ radix.base = 10 then 45 :: numeral 10 value.toInt.natAbs else numeral radix.value value.toUInt32.toNat

structure ItoaRight (memory : List UInt8) (radix : Radix) (value : Int32) (str : Nat) : Prop where
  digits : ∃ body, (textAt (itoa memory value str radix.base).1 str = body ∨
    (value < 0 ∧ radix.base = 10) ∧ textAt (itoa memory value str radix.base).1 str = 45 :: body) ∧
    body ≠ [] ∧ ∀ byte ∈ body, IsNumeralDigit radix.value byte
  decimal : radix.base = 10 → atoi (itoa memory value str radix.base).1 str = value
  unsigned : radix.base ≠ 10 →
    textAt (itoa memory value str radix.base).1 str = numeral radix.value value.toUInt32.toNat ∧
    textAt (itoa memory value str radix.base).1 str = textAt (utoa memory value.toUInt32 str radix.base).1 str

theorem utoa_digit_numeral (rem : UInt32) (small : rem.toNat < 36) : utoaDigit rem = numeralDigit rem.toNat := by
  have all : ∀ d < 36, utoaDigit (UInt32.ofNat d) = numeralDigit d := by decide
  have digit := all rem.toNat small
  rwa [UInt32.ofNat_toNat] at digit

-- The character of a remainder: below '0' where the number is negative.
def remainderDigit (negative : Bool) (d : Nat) : UInt8 := if negative then UInt8.ofNat (48 - d) else numeralDigit d

def signed (negative : Bool) (n : Nat) : Int := if negative then -(n : Int) else n

theorem signed_tdiv (negative : Bool) (n base : Nat) : (signed negative n).tdiv base = signed negative (n / base) := by
  cases negative with
  | false => exact (Int.ofNat_tdiv n base).symm
  | true => exact (Int.neg_tdiv n base).trans (congrArg Neg.neg (Int.ofNat_tdiv n base).symm)

theorem signed_tmod (negative : Bool) (n base : Nat) : (signed negative n).tmod base = signed negative (n % base) := by
  cases negative with
  | false => exact (Int.ofNat_tmod n base).symm
  | true => exact (Int.neg_tmod n base).trans (congrArg Neg.neg (Int.ofNat_tmod n base).symm)

theorem itoa_digit_remainder (rem : Int32) (negative : Bool) (d : Nat) (small : d < 36) (value : rem.toInt = signed negative d) :
    itoaDigit rem = remainderDigit negative d := by
  have low : ∀ d : Nat, d < 36 → itoaDigit (Int32.ofInt (-(d : Int))) = UInt8.ofNat (48 - d) := by decide
  have high : ∀ d : Nat, d < 36 → itoaDigit (Int32.ofInt (d : Int)) = numeralDigit d := by decide
  rw [← Int32.ofInt_toInt rem, value]
  cases negative with
  | false => exact high d small
  | true => exact low d small

theorem utoa_loop_digits (radix : Radix) (value : UInt32) :
    utoaLoop radix value = (Nat.digits radix.value value.toNat).map numeralDigit := by
  have range := radix.value_range
  induction value using utoaLoop.induct radix with
  | case1 =>
      rw [utoaLoop, if_pos rfl, UInt32.toNat_zero, Nat.digits_zero]
      rfl
  | case2 value some' ih =>
      have positive : 0 < value.toNat := Nat.pos_of_ne_zero fun zero => some' (UInt32.toNat_inj.mp zero)
      have remainder : (value % radix.base.toUInt32).toNat = value.toNat % radix.value := UInt32.toNat_mod value _
      have small := Nat.mod_lt value.toNat (show 0 < radix.value by omega)
      rw [utoaLoop, if_neg some', ih, Nat.digits_def' range.1 positive, List.map_cons, utoa_digit_numeral _ (by omega),
        remainder, UInt32.toNat_div]
      rfl

-- The quotients and the remainders of a negative number are negative or 0.
theorem itoa_loop_digits (radix : Radix) (num : Int32) (negative : Bool) (n : Nat) (value : num.toInt = signed negative n) :
    itoaLoop radix num = (Nat.digits radix.value n).map (remainderDigit negative) := by
  have range := radix.value_range
  induction num using itoaLoop.induct radix generalizing n with
  | case1 =>
      have zero : n = 0 := by
        cases negative with
        | false => exact (Int.natCast_eq_zero.mp value.symm)
        | true => exact (Int.natCast_eq_zero.mp (Int.neg_eq_zero.mp value.symm))
      rw [itoaLoop, if_pos rfl, zero, Nat.digits_zero]
      rfl
  | case2 num some' ih =>
      have positive : 0 < n := by
        refine Nat.pos_of_ne_zero fun zero => some' (Int32.toInt_inj.mp ?_)
        rw [value, zero]
        cases negative <;> rfl
      have quotient : (num / radix.base).toInt = signed negative (n / radix.value) := by rw [itoa_quotient, value, signed_tdiv]
      have remainder : (num % radix.base).toInt = signed negative (n % radix.value) := by
        rw [Int32.toInt_mod, ← radix.value_base, value, signed_tmod]
      have small := Nat.mod_lt n (show 0 < radix.value by omega)
      rw [itoaLoop, if_neg some', ih _ quotient, itoa_digit_remainder _ negative _ (by omega) remainder,
        Nat.digits_def' range.1 positive, List.map_cons]

theorem byte_between (front back : List UInt8) (own : UInt8) : byteAt (front ++ own :: back) front.length = own :=
  get_behind front (own :: back) 0

theorem set_between (front back : List UInt8) (own byte : UInt8) :
    (front ++ own :: back).set front.length byte = front ++ byte :: back := by
  rw [List.set_append_right _ _ (Nat.le_refl _), Nat.sub_self, List.set_cons_zero]

theorem ends_swapped (front middle back memory : List UInt8) (first last : UInt8)
    (whole : memory = front ++ (first :: (middle ++ [last])) ++ back) :
    byteAt memory front.length = first ∧ byteAt memory (front.length + (middle.length + 1)) = last ∧
    (memory.set front.length last).set (front.length + (middle.length + 1)) first = (front ++ [last]) ++ middle ++ (first :: back) := by
  have fromStart : memory = front ++ first :: (middle ++ last :: back) := by
    simpa only [List.append_assoc, List.cons_append, List.nil_append] using whole
  have fromEnd : ∀ own : UInt8, front ++ own :: (middle ++ last :: back) = (front ++ own :: middle) ++ last :: back := by
    intro own
    rw [List.append_assoc, List.cons_append]
  have width : ∀ own : UInt8, front.length + (middle.length + 1) = (front ++ own :: middle).length := by
    intro own
    rw [List.length_append, List.length_cons]
  refine ⟨?_, ?_, ?_⟩
  · rw [fromStart, byte_between]
  · rw [fromStart, fromEnd, width first, byte_between]
  · rw [fromStart, set_between, fromEnd, width last, set_between]
    simp only [List.append_assoc, List.cons_append, List.nil_append]

theorem strrev_loop_reverses (front text back : List UInt8) :
    strrevLoop (front ++ text ++ back) front.length (front.length + text.length - 1) = front ++ text.reverse ++ back := by
  induction text using List.bidirectionalRec generalizing front back with
  | nil => rw [strrevLoop, if_neg (by rw [List.length_nil]; omega)]; rfl
  | singleton own => rw [strrevLoop, if_neg (by rw [List.length_singleton]; omega)]; rfl
  | cons_append first middle last ih =>
      obtain ⟨firstByte, lastByte, swapped⟩ := ends_swapped front middle back _ first last rfl
      have place : front.length + (first :: (middle ++ [last])).length - 1 = front.length + (middle.length + 1) := by
        rw [List.length_cons, List.length_append, List.length_singleton]
        omega
      have later := ih (front ++ [last]) (first :: back)
      have end' : front.length + 1 + middle.length - 1 = front.length + (middle.length + 1) - 1 := by omega
      rw [List.length_append, List.length_singleton, end'] at later
      rw [strrevLoop, place, firstByte, lastByte, swapped, if_pos (by omega), later]
      simp only [List.reverse_cons, List.reverse_append, List.reverse_nil, List.nil_append, List.append_assoc, List.cons_append]

section
variable (memory : List UInt8) (str : Nat) (some' : str ≠ 0)
include some'

theorem strrev_stored (text : List UInt8) (solid : ∀ byte ∈ text, byte ≠ 0) (room : str + text.length < memory.length) :
    strrev (storeText memory str text) str = (storeText memory str text.reverse, str) := by
  have front : (memory.take str).length = str := List.length_take_of_le (by omega)
  rw [strrev, if_neg some', strlen, if_neg some', store_text_text memory str text solid room]
  by_cases empty : text.length = 0
  · rw [if_pos empty, List.eq_nil_of_length_eq_zero empty]
    rfl
  · have reversed := strrev_loop_reverses (memory.take str) text (0 :: memory.drop (str + text.length + 1))
    rw [front] at reversed
    rw [if_neg empty, store_text_split memory str text room, reversed,
      store_text_split memory str text.reverse (by rw [List.length_reverse]; exact room), List.length_reverse]

theorem utoa_stored (radix : Radix) (value : UInt32) (room : str + (numeral radix.value value.toNat).length < memory.length) :
    utoa memory value str radix.base = (storeText memory str (numeral radix.value value.toNat), str) := by
  have range := radix.value_range
  rw [utoa, dif_pos ⟨some', radix.low, radix.high⟩]
  by_cases zero : value = 0
  · rw [if_pos zero, zero]
    rfl
  · have digits := utoa_loop_digits radix value
    have positive : value.toNat ≠ 0 := fun nothing => zero (UInt32.toNat_inj.mp nothing)
    have solid := numeral_solid radix.value value.toNat range.1 range.2
    have reversed : numeral radix.value value.toNat = (utoaLoop radix value).reverse := by
      rw [numeral, if_neg positive, numeralBody, digits, List.map_reverse]
    rw [reversed] at room solid
    rw [if_neg zero, reversed]
    exact strrev_stored memory str some' _ (fun byte member => solid byte (List.mem_reverse.mpr member))
      (by rw [List.length_reverse] at room; exact room)
end

theorem itoa_num_right (value base : Int32) (right : 0 ≤ value ∨ base = 10 ∧ value ≠ Int32.minValue) :
    (itoaNum value base).toInt = signed false value.toInt.natAbs := by
  by_cases negative : value < 0
  · have below : value.toInt < 0 := Int32.lt_iff_toInt_lt.mp negative
    have base' : base = 10 ∧ value ≠ Int32.minValue := right.resolve_left (Int32.not_le.mpr negative)
    have least : value.toInt ≠ -2 ^ 31 := fun same => base'.2 (Int32.toInt_inj.mp same)
    have low := Int32.le_toInt value
    rw [itoaNum, if_pos ⟨negative, base'.1⟩, Int32.toInt_neg, bmod_word _ (by omega) (by omega), signed, if_neg (by decide)]
    omega
  · have above : 0 ≤ value.toInt := Int32.le_iff_toInt_le.mp (Int32.not_lt.mp negative)
    rw [itoaNum, if_neg (fun both => negative both.1), if_neg negative, signed, if_neg (by decide)]
    omega

theorem itoa_num_wrong (value base : Int32) (wrong : ¬(0 ≤ value ∨ base = 10 ∧ value ≠ Int32.minValue)) :
    (itoaNum value base).toInt = signed true value.toInt.natAbs := by
  have negative : value < 0 := Int32.not_le.mp fun above => wrong (Or.inl above)
  have below : value.toInt < 0 := Int32.lt_iff_toInt_lt.mp negative
  by_cases ten : base = 10
  · have least : value = Int32.minValue := Classical.byContradiction fun other => wrong (Or.inr ⟨ten, other⟩)
    rw [itoaNum, if_pos ⟨negative, ten⟩, least]
    decide
  · have same : value.toUInt32.toInt32 = value := rfl
    rw [itoaNum, if_neg (fun both => ten both.2), if_pos negative, same, signed, if_pos rfl]
    omega

def loopText (radix : Radix) (value : Int32) (negative : Bool) (n : Nat) : List UInt8 :=
  (if value < 0 ∧ radix.base = 10 then [45] else []) ++ (Nat.digits radix.value n).reverse.map (remainderDigit negative)

theorem remainder_digit_solid (negative : Bool) (d : Nat) (small : d < 36) : remainderDigit negative d ≠ 0 := by
  cases negative with
  | false => exact numeral_digit_solid d small
  | true =>
      have all : ∀ d : Nat, d < 36 → UInt8.ofNat (48 - d) ≠ 0 := by decide
      exact all d small

theorem loop_text_solid (radix : Radix) (value : Int32) (negative : Bool) (n : Nat) :
    ∀ byte ∈ loopText radix value negative n, byte ≠ 0 := by
  have range := radix.value_range
  intro byte member
  rcases List.mem_append.mp member with sign | digit
  · by_cases minus : value < 0 ∧ radix.base = 10
    · rw [if_pos minus] at sign
      rw [List.mem_singleton.mp sign]
      decide
    · rw [if_neg minus] at sign
      exact absurd sign List.not_mem_nil
  · obtain ⟨d, inDigits, rfl⟩ := List.mem_map.mp digit
    have below := Nat.digits_lt_base range.1 (List.mem_reverse.mp inDigits)
    exact remainder_digit_solid negative d (by omega)

section
variable (memory : List UInt8) (str : Nat) (some' : str ≠ 0) (radix : Radix) (value : Int32)
include some'

theorem itoa_loop_stored (solid : value ≠ 0) (negative : Bool) (n : Nat) (num : (itoaNum value radix.base).toInt = signed negative n)
    (room : str + (loopText radix value negative n).length < memory.length) :
    itoa memory value str radix.base = (storeText memory str (loopText radix value negative n), str) := by
  have digits := itoa_loop_digits radix (itoaNum value radix.base) negative n num
  have written : (if value < 0 ∧ radix.base = 10 then itoaLoop radix (itoaNum value radix.base) ++ [45]
      else itoaLoop radix (itoaNum value radix.base)) = (loopText radix value negative n).reverse := by
    rw [loopText, List.reverse_append, digits, ← List.map_reverse, List.reverse_reverse]
    by_cases minus : value < 0 ∧ radix.base = 10
    · rw [if_pos minus, if_pos minus]
      rfl
    · rw [if_neg minus, if_neg minus, List.reverse_nil, List.append_nil]
  have reversed := strrev_stored memory str some' (loopText radix value negative n).reverse
    (fun byte member => loop_text_solid radix value negative n byte (List.mem_reverse.mp member)) (by rwa [List.length_reverse])
  rw [List.reverse_reverse] at reversed
  rw [itoa, dif_pos ⟨some', radix.low, radix.high⟩, if_neg solid]
  dsimp only
  rw [written, reversed]

theorem itoa_right_stored (right : 0 ≤ value ∨ radix.base = 10 ∧ value ≠ Int32.minValue)
    (room : str + (itoaText radix value).length < memory.length) :
    itoa memory value str radix.base = (storeText memory str (itoaText radix value), str) := by
  by_cases zero : value = 0
  · rw [itoa, dif_pos ⟨some', radix.low, radix.high⟩, if_pos zero, zero]
    rfl
  · have positive : value.toInt.natAbs ≠ 0 := fun nothing => zero (Int32.toInt_inj.mp (Int.natAbs_eq_zero.mp nothing))
    have text : loopText radix value false value.toInt.natAbs = itoaText radix value := by
      rw [loopText, itoaText]
      by_cases minus : value < 0 ∧ radix.base = 10
      · rw [if_pos minus, if_pos minus, radix.value_ten.mpr minus.2, numeral, if_neg positive]
        rfl
      · have above : 0 ≤ value.toInt :=
          Int32.le_iff_toInt_le.mp (right.elim id fun both => Int32.not_lt.mp fun below => minus ⟨below, both.1⟩)
        have unsigned := to_uint32_value value
        have high := Int32.toInt_lt value
        have same : value.toUInt32.toNat = value.toInt.natAbs := by omega
        rw [if_neg minus, if_neg minus, same, numeral, if_neg positive]
        rfl
    have num := itoa_num_right value radix.base right
    rw [← text] at room ⊢
    exact itoa_loop_stored memory str some' radix value zero false _ num room

omit some' in
theorem loop_text_fits (negative : value < 0) :
    (loopText radix value true value.toInt.natAbs).length ≤ (itoaText radix value).length := by
  have below : value.toInt < 0 := Int32.lt_iff_toInt_lt.mp negative
  have unsigned := to_uint32_value value
  have low := Int32.le_toInt value
  have above : value.toInt.natAbs ≤ value.toUInt32.toNat := by omega
  rw [loopText, itoaText, List.length_append, List.length_map, List.length_reverse]
  by_cases ten : radix.base = 10
  · rw [if_pos ⟨negative, ten⟩, if_pos ⟨negative, ten⟩, radix.value_ten.mpr ten, numeral, if_neg (by omega),
      List.length_singleton, List.length_cons, numeral_body_length, Nat.add_comm]
  · rw [if_neg fun both => ten both.2, if_neg fun both => ten both.2, numeral, if_neg (by omega), numeral_body_length,
      List.length_nil, Nat.zero_add]
    exact Nat.le_length_digits_le radix.value _ _ above

theorem itoa_wrong_stored (wrong : ¬(0 ≤ value ∨ radix.base = 10 ∧ value ≠ Int32.minValue))
    (room : str + (itoaText radix value).length < memory.length) :
    itoa memory value str radix.base = (storeText memory str (loopText radix value true value.toInt.natAbs), str) ∧
      str + (loopText radix value true value.toInt.natAbs).length < memory.length := by
  have negative : value < 0 := Int32.not_le.mp fun above => wrong (Or.inl above)
  have below : value.toInt < 0 := Int32.lt_iff_toInt_lt.mp negative
  have fits := loop_text_fits radix value negative
  have room' : str + (loopText radix value true value.toInt.natAbs).length < memory.length := by omega
  refine ⟨itoa_loop_stored memory str some' radix value ?_ true _ (itoa_num_wrong value radix.base wrong) room', room'⟩
  rintro rfl
  exact absurd below (by decide)
end

theorem atoi_loop_numeral (n : Nat) (rest : List UInt8) : atoiLoop (numeral 10 n ++ 0 :: rest) = Int32.ofInt n := by
  have character : ∀ d : Nat, d < 10 →
      isDigit (numeralDigit d) = true ∧ (numeralDigit d - 48).toUInt32.toInt32 = Int32.ofInt (d : Int) := by decide
  have digits := numeral_all 10 (by decide) (fun byte => isDigit byte = true) (fun d small => (character d small).1) n
  rw [atoiLoop, List.takeWhile_append_of_pos digits, List.takeWhile_cons_of_neg (by decide), List.append_nil]
  refine numeral_read 10 (by decide) _ (fun a => Int32.ofInt (a : Int)) (fun a d small => ?_) n
  rw [(character d small).2, Int.natCast_add, Int.natCast_mul, Int32.ofInt_add, Int32.ofInt_mul]
  rfl

theorem numeral_digit_above (base : Nat) (small : base ≤ 36) (byte : UInt8) (digit : IsNumeralDigit base byte) : 48 ≤ byte.toNat := by
  obtain ⟨d, below, rfl⟩ := digit
  exact numeral_digit_range d (by omega)

theorem above_starts (byte : UInt8) (rest : List UInt8) (above : 48 ≤ byte.toNat) :
    (byte :: rest).dropWhile isspace = byte :: rest ∧ atoiSign (byte :: rest) = (1, byte :: rest) := by
  have apart : ∀ other : UInt8, other.toNat < 48 → byte ≠ other := fun other below same => by
    rw [same] at above
    omega
  have solid : isspace byte = false := by
    refine decide_eq_false ?_
    rintro (same | same | same | same | same | same) <;> exact apart _ (by decide) same
  refine ⟨List.dropWhile_cons_of_neg (by rw [solid]; decide), ?_⟩
  rw [atoiSign, List.headD_cons, if_neg (apart 45 (by decide)), if_neg (apart 43 (by decide))]

theorem numeral_starts (base n : Nat) (proper : 1 < base) (small : base ≤ 36) (rest : List UInt8) :
    (numeral base n ++ rest).dropWhile isspace = numeral base n ++ rest ∧
      atoiSign (numeral base n ++ rest) = (1, numeral base n ++ rest) := by
  obtain ⟨first, others, split⟩ := List.exists_cons_of_ne_nil (numeral_some base proper n)
  have digit := numeral_digits base proper n first (by rw [split]; exact List.mem_cons_self)
  rw [split, List.cons_append]
  exact above_starts first _ (numeral_digit_above base small first digit)

theorem atoi_itoa (memory : List UInt8) (str : Nat) (some' : str ≠ 0) (radix : Radix) (value : Int32) (ten : radix.base = 10)
    (room : str + (itoaText radix value).length < memory.length) :
    atoi (storeText memory str (itoaText radix value)) str = value := by
  have read := atoi_loop_numeral value.toInt.natAbs
  rw [atoi, if_neg some', store_text_drop memory str _ room, itoaText]
  by_cases negative : value < 0
  · have below : value.toInt < 0 := Int32.lt_iff_toInt_lt.mp negative
    have absolute : -(value.toInt.natAbs : Int) = value.toInt := by omega
    rw [if_pos ⟨negative, ten⟩, List.cons_append, List.dropWhile_cons_of_neg (by decide), atoiSign, List.headD_cons, if_pos rfl]
    dsimp only [List.tail_cons]
    rw [read, ← Int32.neg_eq_neg_one_mul, ← Int32.ofInt_neg, absolute, Int32.ofInt_toInt]
  · have above : 0 ≤ value.toInt := Int32.le_iff_toInt_le.mp (Int32.not_lt.mp negative)
    have absolute : (value.toInt.natAbs : Int) = value.toInt := Int.natAbs_of_nonneg above
    have unsigned := to_uint32_value value
    have high := Int32.toInt_lt value
    have same : value.toUInt32.toNat = value.toInt.natAbs := by omega
    have start := numeral_starts 10 value.toInt.natAbs (by decide) (by decide)
    rw [if_neg fun both => negative both.1, radix.value_ten.mpr ten, same, (start _).1, (start _).2]
    dsimp only
    rw [read, Int32.one_mul, absolute, Int32.ofInt_toInt]

theorem itoa_text_solid (radix : Radix) (value : Int32) : ∀ byte ∈ itoaText radix value, byte ≠ 0 := by
  have range := radix.value_range
  rw [itoaText]
  by_cases minus : value < 0 ∧ radix.base = 10
  · rw [if_pos minus]
    exact List.forall_mem_cons.mpr ⟨by decide, numeral_solid 10 _ (by decide) (by decide)⟩
  · rw [if_neg minus]
    exact numeral_solid radix.value _ range.1 range.2

-- The first digit of a number is not 0, and its character lies below '0'.
theorem low_character (radix : Radix) (n : Nat) (some' : n ≠ 0) :
    ∃ byte ∈ (Nat.digits radix.value n).reverse.map (remainderDigit true), byte.toNat < 48 := by
  have range := radix.value_range
  have first := Nat.getLast_digit_ne_zero radix.value some'
  have member := List.getLast_mem (Nat.digits_ne_nil_iff_ne_zero.mpr some' : Nat.digits radix.value n ≠ [])
  have small := Nat.digits_lt_base range.1 member
  have low : ∀ d : Nat, d < 36 → d ≠ 0 → (remainderDigit true d).toNat < 48 := by decide
  exact ⟨_, List.mem_map.mpr ⟨_, List.mem_reverse.mpr member, rfl⟩, low _ (by omega) first⟩

section
variable (memory : List UInt8) (radix : Radix) (value : Int32) (str : Nat) (some' : str ≠ 0)
  (room : str + (itoaText radix value).length < memory.length)
include some' room

theorem itoa_right (right : 0 ≤ value ∨ radix.base = 10 ∧ value ≠ Int32.minValue) : ItoaRight memory radix value str := by
  have range := radix.value_range
  have stored := itoa_right_stored memory str some' radix value right room
  have text := store_text_text memory str _ (itoa_text_solid radix value) room
  refine ⟨?_, ?_, ?_⟩
  · rw [stored]
    dsimp only
    rw [text, itoaText]
    by_cases minus : value < 0 ∧ radix.base = 10
    · rw [if_pos minus, radix.value_ten.mpr minus.2]
      exact ⟨_, Or.inr ⟨minus, rfl⟩, numeral_some 10 (by decide) _, numeral_digits 10 (by decide) _⟩
    · rw [if_neg minus]
      exact ⟨_, Or.inl rfl, numeral_some _ range.1 _, numeral_digits _ range.1 _⟩
  · intro ten
    rw [stored]
    exact atoi_itoa memory str some' radix value ten room
  · intro other
    have plain : itoaText radix value = numeral radix.value value.toUInt32.toNat := if_neg fun both => other both.2
    rw [plain] at stored text room
    rw [stored, utoa_stored memory str some' radix value.toUInt32 room]
    exact ⟨text, rfl⟩

theorem itoa_wrong (wrong : ¬(0 ≤ value ∨ radix.base = 10 ∧ value ≠ Int32.minValue)) : ¬ItoaRight memory radix value str := by
  have range := radix.value_range
  have negative : value < 0 := Int32.not_le.mp fun above => wrong (Or.inl above)
  have below : value.toInt < 0 := Int32.lt_iff_toInt_lt.mp negative
  obtain ⟨stored, fits⟩ := itoa_wrong_stored memory str some' radix value wrong room
  have text := store_text_text memory str _ (loop_text_solid radix value true _) fits
  obtain ⟨byte, member, low⟩ := low_character radix value.toInt.natAbs (by omega)
  intro right
  obtain ⟨body, shown, -, digits⟩ := right.digits
  rw [stored] at shown
  dsimp only at shown
  rw [text, loopText] at shown
  have inside : byte ∈ body := by
    rcases shown with same | ⟨minus, same⟩
    · rw [← same]
      exact List.mem_append_right _ member
    · rw [if_pos minus, List.singleton_append] at same
      rw [← (List.cons.inj same).2]
      exact member
  have high := numeral_digit_above radix.value range.2 byte (digits byte inside)
  omega

-- A negative number is printed right in base 10 only, and there all but the least of them.
theorem itoa_right_iff : ItoaRight memory radix value str ↔ 0 ≤ value ∨ radix.base = 10 ∧ value ≠ Int32.minValue :=
  ⟨fun right => Classical.byContradiction fun wrong => itoa_wrong memory radix value str some' room wrong right,
    itoa_right memory radix value str some' room⟩
end

theorem itoa_right_decimal : ItoaRight (List.replicate 20 0) ⟨10, by decide, by decide⟩ (-255) 4 ↔
    0 ≤ (-255 : Int32) ∨ (10 : Int32) = 10 ∧ (-255 : Int32) ≠ Int32.minValue :=
  itoa_right_iff (List.replicate 20 0) ⟨10, by decide, by decide⟩ (-255) 4 (by decide) (by decide)

theorem itoa_not_right : ¬ ∀ (memory : List UInt8) (radix : Radix) (value : Int32) (str : Nat), str ≠ 0 →
    str + (itoaText radix value).length < memory.length → ItoaRight memory radix value str := fun all =>
  itoa_wrong (List.replicate 20 0) ⟨16, by decide, by decide⟩ (-255) 4 (by decide) (by decide) (by decide)
    (all (List.replicate 20 0) ⟨16, by decide, by decide⟩ (-255) 4 (by decide) (by decide))

end RoDos.Utils
