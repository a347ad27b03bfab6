import RoDos.Wget.Model

set_option autoImplicit false

namespace RoDos.Wget

open Base

def decimal (digits : List UInt8) : Nat := digits.foldl (fun n byte => n * 10 + (byte.toNat - 48)) 0

structure Octet (digits : List UInt8) (n : Nat) : Prop where
  some' : digits ≠ []
  solid : ∀ byte ∈ digits, 48 ≤ byte ∧ byte ≤ 57
  value : decimal digits = n
  small : n ≤ 255

def DottedQuad (host : List UInt8) (a b c d : Nat) : Prop :=
  ∃ first second third last, host = first ++ 46 :: (second ++ 46 :: (third ++ 46 :: last)) ∧
    Octet first a ∧ Octet second b ∧ Octet third c ∧ Octet last d

def dotted (a b c d : Nat) : UInt32 := UInt32.ofNat (a * 2 ^ 24 + b * 2 ^ 16 + c * 2 ^ 8 + d)

structure NumericHandled (net : Network) (path host : List UInt8) : Prop where
  inside : ∀ store ∈ parseParts host 0 0, store.1 < 4
  address : ∀ a b c d, DottedQuad host a b c d → joinParts (parseParts host 0 0) = dotted a b c d
  rejected : (¬ ∃ a b c d, DottedQuad host a b c d) → contactHost net path host = some []

theorem parse_parts_inside (s : List UInt8) (val : UInt32) (idx bound : Nat) :
    (∀ store ∈ parseParts s val idx, store.1 < bound) ↔ idx + s.count 46 < bound := by
  induction s generalizing val idx with
  | nil => simp [parseParts]
  | cons byte rest ih =>
      rw [parseParts]
      by_cases dot : byte = 46
      · rw [if_pos dot, List.forall_mem_cons, ih, dot, List.count_cons_self]
        omega
      · rw [if_neg dot, ih, List.count_cons_of_ne dot]

theorem parts_inside_iff (host : List UInt8) : (∀ store ∈ parseParts host 0 0, store.1 < 4) ↔ host.count 46 ≤ 3 := by
  rw [parse_parts_inside, Nat.zero_add]
  exact Nat.lt_succ_iff

theorem digit_not_dot (byte : UInt8) (digit : 48 ≤ byte ∧ byte ≤ 57) : byte ≠ 46 := by
  rintro rfl
  exact absurd digit.1 (by decide)

-- The number is accumulated modulo 2 ^ 32.
theorem parse_parts_digits (digits : List UInt8) (solid : ∀ byte ∈ digits, 48 ≤ byte ∧ byte ≤ 57) (n idx : Nat)
    (rest : List UInt8) : parseParts (digits ++ rest) (UInt32.ofNat n) idx =
      parseParts rest (UInt32.ofNat (digits.foldl (fun n byte => n * 10 + (byte.toNat - 48)) n)) idx := by
  induction digits generalizing n with
  | nil => rfl
  | cons byte digits ih =>
      have digit := solid byte List.mem_cons_self
      have step : UInt32.ofNat n * 10 + UInt32.ofNat (byte.toNat - 48) = UInt32.ofNat (n * 10 + (byte.toNat - 48)) := by
        rw [UInt32.ofNat_add, UInt32.ofNat_mul]
        rfl
      rw [List.cons_append, parseParts, if_neg (digit_not_dot byte digit), step,
        ih (fun other member => solid other (List.mem_cons_of_mem _ member)), List.foldl_cons]

theorem parse_parts_octet (digits rest : List UInt8) (n idx : Nat) (octet : Octet digits n) :
    parseParts (digits ++ 46 :: rest) 0 idx = (idx, UInt32.ofNat n) :: parseParts rest 0 (idx + 1) := by
  have read := parse_parts_digits digits octet.solid 0 idx (46 :: rest)
  rw [← decimal, octet.value, parseParts, if_pos rfl] at read
  exact read

theorem parse_parts_last (digits : List UInt8) (n idx : Nat) (octet : Octet digits n) :
    parseParts digits 0 idx = [(idx, UInt32.ofNat n)] := by
  have read := parse_parts_digits digits octet.solid 0 idx []
  rw [← decimal, octet.value, List.append_nil] at read
  exact read

theorem parse_parts_quad (host : List UInt8) (a b c d : Nat) (quad : DottedQuad host a b c d) : parseParts host 0 0 =
    [(0, UInt32.ofNat a), (1, UInt32.ofNat b), (2, UInt32.ofNat c), (3, UInt32.ofNat d)] := by
  obtain ⟨first, second, third, last, same, one, two, three, four⟩ := quad
  rw [same, parse_parts_octet first _ a 0 one, parse_parts_octet second _ b 1 two, parse_parts_octet third _ c 2 three,
    parse_parts_last last d 3 four]

theorem shifted_octet (n : Nat) (shift : UInt32) (small : n ≤ 255) (room : shift.toNat ≤ 24) :
    (UInt32.ofNat n <<< shift).toNat = n * 2 ^ shift.toNat := by
  have width : n * 2 ^ shift.toNat < 2 ^ 32 := by
    calc n * 2 ^ shift.toNat ≤ 255 * 2 ^ 24 := Nat.mul_le_mul small (Nat.pow_le_pow_right (by decide) room)
      _ < 2 ^ 32 := by decide
  have octet : (UInt32.ofNat n).toNat = n := UInt32.toNat_ofNat_of_lt' (by rw [UInt32.size]; omega)
  rw [UInt32.toNat_shiftLeft, octet, Nat.mod_eq_of_lt (show shift.toNat < 32 by omega), Nat.shiftLeft_eq,
    Nat.mod_eq_of_lt width]

theorem or_beside (high low shift : Nat) (fits : low < 2 ^ shift) : high * 2 ^ shift ||| low = high * 2 ^ shift + low := by
  rw [← Nat.shiftLeft_eq, ← Nat.shiftLeft_add_eq_or_of_lt fits]

theorem join_octets (a b c d : Nat) (aSmall : a ≤ 255) (bSmall : b ≤ 255) (cSmall : c ≤ 255) (dSmall : d ≤ 255) :
    UInt32.ofNat a <<< 24 ||| UInt32.ofNat b <<< 16 ||| UInt32.ofNat c <<< 8 ||| UInt32.ofNat d = dotted a b c d := by
  have high : (UInt32.ofNat a <<< 24).toNat = a * 2 ^ 24 := shifted_octet a 24 aSmall (by decide)
  have middle : (UInt32.ofNat b <<< 16).toNat = b * 2 ^ 16 := shifted_octet b 16 bSmall (by decide)
  have low : (UInt32.ofNat c <<< 8).toNat = c * 2 ^ 8 := shifted_octet c 8 cSmall (by decide)
  have lowest : (UInt32.ofNat d).toNat = d := UInt32.toNat_ofNat_of_lt' (by rw [UInt32.size]; omega)
  apply UInt32.toNat_inj.mp
  rw [UInt32.toNat_or, UInt32.toNat_or, UInt32.toNat_or, high, middle, low, lowest, dotted, Nat.or_assoc, Nat.or_assoc,
    or_beside c d 8 (by omega), or_beside b _ 16 (by omega), or_beside a _ 24 (by omega)]
  rw [UInt32.toNat_ofNat_of_lt' (by rw [UInt32.size]; omega)]
  omega

theorem quad_address (host : List UInt8) (a b c d : Nat) (quad : DottedQuad host a b c d) :
    joinParts (parseParts host 0 0) = dotted a b c d := by
  rw [parse_parts_quad host a b c d quad]
  obtain ⟨_, _, _, _, _, one, two, three, four⟩ := quad
  exact join_octets a b c d one.small two.small three.small four.small

theorem quad_inside (host : List UInt8) (a b c d : Nat) (quad : DottedQuad host a b c d) :
    ∀ store ∈ parseParts host 0 0, store.1 < 4 := by
  rw [parse_parts_quad host a b c d quad]
  simp

theorem numeric_contacted (net : Network) (path host : List UInt8) (numeric : isIp host = true) :
    contactHost net path host ≠ some [] := by
  rw [contactHost, if_pos numeric]
  by_cases inside : ∀ store ∈ parseParts host 0 0, store.1 < 4
  · rw [if_pos inside, connectAndSend]
    split <;> simp
  · rw [if_neg inside]
    simp

theorem numeric_host_iff (net : Network) (path host : List UInt8) (numeric : isIp host = true) :
    NumericHandled net path host ↔ ∃ a b c d, DottedQuad host a b c d := by
  constructor
  · intro handled
    by_contra malformed
    exact numeric_contacted net path host numeric (handled.rejected malformed)
  · rintro ⟨a, b, c, d, quad⟩
    exact ⟨quad_inside host a b c d quad, quad_address host, fun malformed => absurd ⟨a, b, c, d, quad⟩ malformed⟩

theorem numeric_host_gateway : NumericHandled ⟨true, fun _ => 0, fun _ _ => 0⟩ [47] (ascii "10.0.2.2") := by
  refine (numeric_host_iff _ _ _ (by decide +kernel)).mpr ⟨10, 0, 2, 2, [49, 48], [48], [50], [50], ?_, ?_, ?_, ?_, ?_⟩
  · decide +kernel
  all_goals exact ⟨by decide +kernel, by decide +kernel, by decide +kernel, by decide +kernel⟩

-- A fifth number is stored behind parts.
theorem numeric_hosts_not_handled : ¬ ∀ net path host, isIp host = true → NumericHandled net path host := by
  intro always
  have handled := always ⟨true, fun _ => 0, fun _ _ => 0⟩ [47] (ascii "1.2.3.4.5") (by decide +kernel)
  exact absurd ((parts_inside_iff _).mp handled.inside) (by decide +kernel)

end RoDos.Wget
