import RoDos.Tcp.Frames

set_option autoImplicit false

namespace RoDos.Net

open Base Tcp

-- Loads and stores of the machine, which has the low byte first.
def native16 (bytes : List UInt8) (i : Nat) : UInt16 :=
  (bytes.getD i 0).toUInt16 ||| ((bytes.getD (i + 1) 0).toUInt16 <<< 8)

def native32 (bytes : List UInt8) (i : Nat) : UInt32 :=
  (bytes.getD i 0).toUInt32 ||| ((bytes.getD (i + 1) 0).toUInt32 <<< 8) ||| ((bytes.getD (i + 2) 0).toUInt32 <<< 16) |||
    ((bytes.getD (i + 3) 0).toUInt32 <<< 24)

def stored32 (value : UInt32) : List UInt8 :=
  [value.toUInt8, (value >>> 8).toUInt8, (value >>> 16).toUInt8, (value >>> 24).toUInt8]

def htonl (value : UInt32) : UInt32 :=
  (value <<< 24) ||| ((value <<< 8) &&& (0xFF0000 : UInt32)) ||| ((value >>> 8) &&& (0xFF00 : UInt32)) ||| (value >>> 24)

theorem high_byte (value : UInt16) : (value >>> 8).toUInt8.toNat = value.toNat / 256 := by
  have below := value.toNat_lt
  rw [UInt16.toNat_toUInt8, UInt16.toNat_shiftRight]
  show value.toNat >>> 8 % 256 = _
  rw [Nat.shiftRight_eq_div_pow]
  omega

theorem low_byte (value : UInt16) : value.toUInt8.toNat = value.toNat % 256 := UInt16.toNat_toUInt8 value

theorem half_length (value : UInt16) : (bigEndian16 value).length = 2 := rfl

theorem word_length (value : UInt32) : (bigEndian value).length = 4 := rfl

theorem half_behind (front rest : List UInt8) (value : UInt16) :
    256 * ((front ++ (bigEndian16 value ++ rest)).getD front.length 0).toNat +
      ((front ++ (bigEndian16 value ++ rest)).getD (front.length + 1) 0).toNat = value.toNat := by
  have high := get_behind front (bigEndian16 value ++ rest) 0
  have low := get_behind front (bigEndian16 value ++ rest) 1
  rw [Nat.add_zero] at high
  rw [high, low]
  calc 256 * (value >>> 8).toUInt8.toNat + value.toUInt8.toNat
    _ = 256 * (value.toNat / 256) + value.toNat % 256 := by rw [high_byte, low_byte]
    _ = value.toNat := Nat.div_add_mod value.toNat 256

theorem htons_native (bytes : List UInt8) (i : Nat) :
    (htons (native16 bytes i)).toNat = 256 * (bytes.getD i 0).toNat + (bytes.getD (i + 1) 0).toNat := by
  have first := (bytes.getD i 0).toNat_lt
  have second := (bytes.getD (i + 1) 0).toNat_lt
  rw [htons_toNat, native16, UInt16.or_comm, byte_pair, swapBytes]
  omega

theorem mask_high (i : Nat) (inside : i < 32) : (0xFF0000#32).getLsbD i = decide (16 ≤ i ∧ i < 24) := by
  revert i
  decide

theorem mask_low (i : Nat) (inside : i < 32) : (0xFF00#32).getLsbD i = decide (8 ≤ i ∧ i < 16) := by
  revert i
  decide

theorem htonl_native (bytes : List UInt8) (i : Nat) : htonl (native32 bytes i) = fromBigEndian (bytes.drop i) := by
  have field (k : Nat) : (bytes.drop i).getD k 0 = bytes.getD (i + k) 0 := by simp
  rw [htonl, native32, fromBigEndian, field 0, field 1, field 2, field 3, Nat.add_zero]
  generalize bytes.getD i 0 = first
  generalize bytes.getD (i + 1) 0 = second
  generalize bytes.getD (i + 2) 0 = third
  generalize bytes.getD (i + 3) 0 = fourth
  rw [← UInt32.toBitVec_inj]
  apply BitVec.eq_of_getLsbD_eq
  intro j inside
  have low : (8#32).toNat = 8 := rfl
  have middle : (16#32).toNat = 16 := rfl
  have high : (24#32).toNat = 24 := rfl
  have upper := mask_high j inside
  have lower := mask_low j inside
  simp only [UInt32.toBitVec_or, UInt32.toBitVec_and, UInt32.toBitVec_shiftLeft, UInt8.toBitVec_toUInt32,
    UInt32.toBitVec_shiftRight, BitVec.getLsbD_or, BitVec.getLsbD_and, BitVec.getLsbD_setWidth, UInt32.toBitVec_ofNat,
    BitVec.reduceMod, BitVec.shiftLeft_eq', BitVec.ushiftRight_eq', BitVec.getLsbD_shiftLeft,
    BitVec.getLsbD_ushiftRight, low, middle, high, upper, lower]
  grind

theorem htonl_htonl (value : UInt32) : htonl (htonl value) = value := by
  rw [← UInt32.toBitVec_inj]
  apply BitVec.eq_of_getLsbD_eq
  intro i inside
  have low : (8#32).toNat = 8 := rfl
  have high : (24#32).toNat = 24 := rfl
  have upper := mask_high
  have lower := mask_low
  simp only [htonl, UInt32.toBitVec_or, UInt32.toBitVec_and, UInt32.toBitVec_shiftLeft,
    UInt32.toBitVec_shiftRight, BitVec.getLsbD_or, BitVec.getLsbD_and, UInt32.toBitVec_ofNat,
    BitVec.reduceMod, BitVec.shiftLeft_eq', BitVec.ushiftRight_eq', BitVec.getLsbD_shiftLeft,
    BitVec.getLsbD_ushiftRight, low, high]
  grind

theorem stored_htonl (value : UInt32) : stored32 (htonl value) = bigEndian value := by
  have low : (8#32).toNat = 8 := rfl
  have middle : (16#32).toNat = 16 := rfl
  have high : (24#32).toNat = 24 := rfl
  have upper := mask_high
  have lower := mask_low
  have byte (one two : UInt8) (same : ∀ i < 8, one.toBitVec.getLsbD i = two.toBitVec.getLsbD i) : one = two := by
    rw [← UInt8.toBitVec_inj]
    exact BitVec.eq_of_getLsbD_eq same
  rw [stored32, bigEndian]
  refine congrArg₂ List.cons (byte _ _ fun i inside => ?_) (congrArg₂ List.cons (byte _ _ fun i inside => ?_)
    (congrArg₂ List.cons (byte _ _ fun i inside => ?_) (congrArg₂ List.cons (byte _ _ fun i inside => ?_) rfl)))
  all_goals
    simp only [htonl, UInt32.toBitVec_or, UInt32.toBitVec_and, UInt32.toBitVec_shiftLeft, UInt32.toBitVec_toUInt8,
      UInt32.toBitVec_shiftRight, BitVec.getLsbD_or, BitVec.getLsbD_and, UInt32.toBitVec_ofNat, BitVec.getLsbD_setWidth,
      BitVec.reduceMod, BitVec.shiftLeft_eq', BitVec.ushiftRight_eq', BitVec.getLsbD_shiftLeft,
      BitVec.getLsbD_ushiftRight, low, middle, high]
    grind

end RoDos.Net
