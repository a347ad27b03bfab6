import Mathlib.Algebra.Ring.Int.Defs
import Mathlib.Algebra.Ring.Nat
import Mathlib.Tactic.Common

set_option autoImplicit false

namespace Base

theorem to_uint32_value (x : Int32) : (x.toUInt32.toNat : Int) = x.toInt % 2 ^ 32 := by
  have value : x.toInt = Int.bmod (x.toUInt32.toNat : Int) (2 ^ 32) := BitVec.toInt_eq_toNat_bmod x.toBitVec
  have word := x.toUInt32.toNat_lt
  rw [value, Int.bmod_def]
  omega

theorem to_int32_value (x : UInt32) : x.toInt32.toInt = Int.bmod (x.toNat : Int) (2 ^ 32) :=
  BitVec.toInt_eq_toNat_bmod x.toBitVec

theorem bmod_word (a : Int) (low : -2 ^ 31 ≤ a) (high : a < 2 ^ 31) : a.bmod (2 ^ 32) = a := by
  rw [Int.bmod_def]
  omega

end Base
