import Mathlib.Algebra.Ring.Int.Defs
import Mathlib.Algebra.Ring.Nat
import Mathlib.Tactic.Common

set_option autoImplicit false

namespace Base

-- Byte-addressed memory of a machine with 32-bit addresses, little endian.
abbrev Memory := Nat → UInt8

def add32 (a b : Nat) : Nat := (a + b) % 2 ^ 32

def sub32 (a b : Nat) : Nat := (a + (2 ^ 32 - b % 2 ^ 32)) % 2 ^ 32

def signed32 (a : Nat) : Int := if a < 2 ^ 31 then (a : Int) else (a : Int) - 2 ^ 32

def wrapInt (value : Int) : Int := (value + 2 ^ 31) % 2 ^ 32 - 2 ^ 31

def loadByte (memory : Memory) (address : Nat) : UInt8 := memory (address % 2 ^ 32)

def storeByte (memory : Memory) (address : Nat) (byte : UInt8) : Memory :=
  fun other => if other = address % 2 ^ 32 then byte else memory other

def loadWord (memory : Memory) (address : Nat) : Nat :=
  (loadByte memory address).toNat + 2 ^ 8 * (loadByte memory (address + 1)).toNat +
    2 ^ 16 * (loadByte memory (address + 2)).toNat + 2 ^ 24 * (loadByte memory (address + 3)).toNat

def storeWord (memory : Memory) (address value : Nat) : Memory :=
  storeByte (storeByte (storeByte (storeByte memory address (UInt8.ofNat value))
    (address + 1) (UInt8.ofNat (value / 2 ^ 8)))
    (address + 2) (UInt8.ofNat (value / 2 ^ 16)))
    (address + 3) (UInt8.ofNat (value / 2 ^ 24))

theorem add32_of_lt (a b : Nat) (fits : a + b < 2 ^ 32) : add32 a b = a + b := Nat.mod_eq_of_lt fits

theorem sub32_of_le (a b : Nat) (word : a < 2 ^ 32) (below : b ≤ a) : sub32 a b = a - b := by
  unfold sub32
  omega

theorem load_byte_store (memory : Memory) (a b : Nat) (byte : UInt8) :
    loadByte (storeByte memory a byte) b =
      if b % 2 ^ 32 = a % 2 ^ 32 then byte else loadByte memory b := rfl

theorem load_byte_store_here (memory : Memory) (a : Nat) (byte : UInt8) :
    loadByte (storeByte memory a byte) a = byte := by simp [load_byte_store]

theorem load_byte_store_elsewhere (memory : Memory) (a b : Nat) (byte : UInt8)
    (different : b % 2 ^ 32 ≠ a % 2 ^ 32) :
    loadByte (storeByte memory a byte) b = loadByte memory b := by
  rw [load_byte_store, if_neg different]

theorem load_word_lt (memory : Memory) (a : Nat) : loadWord memory a < 2 ^ 32 := by
  have low := (loadByte memory a).toNat_lt
  have second := (loadByte memory (a + 1)).toNat_lt
  have third := (loadByte memory (a + 2)).toNat_lt
  have high := (loadByte memory (a + 3)).toNat_lt
  unfold loadWord
  omega

theorem load_word_store_byte (memory : Memory) (a b : Nat) (byte : UInt8)
    (inside : b < 2 ^ 32) (wordInside : a + 4 ≤ 2 ^ 32) (apart : b < a ∨ a + 4 ≤ b) :
    loadWord (storeByte memory b byte) a = loadWord memory a := by
  unfold loadWord
  rw [load_byte_store_elsewhere, load_byte_store_elsewhere, load_byte_store_elsewhere,
    load_byte_store_elsewhere] <;> omega

theorem load_word_store_apart (memory : Memory) (a b value : Nat) (inside : a + 4 ≤ 2 ^ 32)
    (wordInside : b + 4 ≤ 2 ^ 32) (apart : a + 4 ≤ b ∨ b + 4 ≤ a) :
    loadWord (storeWord memory a value) b = loadWord memory b := by
  unfold storeWord
  rw [load_word_store_byte, load_word_store_byte, load_word_store_byte, load_word_store_byte] <;> omega

theorem load_word_store_here (memory : Memory) (a value : Nat) (word : value < 2 ^ 32) :
    loadWord (storeWord memory a value) a = value := by
  have low : loadByte (storeWord memory a value) a = UInt8.ofNat value := by
    unfold storeWord
    rw [load_byte_store_elsewhere, load_byte_store_elsewhere, load_byte_store_elsewhere,
      load_byte_store_here] <;> omega
  have second : loadByte (storeWord memory a value) (a + 1) = UInt8.ofNat (value / 2 ^ 8) := by
    unfold storeWord
    rw [load_byte_store_elsewhere, load_byte_store_elsewhere, load_byte_store_here] <;> omega
  have third : loadByte (storeWord memory a value) (a + 2) = UInt8.ofNat (value / 2 ^ 16) := by
    unfold storeWord
    rw [load_byte_store_elsewhere, load_byte_store_here]
    omega
  have high : loadByte (storeWord memory a value) (a + 3) = UInt8.ofNat (value / 2 ^ 24) :=
    load_byte_store_here _ _ _
  unfold loadWord
  rw [low, second, third, high]
  simp only [UInt8.toNat_ofNat']
  omega

end Base
