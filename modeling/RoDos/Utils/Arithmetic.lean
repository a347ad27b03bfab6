import RoDos.Base.Roots
import RoDos.Base.Signed
import Mathlib.Algebra.Ring.Int.Defs

set_option autoImplicit false

namespace RoDos.Utils

open Base

def powLoop (result base : Int32) (exp : Nat) : Int32 :=
  if 0 < exp then powLoop (if exp &&& 1 ≠ 0 then result * base else result) (base * base) (exp >>> 1) else result
termination_by exp

-- Behind the two tests the exponent is positive, and a natural number for the loop.
def pow (base exp : Int32) : Int32 :=
  if exp < 0 then 0 else if exp = 0 then 1 else powLoop 1 base exp.toInt.toNat

-- A division by zero is none.
def sqrtLoop (n x y : UInt32) : Option UInt32 :=
  if y < x then
    let x := y
    if x = 0 then none else sqrtLoop n x ((x + n / x) / 2)
  else some x
termination_by x.toNat

def sqrt (n : UInt32) : Option UInt32 :=
  if n = 0 then some 0 else if n = 1 then some 1 else sqrtLoop n n ((n + 1) / 2)

-- The number, and the next state of the generator.
def rand (rngSeed : UInt32) : UInt32 × UInt32 :=
  let rngSeed := rngSeed * 1103515245 + 12345
  (rngSeed / 65536 % 32768, rngSeed)

-- The remainder and the sum are unsigned.
def randRange (rngSeed : UInt32) (minVal maxVal : Int32) : Option (Int32 × UInt32) :=
  if maxVal ≤ minVal then some (minVal, rngSeed)
  else
    let (number, rngSeed) := rand rngSeed
    let width := (maxVal - minVal + 1).toUInt32
    if width = 0 then none else some ((minVal.toUInt32 + number % width).toInt32, rngSeed)

theorem pow_loop_power (result base : Int) (exp : Nat) :
    powLoop (Int32.ofInt result) (Int32.ofInt base) exp = Int32.ofInt (result * base ^ exp) := by
  induction exp using Nat.strongRecOn generalizing result base with
  | ind exp ih =>
      rw [powLoop]
      by_cases positive : 0 < exp
      · have half : exp >>> 1 = exp / 2 := Nat.shiftRight_one exp
        have smaller : exp / 2 < exp := Nat.div_lt_self positive (by decide)
        have squared : (base * base) ^ (exp / 2) = base ^ (2 * (exp / 2)) := by rw [pow_mul, sq]
        rw [if_pos positive, half, Nat.and_one_is_mod, ← Int32.ofInt_mul, ← Int32.ofInt_mul]
        by_cases odd : exp % 2 ≠ 0
        · have bits : exp = 2 * (exp / 2) + 1 := by omega
          rw [if_pos odd, ih _ smaller, squared, mul_assoc, ← pow_succ', ← bits]
        · have bits : exp = 2 * (exp / 2) := by omega
          rw [if_neg odd, ih _ smaller, squared, ← bits]
      · rw [if_neg positive, Nat.eq_zero_of_not_pos positive, pow_zero, mul_one]

theorem pow_power (base exp : Int32) (natural : 0 ≤ exp) : pow base exp = Int32.ofInt (base.toInt ^ exp.toInt.toNat) := by
  have sign : ¬ exp < 0 := fun negative => by
    rw [Int32.lt_iff_toInt_lt] at negative
    rw [Int32.le_iff_toInt_le] at natural
    omega
  rw [pow, if_neg sign]
  by_cases zero : exp = 0
  · rw [if_pos zero, zero, Int32.toInt_zero, Int.toNat_zero, pow_zero]
    rfl
  · have loop := pow_loop_power 1 base.toInt exp.toInt.toNat
    rw [Int32.ofInt_toInt, one_mul] at loop
    rw [if_neg zero]
    exact loop

theorem pow_power_wrapped : pow 7 13 = Int32.ofInt ((7 : Int32).toInt ^ (13 : Int32).toInt.toNat) :=
  pow_power 7 13 (by decide)

theorem average_word (n x : UInt32) (positive : 0 < n.toNat) (above : Nat.sqrt n.toNat ≤ x.toNat) (half : x.toNat ≤ 2 ^ 31) :
    ((x + n / x) / 2).toNat = (x.toNat + n.toNat / x.toNat) / 2 := by
  have word := n.toNat_lt
  have root := Nat.sqrt_pos.mpr positive
  have fits : x.toNat + n.toNat / x.toNat < 2 ^ 32 := by
    by_cases one : x.toNat = 1
    · have small : n.toNat < 2 * 2 := Nat.sqrt_lt.mp (by omega)
      rw [one, Nat.div_one]
      omega
    · have quotient : n.toNat / x.toNat ≤ n.toNat / 2 := Nat.div_le_div_left (by omega) (by decide)
      omega
  rw [UInt32.toNat_div, UInt32.toNat_add, UInt32.toNat_div, Nat.mod_eq_of_lt fits]
  rfl

theorem sqrt_loop_root (n x y : UInt32) (positive : 0 < n.toNat) (above : Nat.sqrt n.toNat ≤ x.toNat)
    (average : y.toNat = (x.toNat + n.toNat / x.toNat) / 2) (half : y < x → y.toNat ≤ 2 ^ 31) :
    ∃ r, sqrtLoop n x y = some r ∧ r.toNat = Nat.sqrt n.toNat := by
  have root := Nat.sqrt_pos.mpr positive
  induction size : x.toNat using Nat.strongRecOn generalizing x y with
  | ind k ih =>
      subst size
      have next : Nat.sqrt n.toNat ≤ y.toNat := average ▸ root_le_average n.toNat x.toNat (Nat.lt_of_lt_of_le root above)
      rw [sqrtLoop]
      by_cases less : y < x
      · have smaller : y.toNat < x.toNat := UInt32.lt_iff_toNat_lt.mp less
        have some' : y ≠ 0 := fun zero => by
          rw [zero, UInt32.toNat_zero] at next
          omega
        have mean := average_word n y positive next (half less)
        rw [if_pos less]
        dsimp only
        rw [if_neg some']
        exact ih y.toNat smaller y _ next mean
          (fun further => Nat.le_trans (Nat.le_of_lt (UInt32.lt_iff_toNat_lt.mp further)) (half less)) rfl
      · have stopped : x.toNat ≤ y.toNat := by
          have order := UInt32.lt_iff_toNat_lt.not.mp less
          omega
        rw [if_neg less]
        exact ⟨x, rfl, Nat.le_antisymm (stopped_le_root n.toNat x.toNat (average ▸ stopped)) above⟩

-- The first sum of the largest word wraps to 0, and its square root is 65535.
theorem sqrt_largest : sqrt 0xFFFFFFFF = none := by
  rw [sqrt, if_neg (by decide), if_neg (by decide), sqrtLoop, if_pos (by decide), if_pos (by decide)]

theorem sqrt_root (n : UInt32) (below : n ≠ 0xFFFFFFFF) : ∃ r, sqrt n = some r ∧ r.toNat = Nat.sqrt n.toNat := by
  rw [sqrt]
  by_cases zero : n = 0
  · rw [if_pos zero, zero]
    exact ⟨0, rfl, rfl⟩
  by_cases one : n = 1
  · rw [if_neg zero, if_pos one, one]
    exact ⟨1, rfl, rfl⟩
  have word := n.toNat_lt
  have short : n.toNat ≠ 2 ^ 32 - 1 := fun same => below (UInt32.toNat_inj.mp same)
  have positive : 0 < n.toNat := Nat.pos_of_ne_zero fun none' => zero (UInt32.toNat_inj.mp none')
  have first : ((n + 1) / 2).toNat = (n.toNat + 1) / 2 := by
    rw [UInt32.toNat_div, UInt32.toNat_add, Nat.mod_eq_of_lt (by rw [UInt32.toNat_one]; omega)]
    rfl
  rw [if_neg zero, if_neg one]
  refine sqrt_loop_root n n _ positive (Nat.sqrt_le_self n.toNat) ?_ fun _ => ?_
  · rw [first, Nat.div_self positive]
  · rw [first]
    omega

-- Newton's iteration finds the root of every word but the largest, where it divides by zero.
theorem sqrt_right_iff (n : UInt32) :
    (∃ r, sqrt n = some r ∧ r.toNat * r.toNat ≤ n.toNat ∧ ∀ q : Nat, q * q ≤ n.toNat → q ≤ r.toNat) ↔ n ≠ 0xFFFFFFFF := by
  constructor
  · rintro ⟨r, found, _⟩ rfl
    rw [sqrt_largest] at found
    cases found
  · intro below
    obtain ⟨r, found, root⟩ := sqrt_root n below
    exact ⟨r, found, root ▸ Nat.sqrt_le n.toNat, fun q square => root ▸ Nat.le_sqrt.mpr square⟩

theorem sqrt_not_right : ¬ ∀ n : UInt32, ∃ r, sqrt n = some r ∧ r.toNat * r.toNat ≤ n.toNat ∧
    ∀ q : Nat, q * q ≤ n.toNat → q ≤ r.toNat := by
  intro claimed
  obtain ⟨r, found, _⟩ := claimed 0xFFFFFFFF
  rw [sqrt_largest] at found
  cases found

section
variable (rngSeed : UInt32) (minVal maxVal : Int32)

-- The width wraps to 0 for the widest range only.
theorem width_value :
    ((maxVal - minVal + 1).toUInt32.toNat : Int) = (maxVal.toInt - minVal.toInt + 1) % 2 ^ 32 := by
  rw [to_uint32_value, Int32.toInt_add, Int32.toInt_sub, Int32.toInt_one, Int.bmod_def, Int.bmod_def]
  omega

theorem width_zero_iff (order : minVal.toInt < maxVal.toInt) :
    (maxVal - minVal + 1).toUInt32 = 0 ↔ minVal = Int32.minValue ∧ maxVal = Int32.maxValue := by
  have value := width_value minVal maxVal
  have low := minVal.le_toInt
  have high := maxVal.toInt_lt
  rw [← UInt32.toNat_inj, ← Int32.toInt_inj, ← Int32.toInt_inj, Int32.toInt_minValue, Int32.toInt_maxValue, UInt32.toNat_zero]
  omega

theorem rand_range_value (order : minVal.toInt < maxVal.toInt) (number : UInt32)
    (some' : (maxVal - minVal + 1).toUInt32 ≠ 0) :
    minVal ≤ (minVal.toUInt32 + number % (maxVal - minVal + 1).toUInt32).toInt32 ∧
      (minVal.toUInt32 + number % (maxVal - minVal + 1).toUInt32).toInt32 ≤ maxVal := by
  have value := width_value minVal maxVal
  have low := minVal.le_toInt
  have high := maxVal.toInt_lt
  have start := to_uint32_value minVal
  have positive : 0 < (maxVal - minVal + 1).toUInt32.toNat :=
    Nat.pos_of_ne_zero fun zero => some' (UInt32.toNat_inj.mp zero)
  have rest := Nat.mod_lt number.toNat positive
  rw [Int32.le_iff_toInt_le, Int32.le_iff_toInt_le, to_int32_value, UInt32.toNat_add, UInt32.toNat_mod, Int.bmod_def]
  omega

-- Only the range of all ints has a width of 0, by which the remainder is taken.
theorem rand_range_iff (order : minVal ≤ maxVal) :
    (∃ r next, randRange rngSeed minVal maxVal = some (r, next) ∧ minVal ≤ r ∧ r ≤ maxVal) ↔
      ¬ (minVal = Int32.minValue ∧ maxVal = Int32.maxValue) := by
  rw [Int32.le_iff_toInt_le] at order
  rw [randRange]
  by_cases one : maxVal ≤ minVal
  · have same : maxVal.toInt = minVal.toInt := Int.le_antisymm (Int32.le_iff_toInt_le.mp one) order
    rw [if_pos one]
    refine iff_of_true ⟨minVal, rngSeed, rfl, ?_, ?_⟩ ?_
    · rw [Int32.le_iff_toInt_le]
    · rw [Int32.le_iff_toInt_le]
      exact order
    · rintro ⟨rfl, rfl⟩
      exact absurd same (by decide)
  · have less : minVal.toInt < maxVal.toInt := by
      rw [Int32.le_iff_toInt_le] at one
      omega
    rw [if_neg one, ← width_zero_iff minVal maxVal less]
    dsimp only
    by_cases zero : (maxVal - minVal + 1).toUInt32 = 0
    · rw [if_pos zero]
      exact iff_of_false (fun ⟨_, _, found, _⟩ => Option.some_ne_none _ found.symm) fun some' => some' zero
    · rw [if_neg zero]
      exact iff_of_true ⟨_, _, rfl, rand_range_value minVal maxVal less _ zero⟩ zero
end

theorem rand_range_dice : (∃ r next, randRange 1 1 6 = some (r, next) ∧ 1 ≤ r ∧ r ≤ 6) ↔
    ¬ ((1 : Int32) = Int32.minValue ∧ (6 : Int32) = Int32.maxValue) :=
  rand_range_iff 1 1 6 (by decide)

theorem rand_range_not_right : ¬ ∀ rngSeed minVal maxVal, minVal ≤ maxVal →
    ∃ r next, randRange rngSeed minVal maxVal = some (r, next) ∧ minVal ≤ r ∧ r ≤ maxVal := by
  intro claimed
  obtain ⟨r, next, found, _⟩ := claimed 1 Int32.minValue Int32.maxValue (by decide)
  have trap : randRange 1 Int32.minValue Int32.maxValue = none := by decide
  rw [trap] at found
  cases found

end RoDos.Utils
