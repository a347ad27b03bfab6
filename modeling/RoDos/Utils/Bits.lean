import Mathlib.Data.Nat.Digits.Lemmas
import Mathlib.Data.Nat.Log
import Mathlib.Data.Nat.Size
import RoDos.Base.Memory

set_option autoImplicit false

namespace RoDos.Utils

open Base

theorem halved_below (n : UInt32) (some' : n ≠ 0) : (n >>> 1).toNat < n.toNat := by
  have positive : 0 < n.toNat := Nat.pos_of_ne_zero fun zero => some' (UInt32.toNat_inj.mp zero)
  rw [UInt32.toNat_shiftRight, Nat.shiftRight_eq_div_pow]
  exact Nat.div_lt_self positive (by decide)

-- while (n) { count += n & 1; n >>= 1; }
def popcountLoop (n : UInt32) (count : Nat) : Nat :=
  if n = 0 then count else popcountLoop (n >>> 1) (count + (n &&& 1).toNat)
termination_by n.toNat
decreasing_by exact halved_below n ‹_›

def popcount (n : UInt32) : Nat := popcountLoop n 0

-- if ((n & mask) == 0) { count += width; n <<= width; }
def clzStep (mask width : UInt32) (state : Nat × UInt32) : Nat × UInt32 :=
  if state.2 &&& mask = 0 then (state.1 + width.toNat, state.2 <<< width) else state

-- The last step does not shift any more.
def clz (n : UInt32) : Nat :=
  if n = 0 then 32
  else
    let state := clzStep 0xC0000000 2 (clzStep 0xF0000000 4 (clzStep 0xFF000000 8 (clzStep 0xFFFF0000 16 (0, n))))
    if state.2 &&& 0x80000000 = 0 then state.1 + 1 else state.1

-- while ((n & 1) == 0) { count++; n >>= 1; }
def ctzLoop (n : UInt32) (count : Nat) : Nat :=
  if n = 0 ∨ n &&& 1 ≠ 0 then count else ctzLoop (n >>> 1) (count + 1)
termination_by n.toNat
decreasing_by exact halved_below n (not_or.mp ‹_›).1

def ctz (n : UInt32) : Nat := if n = 0 then 32 else ctzLoop n 0

def isPowerOf2 (n : UInt32) : Bool := n ≠ 0 ∧ n &&& (n - 1) = 0

def smear (n width : UInt32) : UInt32 := n ||| n >>> width

def nextPowerOf2 (n : UInt32) : UInt32 :=
  if n = 0 then 1 else smear (smear (smear (smear (smear (n - 1) 1) 2) 4) 8) 16 + 1

theorem low_bit (n : UInt32) : (n &&& 1).toNat = n.toNat % 2 := by
  rw [UInt32.toNat_and]
  exact Nat.and_two_pow_sub_one_eq_mod n.toNat 1

theorem halved (n : UInt32) : (n >>> 1).toNat = n.toNat / 2 := by
  rw [UInt32.toNat_shiftRight, Nat.shiftRight_eq_div_pow]
  rfl

-- By the recursion of the loop: the count goes up by the binary digits of what is left.
theorem popcount_loop_digits (n : UInt32) (count : Nat) : popcountLoop n count = count + (Nat.digits 2 n.toNat).sum := by
  fun_induction popcountLoop n count with
  | case1 count => rfl
  | case2 n count some' ih =>
      have positive : 0 < n.toNat := Nat.pos_of_ne_zero fun zero => some' (UInt32.toNat_inj.mp zero)
      rw [ih, low_bit, halved, Nat.digits_def' (by decide) positive, List.sum_cons, Nat.add_assoc]

theorem popcount_digits (n : UInt32) : popcount n = (Nat.digits 2 n.toNat).sum := by
  rw [popcount, popcount_loop_digits, Nat.zero_add]

theorem ctz_loop_odd (n : UInt32) (count : Nat) (some' : n ≠ 0) :
    ∃ k odd, ctzLoop n count = count + k ∧ n.toNat = 2 ^ k * odd ∧ odd % 2 = 1 := by
  fun_induction ctzLoop n count with
  | case1 n count stops =>
      have set : n &&& 1 ≠ 0 := stops.resolve_left some'
      have odd : n.toNat % 2 ≠ 0 := by
        rw [← low_bit]
        exact fun zero => set (UInt32.toNat_inj.mp zero)
      exact ⟨0, n.toNat, rfl, by omega, by omega⟩
  | case2 n count passes ih =>
      have clear : n &&& 1 = 0 := not_not.mp (not_or.mp passes).2
      have even : n.toNat % 2 = 0 := by
        rw [← low_bit, clear]
        rfl
      have left : n >>> 1 ≠ 0 := by
        intro zero
        have half := halved n
        rw [zero] at half
        have none' : n.toNat = 0 := by
          rw [show (0 : UInt32).toNat = 0 from rfl] at half
          omega
        exact some' (UInt32.toNat_inj.mp none')
      obtain ⟨k, odd, counted, split, isOdd⟩ := ih left
      rw [halved] at split
      refine ⟨k + 1, odd, by rw [counted]; omega, ?_, isOdd⟩
      rw [Nat.pow_succ, Nat.mul_comm (2 ^ k) 2, Nat.mul_assoc, ← split]
      omega

theorem high_bits_clear (n mask : UInt32) (j k : Nat) (bits : mask.toNat = (2 ^ k - 1) * 2 ^ j) (width : j + k = 32) :
    n &&& mask = 0 ↔ n.toNat < 2 ^ j := by
  have small : n.toNat >>> j < 2 ^ k := by
    rw [Nat.shiftRight_eq_div_pow, Nat.div_lt_iff_lt_mul (Nat.two_pow_pos j), ← Nat.pow_add, Nat.add_comm k j, width]
    exact n.toNat_lt
  have shifted : n.toNat &&& mask.toNat = (n.toNat >>> j) <<< j := by
    rw [bits, ← Nat.shiftLeft_eq]
    refine Nat.eq_of_testBit_eq fun i => ?_
    rw [Nat.testBit_and, Nat.testBit_shiftLeft, Nat.testBit_shiftLeft, Nat.testBit_shiftRight, Nat.testBit_two_pow_sub_one]
    by_cases above : j ≤ i
    · by_cases below : i - j < k
      · rw [Nat.add_sub_cancel' above]
        simp [above, below]
      · have clear : n.toNat.testBit i = false := Nat.testBit_lt_two_pow (Nat.lt_of_lt_of_le n.toNat_lt
          (Nat.pow_le_pow_right (by decide) (by omega)))
        rw [Nat.add_sub_cancel' above, clear]
        simp
    · simp [above]
  rw [← UInt32.toNat_inj, UInt32.toNat_and, shifted, Nat.shiftLeft_eq, Nat.shiftRight_eq_div_pow]
  constructor
  · intro zero
    rcases Nat.mul_eq_zero.mp zero with none' | power
    · exact (Nat.div_eq_zero_iff_lt (Nat.two_pow_pos j)).mp none'
    · exact absurd power (Nat.two_pow_pos j).ne'
  · intro below
    rw [Nat.div_eq_of_lt below]
    exact Nat.zero_mul _

structure Shifted (n : UInt32) (low : Nat) (state : Nat × UInt32) : Prop where
  value : state.2.toNat = n.toNat * 2 ^ state.1
  reached : 2 ^ low ≤ state.2.toNat

theorem clz_step_shifts (n mask width : UInt32) (j : Nat) (state : Nat × UInt32)
    (bits : mask.toNat = (2 ^ width.toNat - 1) * 2 ^ j) (whole : j + width.toNat = 32) (short : width.toNat < 32)
    (shifted : Shifted n (j - width.toNat) state) : Shifted n j (clzStep mask width state) := by
  rw [clzStep]
  by_cases clear : state.2 &&& mask = 0
  · have below := (high_bits_clear state.2 mask j width.toNat bits whole).mp clear
    have moved : (state.2 <<< width).toNat = state.2.toNat * 2 ^ width.toNat := by
      rw [UInt32.toNat_shiftLeft, Nat.mod_eq_of_lt short, Nat.shiftLeft_eq]
      refine Nat.mod_eq_of_lt ?_
      have scaled := Nat.mul_lt_mul_of_pos_right below (Nat.two_pow_pos width.toNat)
      rw [← Nat.pow_add, whole] at scaled
      exact scaled
    rw [if_pos clear]
    refine ⟨?_, ?_⟩
    · rw [moved, shifted.value, Nat.mul_assoc, ← Nat.pow_add]
    · have scaled := Nat.mul_le_mul_right (2 ^ width.toNat) shifted.reached
      rw [← Nat.pow_add] at scaled
      rw [moved]
      exact Nat.le_trans (Nat.pow_le_pow_right (by decide) (by omega)) scaled
  · have above := mt (high_bits_clear state.2 mask j width.toNat bits whole).mpr clear
    rw [if_neg clear]
    exact ⟨shifted.value, Nat.le_of_not_lt above⟩

theorem clz_leading (n : UInt32) (some' : n ≠ 0) : clz n + Nat.log 2 n.toNat = 31 := by
  have positive : 0 < n.toNat := Nat.pos_of_ne_zero fun zero => some' (UInt32.toNat_inj.mp zero)
  have start : Shifted n (16 - 16) (0, n) := ⟨by rw [Nat.pow_zero, Nat.mul_one], positive⟩
  have first := clz_step_shifts n 0xFFFF0000 16 16 _ rfl rfl (by decide) start
  have second := clz_step_shifts n 0xFF000000 8 24 _ rfl rfl (by decide) first
  have third := clz_step_shifts n 0xF0000000 4 28 _ rfl rfl (by decide) second
  have fourth := clz_step_shifts n 0xC0000000 2 30 _ rfl rfl (by decide) third
  have normal : 2 ^ 31 ≤ n.toNat * 2 ^ clz n ∧ n.toNat * 2 ^ clz n < 2 ^ 32 := by
    rw [clz, if_neg some']
    dsimp only
    obtain ⟨value, reached⟩ := fourth
    generalize clzStep 0xC0000000 2 (clzStep 0xF0000000 4 (clzStep 0xFF000000 8 (clzStep 0xFFFF0000 16 (0, n)))) = state at *
    have below := state.2.toNat_lt
    have top := high_bits_clear state.2 0x80000000 31 1 rfl rfl
    by_cases clear : state.2 &&& 0x80000000 = 0
    · have small := top.mp clear
      rw [if_pos clear, show 2 ^ (state.1 + 1) = 2 ^ state.1 * 2 from rfl, ← Nat.mul_assoc, ← value]
      omega
    · have large := Nat.le_of_not_lt (mt top.mpr clear)
      rw [if_neg clear, ← value]
      exact ⟨large, below⟩
  generalize clz n = c at normal ⊢
  have short : c ≤ 31 := by
    by_contra long
    have grown := Nat.pow_le_pow_right (n := 2) (by decide) (show 32 ≤ c by omega)
    have scaled := Nat.mul_le_mul positive grown
    omega
  have lower : 2 ^ (31 - c) ≤ n.toNat := by
    refine Nat.le_of_mul_le_mul_right ?_ (Nat.two_pow_pos c)
    rw [← Nat.pow_add, Nat.sub_add_cancel short]
    exact normal.1
  have upper : n.toNat < 2 ^ (31 - c + 1) := by
    refine Nat.lt_of_mul_lt_mul_right (a := 2 ^ c) ?_
    rw [← Nat.pow_add, show 31 - c + 1 + c = 32 by omega]
    exact normal.2
  rw [(Nat.log_eq_iff (Or.inr ⟨by decide, positive.ne'⟩)).mpr ⟨lower, upper⟩]
  omega

-- A bit is set where one of the w bits of n from its place on is.
def SmearedBy (n w : Nat) (m : UInt32) : Prop := ∀ i, m.toNat.testBit i = true ↔ ∃ j < w, n.testBit (i + j) = true

theorem smear_doubles (n w : Nat) (m : UInt32) (width : UInt32) (same : width.toNat = w) (short : w < 32)
    (smeared : SmearedBy n w m) : SmearedBy n (2 * w) (smear m width) := by
  intro i
  rw [smear, UInt32.toNat_or, UInt32.toNat_shiftRight, same, Nat.mod_eq_of_lt short, Nat.testBit_or, Nat.testBit_shiftRight,
    Bool.or_eq_true, smeared i, smeared (w + i)]
  constructor
  · rintro (⟨j, below, set⟩ | ⟨j, below, set⟩)
    · exact ⟨j, by omega, set⟩
    · refine ⟨w + j, by omega, ?_⟩
      rwa [← Nat.add_assoc, Nat.add_comm i w]
  · rintro ⟨j, below, set⟩
    by_cases first : j < w
    · exact Or.inl ⟨j, first, set⟩
    · refine Or.inr ⟨j - w, by omega, ?_⟩
      rwa [show w + i + (j - w) = i + j by omega]

theorem smeared_size (n : UInt32) : (smear (smear (smear (smear (smear n 1) 2) 4) 8) 16).toNat = 2 ^ n.toNat.size - 1 := by
  have start : SmearedBy n.toNat 1 n := by
    intro i
    constructor
    · exact fun set => ⟨0, Nat.one_pos, set⟩
    · rintro ⟨j, below, set⟩
      rwa [Nat.lt_one_iff.mp below] at set
  have smeared := smear_doubles n.toNat 16 _ 16 rfl (by decide) (smear_doubles n.toNat 8 _ 8 rfl (by decide)
    (smear_doubles n.toNat 4 _ 4 rfl (by decide) (smear_doubles n.toNat 2 _ 2 rfl (by decide)
      (smear_doubles n.toNat 1 n 1 rfl (by decide) start))))
  refine Nat.eq_of_testBit_eq fun i => ?_
  rw [Nat.testBit_two_pow_sub_one, Bool.eq_iff_iff, smeared i, decide_eq_true_iff, Nat.lt_size]
  constructor
  · rintro ⟨j, -, set⟩
    exact Nat.le_trans (Nat.pow_le_pow_right (by decide) (Nat.le_add_right i j)) (Nat.ge_two_pow_of_testBit set)
  · intro large
    obtain ⟨k, above, set⟩ := Nat.exists_ge_and_testBit_of_ge_two_pow large
    have inside : k < 32 := by
      by_contra outside
      rw [Nat.testBit_lt_two_pow (Nat.lt_of_lt_of_le n.toNat_lt (Nat.pow_le_pow_right (by decide) (Nat.le_of_not_lt outside)))] at set
      exact Bool.noConfusion set
    refine ⟨k - i, by omega, ?_⟩
    rwa [Nat.add_sub_cancel' above]

theorem size_pred_clog (n : Nat) (positive : 0 < n) : (n - 1).size = Nat.clog 2 n := by
  refine eq_of_forall_ge_iff fun k => ?_
  rw [Nat.size_le, Nat.clog_le_iff_le_pow (by decide)]
  omega

theorem next_power_least (n : UInt32) : (nextPowerOf2 n).toNat = if n.toNat ≤ 2 ^ 31 then 2 ^ Nat.clog 2 n.toNat else 0 := by
  rw [nextPowerOf2]
  by_cases zero : n = 0
  · rw [if_pos zero, zero]
    rfl
  have positive : 0 < n.toNat := Nat.pos_of_ne_zero fun none' => zero (UInt32.toNat_inj.mp none')
  have pred : (n - 1).toNat = n.toNat - 1 := UInt32.toNat_sub_of_le n 1 (UInt32.le_iff_toNat_le.mpr positive)
  rw [if_neg zero, UInt32.toNat_add, smeared_size, pred, size_pred_clog n.toNat positive]
  have power := Nat.two_pow_pos (Nat.clog 2 n.toNat)
  have one : (1 : UInt32).toNat = 1 := rfl
  rw [one, Nat.sub_add_cancel power]
  by_cases fits : n.toNat ≤ 2 ^ 31
  · have small := (Nat.clog_le_iff_le_pow (by decide)).mpr fits
    rw [if_pos fits]
    exact Nat.mod_eq_of_lt (Nat.pow_lt_pow_right (by decide) (by omega))
  · have large := (Nat.lt_clog_iff_pow_lt (b := 2) (by decide)).mpr (Nat.lt_of_not_le fits)
    have bound := (Nat.clog_le_iff_le_pow (b := 2) (x := n.toNat) (y := 32) (by decide)).mpr n.toNat_lt.le
    rw [if_neg fits, show Nat.clog 2 n.toNat = 32 by omega]

theorem power_of_2_iff (n : UInt32) : isPowerOf2 n = true ↔ ∃ k, n.toNat = 2 ^ k := by
  rw [isPowerOf2, decide_eq_true_iff]
  by_cases zero : n = 0
  · refine iff_of_false (fun both => both.1 zero) ?_
    rintro ⟨k, same⟩
    rw [zero] at same
    exact (Nat.two_pow_pos k).ne same
  · have positive : 0 < n.toNat := Nat.pos_of_ne_zero fun none' => zero (UInt32.toNat_inj.mp none')
    have pred : (n - 1).toNat = n.toNat - 1 := UInt32.toNat_sub_of_le n 1 (UInt32.le_iff_toNat_le.mpr positive)
    rw [← UInt32.toNat_inj, UInt32.toNat_and, pred]
    refine (and_iff_right zero).trans ?_
    exact Nat.and_sub_one_eq_zero_iff_isPowerOfTwo positive.ne'

theorem digit_sum_zero (n : Nat) (zero : (Nat.digits 2 n).sum = 0) : n = 0 := by
  induction n using Nat.strongRecOn with
  | ind n ih =>
      by_contra some'
      rw [Nat.digits_def' (by decide) (Nat.pos_of_ne_zero some'), List.sum_cons] at zero
      have half := ih (n / 2) (Nat.div_lt_self (Nat.pos_of_ne_zero some') (by decide)) (by omega)
      omega

theorem digit_sum_one_iff (n : Nat) : (Nat.digits 2 n).sum = 1 ↔ ∃ k, n = 2 ^ k := by
  induction n using Nat.strongRecOn with
  | ind n ih =>
      rcases Nat.eq_zero_or_pos n with rfl | positive
      · exact iff_of_false (by decide) fun ⟨k, same⟩ => (Nat.two_pow_pos k).ne same
      have half := ih (n / 2) (Nat.div_lt_self positive (by decide))
      rw [Nat.digits_def' (by decide) positive, List.sum_cons]
      rcases Nat.mod_two_eq_zero_or_one n with even | odd
      · rw [even, Nat.zero_add, half]
        constructor
        · rintro ⟨k, same⟩
          exact ⟨k + 1, by rw [Nat.pow_succ]; omega⟩
        · rintro ⟨k, rfl⟩
          cases k with
          | zero => exact absurd even (by decide)
          | succ k => exact ⟨k, by rw [Nat.pow_succ]; omega⟩
      · rw [odd]
        constructor
        · intro sum
          have none' := digit_sum_zero (n / 2) (by omega)
          exact ⟨0, by rw [Nat.pow_zero]; omega⟩
        · rintro ⟨k, rfl⟩
          cases k with
          | zero => rfl
          | succ k =>
              rw [Nat.pow_succ] at odd
              omega

theorem next_power_fixed_iff (n : UInt32) : isPowerOf2 n = true ↔ n ≠ 0 ∧ nextPowerOf2 n = n := by
  rw [power_of_2_iff, ← UInt32.toNat_inj, next_power_least]
  constructor
  · rintro ⟨k, same⟩
    have inside := n.toNat_lt
    have short : k < 32 := (Nat.pow_lt_pow_iff_right (a := 2) (by decide)).mp (same ▸ inside)
    have fits : n.toNat ≤ 2 ^ 31 := by
      rw [same]
      exact Nat.pow_le_pow_right (by decide) (by omega)
    refine ⟨fun zero => ?_, ?_⟩
    · rw [zero] at same
      exact (Nat.two_pow_pos k).ne same
    · rw [if_pos fits, same, Nat.clog_pow 2 k (by decide)]
  · rintro ⟨some', fixed⟩
    by_cases fits : n.toNat ≤ 2 ^ 31
    · rw [if_pos fits] at fixed
      exact ⟨_, fixed.symm⟩
    · rw [if_neg fits] at fixed
      exact absurd (UInt32.toNat_inj.mp fixed.symm) some'

theorem bit_functions_right (n : UInt32) :
    popcount n = (Nat.digits 2 n.toNat).sum ∧
      (clz n = if n = 0 then 32 else 31 - Nat.log 2 n.toNat) ∧
      (n ≠ 0 → ∃ odd, n.toNat = 2 ^ ctz n * odd ∧ odd % 2 = 1) ∧
      (isPowerOf2 n = true ↔ popcount n = 1) ∧
      (isPowerOf2 n = true ↔ n ≠ 0 ∧ nextPowerOf2 n = n) ∧
      (nextPowerOf2 n).toNat = if n.toNat ≤ 2 ^ 31 then 2 ^ Nat.clog 2 n.toNat else 0 := by
  refine ⟨popcount_digits n, ?_, fun some' => ?_, ?_, next_power_fixed_iff n, next_power_least n⟩
  · by_cases zero : n = 0
    · rw [clz, if_pos zero, if_pos zero]
    · have sum := clz_leading n zero
      rw [if_neg zero]
      omega
  · obtain ⟨k, odd, counted, split, isOdd⟩ := ctz_loop_odd n 0 some'
    rw [ctz, if_neg some', counted, Nat.zero_add]
    exact ⟨odd, split, isOdd⟩
  · rw [popcount_digits, digit_sum_one_iff]
    exact power_of_2_iff n

end RoDos.Utils
