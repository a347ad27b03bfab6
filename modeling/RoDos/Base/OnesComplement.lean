import Mathlib.Algebra.Ring.Nat

set_option autoImplicit false

namespace Base

-- The one's-complement sum of words that add up to n: the carries out of 16 bits come back in at the bottom.
def endAround (n : Nat) : Nat := if n = 0 then 0 else (n - 1) % 65535 + 1

def addCarries (n : Nat) : Nat := n / 65536 + n % 65536

def swapBytes (word : Nat) : Nat := 256 * (word % 256) + word / 256

-- A last byte without a partner is the first byte of its word.
def bigSum : List UInt8 → Nat
  | [] => 0
  | [byte] => 256 * byte.toNat
  | high :: low :: bytes => 256 * high.toNat + low.toNat + bigSum bytes

def littleSum : List UInt8 → Nat
  | [] => 0
  | [byte] => byte.toNat
  | low :: high :: bytes => low.toNat + 256 * high.toNat + littleSum bytes

section
variable (n : Nat)

theorem end_around_le : endAround n ≤ 65535 := by
  unfold endAround
  split
  · omega
  · omega

theorem end_around_mod : endAround n % 65535 = n % 65535 := by
  unfold endAround
  split
  · omega
  · omega

theorem end_around_zero : endAround n = 0 ↔ n = 0 := by
  unfold endAround
  split
  · simp [*]
  · omega

theorem end_around_unique (word : Nat) (small : word ≤ 65535) (zero : word = 0 ↔ n = 0) (same : word % 65535 = n % 65535) :
    word = endAround n := by
  unfold endAround
  split
  · exact zero.mpr ‹n = 0›
  · omega

theorem end_around_small (small : n ≤ 65535) : endAround n = n :=
  (end_around_unique n n small Iff.rfl rfl).symm

theorem end_around_carries : endAround (addCarries n) = endAround n := by
  refine end_around_unique n _ (end_around_le _) ?_ ?_
  · rw [end_around_zero, addCarries]
    omega
  · rw [end_around_mod, addCarries]
    omega

theorem add_carries_lt (large : 65536 ≤ n) : addCarries n < n := by
  unfold addCarries
  omega

theorem end_around_complement : endAround (n + (65535 - endAround n)) = 65535 := by
  have le := end_around_le n
  have mod := end_around_mod n
  have zero := end_around_zero n
  refine (end_around_unique _ _ (Nat.le_refl _) ?_ ?_).symm
  · omega
  · omega

theorem swap_bytes_complement (small : n ≤ 65535) : swapBytes (65535 - n) = 65535 - swapBytes n := by
  unfold swapBytes
  omega
theorem swap_bytes_le (small : n ≤ 65535) : swapBytes n ≤ 65535 := by
  unfold swapBytes
  omega

theorem swap_bytes_twice (small : n ≤ 65535) : swapBytes (swapBytes n) = n := by
  unfold swapBytes
  omega

theorem add_carries_twice (carries : n < 65536 * 65536) : addCarries (addCarries n) = endAround n := by
  have same := (end_around_carries (addCarries n)).trans (end_around_carries n)
  rw [← same, end_around_small]
  unfold addCarries
  omega
end

section
variable (bytes : List UInt8)

theorem big_sum_append (front back : List UInt8) (even : front.length % 2 = 0) :
    bigSum (front ++ back) = bigSum front + bigSum back := by
  induction front using bigSum.induct with
  | case1 => simp [bigSum]
  | case2 byte => simp at even
  | case3 high low rest summed =>
      have restEven : rest.length % 2 = 0 := by
        simp only [List.length_cons] at even
        omega
      simp only [List.cons_append, bigSum, summed restEven]
      omega

theorem little_sum_shift : 256 * littleSum bytes % 65535 = bigSum bytes % 65535 := by
  induction bytes using bigSum.induct with
  | case1 => rfl
  | case2 byte => rfl
  | case3 high low rest summed =>
      simp only [littleSum, bigSum]
      omega

theorem little_sum_zero : littleSum bytes = 0 ↔ bigSum bytes = 0 := by
  induction bytes using bigSum.induct with
  | case1 => rfl
  | case2 byte =>
      simp only [littleSum, bigSum]
      omega
  | case3 high low rest summed =>
      simp only [littleSum, bigSum]
      omega

theorem little_sum_le : littleSum bytes ≤ 65535 * ((bytes.length + 1) / 2) := by
  induction bytes using littleSum.induct with
  | case1 => exact Nat.zero_le _
  | case2 byte =>
      have below := byte.toNat_lt
      simp only [littleSum, List.length_singleton]
      omega
  | case3 low high rest summed =>
      have first := low.toNat_lt
      have second := high.toNat_lt
      simp only [littleSum, List.length_cons]
      omega

theorem big_sum_le : bigSum bytes ≤ 65535 * ((bytes.length + 1) / 2) := by
  induction bytes using bigSum.induct with
  | case1 => exact Nat.zero_le _
  | case2 byte =>
      have below := byte.toNat_lt
      simp only [bigSum, List.length_singleton]
      omega
  | case3 high low rest summed =>
      have first := high.toNat_lt
      have second := low.toNat_lt
      simp only [bigSum, List.length_cons]
      omega

theorem end_around_swap : endAround (bigSum bytes) = swapBytes (endAround (littleSum bytes)) := by
  have le := end_around_le (littleSum bytes)
  have mod := end_around_mod (littleSum bytes)
  have zero := (end_around_zero (littleSum bytes)).trans (little_sum_zero bytes)
  have shift := little_sum_shift bytes
  refine (end_around_unique _ _ ?_ ?_ ?_).symm
  · unfold swapBytes
    omega
  · unfold swapBytes
    omega
  · unfold swapBytes
    omega
end

end Base
