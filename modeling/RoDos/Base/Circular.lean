import RoDos.Base.Memory

set_option autoImplicit false

namespace Base

-- A stretch of memory whose end is followed by its start. Its bytes have running numbers, like the counters of a ring.
section
variable (base size : Nat)

def ringAddress (k : Nat) : Nat := base + k % size

def ringWrap (a : Nat) : Nat := if a = base + size then base else a

def writeRing (memory : Memory) (a : Nat) : List UInt8 → Memory
  | [] => memory
  | byte :: bytes => writeRing (fun other => if other = a then byte else memory other) (ringWrap base size (a + 1)) bytes

theorem ring_address_round (k : Nat) : ringAddress base size (k + size) = ringAddress base size k := by
  rw [ringAddress, ringAddress, Nat.add_mod_right]

theorem ring_address_apart (k j : Nat) (behind : k < j) (near : j < k + size) :
    ringAddress base size j ≠ ringAddress base size k := by
  intro same
  have rests : k % size = j % size := Nat.add_left_cancel same.symm
  have round : size ∣ j - k := Nat.dvd_of_mod_eq_zero (Nat.sub_mod_eq_zero_of_mod_eq rests.symm)
  exact absurd (Nat.le_of_dvd (by omega) round) (by omega)

theorem ring_wrap_next (k n : Nat) (inside : k % size + n ≤ size) :
    ringWrap base size (ringAddress base size k + n) = ringAddress base size (k + n) := by
  have moved : (k + n) % size = (k % size + n) % size := (Nat.mod_add_mod k size n).symm
  rw [ringWrap, ringAddress, ringAddress, moved, Nat.add_assoc]
  by_cases last : k % size + n = size
  · rw [if_pos (by omega), last, Nat.mod_self, Nat.add_zero]
  · have short : (k % size + n) % size = k % size + n := Nat.mod_eq_of_lt (by omega)
    rw [if_neg (by omega), short]

theorem ring_wrap_byte (k : Nat) (some' : 0 < size) :
    ringWrap base size (ringAddress base size k + 1) = ringAddress base size (k + 1) :=
  ring_wrap_next base size k 1 (Nat.mod_lt k some')

theorem write_ring_outside (memory : Memory) (k j : Nat) (bytes : List UInt8) (behind : k + bytes.length ≤ j)
    (near : j < k + size) : writeRing base size memory (ringAddress base size k) bytes (ringAddress base size j) =
      memory (ringAddress base size j) := by
  induction bytes generalizing memory k with
  | nil => rfl
  | cons byte bytes ih =>
      rw [List.length_cons] at behind
      rw [writeRing, ring_wrap_byte base size k (by omega), ih _ _ (by omega) (by omega),
        if_neg (ring_address_apart base size k j (by omega) near)]

theorem write_ring_below (memory : Memory) (a other : Nat) (bytes : List UInt8) (inside : base ≤ a) (below : other < base) :
    writeRing base size memory a bytes other = memory other := by
  induction bytes generalizing memory a with
  | nil => rfl
  | cons byte bytes ih =>
      have next : base ≤ ringWrap base size (a + 1) := by
        rw [ringWrap]
        split <;> omega
      rw [writeRing, ih _ _ next, if_neg (by omega)]

theorem write_ring_inside (memory : Memory) (k i : Nat) (bytes : List UInt8) (fits : bytes.length ≤ size)
    (within : i < bytes.length) :
    writeRing base size memory (ringAddress base size k) bytes (ringAddress base size (k + i)) = bytes[i] := by
  induction bytes generalizing memory k i with
  | nil => exact absurd within (Nat.not_lt_zero i)
  | cons byte bytes ih =>
      rw [List.length_cons] at fits within
      rw [writeRing, ring_wrap_byte base size k (by omega)]
      cases i with
      | zero =>
          have untouched := write_ring_outside base size (fun other => if other = ringAddress base size k then byte else memory other)
            (k + 1) (k + size) bytes (by omega) (by omega)
          rw [ring_address_round, if_pos rfl] at untouched
          exact untouched
      | succ i =>
          rw [← Nat.succ_add_eq_add_succ k i, ih _ (k + 1) i (by omega) (by omega), List.getElem_cons_succ]
end

end Base
