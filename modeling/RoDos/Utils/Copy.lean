import RoDos.Base.Memory

set_option autoImplicit false

namespace RoDos.Utils

open Base

-- while (n--) *d++ = *s++;
def copyForward (memory : Memory) (d s : Nat) : Nat → Memory
  | 0 => memory
  | n + 1 => copyForward (storeByte memory d (loadByte memory s)) (add32 d 1) (add32 s 1) n

-- while (n--) *--d = *--s;
def copyBackward (memory : Memory) (d s : Nat) : Nat → Memory
  | 0 => memory
  | n + 1 =>
      let d := sub32 d 1
      let s := sub32 s 1
      copyBackward (storeByte memory d (loadByte memory s)) d s n

-- The memory behind the call, and the pointer that is returned.
def memcpy (memory : Memory) (dest src n : Nat) : Memory × Nat :=
  if dest = 0 ∨ src = 0 then (memory, dest) else (copyForward memory dest src n, dest)

def memmove (memory : Memory) (dest src n : Nat) : Memory × Nat :=
  if dest = 0 ∨ src = 0 ∨ n = 0 then (memory, dest)
  else if dest < src then (copyForward memory dest src n, dest)
  else (copyBackward memory (add32 dest n) (add32 src n) n, dest)

-- The first n bytes from src on, as they were, stand from dest on; nothing else has changed.
def moved (memory : Memory) (dest src n : Nat) : Memory :=
  fun a => if dest ≤ a ∧ a < dest + n then memory (src + (a - dest)) else memory a

-- A region of a program: it does not start at NULL and does not wrap.
structure Region (start n : Nat) : Prop where
  some' : start ≠ 0
  inside : start + n ≤ 2 ^ 32

theorem moved_inside (memory : Memory) (dest src n i : Nat) (within : i < n) : moved memory dest src n (dest + i) = memory (src + i) := by
  rw [moved, if_pos ⟨Nat.le_add_right dest i, Nat.add_lt_add_left within dest⟩, Nat.add_sub_cancel_left]

theorem moved_outside (memory : Memory) (dest src n a : Nat) (outside : a < dest ∨ dest + n ≤ a) :
    moved memory dest src n a = memory a := if_neg (by omega)

theorem moved_none (memory : Memory) (dest src : Nat) : moved memory dest src 0 = memory :=
  funext fun a => moved_outside memory dest src 0 a (by omega)

section
variable (memory : Memory) (dest src : Nat)

theorem moved_next (k : Nat) (destInside : dest + k < 2 ^ 32) (srcInside : src + k < 2 ^ 32)
    (unread : src + k < dest ∨ dest + k ≤ src + k) :
    storeByte (moved memory dest src k) (dest + k) (loadByte (moved memory dest src k) (src + k)) = moved memory dest src (k + 1) := by
  have read : loadByte (moved memory dest src k) (src + k) = memory (src + k) := by
    rw [loadByte, Nat.mod_eq_of_lt srcInside]
    exact moved_outside memory dest src k _ unread
  funext a
  rw [storeByte, read, Nat.mod_eq_of_lt destInside]
  by_cases here : a = dest + k
  · rw [if_pos here, here, moved_inside memory dest src (k + 1) k (Nat.lt_succ_self k)]
  · rw [if_neg here, moved, moved]
    by_cases old : dest ≤ a ∧ a < dest + k
    · rw [if_pos old, if_pos (by omega)]
    · rw [if_neg old, if_neg (by omega)]

theorem moved_before (k : Nat) (destInside : dest < 2 ^ 32) (srcInside : src < 2 ^ 32) (unread : src ≤ dest ∨ dest + k < src) :
    storeByte (moved memory (dest + 1) (src + 1) k) dest (loadByte (moved memory (dest + 1) (src + 1) k) src) =
      moved memory dest src (k + 1) := by
  have read : loadByte (moved memory (dest + 1) (src + 1) k) src = memory src := by
    rw [loadByte, Nat.mod_eq_of_lt srcInside]
    exact moved_outside memory _ _ k _ (by omega)
  funext a
  rw [storeByte, read, Nat.mod_eq_of_lt destInside]
  by_cases here : a = dest
  · rw [if_pos here, here]
    exact (moved_inside memory dest src (k + 1) 0 (Nat.succ_pos k)).symm
  · rw [if_neg here, moved, moved]
    by_cases old : dest + 1 ≤ a ∧ a < dest + 1 + k
    · have same : src + 1 + (a - (dest + 1)) = src + (a - dest) := by omega
      rw [if_pos old, if_pos (by omega), same]
    · rw [if_neg old, if_neg (by omega)]

-- Upwards the bytes behind the ones that are moved are still unread, where dest is not above src inside the region.
theorem copy_forward_moved (n k : Nat) (destInside : dest + (k + n) ≤ 2 ^ 32) (srcInside : src + (k + n) ≤ 2 ^ 32)
    (unread : src + (k + n) ≤ dest ∨ dest ≤ src) :
    copyForward (moved memory dest src k) ((dest + k) % 2 ^ 32) ((src + k) % 2 ^ 32) n = moved memory dest src (k + n) := by
  induction n generalizing k with
  | zero => rfl
  | succ n ih =>
      have nextDest : add32 ((dest + k) % 2 ^ 32) 1 = (dest + (k + 1)) % 2 ^ 32 := Nat.mod_add_mod _ _ _
      have nextSrc : add32 ((src + k) % 2 ^ 32) 1 = (src + (k + 1)) % 2 ^ 32 := Nat.mod_add_mod _ _ _
      have next := moved_next memory dest src k (by omega) (by omega) (by omega)
      have count : k + (n + 1) = k + 1 + n := by omega
      rw [copyForward, nextDest, nextSrc, Nat.mod_eq_of_lt (show dest + k < 2 ^ 32 by omega),
        Nat.mod_eq_of_lt (show src + k < 2 ^ 32 by omega), next, count]
      rw [count] at destInside srcInside unread
      exact ih (k + 1) destInside srcInside unread

-- Downwards the bytes in front of the ones that are moved are still unread, where dest is not below src.
theorem copy_backward_moved (n k : Nat) (destInside : dest + (n + k) ≤ 2 ^ 32) (srcInside : src + (n + k) ≤ 2 ^ 32)
    (unread : src ≤ dest) :
    copyBackward (moved memory (dest + n) (src + n) k) ((dest + n) % 2 ^ 32) ((src + n) % 2 ^ 32) n =
      moved memory dest src (n + k) := by
  induction n generalizing k with
  | zero => rw [Nat.zero_add]; rfl
  | succ n ih =>
      have before := moved_before memory (dest + n) (src + n) k (by omega) (by omega) (by omega)
      have nextDest : sub32 ((dest + (n + 1)) % 2 ^ 32) 1 = dest + n := by
        unfold sub32
        omega
      have nextSrc : sub32 ((src + (n + 1)) % 2 ^ 32) 1 = src + n := by
        unfold sub32
        omega
      have later := ih (k + 1) (by omega) (by omega)
      rw [Nat.mod_eq_of_lt (show dest + n < 2 ^ 32 by omega), Nat.mod_eq_of_lt (show src + n < 2 ^ 32 by omega)] at later
      have count : n + 1 + k = n + (k + 1) := by omega
      rw [copyBackward, nextDest, nextSrc, ← Nat.add_assoc, ← Nat.add_assoc, before, later, count]

variable (n : Nat)

theorem forward_moved (target : Region dest n) (from' : Region src n) (unread : src + n ≤ dest ∨ dest ≤ src) (some' : n ≠ 0) :
    copyForward memory dest src n = moved memory dest src n := by
  have destInside := target.inside
  have srcInside := from'.inside
  have whole := copy_forward_moved memory dest src n 0 (by omega) (by omega) (by omega)
  rw [moved_none, Nat.add_zero, Nat.add_zero, Nat.zero_add, Nat.mod_eq_of_lt (by omega), Nat.mod_eq_of_lt (by omega)] at whole
  exact whole

theorem memmove_moved (target : Region dest n) (from' : Region src n) : memmove memory dest src n = (moved memory dest src n, dest) := by
  rw [memmove]
  by_cases none' : n = 0
  · rw [if_pos (Or.inr (Or.inr none')), none', moved_none]
  · rw [if_neg (fun any => any.elim target.some' fun either => either.elim from'.some' none')]
    by_cases below : dest < src
    · rw [if_pos below, forward_moved memory dest src n target from' (Or.inr (Nat.le_of_lt below)) none']
    · have whole := copy_backward_moved memory dest src n 0 target.inside from'.inside (Nat.le_of_not_lt below)
      rw [moved_none, Nat.add_zero] at whole
      rw [if_neg below, add32, add32, whole]

theorem memcpy_moved (target : Region dest n) (from' : Region src n) (unread : src + n ≤ dest ∨ dest ≤ src) :
    memcpy memory dest src n = (moved memory dest src n, dest) := by
  rw [memcpy, if_neg (not_or.mpr ⟨target.some', from'.some'⟩)]
  by_cases none' : n = 0
  · rw [none', moved_none]
    rfl
  · rw [forward_moved memory dest src n target from' unread none']

theorem copies_moved (target : Region dest n) (from' : Region src n) :
    memmove memory dest src n = (moved memory dest src n, dest) ∧
    (dest + n ≤ src ∨ src + n ≤ dest ∨ dest < src → memcpy memory dest src n = memmove memory dest src n) := by
  refine ⟨memmove_moved memory dest src n target from', fun apart => ?_⟩
  rw [memmove_moved memory dest src n target from', memcpy_moved memory dest src n target from' (by omega)]
end

theorem copies_moved_overlapping :
    memmove (fun a => UInt8.ofNat a) 0x1002 0x1000 5 = (moved (fun a => UInt8.ofNat a) 0x1002 0x1000 5, 0x1002) ∧
    (0x1002 + 5 ≤ 0x1000 ∨ 0x1000 + 5 ≤ 0x1002 ∨ 0x1002 < 0x1000 →
      memcpy (fun a => UInt8.ofNat a) 0x1002 0x1000 5 = memmove (fun a => UInt8.ofNat a) 0x1002 0x1000 5) :=
  copies_moved _ 0x1002 0x1000 5 ⟨by decide, by decide⟩ ⟨by decide, by decide⟩

end RoDos.Utils
