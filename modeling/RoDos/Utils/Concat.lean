import RoDos.Base.Pointers
import RoDos.Base.Writes
import Mathlib.Algebra.Ring.Nat

set_option autoImplicit false

namespace RoDos.Utils

open Base

-- while (n-- > 0 && (*ptr++ = *src++));
-- With the stores, ptr and n behind the loop; n is unsigned, and passes below 0 when the loop runs out of it.
def catLoop : Nat → Nat → Nat → List UInt8 → Writes × Nat × Nat
  | 0, ptr, _, _ => ([], ptr, 2 ^ 32 - 1)
  | n + 1, ptr, src, memory =>
      let byte := byteAt memory src
      if byte = 0 then ([(ptr, byte)], ptr + 1, n)
      else
        let (stores, last, left) := catLoop n (ptr + 1) (src + 1) (memory.set ptr byte)
        ((ptr, byte) :: stores, last, left)

-- The stores, and the pointer that is returned.
def strncat (memory : List UInt8) (dest src n : Nat) : Writes × Nat :=
  if dest = 0 ∨ src = 0 then ([], dest)
  else
    let ptr := skip (fun byte => byte ≠ 0) (memory.drop dest) dest
    let (stores, last, left) := catLoop n ptr src memory
    (if left = 0 then stores ++ [(last, 0)] else stores, dest)

def newEnd (memory : List UInt8) (dest src n : Nat) : Nat :=
  dest + (textAt memory dest).length + min n (textAt memory src).length

-- The strings of a call: the new text fits in the memory, and the source lies apart from it.
structure StringsApart (memory : List UInt8) (dest src n : Nat) : Prop where
  some' : dest ≠ 0 ∧ src ≠ 0
  terminated : TerminatedAt memory dest ∧ TerminatedAt memory src
  room : newEnd memory dest src n < memory.length
  apart : newEnd memory dest src n < src ∨ src + (textAt memory src).length < dest

-- The old text, the characters of src and one NUL, and no store behind it.
def Catenated (memory : List UInt8) (dest src n : Nat) : Prop :=
  Reads (setAll memory (strncat memory dest src n).1) dest (textAt memory dest ++ (textAt memory src).take n ++ [0]) ∧
    ∀ store ∈ (strncat memory dest src n).1, store.1 ≤ newEnd memory dest src n

theorem cat_loop_copies (n ptr src : Nat) (memory text : List UInt8) (noNul : ∀ byte ∈ text, byte ≠ 0)
    (source : Reads memory src (text ++ [0])) (apart : ptr + min n text.length < src ∨ src + text.length < ptr) :
    catLoop n ptr src memory = (copyRun ptr ((text ++ [0]).take n), ptr + min n (text.length + 1),
      if n ≤ text.length then 2 ^ 32 - 1 else n - (text.length + 1)) := by
  induction n generalizing ptr src memory text with
  | zero => rw [catLoop, List.take_zero, copyRun, Nat.zero_min, Nat.add_zero, if_pos (Nat.zero_le _)]
  | succ n ih =>
      cases text with
      | nil =>
          have byte : byteAt memory src = 0 := byte_of_get memory src 0 source.1
          rw [catLoop, byte]
          dsimp only
          rw [if_pos rfl, List.nil_append, List.take_succ_cons, List.take_nil, copyRun, copyRun, List.length_nil, if_neg (by omega)]
          congr 2
          omega
      | cons own rest =>
          have byte : byteAt memory src = own := byte_of_get memory src own source.1
          rw [List.length_cons] at apart
          have later : Reads (memory.set ptr own) (src + 1) (rest ++ [0]) := by
            refine reads_set memory (src + 1) ptr own _ ?_ source.2
            rw [List.length_append, List.length_singleton]
            omega
          have step := ih (ptr + 1) (src + 1) (memory.set ptr own) rest
            (fun other member => noNul other (List.mem_cons_of_mem _ member)) later (by omega)
          rw [catLoop, byte]
          dsimp only
          rw [if_neg (noNul own List.mem_cons_self), step, List.cons_append, List.take_succ_cons, copyRun, List.length_cons]
          dsimp only
          congr 2
          · omega
          · split <;> split <;> omega

section
variable (memory : List UInt8) (dest src n : Nat) (strings : StringsApart memory dest src n)
include strings

theorem strncat_stores : (strncat memory dest src n).1 =
    copyRun (dest + (textAt memory dest).length) ((textAt memory src ++ [0]).take n) ++
      if n = (textAt memory src).length + 1 then [(newEnd memory dest src n + 1, 0)] else [] := by
  have room := strings.room
  have apart := strings.apart
  have end' := skip_reads memory (fun byte => byte ≠ 0) dest (textAt memory dest) 0
    (fun own member => decide_eq_true (text_no_nul memory dest own member)) rfl (reads_text memory dest strings.terminated.1)
  rw [newEnd] at apart
  have copied := cat_loop_copies n (dest + (textAt memory dest).length) src memory (textAt memory src)
    (text_no_nul memory src) (reads_text memory src strings.terminated.2) (by omega)
  rw [strncat, if_neg (by have some' := strings.some'; omega), end']
  dsimp only
  rw [copied]
  dsimp only
  by_cases same : n = (textAt memory src).length + 1
  · have left : (if n ≤ (textAt memory src).length then 2 ^ 32 - 1 else n - ((textAt memory src).length + 1)) = 0 := by
      rw [if_neg (by omega)]
      omega
    rw [if_pos same, if_pos left, newEnd]
    congr 3
    omega
  · have left : (if n ≤ (textAt memory src).length then 2 ^ 32 - 1 else n - ((textAt memory src).length + 1)) ≠ 0 := by
      split <;> omega
    rw [if_neg same, List.append_nil, if_neg left]

theorem dest_kept (copied : List UInt8) :
    Reads (setAll memory (copyRun (dest + (textAt memory dest).length) copied)) dest (textAt memory dest) :=
  reads_copy_apart memory dest _ _ copied (Or.inl (Nat.le_refl _))
    ((reads_append memory dest _ _).mp (reads_text memory dest strings.terminated.1)).1

theorem catenated_short (short : n ≤ (textAt memory src).length) : Catenated memory dest src n ↔
    byteAt memory (dest + (textAt memory dest).length + n) = 0 := by
  have room := strings.room
  rw [newEnd, Nat.min_eq_left short] at room
  have taken : ((textAt memory src).take n).length = n := List.length_take_of_le short
  have copied : (strncat memory dest src n).1 =
      copyRun (dest + (textAt memory dest).length) ((textAt memory src).take n) := by
    rw [strncat_stores memory dest src n strings, if_neg (by omega), List.append_nil, List.take_append_of_le_length short]
  have before := dest_kept memory dest src n strings ((textAt memory src).take n)
  have text := reads_copied memory (dest + (textAt memory dest).length) ((textAt memory src).take n) (by omega)
  have behind : Reads (setAll memory (copyRun (dest + (textAt memory dest).length) ((textAt memory src).take n)))
      (dest + (textAt memory dest).length + n) [byteAt memory (dest + (textAt memory dest).length + n)] :=
    reads_copy_apart memory _ _ _ _ (Or.inr (by omega)) ⟨get_of_inside memory _ room, trivial⟩
  rw [Catenated, copied]
  constructor
  · rintro ⟨held, _⟩
    have last := ((reads_append _ _ _ _).mp held).2.1
    rw [List.length_append, taken, ← Nat.add_assoc, behind.1] at last
    exact Option.some.inj last
  · intro nul
    rw [nul] at behind
    refine ⟨(reads_append _ _ _ _).mpr ⟨(reads_append _ _ _ _).mpr ⟨before, text⟩, ?_⟩, ?_⟩
    · rw [List.length_append, taken, ← Nat.add_assoc]
      exact behind
    · intro store member
      have inside := (copy_run_inside _ _ _).mpr (Or.inr (Nat.le_refl _)) store member
      rw [newEnd, Nat.min_eq_left short]
      omega

theorem catenated_whole (whole : (textAt memory src).length < n) : Catenated memory dest src n ↔
    (textAt memory src).length + 1 < n := by
  have room := strings.room
  have end' : newEnd memory dest src n = dest + (textAt memory dest).length + (textAt memory src).length := by
    rw [newEnd, Nat.min_eq_right (Nat.le_of_lt whole)]
  have taken : (textAt memory src ++ [0]).take n = textAt memory src ++ [0] :=
    List.take_of_length_le (by rw [List.length_append, List.length_singleton]; omega)
  have stores := strncat_stores memory dest src n strings
  rw [taken] at stores
  rw [Catenated, stores]
  constructor
  · rintro ⟨_, bounded⟩
    by_cases same : n = (textAt memory src).length + 1
    · have extra := bounded (newEnd memory dest src n + 1, 0) (by rw [if_pos same]; exact List.mem_append_right _ List.mem_cons_self)
      exact absurd extra (Nat.not_succ_le_self _)
    · omega
  · intro longer
    have before := dest_kept memory dest src n strings (textAt memory src ++ [0])
    have text := reads_copied memory (dest + (textAt memory dest).length) (textAt memory src ++ [0])
      (by rw [List.length_append, List.length_singleton]; omega)
    rw [if_neg (by omega), List.append_nil, List.take_of_length_le (by omega)]
    refine ⟨?_, ?_⟩
    · rw [List.append_assoc]
      exact (reads_append _ _ _ _).mpr ⟨before, text⟩
    · intro store member
      have inside := (copy_run_inside _ _ _).mpr (Or.inr (Nat.le_refl _)) store member
      rw [List.length_append, List.length_singleton] at inside
      omega

-- The counter is right when it does not end at 0 or below it, or when a NUL stood there already.
theorem strncat_catenates_iff : Catenated memory dest src n ↔
    (textAt memory src).length + 1 < n ∨
      n ≤ (textAt memory src).length ∧ byteAt memory (dest + (textAt memory dest).length + n) = 0 := by
  by_cases short : n ≤ (textAt memory src).length
  · rw [catenated_short memory dest src n strings short]
    exact ⟨fun nul => Or.inr ⟨short, nul⟩, fun either => either.elim (fun longer => by omega) And.right⟩
  · rw [catenated_whole memory dest src n strings (by omega)]
    exact ⟨Or.inl, fun either => either.elim id fun inner => absurd inner.1 short⟩
end

def reused : List UInt8 := [0xFF, 97, 0, 98, 98, 98, 98, 98, 98, 120, 121, 0]

theorem reused_strings (n : Nat) : StringsApart reused 1 9 n := by
  have end' : newEnd reused 1 9 n = 2 + min n 2 := rfl
  refine ⟨by decide, by decide, ?_, ?_⟩
  · rw [end', reused, List.length_cons]
    simp only [List.length_cons, List.length_nil]
    omega
  · rw [end']
    omega

theorem strncat_catenates_reused : StringsApart reused 1 9 4 ∧ Catenated reused 1 9 4 :=
  ⟨reused_strings 4, (strncat_catenates_iff reused 1 9 4 (reused_strings 4)).mpr (Or.inl (by decide))⟩

theorem strncat_not_catenates : ¬ ∀ memory dest src n, StringsApart memory dest src n → Catenated memory dest src n := by
  intro claimed
  have right := (catenated_short reused 1 9 1 (reused_strings 1) (by decide)).mp (claimed reused 1 9 1 (reused_strings 1))
  exact absurd right (by decide)

end RoDos.Utils
