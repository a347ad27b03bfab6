import RoDos.Base.Writes

set_option autoImplicit false

namespace Base

-- The memory of a program as one list of bytes. A pointer is a place in it; place 0 is NULL.
def byteAt (memory : List UInt8) (p : Nat) : UInt8 := memory.getD p 0

def textAt (memory : List UInt8) (p : Nat) : List UInt8 := cString (memory.drop p)

def TerminatedAt (memory : List UInt8) (p : Nat) : Prop := 0 ∈ memory.drop p

instance (memory : List UInt8) (p : Nat) : Decidable (TerminatedAt memory p) := inferInstanceAs (Decidable (0 ∈ memory.drop p))

def Reads (memory : List UInt8) : Nat → List UInt8 → Prop
  | _, [] => True
  | p, byte :: rest => memory[p]? = some byte ∧ Reads memory (p + 1) rest

def storeText (memory : List UInt8) (p : Nat) (text : List UInt8) : List UInt8 := setAll memory (copyRun p (text ++ [0]))

def skip (test : UInt8 → Bool) : List UInt8 → Nat → Nat
  | [], p => p
  | byte :: rest, p => if test byte then skip test rest (p + 1) else p

section
variable (memory : List UInt8)

theorem drop_of_get (p : Nat) (byte : UInt8) (here : memory[p]? = some byte) :
    memory.drop p = byte :: memory.drop (p + 1) := by
  obtain ⟨inside, same⟩ := List.getElem?_eq_some_iff.mp here
  rw [List.drop_eq_getElem_cons inside, same]

theorem byte_of_get (p : Nat) (byte : UInt8) (here : memory[p]? = some byte) : byteAt memory p = byte := by
  rw [byteAt, List.getD_eq_getElem?_getD, here]
  rfl

theorem reads_append (p : Nat) (front back : List UInt8) :
    Reads memory p (front ++ back) ↔ Reads memory p front ∧ Reads memory (p + front.length) back := by
  induction front generalizing p with
  | nil => exact ⟨fun held => ⟨trivial, held⟩, And.right⟩
  | cons byte rest ih =>
      have next : p + (byte :: rest).length = p + 1 + rest.length := by rw [List.length_cons]; omega
      rw [List.cons_append, Reads, ih, next, Reads, and_assoc]

theorem reads_drop (p : Nat) (bytes : List UInt8) (reads : Reads memory p bytes) :
    memory.drop p = bytes ++ memory.drop (p + bytes.length) := by
  induction bytes generalizing p with
  | nil => rfl
  | cons byte rest ih =>
      have next : p + (byte :: rest).length = p + 1 + rest.length := by rw [List.length_cons]; omega
      rw [drop_of_get memory p byte reads.1, ih (p + 1) reads.2, next, List.cons_append]

theorem drop_reads (p : Nat) (bytes rest : List UInt8) (split : memory.drop p = bytes ++ rest) : Reads memory p bytes := by
  induction bytes generalizing p with
  | nil => trivial
  | cons byte bytes ih =>
      have here : memory[p]? = some byte := by
        have head := congrArg List.head? split
        rwa [List.head?_drop, List.cons_append, List.head?_cons] at head
      refine ⟨here, ih (p + 1) ?_⟩
      rw [drop_of_get memory p byte here, List.cons_append] at split
      exact (List.cons.inj split).2

theorem reads_set (p q : Nat) (byte : UInt8) (bytes : List UInt8) (apart : q < p ∨ p + bytes.length ≤ q)
    (reads : Reads memory p bytes) : Reads (memory.set q byte) p bytes := by
  induction bytes generalizing p with
  | nil => trivial
  | cons own rest ih =>
      rw [List.length_cons] at apart
      refine ⟨?_, ih (p + 1) (by omega) reads.2⟩
      rw [List.getElem?_set_ne (by omega)]
      exact reads.1

theorem reads_inside (p : Nat) (bytes : List UInt8) (byte : UInt8) (reads : Reads memory p (bytes ++ [byte])) :
    p + bytes.length < memory.length ∧ byteAt memory (p + bytes.length) = byte := by
  have last := ((reads_append memory p bytes [byte]).mp reads).2.1
  exact ⟨(List.getElem?_eq_some_iff.mp last).1, byte_of_get memory _ byte last⟩

theorem reads_text (p : Nat) (terminated : TerminatedAt memory p) : Reads memory p (textAt memory p ++ [0]) := by
  rcases c_string_split (memory.drop p) with whole | ⟨rest, split⟩
  · rw [TerminatedAt, whole] at terminated
    exact absurd rfl (c_string_no_nul _ _ terminated)
  · refine drop_reads memory p _ rest ?_
    rw [List.append_assoc, List.singleton_append]
    exact split

theorem get_of_inside (p : Nat) (inside : p < memory.length) : memory[p]? = some (byteAt memory p) := by
  rw [byteAt, List.getD_eq_getElem _ _ inside, List.getElem?_eq_getElem inside]

theorem reads_copied (p : Nat) (bytes : List UInt8) (room : p + bytes.length ≤ memory.length) :
    Reads (setAll memory (copyRun p bytes)) p bytes := by
  have front : (memory.take p).length = p := List.length_take_of_le (by omega)
  refine drop_reads _ p bytes (memory.drop (p + bytes.length)) ?_
  rw [set_all_run memory p bytes room, List.append_assoc, List.drop_left' front]

theorem reads_copy_apart (p q : Nat) (bytes copied : List UInt8) (apart : p + bytes.length ≤ q ∨ q + copied.length ≤ p)
    (reads : Reads memory p bytes) : Reads (setAll memory (copyRun q copied)) p bytes := by
  induction copied generalizing memory q with
  | nil => exact reads
  | cons byte rest ih =>
      rw [List.length_cons] at apart
      exact ih (memory.set q byte) (q + 1) (by omega) (reads_set memory p q byte bytes (by omega) reads)

theorem text_no_nul (p : Nat) : ∀ byte ∈ textAt memory p, byte ≠ 0 := c_string_no_nul _

theorem text_of_reads (p : Nat) (text : List UInt8) (noNul : ∀ byte ∈ text, byte ≠ 0) (reads : Reads memory p (text ++ [0])) :
    textAt memory p = text ∧ TerminatedAt memory p := by
  have split := reads_drop memory p _ reads
  rw [List.append_assoc, List.singleton_append] at split
  refine ⟨?_, ?_⟩
  · rw [textAt, split]
    exact c_string_terminated text _ noNul
  · rw [TerminatedAt, split]
    exact List.mem_append_right _ List.mem_cons_self

theorem store_text_split (p : Nat) (text : List UInt8) (room : p + text.length < memory.length) :
    storeText memory p text = memory.take p ++ text ++ 0 :: memory.drop (p + text.length + 1) := by
  have width : (text ++ [0]).length = text.length + 1 := by rw [List.length_append, List.length_singleton]
  rw [storeText, set_all_run memory p _ (by omega), width, ← Nat.add_assoc]
  simp only [List.append_assoc, List.singleton_append]

theorem store_text_drop (p : Nat) (text : List UInt8) (room : p + text.length < memory.length) :
    (storeText memory p text).drop p = text ++ 0 :: memory.drop (p + text.length + 1) := by
  have front : (memory.take p).length = p := List.length_take_of_le (by omega)
  rw [store_text_split memory p text room, List.append_assoc, List.drop_left' front]

theorem store_text_text (p : Nat) (text : List UInt8) (noNul : ∀ byte ∈ text, byte ≠ 0) (room : p + text.length < memory.length) :
    textAt (storeText memory p text) p = text := by
  rw [textAt, store_text_drop memory p text room]
  exact c_string_terminated text _ noNul

theorem skip_reads (test : UInt8 → Bool) (p : Nat) (front : List UInt8) (byte : UInt8) (passed : ∀ own ∈ front, test own = true)
    (stop : test byte = false) (reads : Reads memory p (front ++ [byte])) :
    skip test (memory.drop p) p = p + front.length := by
  induction front generalizing p with
  | nil =>
      rw [drop_of_get memory p byte reads.1, skip, stop]
      rfl
  | cons own rest ih =>
      rw [drop_of_get memory p own reads.1, skip, if_pos (passed own List.mem_cons_self),
        ih (p + 1) (fun other member => passed other (List.mem_cons_of_mem _ member)) reads.2, List.length_cons]
      omega
end

end Base
