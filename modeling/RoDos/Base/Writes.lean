import RoDos.Base.CString

set_option autoImplicit false

namespace Base

-- An array of bytes; a write outside it changes nothing in it.
structure Buffer (size : Nat) where
  bytes : List UInt8
  width : bytes.length = size

abbrev Writes := List (Nat × UInt8)

def setAll (bytes : List UInt8) (writes : Writes) : List UInt8 :=
  writes.foldl (fun bytes write => bytes.set write.1 write.2) bytes

theorem set_all_length (bytes : List UInt8) (writes : Writes) : (setAll bytes writes).length = bytes.length := by
  induction writes generalizing bytes with
  | nil => rfl
  | cons write rest ih => exact (ih _).trans List.length_set

def Buffer.store {size : Nat} (buffer : Buffer size) (writes : Writes) : Buffer size :=
  ⟨setAll buffer.bytes writes, (set_all_length buffer.bytes writes).trans buffer.width⟩

def Buffer.text {size : Nat} (buffer : Buffer size) : List UInt8 := cString buffer.bytes

def Buffer.Terminated {size : Nat} (buffer : Buffer size) : Prop := 0 ∈ buffer.bytes

def Inside (size : Nat) (writes : Writes) : Prop := ∀ write ∈ writes, write.1 < size

def copyRun : Nat → List UInt8 → Writes
  | _, [] => []
  | place, byte :: rest => (place, byte) :: copyRun (place + 1) rest

theorem copy_run_append (place : Nat) (front back : List UInt8) :
    copyRun place (front ++ back) = copyRun place front ++ copyRun (place + front.length) back := by
  induction front generalizing place with
  | nil => rfl
  | cons byte rest ih =>
      rw [List.cons_append, copyRun, ih, copyRun, List.cons_append, List.length_cons]
      have next : place + 1 + rest.length = place + (rest.length + 1) := by omega
      rw [next]

theorem copy_run_inside (size place : Nat) (bytes : List UInt8) :
    Inside size (copyRun place bytes) ↔ bytes = [] ∨ place + bytes.length ≤ size := by
  induction bytes generalizing place with
  | nil => exact iff_of_true (fun write member => absurd member List.not_mem_nil) (Or.inl rfl)
  | cons byte rest ih =>
      rw [Inside, copyRun, List.forall_mem_cons, List.length_cons]
      have further := ih (place + 1)
      rw [Inside] at further
      rw [further]
      constructor
      · rintro ⟨here, rfl | fits⟩
        · exact Or.inr here
        · exact Or.inr (by omega)
      · rintro (empty | fits)
        · cases empty
        · exact ⟨by omega, Or.inr (by omega)⟩

theorem inside_append (size : Nat) (front back : Writes) :
    Inside size (front ++ back) ↔ Inside size front ∧ Inside size back := List.forall_mem_append

theorem set_all_run (bytes : List UInt8) (place : Nat) (copied : List UInt8) (room : place + copied.length ≤ bytes.length) :
    setAll bytes (copyRun place copied) = bytes.take place ++ copied ++ bytes.drop (place + copied.length) := by
  induction copied generalizing bytes place with
  | nil => rw [List.append_nil, List.length_nil, Nat.add_zero, List.take_append_drop, copyRun, setAll, List.foldl_nil]
  | cons byte rest ih =>
      rw [List.length_cons] at room
      have front : (bytes.take place).length = place := List.length_take_of_le (by omega)
      have split : bytes.set place byte = (bytes.take place ++ [byte]) ++ bytes.drop (place + 1) := by
        rw [List.set_eq_take_append_cons_drop, if_pos (by omega), List.append_assoc, List.singleton_append]
      have width : (bytes.take place ++ [byte]).length = place + 1 := by rw [List.length_append, front, List.length_singleton]
      have behind : ((bytes.take place ++ [byte]) ++ bytes.drop (place + 1)).drop (place + 1 + rest.length) =
          bytes.drop (place + (rest.length + 1)) := by
        rw [← List.drop_drop, List.drop_left' width, List.drop_drop]
        congr 1
        omega
      have step := ih (bytes.set place byte) (place + 1) (by rw [List.length_set]; omega)
      rw [split, behind, List.take_left' width] at step
      rw [copyRun, setAll, List.foldl_cons, ← setAll, split, step, List.length_cons, List.append_assoc (bytes.take place),
        List.singleton_append]

def shifted (p : Nat) (writes : Writes) : Writes := writes.map fun write => (p + write.1, write.2)

theorem set_all_shifted (bytes : List UInt8) (p : Nat) (inside : p ≤ bytes.length) (writes : Writes) :
    setAll bytes (shifted p writes) = bytes.take p ++ setAll (bytes.drop p) writes := by
  have front : (bytes.take p).length = p := List.length_take_of_le inside
  induction writes generalizing bytes with
  | nil => exact (List.take_append_drop p bytes).symm
  | cons write rest ih =>
      have step := ih (bytes.set (p + write.1) write.2) (by rw [List.length_set]; exact inside)
        (by rw [List.take_set_of_le (Nat.le_add_right _ _)]; exact front)
      rw [shifted] at step
      rw [shifted, List.map_cons, setAll, List.foldl_cons, ← setAll, step, List.take_set_of_le (Nat.le_add_right _ _), List.drop_set,
        if_neg (Nat.not_lt.mpr (Nat.le_add_right _ _)), Nat.add_sub_cancel_left]
      rfl

section
variable {size : Nat} (buffer : Buffer size)

theorem store_append (front back : Writes) : buffer.store (front ++ back) = (buffer.store front).store back := by
  simp only [Buffer.store, setAll, List.foldl_append]

theorem text_short (terminated : buffer.Terminated) : buffer.text.length < size := by
  rcases c_string_split buffer.bytes with whole | ⟨rest, split⟩
  · rw [Buffer.Terminated, whole] at terminated
    exact absurd rfl (c_string_no_nul _ _ terminated)
  · have width := congrArg List.length split
    rw [buffer.width, List.length_append, List.length_cons] at width
    rw [Buffer.text]
    omega

theorem text_of_split (text rest : List UInt8) (noNul : ∀ byte ∈ text, byte ≠ 0) (split : buffer.bytes = text ++ 0 :: rest) :
    buffer.text = text ∧ buffer.Terminated := by
  refine ⟨?_, ?_⟩
  · rw [Buffer.text, split]
    exact c_string_terminated _ _ noNul
  · rw [Buffer.Terminated, split]
    exact List.mem_append_right _ List.mem_cons_self

theorem text_stored (text : List UInt8) (noNul : ∀ byte ∈ text, byte ≠ 0) (room : text.length < size) :
    (buffer.store (copyRun 0 (text ++ [0]))).text = text ∧ (buffer.store (copyRun 0 (text ++ [0]))).Terminated := by
  have stored : setAll buffer.bytes (copyRun 0 (text ++ [0])) = text ++ 0 :: buffer.bytes.drop (text.length + 1) := by
    rw [set_all_run _ _ _ (by rw [buffer.width, List.length_append, List.length_singleton]; omega), List.take_zero,
      List.nil_append, List.append_assoc, List.singleton_append, Nat.zero_add, List.length_append, List.length_singleton]
  exact text_of_split _ _ _ noNul stored

theorem text_cut (place : Nat) (inside : place < buffer.text.length) :
    (buffer.store [(place, 0)]).text = buffer.text.take place ∧ (buffer.store [(place, 0)]).Terminated := by
  have whole : buffer.text <+: buffer.bytes := List.takeWhile_prefix _
  have width : place < buffer.bytes.length := Nat.lt_of_lt_of_le inside whole.length_le
  have front : buffer.bytes.take place = buffer.text.take place := by
    rw [List.prefix_iff_eq_take.mp whole, List.take_take, Nat.min_eq_left (Nat.le_of_lt inside)]
  have stored : setAll buffer.bytes [(place, 0)] = buffer.text.take place ++ 0 :: buffer.bytes.drop (place + 1) := by
    rw [setAll, List.foldl_cons, List.foldl_nil, List.set_eq_take_append_cons_drop, if_pos width, front]
  exact text_of_split _ _ _ (fun byte member => c_string_no_nul _ byte (List.mem_of_mem_take member)) stored

theorem text_extended (byte : UInt8) (solid : byte ≠ 0) (room : buffer.text.length + 1 < size) :
    (buffer.store (copyRun buffer.text.length [byte, 0])).text = buffer.text ++ [byte] ∧
      (buffer.store (copyRun buffer.text.length [byte, 0])).Terminated := by
  have front : buffer.bytes.take buffer.text.length = buffer.text :=
    (List.prefix_iff_eq_take.mp (List.takeWhile_prefix _)).symm
  have stored : setAll buffer.bytes (copyRun buffer.text.length [byte, 0]) =
      (buffer.text ++ [byte]) ++ 0 :: buffer.bytes.drop (buffer.text.length + 2) := by
    rw [set_all_run _ _ _ (by rw [buffer.width]; exact room), front, List.append_assoc, List.append_assoc]
    rfl
  refine text_of_split _ _ _ (fun own member => ?_) stored
  rcases List.mem_append.mp member with old | new
  · exact c_string_no_nul _ own old
  · rw [List.mem_singleton.mp new]
    exact solid
end

end Base
