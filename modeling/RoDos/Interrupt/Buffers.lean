import RoDos.Base.Ring
import RoDos.Base.Runs

set_option autoImplicit false

namespace RoDos.Interrupt

open Base

def bufferSize : Nat := 256

-- key_buffer holds words, mouse_buffer bytes.
structure RingBuffer (α : Type) where
  cells : Nat → α
  head : Nat
  tail : Nat

-- .store_full_word of the keyboard, and the same for the mouse: neither looks at the tail.
def storeValue {α : Type} (buffer : RingBuffer α) (value : α) : RingBuffer α :=
  { buffer with
    cells := Function.update buffer.cells buffer.head value, head := (buffer.head + 1) % bufferSize }

inductive Call where
  | getkeyBlock
  | cKbHit
  | cMouseRead
deriving DecidableEq, Repr

-- getkey_block has interrupts off from its test to its return, and waits while there is nothing.
def blocks (call : Call) : Bool := call = .getkeyBlock

def takes (call : Call) : Bool := call ≠ .cKbHit

-- Where the reader is: its copy of the tail is about to be compared with the head, has been found
-- to differ from it, or the value there has been loaded and the tail is about to move.
inductive Reader (α : Type) where
  | away
  | halted
  | tested (call : Call) (tail : Nat)
  | found (call : Call) (tail : Nat)
  | fetched (call : Call) (tail : Nat) (value : α)
deriving DecidableEq, Repr

-- stored is all that the interrupt has put into the buffer, due what of it came while the buffer did
-- not hold its capacity yet, returned what the reader has got.
structure Input (α : Type) where
  buffer : RingBuffer α
  reader : Reader α
  stored : List α
  due : List α
  returned : List α

inductive Action (α : Type) where
  | interrupt (value : α)
  | call (call : Call)
  | compare
  | load
  | advance
  | wake
deriving DecidableEq, Repr

section
variable {α : Type}

def interruptsOff : Reader α → Bool
  | .away | .halted => false
  | .tested call _ | .found call _ | .fetched call _ _ => blocks call

def storeInput (input : Input α) (value : α) : Input α :=
  { input with
    buffer := storeValue input.buffer value, stored := input.stored ++ [value]
    due := if input.due.length < input.returned.length + bufferSize then input.due ++ [value] else input.due }

def compareTail (buffer : RingBuffer α) (call : Call) (tail : Nat) : Reader α :=
  if tail = buffer.head then if blocks call then .halted else .away
  else if takes call then .found call tail else .away

def readerStep (input : Input α) : Reader α → Action α → Option (Input α)
  | .away, .call call => some { input with reader := .tested call input.buffer.tail }
  | .halted, .wake => some { input with reader := .tested .getkeyBlock input.buffer.tail }
  | .tested call tail, .compare => some { input with reader := compareTail input.buffer call tail }
  | .found call tail, .load => some { input with reader := .fetched call tail (input.buffer.cells tail) }
  | .fetched _ tail value, .advance =>
      some { input with
        buffer := { input.buffer with tail := (tail + 1) % bufferSize }, reader := .away
        returned := input.returned ++ [value] }
  | _, _ => none

-- Any interrupt wakes the reader, also that of the timer.
def inputStep (input : Input α) : Action α → Option (Input α)
  | .interrupt value => if interruptsOff input.reader then none else some (storeInput input value)
  | action => readerStep input input.reader action

def InputStep (input : Input α) (action : Action α) (next : Input α) : Prop := inputStep input action = some next

def Empty (input : Input α) : Prop := ∃ cells, input = ⟨⟨cells, 0, 0⟩, .away, [], [], []⟩

-- What comes back is what was stored, less what came to a full buffer, and a test that meets an empty
-- buffer comes when all of it has been read.
def Faithful (input : Input α) : Prop :=
  ∃ kept, input.due.Sublist kept ∧ kept.Sublist input.stored ∧ input.returned <+: kept ∧
    ∀ call tail, input.reader = .tested call tail → tail = input.buffer.head → input.returned = kept

def CellSpare (input : Input α) : Action α → Prop
  | .interrupt _ => input.stored.length < input.returned.length + 255
  | _ => True

def waiting (buffer : RingBuffer α) : List α := ringSlots bufferSize bufferSize buffer.cells buffer.tail buffer.head

def ReaderAgrees (buffer : RingBuffer α) : Reader α → Prop
  | .away | .halted => True
  | .tested _ tail => tail = buffer.tail
  | .found _ tail => tail = buffer.tail ∧ buffer.tail ≠ buffer.head
  | .fetched _ tail value => tail = buffer.tail ∧ buffer.tail ≠ buffer.head ∧ value = buffer.cells buffer.tail

structure Queued (input : Input α) : Prop where
  head : input.buffer.head < bufferSize
  tail : input.buffer.tail < bufferSize
  contents : input.stored = input.returned ++ waiting input.buffer
  due : input.due = input.stored
  reader : ReaderAgrees input.buffer input.reader

theorem waiting_empty (buffer : RingBuffer α) (head : buffer.head < bufferSize) (tail : buffer.tail < bufferSize) :
    buffer.tail = buffer.head ↔ waiting buffer = [] := by
  constructor
  · intro same
    rw [waiting, same]
    exact ring_slots_empty _ _ _ _
  · intro nothing
    by_cases same : buffer.tail = buffer.head
    · exact same
    · rw [waiting, ring_slots_front _ _ _ _ _ (dvd_refl _) tail head same] at nothing
      cases nothing

theorem waiting_store (buffer : RingBuffer α) (value : α) (head : buffer.head < bufferSize)
    (tail : buffer.tail < bufferSize) (spare : (waiting buffer).length < 255) :
    waiting (storeValue buffer value) = waiting buffer ++ [value] := by
  rw [waiting, ring_slots_length] at spare
  have room : distance bufferSize buffer.tail buffer.head + 1 < bufferSize := Nat.add_lt_add_right spare 1
  have own := ring_slots_back bufferSize bufferSize (Function.update buffer.cells buffer.head value) buffer.tail buffer.head
    (dvd_refl _) tail head room
  have others := ring_slots_spare bufferSize bufferSize buffer.cells buffer.tail buffer.head (dvd_refl _) tail head
    (Nat.lt_of_succ_lt room) value
  rw [Nat.mod_eq_of_lt head] at own others
  rw [others, Function.update_self] at own
  exact own

theorem reader_agrees_store (buffer : RingBuffer α) (reader : Reader α) (value : α) (head : buffer.head < bufferSize)
    (tail : buffer.tail < bufferSize) (spare : (waiting buffer).length < 255) (agrees : ReaderAgrees buffer reader) :
    ReaderAgrees (storeValue buffer value) reader := by
  have stored := waiting_store buffer value head tail spare
  have next : (storeValue buffer value).head < bufferSize := Nat.mod_lt _ (by decide)
  have nonempty : buffer.tail ≠ (storeValue buffer value).head := by
    intro same
    have nothing := (waiting_empty (storeValue buffer value) next tail).mp same
    rw [stored] at nothing
    cases List.append_eq_nil_iff.mp nothing
    contradiction
  cases reader with
  | away => trivial
  | halted => trivial
  | tested call place => exact agrees
  | found call place => exact ⟨agrees.1, nonempty⟩
  | fetched call place fetched =>
      obtain ⟨same, different, cell⟩ := agrees
      refine ⟨same, nonempty, cell.trans ?_⟩
      exact (Function.update_of_ne different _ _).symm

theorem reader_agrees_compare (buffer : RingBuffer α) (call : Call) (place : Nat) (same : place = buffer.tail) :
    ReaderAgrees buffer (compareTail buffer call place) := by
  rw [compareTail]
  by_cases empty : place = buffer.head
  · rw [if_pos empty]
    split
    · trivial
    · trivial
  · rw [if_neg empty]
    split
    · exact ⟨same, same ▸ empty⟩
    · trivial

theorem queued_interrupt (input : Input α) (value : α) (inv : Queued input)
    (spare : CellSpare input (.interrupt value)) : Queued (storeInput input value) := by
  obtain ⟨head, tail, contents, due, reader⟩ := inv
  have few : (waiting input.buffer).length < 255 := by
    have lengths := congrArg List.length contents
    rw [List.length_append] at lengths
    simp only [CellSpare] at spare
    omega
  refine ⟨Nat.mod_lt _ (by decide), tail, ?_, ?_, reader_agrees_store _ _ value head tail few reader⟩
  · show input.stored ++ [value] = input.returned ++ waiting (storeValue input.buffer value)
    rw [waiting_store _ value head tail few, contents, List.append_assoc]
  · have room : input.due.length < input.returned.length + bufferSize := by
      rw [due]
      exact Nat.lt_of_lt_of_le spare (Nat.add_le_add_left (by decide) _)
    show (if input.due.length < input.returned.length + bufferSize then input.due ++ [value] else input.due) = _
    rw [if_pos room, due]
    rfl

theorem queued_reader (input next : Input α) (action : Action α) (inv : Queued input)
    (taken : readerStep input input.reader action = some next) : Queued next := by
  obtain ⟨head, tail, contents, due, reader⟩ := inv
  cases at' : input.reader with
  | away =>
      rw [at'] at taken
      cases action with
      | call call =>
          cases taken
          exact ⟨head, tail, contents, due, rfl⟩
      | _ => cases taken
  | halted =>
      rw [at'] at taken
      cases action with
      | wake =>
          cases taken
          exact ⟨head, tail, contents, due, rfl⟩
      | _ => cases taken
  | tested call place =>
      rw [at'] at taken reader
      cases action with
      | compare =>
          cases taken
          exact ⟨head, tail, contents, due, reader_agrees_compare input.buffer call place reader⟩
      | _ => cases taken
  | found call place =>
      rw [at'] at taken reader
      cases action with
      | load =>
          cases taken
          exact ⟨head, tail, contents, due, reader.1, reader.2, by rw [reader.1]⟩
      | _ => cases taken
  | fetched call place value =>
      rw [at'] at taken reader
      cases action with
      | advance =>
          cases taken
          obtain ⟨same, different, cell⟩ := reader
          have front := ring_slots_front bufferSize bufferSize input.buffer.cells _ _ (dvd_refl _) tail head different
          rw [Nat.mod_eq_of_lt tail] at front
          refine ⟨head, Nat.mod_lt _ (by decide), ?_, due, trivial⟩
          rw [contents, waiting, front, ← cell, same]
          exact List.append_cons _ _ _
      | _ => cases taken

theorem queued_step (input next : Input α) (action : Action α) (inv : Queued input) (spare : CellSpare input action)
    (taken : InputStep input action next) : Queued next := by
  cases action with
  | interrupt value =>
      simp only [InputStep, inputStep] at taken
      split at taken
      · cases taken
      · cases taken
        exact queued_interrupt input value inv spare
  | _ => exact queued_reader input next _ inv taken

theorem queued_empty (input : Input α) (empty : Empty input) : Queued input := by
  obtain ⟨cells, same⟩ := empty
  rw [same]
  refine ⟨Nat.zero_lt_succ 255, Nat.zero_lt_succ 255, ?_, rfl, trivial⟩
  show [] = waiting ⟨cells, 0, 0⟩
  exact (ring_slots_empty bufferSize bufferSize cells 0).symm

theorem queued_faithful (input : Input α) (inv : Queued input) : Faithful input := by
  refine ⟨input.stored, inv.due ▸ List.Sublist.refl _, List.Sublist.refl _, ⟨_, inv.contents.symm⟩, ?_⟩
  intro call tail tested same
  have agrees := inv.reader
  rw [tested] at agrees
  have nothing := (waiting_empty input.buffer inv.head inv.tail).mp (agrees.symm.trans same)
  rw [inv.contents, nothing, List.append_nil]
end

theorem buffers_stay_faithful (keys : Input UInt16) (mouse : Input UInt8) (keysRun : Run Empty InputStep CellSpare keys)
    (mouseRun : Run Empty InputStep CellSpare mouse) : Faithful keys ∧ Faithful mouse :=
  ⟨queued_faithful keys (run_invariant Queued queued_empty
      (fun state next action inv spare taken => queued_step state next action inv spare taken) keys keysRun),
    queued_faithful mouse (run_invariant Queued queued_empty
      (fun state next action inv spare taken => queued_step state next action inv spare taken) mouse mouseRun)⟩

instance cellSpareDecidable {α : Type} (input : Input α) : (action : Action α) → Decidable (CellSpare input action)
  | .interrupt _ => inferInstanceAs (Decidable (_ < _))
  | .call _ | .compare | .load | .advance | .wake => .isTrue trivial

def emptyInput (α : Type) (value : α) : Input α := ⟨⟨fun _ => value, 0, 0⟩, .away, [], [], []⟩

def sparedStep {α : Type} (input : Input α) (action : Action α) : Option (Input α) :=
  if CellSpare input action then inputStep input action else none

theorem buffers_stay_faithful_two : ∃ (keys : Input UInt16) (mouse : Input UInt8),
    keys.returned = [0x61] ∧ mouse.returned = [8] ∧ Faithful keys ∧ Faithful mouse := by
  have evaluated : (runAll sparedStep (emptyInput UInt16 0) [.call .getkeyBlock, .compare, .interrupt 0x61, .wake, .compare,
      .load, .advance, .interrupt 0x62]).any (fun keys => keys.returned = [0x61]) = true := by decide +kernel
  have evaluatedMouse : (runAll sparedStep (emptyInput UInt8 0) [.interrupt 8, .call .cMouseRead, .compare, .load, .interrupt 1,
      .advance]).any (fun mouse => mouse.returned = [8]) = true := by decide +kernel
  obtain ⟨keys, keysDone, keysReturned⟩ := (Option.any_eq_true _ _).mp evaluated
  obtain ⟨mouse, mouseDone, mouseReturned⟩ := (Option.any_eq_true _ _).mp evaluatedMouse
  refine ⟨keys, mouse, of_decide_eq_true keysReturned, of_decide_eq_true mouseReturned,
    buffers_stay_faithful keys mouse ?_ ?_⟩
  · refine run_all_run _ (fun state action next taken => ?_) _ keys _ (.start _ ⟨_, rfl⟩) keysDone
    exact (Option.ite_none_right_eq_some.mp taken)
  · refine run_all_run _ (fun state action next taken => ?_) _ mouse _ (.start _ ⟨_, rfl⟩) mouseDone
    exact (Option.ite_none_right_eq_some.mp taken)

-- After 256 keys that nobody has read the head has come round to the tail.
theorem buffers_not_faithful : ¬ ∀ keys : Input UInt16, Run Empty InputStep (fun _ _ => True) keys → Faithful keys := by
  intro claimed
  have evaluated : (runAll inputStep (emptyInput UInt16 0)
      (List.replicate 256 (Action.interrupt 0x61) ++ [.call .cKbHit])).any (fun keys =>
        keys.reader = .tested .cKbHit 0 ∧ keys.buffer.head = 0 ∧ keys.returned = [] ∧ keys.due.length = 256) = true := by
    decide +kernel
  obtain ⟨keys, done, reached⟩ := (Option.any_eq_true _ _).mp evaluated
  obtain ⟨reader, head, returned, due⟩ := of_decide_eq_true reached
  have run : Run Empty InputStep (fun _ _ => True) keys :=
    run_all_run inputStep (fun _ _ _ taken => ⟨trivial, taken⟩) _ keys _ (.start _ ⟨_, rfl⟩) done
  obtain ⟨kept, wanted, _, _, empty⟩ := claimed keys run
  have none := empty .cKbHit 0 reader head.symm
  rw [← none, returned] at wanted
  have few := wanted.length_le
  rw [due] at few
  exact absurd few (by decide)

end RoDos.Interrupt
