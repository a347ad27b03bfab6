import Mathlib.Algebra.Ring.Nat
import RoDos.Base.CString
import RoDos.Interrupt.Buffers

set_option autoImplicit false

namespace RoDos.Interrupt

open Base

-- The program that an interrupt meets.
structure Registers where
  eax : UInt32
  ebx : UInt32
  ecx : UInt32
  edx : UInt32
  esi : UInt32
  edi : UInt32
  ebp : UInt32
deriving DecidableEq, Repr

structure Keyboard where
  shift : Bool
  caps : Bool
  ctrl : Bool
  e0 : Bool
deriving DecidableEq, Repr

-- 58 entries and 128 - 104 zeros.
def scanToAscii : List UInt8 :=
  [0, 27] ++ ascii "1234567890-=" ++ [8, 9] ++ ascii "qwertyuiop[]" ++ [13, 0] ++ ascii "asdfghjkl;" ++ [39, 96, 0, 92] ++
    ascii "zxcvbnm,./" ++ [0, 42, 0, 32] ++ List.replicate (128 - 104) 0

def scanToAsciiShift : List UInt8 :=
  [0, 27] ++ ascii "!@#$%^&*()_+" ++ [8, 9] ++ ascii "QWERTYUIOP\x7b\x7d" ++ [13, 0] ++ ascii "ASDFGHJKL:" ++
    [34, 126, 0, 124] ++ ascii "ZXCVBNM<>?" ++ [0, 42, 0, 32] ++ List.replicate (128 - 104) 0

def pgupMsg : List UInt8 := ascii "[PgUp]" ++ [10, 0]

def pgdnMsg : List UInt8 := ascii "[PgDn]" ++ [10, 0]

-- Nothing writes to it.
def ticksBytes : List UInt8 := [0, 0, 0, 0]

-- The data section from scan_to_ascii on; mouse_buffer is the next behind ticks.
def tables : List UInt8 := scanToAscii ++ scanToAsciiShift ++ pgupMsg ++ pgdnMsg ++ ticksBytes

def dataByte (mouse : Nat → UInt8) (place : Nat) : UInt8 := if place < 184 then tables.getD place 0 else mouse (place - 184)

-- mov al, [esi + ebx]
def tableByte (mouse : Nat → UInt8) (shift : Bool) (scan : UInt8) : UInt8 :=
  dataByte mouse ((if shift then 82 else 0) + scan.toNat)

-- The comparisons are signed.
def letterCase (keyboard : Keyboard) (al : UInt8) : UInt8 :=
  if 97 ≤ al.toInt8 ∧ al.toInt8 ≤ 122 then if keyboard.shift ^^ keyboard.caps then al - 32 else al
  else if 65 ≤ al.toInt8 ∧ al.toInt8 ≤ 90 then if keyboard.shift ^^ keyboard.caps then al + 32 else al
  else al

inductive Effect where
  | nothing
  | stored (key : UInt16)
  | scrollUp
  | scrollDown
deriving DecidableEq, Repr

def translate (mouse : Nat → UInt8) (keyboard : Keyboard) (scan : UInt8) : Effect :=
  let al := tableByte mouse keyboard.shift scan
  if al = 0 then .nothing else .stored (letterCase keyboard al).toUInt16

-- The test for Ctrl+C looks at BL, which is still that of the interrupted program.
def makeCode (registers : Registers) (mouse : Nat → UInt8) (keyboard : Keyboard) (scan : UInt8) : Keyboard × Effect :=
  if scan = 0x2A ∨ scan = 0x36 then ({ keyboard with shift := true }, .nothing)
  else if scan = 0x1D then ({ keyboard with ctrl := true }, .nothing)
  else if scan = 0x3A then ({ keyboard with caps := !keyboard.caps }, .nothing)
  else if keyboard.ctrl ∧ registers.ebx.toUInt8 = 0x2E then (keyboard, .stored 3)
  else (keyboard, translate mouse keyboard scan)

def breakCode (keyboard : Keyboard) (scan : UInt8) : Keyboard :=
  let al := scan &&& 0x7F
  if al = 0x2A ∨ al = 0x36 then { keyboard with shift := false }
  else if al = 0x1D then { keyboard with ctrl := false }
  else keyboard

def extendedCode (keyboard : Keyboard) (scan : UInt8) : Keyboard × Effect :=
  let plain := { keyboard with e0 := false }
  if scan &&& 0x80 ≠ 0 then (plain, .nothing)
  else if scan = 0x48 ∨ scan = 0x50 ∨ scan = 0x4B ∨ scan = 0x4D then (plain, .stored (scan.toUInt16 <<< 8))
  else if scan = 0x49 then (plain, .scrollUp)
  else if scan = 0x51 then (plain, .scrollDown)
  else (plain, .nothing)

def keyboardIrq (registers : Registers) (mouse : Nat → UInt8) (keyboard : Keyboard) (scan : UInt8) : Keyboard × Effect :=
  if scan = 0xE0 then ({ keyboard with e0 := true }, .nothing)
  else if keyboard.e0 then extendedCode keyboard scan
  else if scan &&& 0x80 ≠ 0 then (breakCode keyboard scan, .nothing)
  else makeCode registers mouse keyboard scan

-- keys is all that was stored into key_buffer. Those who read the buffers move their tails only.
structure Machine where
  keyboard : Keyboard
  keyBuffer : RingBuffer UInt16
  mouseBuffer : RingBuffer UInt8
  keys : List UInt16

inductive Irq where
  | timer
  | mouse (byte : UInt8)
  | keyboard (registers : Registers) (scan : UInt8)
deriving DecidableEq, Repr

def effectKeys : Effect → List UInt16
  | .stored key => [key]
  | .nothing | .scrollUp | .scrollDown => []

def irqCommonStub (machine : Machine) : Irq → Machine
  | .timer => machine
  | .mouse byte => { machine with mouseBuffer := storeValue machine.mouseBuffer byte }
  | .keyboard registers scan =>
      let handled := keyboardIrq registers machine.mouseBuffer.cells machine.keyboard scan
      let stored := effectKeys handled.2
      { machine with
        keyboard := handled.1, keyBuffer := stored.foldl storeValue machine.keyBuffer, keys := machine.keys ++ stored }

def powerOn : Machine := ⟨⟨false, false, false, false⟩, ⟨fun _ => 0, 0, 0⟩, ⟨fun _ => 0, 0, 0⟩, []⟩

def irqsAfter (machine : Machine) (irqs : List Irq) : Machine := irqs.foldl irqCommonStub machine

def scanCodes : List Irq → List UInt8
  | [] => []
  | .keyboard _ scan :: irqs => scan :: scanCodes irqs
  | .timer :: irqs | .mouse _ :: irqs => scanCodes irqs

-- What the handler does with nothing but the scan code and the modifiers to go by.
def ownIrq (keyboard : Keyboard) (scan : UInt8) : Keyboard × Effect :=
  keyboardIrq ⟨0, scan.toUInt32, 0, 0, 0, 0, 0⟩ (fun _ => 0) keyboard scan

def ownKeys : Keyboard → List UInt8 → List UInt16
  | _, [] => []
  | keyboard, scan :: codes => effectKeys (ownIrq keyboard scan).2 ++ ownKeys (ownIrq keyboard scan).1 codes

def keysOf (codes : List UInt8) : List UInt16 := ownKeys powerOn.keyboard codes

def isPlain (keyboard : Keyboard) (scan : UInt8) : Bool :=
  scan ≠ 0xE0 ∧ keyboard.e0 = false ∧ scan &&& 0x80 = 0 ∧ ¬ (scan = 0x2A ∨ scan = 0x36 ∨ scan = 0x1D ∨ scan = 0x3A)

-- With Ctrl down BL says whether the key is C; with Shift down the byte of mouse_buffer that the code
-- names behind the tables is zero.
def SeesOwnKey (registers : Registers) (mouse : Nat → UInt8) (keyboard : Keyboard) (scan : UInt8) : Prop :=
  isPlain keyboard scan = true →
    (keyboard.ctrl = true → (registers.ebx.toUInt8 = 0x2E ↔ scan = 0x2E)) ∧
    (keyboard.shift = true → 102 ≤ scan.toNat → mouse (scan.toNat - 102) = 0)

def OwnKey (machine : Machine) : Irq → Prop
  | .keyboard registers scan => SeesOwnKey registers machine.mouseBuffer.cells machine.keyboard scan
  | _ => True

def irqStep (machine : Machine) (irq : Irq) : Option Machine := some (irqCommonStub machine irq)

theorem tables_length : tables.length = 184 := by decide +kernel

theorem every_scan (holds : UInt8 → Prop) (tried : ∀ n < 256, holds (UInt8.ofNat n)) (scan : UInt8) : holds scan := by
  have named := tried scan.toNat scan.toNat_lt
  rwa [UInt8.ofNat_toNat] at named

section
variable (registers : Registers) (mouse : Nat → UInt8) (keyboard : Keyboard) (scan : UInt8)

theorem plain_below (plain : isPlain keyboard scan = true) : scan.toNat < 128 := by
  have low : ∀ n < 256, UInt8.ofNat n &&& 0x80 = 0 → (UInt8.ofNat n).toNat < 128 := by decide +kernel
  exact every_scan (fun scan => scan &&& 0x80 = 0 → scan.toNat < 128) low scan (of_decide_eq_true plain).2.2.1

theorem irq_plain (plain : isPlain keyboard scan = true) : keyboardIrq registers mouse keyboard scan =
    if keyboard.ctrl ∧ registers.ebx.toUInt8 = 0x2E then (keyboard, .stored 3)
    else (keyboard, translate mouse keyboard scan) := by
  obtain ⟨unprefixed, unextended, make, other⟩ := of_decide_eq_true plain
  rw [keyboardIrq, if_neg unprefixed, if_neg (by simp [unextended]), if_neg (not_not.mpr make), makeCode,
    if_neg (fun shift => other (shift.elim .inl fun right => .inr (.inl right))),
    if_neg (fun ctrl => other (.inr (.inr (.inl ctrl)))), if_neg (fun caps => other (.inr (.inr (.inr caps))))]

-- A modifier, a release or an extended key: the handler goes by the scan code alone.
theorem irq_not_plain (special : ¬ isPlain keyboard scan = true) :
    keyboardIrq registers mouse keyboard scan = ownIrq keyboard scan := by
  rw [ownIrq, keyboardIrq, keyboardIrq]
  by_cases lead : scan = 0xE0
  · rw [if_pos lead, if_pos lead]
  rw [if_neg lead, if_neg lead]
  by_cases extended : keyboard.e0 = true
  · rw [if_pos extended, if_pos extended]
  rw [if_neg extended, if_neg extended]
  by_cases release : scan &&& 0x80 ≠ 0
  · rw [if_pos release, if_pos release]
  rw [if_neg release, if_neg release, makeCode, makeCode]
  by_cases shift : scan = 0x2A ∨ scan = 0x36
  · rw [if_pos shift, if_pos shift]
  rw [if_neg shift, if_neg shift]
  by_cases ctrl : scan = 0x1D
  · rw [if_pos ctrl, if_pos ctrl]
  rw [if_neg ctrl, if_neg ctrl]
  by_cases caps : scan = 0x3A
  · rw [if_pos caps, if_pos caps]
  · refine absurd (decide_eq_true ⟨lead, Bool.not_eq_true _ ▸ extended, not_not.mp release, ?_⟩) special
    rintro (left | right | held | lock)
    · exact shift (.inl left)
    · exact shift (.inr right)
    · exact ctrl held
    · exact caps lock

theorem irq_keyboard : (keyboardIrq registers mouse keyboard scan).1 = (ownIrq keyboard scan).1 := by
  by_cases plain : isPlain keyboard scan = true
  · rw [ownIrq, irq_plain _ _ _ _ plain, irq_plain _ _ _ _ plain]
    split
    · split
      · rfl
      · rfl
    · split
      · rfl
      · rfl
  · rw [irq_not_plain _ _ _ _ plain]

theorem own_bl : (scan.toUInt32).toUInt8 = 0x2E ↔ scan = 0x2E := by rw [UInt8.toUInt8_toUInt32]

theorem own_plain (plain : isPlain keyboard scan = true) : (ownIrq keyboard scan).2 =
    if keyboard.ctrl ∧ scan = 0x2E then .stored 3 else translate (fun _ => 0) keyboard scan := by
  rw [ownIrq, irq_plain _ _ _ _ plain]
  simp only [own_bl]
  split
  · rfl
  · rfl

theorem translate_same (below : scan.toNat < 128)
    (zero : keyboard.shift = true → 102 ≤ scan.toNat → mouse (scan.toNat - 102) = 0) :
    translate mouse keyboard scan = translate (fun _ => 0) keyboard scan := by
  have same : tableByte mouse keyboard.shift scan = tableByte (fun _ => 0) keyboard.shift scan := by
    rw [tableByte, tableByte, dataByte, dataByte]
    by_cases inside : (if keyboard.shift = true then 82 else 0) + scan.toNat < 184
    · rw [if_pos inside, if_pos inside]
    · rw [if_neg inside, if_neg inside]
      by_cases shift : keyboard.shift = true
      · rw [if_pos shift] at inside ⊢
        have place : 82 + scan.toNat - 184 = scan.toNat - 102 := by omega
        rw [place]
        exact zero shift (by omega)
      · rw [if_neg shift] at inside
        omega
  rw [translate, translate, same]

theorem translate_behind (shift : keyboard.shift = true) (behind : 102 ≤ scan.toNat) :
    translate (fun _ => 0) keyboard scan = .nothing ∧
      (mouse (scan.toNat - 102) ≠ 0 → ∃ key, translate mouse keyboard scan = .stored key) := by
  have outside : ¬ 82 + scan.toNat < 184 := by omega
  have place : 82 + scan.toNat - 184 = scan.toNat - 102 := by omega
  simp only [translate, tableByte, shift, if_true, dataByte, if_neg outside, place]
  exact ⟨trivial, fun some' => ⟨_, if_neg some'⟩⟩

theorem letter_case_three (al : UInt8) (three : letterCase keyboard al = 3) : al = 3 := by
  have tried : ∀ capital : Bool, ∀ n < 256, letterCase ⟨capital, false, false, false⟩ (UInt8.ofNat n) = 3 →
      UInt8.ofNat n = 3 := by decide +kernel
  have same : letterCase keyboard al = letterCase ⟨keyboard.shift ^^ keyboard.caps, false, false, false⟩ al := by
    simp only [letterCase, Bool.xor_false]
  rw [same] at three
  exact every_scan (fun al => letterCase ⟨_, false, false, false⟩ al = 3 → al = 3) (tried _) al three

theorem data_byte_not_three (place : Nat) : dataByte (fun _ => 0) place ≠ 3 := by
  have tried : (tables.all fun byte => byte != 3) = true := by decide +kernel
  rw [dataByte]
  by_cases inside : place < 184
  · rw [if_pos inside, List.getD_eq_getElem _ _ (inside.trans_eq tables_length.symm)]
    exact bne_iff_ne.mp (List.all_eq_true.mp tried _ (List.getElem_mem _))
  · rw [if_neg inside]
    decide

theorem translate_never_three : translate (fun _ => 0) keyboard scan ≠ .stored 3 := by
  intro three
  rw [translate] at three
  by_cases unused : tableByte (fun _ => 0) keyboard.shift scan = 0
  · rw [if_pos unused] at three
    cases three
  · rw [if_neg unused] at three
    have key := congrArg UInt16.toUInt8 (Effect.stored.inj three)
    rw [UInt8.toUInt8_toUInt16] at key
    exact data_byte_not_three _ (letter_case_three keyboard _ key)

theorem three_of_c (plain : isPlain keyboard scan = true) (held : keyboard.ctrl = true) :
    (ownIrq keyboard scan).2 = .stored 3 ↔ scan = 0x2E := by
  rw [own_plain _ _ plain]
  constructor
  · intro three
    by_cases c : scan = 0x2E
    · exact c
    · rw [if_neg fun both => c both.2] at three
      exact absurd three (translate_never_three keyboard scan)
  · intro c
    rw [if_pos ⟨held, c⟩]

theorem c_key_letter : ∃ key ≠ 3, translate mouse keyboard 0x2E = .stored key := by
  have below : (0x2E : UInt8).toNat < 102 := by decide
  rw [translate_same mouse keyboard 0x2E (by decide) fun _ behind => absurd behind (Nat.not_le.mpr below)]
  have tried : ∀ shift caps ctrl e0 : Bool,
      translate (fun _ => 0) ⟨shift, caps, ctrl, e0⟩ 0x2E = .stored 0x63 ∨
        translate (fun _ => 0) ⟨shift, caps, ctrl, e0⟩ 0x2E = .stored 0x43 := by decide +kernel
  obtain ⟨shift, caps, ctrl, e0⟩ := keyboard
  cases tried shift caps ctrl e0 with
  | inl small => exact ⟨0x63, by decide, small⟩
  | inr capital => exact ⟨0x43, by decide, capital⟩

theorem effect_keys_le (effect : Effect) : (effectKeys effect).length ≤ 1 := by
  cases effect with
  | stored key => exact Nat.le_refl 1
  | _ => exact Nat.zero_le 1

theorem effect_keys_three (effect : Effect) : effectKeys effect = [3] ↔ effect = .stored 3 := by
  cases effect with
  | stored key => simp [effectKeys]
  | _ => exact ⟨nofun, nofun⟩

theorem keys_bl_c (plain : isPlain keyboard scan = true) (held : keyboard.ctrl = true)
    (c : registers.ebx.toUInt8 = 0x2E) :
    effectKeys (keyboardIrq registers mouse keyboard scan).2 = [3] ∧
      (effectKeys (ownIrq keyboard scan).2 = [3] ↔ SeesOwnKey registers mouse keyboard scan) := by
  rw [irq_plain _ _ _ _ plain, if_pos ⟨held, c⟩, effect_keys_three (ownIrq keyboard scan).2,
    three_of_c _ _ plain held]
  refine ⟨rfl, fun same _ => ⟨fun _ => iff_of_true c same, fun _ behind => ?_⟩, fun sees => ?_⟩
  · rw [same] at behind
    exact absurd behind (by decide)
  · exact ((sees plain).1 held).mp c

-- Ctrl+C with another BL: the letter is stored in place of 3.
theorem keys_ctrl_c_missed (plain : isPlain keyboard scan = true) (held : keyboard.ctrl = true)
    (other : registers.ebx.toUInt8 ≠ 0x2E) (c : scan = 0x2E) :
    ∃ key ≠ 3, effectKeys (keyboardIrq registers mouse keyboard scan).2 = [key] ∧
      effectKeys (ownIrq keyboard scan).2 = [3] ∧ ¬ SeesOwnKey registers mouse keyboard scan := by
  obtain ⟨key, letter, stored⟩ := c_key_letter mouse keyboard
  refine ⟨key, letter, ?_, ?_, fun sees => other (((sees plain).1 held).mpr c)⟩
  · rw [irq_plain _ _ _ _ plain, if_neg fun both => other both.2, c, stored]
    rfl
  · rw [effect_keys_three, three_of_c _ _ plain held]
    exact c

theorem keys_translated (plain : isPlain keyboard scan = true)
    (other : ¬ (keyboard.ctrl = true ∧ registers.ebx.toUInt8 = 0x2E)) (letter : ¬ (keyboard.ctrl = true ∧ scan = 0x2E)) :
    (effectKeys (ownIrq keyboard scan).2).length ≤ (effectKeys (keyboardIrq registers mouse keyboard scan).2).length ∧
      (effectKeys (keyboardIrq registers mouse keyboard scan).2 = effectKeys (ownIrq keyboard scan).2 ↔
        SeesOwnKey registers mouse keyboard scan) := by
  rw [irq_plain _ _ _ _ plain, if_neg other, own_plain _ _ plain, if_neg letter]
  by_cases zero : keyboard.shift = true → 102 ≤ scan.toNat → mouse (scan.toNat - 102) = 0
  · rw [translate_same _ _ _ (plain_below _ _ plain) zero]
    refine ⟨Nat.le_refl _, iff_of_true rfl fun _ => ⟨fun held => ?_, zero⟩⟩
    exact iff_of_false (fun c => other ⟨held, c⟩) fun c => letter ⟨held, c⟩
  · obtain ⟨shift, behind, nonzero⟩ : keyboard.shift = true ∧ 102 ≤ scan.toNat ∧ mouse (scan.toNat - 102) ≠ 0 := by
      simpa using zero
    obtain ⟨nothing, some'⟩ := translate_behind mouse keyboard scan shift behind
    obtain ⟨key, stored⟩ := some' nonzero
    rw [nothing, stored]
    exact ⟨Nat.zero_le _, iff_of_false nofun fun sees => zero (sees plain).2⟩

theorem irq_keys : (effectKeys (ownIrq keyboard scan).2).length ≤
      (effectKeys (keyboardIrq registers mouse keyboard scan).2).length ∧
    (effectKeys (keyboardIrq registers mouse keyboard scan).2 = effectKeys (ownIrq keyboard scan).2 ↔
      SeesOwnKey registers mouse keyboard scan) := by
  by_cases plain : isPlain keyboard scan = true
  · by_cases held : keyboard.ctrl = true
    · by_cases bl : registers.ebx.toUInt8 = 0x2E
      · obtain ⟨three, own⟩ := keys_bl_c registers mouse keyboard scan plain held bl
        rw [three, ← own]
        exact ⟨effect_keys_le _, eq_comm⟩
      · by_cases c : scan = 0x2E
        · obtain ⟨key, letter, stored, own, unseen⟩ := keys_ctrl_c_missed registers mouse keyboard scan plain held bl c
          rw [stored, own]
          exact ⟨Nat.le_refl _, iff_of_false (fun same => letter (List.cons.inj same).1) unseen⟩
        · exact keys_translated registers mouse keyboard scan plain (fun both => bl both.2) fun both => c both.2
    · exact keys_translated registers mouse keyboard scan plain (fun both => held both.1) fun both => held both.1
  · rw [irq_not_plain _ _ _ _ plain]
    exact ⟨Nat.le_refl _, iff_of_true rfl fun claimed => absurd claimed plain⟩
end

-- What a sequence of interrupts stores from any state on.
def storedBy : Machine → List Irq → List UInt16
  | _, [] => []
  | machine, .keyboard registers scan :: irqs =>
      effectKeys (keyboardIrq registers machine.mouseBuffer.cells machine.keyboard scan).2 ++
        storedBy (irqCommonStub machine (.keyboard registers scan)) irqs
  | machine, irq :: irqs => storedBy (irqCommonStub machine irq) irqs

theorem irqs_keys (machine : Machine) (irqs : List Irq) :
    (irqsAfter machine irqs).keys = machine.keys ++ storedBy machine irqs := by
  induction irqs generalizing machine with
  | nil => exact (List.append_nil _).symm
  | cons irq irqs ih =>
      have further := ih (irqCommonStub machine irq)
      cases irq with
      | timer => exact further
      | mouse byte => exact further
      | keyboard registers scan => exact further.trans (List.append_assoc _ _ _)

theorem stored_by_own (machine : Machine) (irqs : List Irq) :
    (ownKeys machine.keyboard (scanCodes irqs)).length ≤ (storedBy machine irqs).length ∧
      (storedBy machine irqs = ownKeys machine.keyboard (scanCodes irqs) ↔ Along irqStep OwnKey machine irqs) := by
  induction irqs generalizing machine with
  | nil => exact ⟨Nat.le_refl _, iff_of_true rfl trivial⟩
  | cons irq irqs ih =>
      have along (own : Prop) (same : OwnKey machine irq ↔ own) : Along irqStep OwnKey machine (irq :: irqs) ↔
          own ∧ Along irqStep OwnKey (irqCommonStub machine irq) irqs := by
        rw [Along, same]
        refine and_congr_right fun _ => ⟨fun all => all _ rfl, fun held reached moved => ?_⟩
        cases moved
        exact held
      obtain ⟨fewer, same⟩ := ih (irqCommonStub machine irq)
      cases irq with
      | timer =>
          rw [along True Iff.rfl, true_and]
          exact ⟨fewer, same⟩
      | mouse byte =>
          rw [along True Iff.rfl, true_and]
          exact ⟨fewer, same⟩
      | keyboard registers scan =>
          obtain ⟨fewerHere, sameHere⟩ := irq_keys registers machine.mouseBuffer.cells machine.keyboard scan
          have next : (irqCommonStub machine (.keyboard registers scan)).keyboard = (ownIrq machine.keyboard scan).1 :=
            irq_keyboard registers machine.mouseBuffer.cells machine.keyboard scan
          rw [next] at fewer same
          rw [along _ Iff.rfl, OwnKey, ← sameHere, ← same]
          simp only [scanCodes, ownKeys, storedBy, List.length_append]
          refine ⟨Nat.add_le_add fewerHere fewer, fun all => ?_, fun both => by rw [both.1, both.2]⟩
          have lengths := congrArg List.length all
          simp only [List.length_append] at lengths
          exact List.append_inj all (by omega)

theorem keys_follow_codes (irqs : List Irq) :
    ((irqsAfter powerOn irqs).keys = keysOf (scanCodes irqs) ↔ Along irqStep OwnKey powerOn irqs) ∧
    ∀ keyboard scan, isPlain keyboard scan = true → keyboard.ctrl = true →
      ((ownIrq keyboard scan).2 = .stored 3 ↔ scan = 0x2E) := by
  refine ⟨?_, three_of_c⟩
  rw [irqs_keys]
  exact (stored_by_own powerOn irqs).2

theorem keys_follow_codes_c : (irqsAfter powerOn [.keyboard ⟨0, 0, 0, 0, 0, 0, 0⟩ 0x1D, .timer,
    .keyboard ⟨0, 0x2E, 0, 0, 0, 0, 0⟩ 0x2E]).keys = keysOf [0x1D, 0x2E] ∧
      (ownIrq ⟨false, false, true, false⟩ 0x2E).2 = .stored 3 := by
  have follows := keys_follow_codes [.keyboard ⟨0, 0, 0, 0, 0, 0, 0⟩ 0x1D, .timer, .keyboard ⟨0, 0x2E, 0, 0, 0, 0, 0⟩ 0x2E]
  refine ⟨follows.1.mpr ⟨fun plain => ?_, fun _ moved => ⟨trivial, fun _ moved' => ⟨fun _ => ?_, fun _ _ => trivial⟩⟩⟩,
    (follows.2 ⟨false, false, true, false⟩ 0x2E (by decide) rfl).mpr rfl⟩
  · exact absurd plain (by decide)
  · cases moved
    cases moved'
    exact ⟨fun _ => by decide, fun shift => absurd shift (by decide)⟩

-- Ctrl down, then the C key, in a program that has zero in EBX and in one that has the code of C there.
theorem keys_not_from_codes : ¬ ∀ one two, scanCodes one = scanCodes two →
    (irqsAfter powerOn one).keys = (irqsAfter powerOn two).keys := by
  intro claimed
  have same := claimed [.keyboard ⟨0, 0, 0, 0, 0, 0, 0⟩ 0x1D, .keyboard ⟨0, 0, 0, 0, 0, 0, 0⟩ 0x2E]
    [.keyboard ⟨0, 0, 0, 0, 0, 0, 0⟩ 0x1D, .keyboard ⟨0, 0x2E, 0, 0, 0, 0, 0⟩ 0x2E] rfl
  exact absurd same (by decide +kernel)

end RoDos.Interrupt
