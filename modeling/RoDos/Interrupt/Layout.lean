import RoDos.Interrupt.Keys

set_option autoImplicit false

namespace RoDos.Interrupt

open Base

-- What the sequence of scan codes says of the keys: which modifiers are down, and how often Caps Lock was pressed. A code
-- behind E0 belongs to another key.
structure Held where
  e0 : Bool
  left : Bool
  right : Bool
  ctrl : Bool
  capsMakes : Nat

def nothingHeld : Held := ⟨false, false, false, false, 0⟩

def Held.shift (held : Held) : Bool := held.left || held.right

def Held.caps (held : Held) : Bool := held.capsMakes % 2 = 1

def ownCode (e0 : Bool) (scan : UInt8) : Bool := !e0 && scan != 0xE0

def keyState (own : Bool) (make scan : UInt8) (down : Bool) : Bool :=
  if own then if scan = make then true else if scan = make ||| 0x80 then false else down else down

def Held.after (held : Held) (scan : UInt8) : Held where
  e0 := scan == 0xE0
  left := keyState (ownCode held.e0 scan) 0x2A scan held.left
  right := keyState (ownCode held.e0 scan) 0x36 scan held.right
  ctrl := keyState (ownCode held.e0 scan) 0x1D scan held.ctrl
  capsMakes := if ownCode held.e0 scan && scan == 0x3A then held.capsMakes + 1 else held.capsMakes

def plainChar (scan : UInt8) : UInt8 := scanToAscii.getD scan.toNat 0

def shiftedChar (scan : UInt8) : UInt8 := scanToAsciiShift.getD scan.toNat 0

def isLetter (char : UInt8) : Bool := 97 ≤ char ∧ char ≤ 122

-- A letter goes by Shift and Caps Lock, every other position of the layout by Shift alone.
def layoutKeys (shift caps : Bool) (scan : UInt8) : List UInt16 :=
  if plainChar scan = 0 then []
  else if isLetter (plainChar scan) then
    [(if shift ^^ caps then plainChar scan - 32 else plainChar scan).toUInt16]
  else [(if shift then shiftedChar scan else plainChar scan).toUInt16]

-- The arrows behind E0 are stored as their codes.
def arrowKeys (scan : UInt8) : List UInt16 :=
  if scan = 0x48 ∨ scan = 0x50 ∨ scan = 0x4B ∨ scan = 0x4D then [scan.toUInt16 <<< 8] else []

def expectedKeys (held : Held) (scan : UInt8) : List UInt16 :=
  if scan = 0xE0 then []
  else if held.e0 then arrowKeys scan
  else if scan &&& 0x80 ≠ 0 then []
  else layoutKeys held.shift held.caps scan

structure Watched where
  machine : Machine
  held : Held

def watchStep (watched : Watched) : Irq → Option Watched
  | .keyboard registers scan => some ⟨irqCommonStub watched.machine (.keyboard registers scan), watched.held.after scan⟩
  | irq => some ⟨irqCommonStub watched.machine irq, watched.held⟩

def watchedStart : Watched := ⟨powerOn, nothingHeld⟩

def LayoutRight (watched : Watched) : Irq → Prop
  | .keyboard registers scan => watched.held.ctrl = false →
      (irqCommonStub watched.machine (.keyboard registers scan)).keys =
        watched.machine.keys ++ expectedKeys watched.held scan
  | irq => (irqCommonStub watched.machine irq).keys = watched.machine.keys

-- flag is kb_shift, shift says whether a Shift key is down.
structure KeySound (mouse : Nat → UInt8) (flag shift : Bool) (scan : UInt8) : Prop where
  letter : isLetter (plainChar scan) = true → shift = false
  other : isLetter (plainChar scan) = false → plainChar scan ≠ shiftedChar scan → flag = shift
  behind : 82 ≤ scan.toNat → tableByte mouse flag scan = 0

def LayoutSound (watched : Watched) : Irq → Prop
  | .keyboard _ scan => watched.held.ctrl = false → isPlain watched.machine.keyboard scan = true →
      KeySound watched.machine.mouseBuffer.cells watched.machine.keyboard.shift watched.held.shift scan
  | _ => True

structure Agrees (keyboard : Keyboard) (held : Held) : Prop where
  e0 : keyboard.e0 = held.e0
  ctrl : keyboard.ctrl = held.ctrl
  caps : keyboard.caps = held.caps

theorem release_codes (scan : UInt8) : scan &&& 0x80 ≠ 0 → (scan &&& 0x7F = 0x2A ↔ scan = 0xAA) ∧
    (scan &&& 0x7F = 0x36 ↔ scan = 0xB6) ∧ (scan &&& 0x7F = 0x1D ↔ scan = 0x9D) :=
  every_scan (fun scan => scan &&& 0x80 ≠ 0 → (scan &&& 0x7F = 0x2A ↔ scan = 0xAA) ∧
    (scan &&& 0x7F = 0x36 ↔ scan = 0xB6) ∧ (scan &&& 0x7F = 0x1D ↔ scan = 0x9D)) (by decide +kernel) scan

section
variable (keyboard : Keyboard) (scan : UInt8)

theorem break_keyboard (release : scan &&& 0x80 ≠ 0) : breakCode keyboard scan =
    { keyboard with
      shift := keyState true 0x2A scan (keyState true 0x36 scan keyboard.shift)
      ctrl := keyState true 0x1D scan keyboard.ctrl } := by
  obtain ⟨left, right, ctrl⟩ := release_codes scan release
  have notMake (make : UInt8) (low : make &&& 0x80 = 0) : scan ≠ make := fun same => release (same ▸ low)
  have leftCode : (0x2A ||| 0x80 : UInt8) = 0xAA := by decide
  have rightCode : (0x36 ||| 0x80 : UInt8) = 0xB6 := by decide
  have ctrlCode : (0x1D ||| 0x80 : UInt8) = 0x9D := by decide
  simp only [breakCode, keyState, left, right, ctrl, leftCode, rightCode, ctrlCode, notMake 0x2A (by decide),
    notMake 0x36 (by decide), notMake 0x1D (by decide), if_true, if_false]
  by_cases leftUp : scan = 0xAA
  · simp [leftUp]
  by_cases rightUp : scan = 0xB6
  · simp [rightUp]
  by_cases ctrlUp : scan = 0x9D
  · simp [ctrlUp]
  · simp [leftUp, rightUp, ctrlUp]

theorem make_keyboard (registers : Registers) (mouse : Nat → UInt8) (make : ¬ scan &&& 0x80 ≠ 0) :
    (makeCode registers mouse keyboard scan).1 =
      { keyboard with
        shift := keyState true 0x2A scan (keyState true 0x36 scan keyboard.shift)
        caps := keyboard.caps ^^ (scan == 0x3A)
        ctrl := keyState true 0x1D scan keyboard.ctrl } := by
  have notRelease (code : UInt8) (high : (code ||| 0x80) &&& 0x80 ≠ 0) : scan ≠ code ||| 0x80 := fun same =>
    make (same ▸ high)
  simp only [makeCode, keyState, notRelease 0x2A (by decide), notRelease 0x36 (by decide), notRelease 0x1D (by decide),
    if_true, if_false]
  by_cases left : scan = 0x2A
  · simp [left]
  by_cases right : scan = 0x36
  · simp [right]
  by_cases ctrl : scan = 0x1D
  · simp [ctrl]
  by_cases caps : scan = 0x3A
  · simp [caps]
  · have notCaps : (scan == 0x3A) = false := beq_false_of_ne caps
    simp [left, right, ctrl, caps, notCaps, apply_ite Prod.fst]

theorem own_irq_keyboard : (ownIrq keyboard scan).1 =
    ⟨keyState (ownCode keyboard.e0 scan) 0x2A scan (keyState (ownCode keyboard.e0 scan) 0x36 scan keyboard.shift),
      keyboard.caps ^^ (ownCode keyboard.e0 scan && scan == 0x3A),
      keyState (ownCode keyboard.e0 scan) 0x1D scan keyboard.ctrl, scan == 0xE0⟩ := by
  rw [ownIrq, keyboardIrq]
  by_cases lead : scan = 0xE0
  · have foreign : ownCode keyboard.e0 scan = false := by simp [ownCode, lead]
    rw [if_pos lead, foreign]
    simp [keyState, lead]
  have plain : (scan == 0xE0) = false := beq_false_of_ne lead
  rw [if_neg lead, plain]
  by_cases extended : keyboard.e0 = true
  · have foreign : ownCode keyboard.e0 scan = false := by simp [ownCode, extended]
    have same : (extendedCode keyboard scan).1 = { keyboard with e0 := false } := by
      simp only [extendedCode, apply_ite Prod.fst, ite_self]
    rw [if_pos extended, same, foreign]
    simp [keyState]
  have unprefixed : keyboard.e0 = false := Bool.eq_false_iff.mpr extended
  have own : ownCode keyboard.e0 scan = true := by simp [ownCode, extended, lead]
  rw [if_neg extended, own, Bool.true_and]
  by_cases release : scan &&& 0x80 ≠ 0
  · have notCaps : (scan == 0x3A) = false := beq_false_of_ne fun same => release (by rw [same]; decide)
    rw [if_pos release, break_keyboard keyboard scan release, notCaps, Bool.xor_false, unprefixed]
  · rw [if_neg release, make_keyboard keyboard scan _ _ release, unprefixed]
end

theorem agrees_after (registers : Registers) (mouse : Nat → UInt8) (keyboard : Keyboard) (held : Held) (scan : UInt8)
    (agrees : Agrees keyboard held) : Agrees (keyboardIrq registers mouse keyboard scan).1 (held.after scan) := by
  rw [irq_keyboard, own_irq_keyboard]
  refine ⟨rfl, ?_, ?_⟩
  · rw [Held.after, agrees.e0, agrees.ctrl]
  · rw [Held.after, Held.caps, agrees.e0, agrees.caps, Held.caps]
    dsimp only
    cases (ownCode held.e0 scan && scan == 0x3A) with
    | false => rw [Bool.xor_false, if_neg Bool.false_ne_true]
    | true =>
        rw [Bool.xor_true, if_pos rfl, ← decide_not]
        exact decide_eq_decide.mpr (by omega)

theorem layout_length : scanToAscii.length = 82 ∧ scanToAsciiShift.length = 82 := by decide +kernel

-- Behind the tables of 82 bytes a code has no position, and the handler reads what stands there.
theorem layout_behind (shift caps : Bool) (scan : UInt8) (behind : 82 ≤ scan.toNat) : layoutKeys shift caps scan = [] := by
  have none' : plainChar scan = 0 := by
    rw [plainChar, List.getD_eq_default _ _ (layout_length.1.le.trans behind)]
  rw [layoutKeys, if_pos none']

theorem chars_tried : (scanToAscii.zip scanToAsciiShift).all (fun chars => ∀ flag caps shift : Bool,
    (effectKeys (if (if flag then chars.2 else chars.1) = 0 then .nothing
      else .stored (letterCase ⟨flag, caps, false, false⟩ (if flag then chars.2 else chars.1)).toUInt16) =
    if chars.1 = 0 then []
    else if isLetter chars.1 then [(if shift ^^ caps then chars.1 - 32 else chars.1).toUInt16]
    else [(if shift then chars.2 else chars.1).toUInt16]) ↔
      (isLetter chars.1 = true → shift = false) ∧
        (isLetter chars.1 = false → chars.1 ≠ chars.2 → flag = shift)) = true := by decide +kernel

theorem chars_listed (scan : UInt8) (inside : scan.toNat < 82) :
    (plainChar scan, shiftedChar scan) ∈ scanToAscii.zip scanToAsciiShift := by
  obtain ⟨plain, shifted⟩ := layout_length
  have length : scan.toNat < (scanToAscii.zip scanToAsciiShift).length := by
    rw [List.length_zip]
    omega
  rw [plainChar, shiftedChar, List.getD_eq_getElem _ _ (by omega), List.getD_eq_getElem _ _ (by omega), ← List.getElem_zip]
  exact List.getElem_mem length

theorem table_char (mouse : Nat → UInt8) (flag : Bool) (scan : UInt8) (inside : scan.toNat < 82) :
    tableByte mouse flag scan = if flag then shiftedChar scan else plainChar scan := by
  obtain ⟨plain, shifted⟩ := layout_length
  rw [tableByte, dataByte, if_pos (by split <;> omega), tables, List.append_assoc, List.append_assoc, List.append_assoc]
  cases flag with
  | false =>
      rw [if_neg Bool.false_ne_true, if_neg Bool.false_ne_true, Nat.zero_add, List.getD_append _ _ _ _ (by omega), plainChar]
  | true =>
      rw [if_pos rfl, if_pos rfl, List.getD_append_right _ _ _ _ (by omega), plain, Nat.add_sub_cancel_left,
        List.getD_append _ _ _ _ (by omega), shiftedChar]

theorem layout_keys_inside (mouse : Nat → UInt8) (keyboard : Keyboard) (shift : Bool) (scan : UInt8) (inside : scan.toNat < 82) :
    effectKeys (translate mouse keyboard scan) = layoutKeys shift keyboard.caps scan ↔
      (isLetter (plainChar scan) = true → shift = false) ∧
        (isLetter (plainChar scan) = false → plainChar scan ≠ shiftedChar scan → keyboard.shift = shift) := by
  have tried := of_decide_eq_true (List.all_eq_true.mp chars_tried _ (chars_listed scan inside))
  rw [translate, table_char mouse keyboard.shift scan inside, layoutKeys]
  exact tried keyboard.shift keyboard.caps shift

theorem layout_keys_iff (mouse : Nat → UInt8) (keyboard : Keyboard) (shift : Bool) (scan : UInt8) :
    effectKeys (translate mouse keyboard scan) = layoutKeys shift keyboard.caps scan ↔
      KeySound mouse keyboard.shift shift scan := by
  by_cases behind : 82 ≤ scan.toNat
  · have none' : plainChar scan = 0 ∧ shiftedChar scan = 0 := by
      rw [plainChar, shiftedChar, List.getD_eq_default _ _ (layout_length.1.le.trans behind),
        List.getD_eq_default _ _ (layout_length.2.le.trans behind)]
      exact ⟨rfl, rfl⟩
    rw [layout_behind _ _ _ behind, translate]
    constructor
    · intro nothing
      refine ⟨fun letter => ?_, fun _ differs => absurd (none'.1.trans none'.2.symm) differs, fun _ => ?_⟩
      · rw [none'.1] at letter
        cases letter
      · by_contra stored
        rw [if_neg stored] at nothing
        cases nothing
    · intro sound
      rw [if_pos (sound.behind behind)]
      rfl
  · have below : scan.toNat < 82 := Nat.lt_of_not_le behind
    rw [layout_keys_inside mouse keyboard shift scan below]
    exact ⟨fun both => ⟨both.1, both.2, fun far => absurd far behind⟩, fun sound => ⟨sound.letter, sound.other⟩⟩

theorem extended_keys (keyboard : Keyboard) (scan : UInt8) : effectKeys (extendedCode keyboard scan).2 = arrowKeys scan := by
  have tried : ∀ n < 256, effectKeys (extendedCode ⟨false, false, false, false⟩ (UInt8.ofNat n)).2 =
      arrowKeys (UInt8.ofNat n) := by decide +kernel
  have same : (extendedCode keyboard scan).2 = (extendedCode ⟨false, false, false, false⟩ scan).2 := by
    simp only [extendedCode, apply_ite Prod.snd]
  rw [same]
  exact every_scan (fun scan => effectKeys (extendedCode _ scan).2 = arrowKeys scan) tried scan

theorem layout_modifiers (shift caps : Bool) (scan : UInt8)
    (modifier : scan = 0x2A ∨ scan = 0x36 ∨ scan = 0x1D ∨ scan = 0x3A) : layoutKeys shift caps scan = [] := by
  have none' : plainChar scan = 0 := by
    rcases modifier with rfl | rfl | rfl | rfl
    all_goals decide +kernel
  rw [layoutKeys, if_pos none']

theorem expected_not_plain (keyboard : Keyboard) (held : Held) (scan : UInt8) (agrees : Agrees keyboard held)
    (special : ¬ isPlain keyboard scan = true) : effectKeys (ownIrq keyboard scan).2 = expectedKeys held scan := by
  rw [ownIrq, keyboardIrq, expectedKeys, agrees.e0]
  by_cases lead : scan = 0xE0
  · rw [if_pos lead, if_pos lead]
    rfl
  rw [if_neg lead, if_neg lead]
  by_cases extended : held.e0 = true
  · rw [if_pos extended, if_pos extended]
    exact extended_keys keyboard scan
  rw [if_neg extended, if_neg extended]
  by_cases release : scan &&& 0x80 ≠ 0
  · rw [if_pos release, if_pos release]
    rfl
  rw [if_neg release, if_neg release]
  have modifier : scan = 0x2A ∨ scan = 0x36 ∨ scan = 0x1D ∨ scan = 0x3A := by
    by_contra other
    exact special (decide_eq_true ⟨lead, agrees.e0.trans (Bool.eq_false_iff.mpr extended), not_not.mp release, other⟩)
  rw [layout_modifiers _ _ _ modifier]
  rcases modifier with rfl | rfl | rfl | rfl
  all_goals rfl

theorem layout_right_iff (watched : Watched) (irq : Irq) (agrees : Agrees watched.machine.keyboard watched.held) :
    LayoutRight watched irq ↔ LayoutSound watched irq := by
  cases irq with
  | timer => exact iff_of_true rfl trivial
  | mouse byte => exact iff_of_true rfl trivial
  | keyboard registers scan =>
      rw [LayoutRight, LayoutSound]
      refine imp_congr_right fun up => ?_
      have stored : (irqCommonStub watched.machine (.keyboard registers scan)).keys = watched.machine.keys ++
          effectKeys (keyboardIrq registers watched.machine.mouseBuffer.cells watched.machine.keyboard scan).2 := rfl
      rw [stored, List.append_right_inj]
      by_cases plain : isPlain watched.machine.keyboard scan = true
      · obtain ⟨unprefixed, unextended, make, _⟩ := of_decide_eq_true plain
        have free : ¬ (watched.machine.keyboard.ctrl ∧ registers.ebx.toUInt8 = 0x2E) := by
          rw [agrees.ctrl, up]
          exact fun both => Bool.false_ne_true both.1
        rw [irq_plain _ _ _ _ plain, if_neg free, expectedKeys, if_neg unprefixed, ← agrees.e0, unextended,
          if_neg Bool.false_ne_true, if_neg (not_not.mpr make), ← agrees.caps, layout_keys_iff]
        exact (imp_iff_right plain).symm
      · refine iff_of_true ?_ fun claimed => absurd claimed plain
        rw [irq_not_plain _ _ _ _ plain]
        exact expected_not_plain _ _ scan agrees plain

theorem agrees_kept (watched next : Watched) (irq : Irq) (agrees : Agrees watched.machine.keyboard watched.held)
    (taken : watchStep watched irq = some next) : Agrees next.machine.keyboard next.held := by
  cases irq with
  | timer =>
      cases taken
      exact agrees
  | mouse byte =>
      cases taken
      exact agrees
  | keyboard registers scan =>
      cases taken
      exact agrees_after registers _ _ _ scan agrees

theorem along_layout_iff (watched : Watched) (irqs : List Irq) (agrees : Agrees watched.machine.keyboard watched.held) :
    Along watchStep LayoutRight watched irqs ↔ Along watchStep LayoutSound watched irqs := by
  induction irqs generalizing watched with
  | nil => exact Iff.rfl
  | cons irq irqs ih =>
      rw [Along, Along, layout_right_iff watched irq agrees]
      refine and_congr_right fun _ => forall_congr' fun next => imp_congr_right fun taken => ?_
      exact ih next (agrees_kept watched next irq agrees taken)

def SingleShift (watched : Watched) : Irq → Prop
  | .keyboard _ scan => ownCode watched.held.e0 scan = true →
      (scan = 0xAA → watched.held.right = false) ∧ (scan = 0xB6 → watched.held.left = false)
  | _ => True

theorem flag_after (registers : Registers) (mouse : Nat → UInt8) (keyboard : Keyboard) (held : Held) (scan : UInt8)
    (e0 : keyboard.e0 = held.e0) (flag : keyboard.shift = held.shift)
    (single : ownCode held.e0 scan = true → (scan = 0xAA → held.right = false) ∧ (scan = 0xB6 → held.left = false)) :
    (keyboardIrq registers mouse keyboard scan).1.shift = (held.after scan).shift := by
  rw [irq_keyboard, own_irq_keyboard, Held.after, Held.shift, flag, e0, Held.shift]
  dsimp only
  cases own : ownCode held.e0 scan with
  | false => rfl
  | true =>
      obtain ⟨left, right⟩ := single own
      have leftCode : (0x2A ||| 0x80 : UInt8) = 0xAA := by decide
      have rightCode : (0x36 ||| 0x80 : UInt8) = 0xB6 := by decide
      simp only [keyState, if_true, leftCode, rightCode]
      by_cases leftMake : scan = 0x2A
      · rw [if_pos leftMake, if_pos leftMake, Bool.true_or]
      by_cases rightMake : scan = 0x36
      · simp [rightMake]
      by_cases leftBreak : scan = 0xAA
      · simp [leftBreak, left leftBreak]
      by_cases rightBreak : scan = 0xB6
      · simp [rightBreak, right rightBreak]
      · simp [leftMake, rightMake, leftBreak, rightBreak]

theorem flag_tells_shift (watched : Watched) (irqs : List Irq) (agrees : Agrees watched.machine.keyboard watched.held)
    (flag : watched.machine.keyboard.shift = watched.held.shift) (single : Along watchStep SingleShift watched irqs) :
    Along watchStep (fun watched _ => watched.machine.keyboard.shift = watched.held.shift) watched irqs := by
  induction irqs generalizing watched with
  | nil => trivial
  | cons irq irqs ih =>
      refine ⟨flag, fun next taken => ih next (agrees_kept watched next irq agrees taken) ?_ (single.2 next taken)⟩
      cases irq with
      | timer =>
          cases taken
          exact flag
      | mouse byte =>
          cases taken
          exact flag
      | keyboard registers scan =>
          cases taken
          exact flag_after registers _ _ _ scan agrees.e0 flag single.1

theorem keys_follow_layout (irqs : List Irq) :
    Along watchStep LayoutRight watchedStart irqs ↔ Along watchStep LayoutSound watchedStart irqs :=
  along_layout_iff watchedStart irqs ⟨rfl, rfl, rfl⟩

theorem keys_not_by_layout : ¬ ∀ irqs, Along watchStep LayoutRight watchedStart irqs := by
  intro claimed
  have sound := (along_layout_iff watchedStart
    [.keyboard ⟨0, 0, 0, 0, 0, 0, 0⟩ 0x2A, .keyboard ⟨0, 0, 0, 0, 0, 0, 0⟩ 0x1E] ⟨rfl, rfl, rfl⟩).mp (claimed _)
  have letter := ((sound.2 _ rfl).1 (by decide) (by decide)).letter (by decide +kernel)
  cases letter

end RoDos.Interrupt
