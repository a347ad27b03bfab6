import RoDos.Base.CString
import RoDos.Base.Runs

set_option autoImplicit false

namespace RoDos.Gui

open Base

-- Rows of 91 bytes; NOTEPAD_MAX_LINES is 35 and NOTEPAD_MAX_COLS is 90.
structure Notepad where
  buffer : List (List UInt8)
  cursorRow : Nat
  cursorCol : Nat
  totalLines : Nat
deriving DecidableEq

def notepadClear : Notepad := ⟨List.replicate 35 (List.replicate 91 0), 0, 0, 1⟩

def guiStrlen : List UInt8 → Nat
  | [] => 0
  | byte :: rest => if byte = 0 then 0 else guiStrlen rest + 1

def Notepad.line (pad : Notepad) : List UInt8 := pad.buffer.getD pad.cursorRow []

def Notepad.edit (pad : Notepad) (line : List UInt8) : Notepad :=
  { pad with buffer := pad.buffer.set pad.cursorRow line }

def notepadInsertChar (pad : Notepad) (c : UInt8) : Notepad :=
  if pad.cursorCol < 90 then { pad.edit (pad.line.set pad.cursorCol c) with cursorCol := pad.cursorCol + 1 } else pad

def notepadNewLine (pad : Notepad) : Notepad :=
  if pad.cursorRow < 35 - 1 then
    { pad with
      cursorRow := pad.cursorRow + 1
      cursorCol := 0
      totalLines := if pad.totalLines ≤ pad.cursorRow + 1 then pad.cursorRow + 1 + 1 else pad.totalLines }
  else pad

-- The given number of turns of the loop that shifts the bytes behind i left.
def shiftLeft (line : List UInt8) (i : Nat) : Nat → List UInt8
  | 0 => line
  | turns + 1 => shiftLeft (line.set i (line.getD (i + 1) 0)) (i + 1) turns

def eraseAt (line : List UInt8) (col : Nat) : List UInt8 := (shiftLeft line col (90 - 1 - col)).set (90 - 1) 0

def notepadBackspace (pad : Notepad) : Notepad :=
  if 0 < pad.cursorCol then
    let col := pad.cursorCol - 1
    { pad.edit (eraseAt pad.line col) with cursorCol := col }
  else if 0 < pad.cursorRow then
    { pad with cursorRow := pad.cursorRow - 1, cursorCol := guiStrlen (pad.buffer.getD (pad.cursorRow - 1) []) }
  else pad

inductive NotepadKey where
  | reboot
  | up
  | down
  | left
  | right
  | backspace
  | enter
  | save
  | char (c : UInt8)
  | other
deriving DecidableEq

-- The tests of gui_notepad, in their order.
def notepadKey (key : UInt16) : NotepadKey :=
  let ascii := key.toUInt8
  let scan := (key >>> 8).toUInt8
  if ascii = 27 ∨ scan = 0x01 then .reboot
  else if scan = 0x48 then .up
  else if scan = 0x50 then .down
  else if scan = 0x4B then .left
  else if scan = 0x4D then .right
  else if ascii = 8 ∨ scan = 0x0E then .backspace
  else if ascii = 13 ∨ ascii = 10 then .enter
  else if scan = 0x3C then .save
  else if 32 ≤ ascii ∧ ascii < 127 then .char ascii
  else .other

def clampCol (pad : Notepad) : Notepad :=
  if guiStrlen pad.line < pad.cursorCol then { pad with cursorCol := guiStrlen pad.line } else pad

-- The save key shows a message only. A reboot does not come back.
def pressKey (pad : Notepad) : NotepadKey → Option Notepad
  | .reboot => none
  | .up => some (clampCol (if 0 < pad.cursorRow then { pad with cursorRow := pad.cursorRow - 1 } else pad))
  | .down => some (clampCol (if pad.cursorRow < pad.totalLines - 1 then { pad with cursorRow := pad.cursorRow + 1 } else pad))
  | .left => some (if 0 < pad.cursorCol then { pad with cursorCol := pad.cursorCol - 1 } else pad)
  | .right => some (if pad.cursorCol < guiStrlen pad.line then { pad with cursorCol := pad.cursorCol + 1 } else pad)
  | .backspace => some (notepadBackspace pad)
  | .enter => some (notepadNewLine pad)
  | .save => some pad
  | .char c => some (notepadInsertChar pad c)
  | .other => some pad

def guiNotepad (pad : Notepad) (key : UInt16) : Option Notepad := pressKey pad (notepadKey key)

structure PadSound (pad : Notepad) : Prop where
  row : pad.cursorRow < pad.totalLines
  total : pad.totalLines ≤ 35
  col : pad.cursorCol ≤ guiStrlen pad.line
  width : guiStrlen pad.line ≤ 90
  terminated : ∀ line ∈ pad.buffer, 0 ∈ line

structure Line (line : List UInt8) (length : Nat) : Prop where
  width : line.length = 91
  short : length ≤ 90
  text : ∀ j, line.getD j 0 ≠ 0 ↔ j < length

structure PadRight (pad : Notepad) : Prop where
  rows : pad.buffer.length = 35
  lines : ∀ line ∈ pad.buffer, Line line (guiStrlen line)
  row : pad.cursorRow < pad.totalLines
  total : pad.totalLines ≤ 35
  col : pad.cursorCol ≤ guiStrlen pad.line

theorem strlen_text (line : List UInt8) (length : Nat) (text : ∀ j, line.getD j 0 ≠ 0 ↔ j < length) :
    guiStrlen line = length := by
  induction line generalizing length with
  | nil =>
      cases length with
      | zero => rfl
      | succ length => exact absurd rfl ((text 0).mpr (Nat.succ_pos length))
  | cons byte rest ih =>
      have first := text 0
      rw [List.getD_cons_zero] at first
      cases length with
      | zero => rw [guiStrlen, if_pos (Classical.not_not.mp fun some' => Nat.not_lt_zero 0 (first.mp some'))]
      | succ length =>
          have later := ih length fun j => by
            have next := text (j + 1)
            rw [List.getD_cons_succ] at next
            exact next.trans Nat.succ_lt_succ_iff
          rw [guiStrlen, if_neg (first.mpr (Nat.succ_pos length)), later]

theorem line_strlen (line : List UInt8) (length : Nat) (right : Line line length) : guiStrlen line = length :=
  strlen_text line length right.text

theorem get_set (line : List UInt8) (i j : Nat) (byte : UInt8) (inside : i < line.length) :
    (line.set i byte).getD j 0 = if j = i then byte else line.getD j 0 := by
  by_cases same : j = i
  · rw [if_pos same, same, List.getD_eq_getElem?_getD, List.getElem?_set_self inside]
    rfl
  · rw [if_neg same, List.getD_eq_getElem?_getD, List.getElem?_set_ne (Ne.symm same), List.getD_eq_getElem?_getD]

theorem line_ext (line other : List UInt8) (lengths : line.length = other.length)
    (same : ∀ j, line.getD j 0 = other.getD j 0) : line = other := by
  refine List.ext_getElem lengths fun j inside inside' => ?_
  have here := same j
  rwa [List.getD_eq_getElem _ _ inside, List.getD_eq_getElem _ _ inside'] at here

theorem shift_left_length (line : List UInt8) (i turns : Nat) : (shiftLeft line i turns).length = line.length := by
  induction turns generalizing line i with
  | zero => rfl
  | succ turns ih => rw [shiftLeft, ih, List.length_set]

theorem shift_left_get (line : List UInt8) (i turns j : Nat) (inside : i + turns < line.length) :
    (shiftLeft line i turns).getD j 0 = line.getD (if i ≤ j ∧ j < i + turns then j + 1 else j) 0 := by
  induction turns generalizing line i with
  | zero => rw [shiftLeft, if_neg (by omega)]
  | succ turns ih =>
      rw [shiftLeft, ih _ _ (by rw [List.length_set]; omega), get_set _ _ _ _ (by omega)]
      by_cases first : j = i
      · have behind : ¬ (i + 1 ≤ j ∧ j < i + 1 + turns) := by omega
        have here : i ≤ j ∧ j < i + (turns + 1) := by omega
        rw [if_neg behind, if_pos first, if_pos here, first]
      · by_cases shifted : i ≤ j ∧ j < i + (turns + 1)
        · have behind : i + 1 ≤ j ∧ j < i + 1 + turns := by omega
          rw [if_pos behind, if_pos shifted, if_neg (by omega)]
        · have outside : ¬ (i + 1 ≤ j ∧ j < i + 1 + turns) := by omega
          rw [if_neg outside, if_neg shifted, if_neg first]

-- The row behind a character and behind a backspace.
section
variable (line : List UInt8) (length col : Nat) (right : Line line length)
include right

theorem line_inserted (c : UInt8) (solid : c ≠ 0) (inside : col ≤ length) (room : col < 90) :
    Line (line.set col c) (max length (col + 1)) := by
  have width := right.width
  have short := right.short
  refine ⟨by rw [List.length_set, width], by omega, fun j => ?_⟩
  rw [get_set _ _ _ _ (by omega)]
  by_cases here : j = col
  · rw [if_pos here]
    exact iff_of_true solid (by omega)
  · rw [if_neg here, right.text]
    omega

theorem erase_get (inside : col < 90) (j : Nat) : (eraseAt line col).getD j 0 =
    if col ≤ j ∧ j < 90 then line.getD (if j < 89 then j + 1 else 90) 0 else line.getD j 0 := by
  have width := right.width
  have short := right.short
  have last : line.getD 90 0 = 0 := Classical.not_not.mp fun some' => absurd ((right.text 90).mp some') (by omega)
  rw [eraseAt, get_set _ _ _ _ (by rw [shift_left_length]; omega), shift_left_get _ _ _ _ (by omega)]
  by_cases end' : j = 90 - 1
  · rw [if_pos end', if_pos (by omega), if_neg (by omega), last]
  · by_cases shifted : col ≤ j ∧ j < 90
    · rw [if_neg end', if_pos (by omega), if_pos shifted, if_pos (by omega)]
    · rw [if_neg end', if_neg (by omega), if_neg shifted]

theorem line_erased (inside : col < length) : Line (eraseAt line col) (length - 1) := by
  have short := right.short
  refine ⟨by rw [eraseAt, List.length_set, shift_left_length, right.width], by omega, fun j => ?_⟩
  rw [erase_get line length col right (by omega)]
  by_cases shifted : col ≤ j ∧ j < 90
  · rw [if_pos shifted, right.text]
    split <;> omega
  · rw [if_neg shifted, right.text]
    omega

theorem line_undone (c : UInt8) (solid : c ≠ 0) (room : length < 90) :
    eraseAt (line.set length c) length = line := by
  have inserted := line_inserted line length length right c solid (Nat.le_refl _) room
  refine line_ext _ _ (by rw [eraseAt, List.length_set, shift_left_length, List.length_set]) fun j => ?_
  rw [erase_get _ _ _ inserted room]
  have zero : ∀ k, length ≤ k → line.getD k 0 = 0 := fun k behind =>
    Classical.not_not.mp fun some' => absurd ((right.text k).mp some') (by omega)
  by_cases shifted : length ≤ j ∧ j < 90
  · rw [if_pos shifted, get_set _ _ _ _ (by rw [right.width]; omega), if_neg (by split <;> omega),
      zero _ (by split <;> omega), zero j (by omega)]
  · rw [if_neg shifted, get_set _ _ _ _ (by rw [right.width]; omega), if_neg (by omega)]
end

section
variable (pad : Notepad) (right : PadRight pad)
include right

theorem row_member (row : Nat) (inside : row < pad.totalLines) : pad.buffer.getD row [] ∈ pad.buffer := by
  have total := right.total
  have rows := right.rows
  rw [List.getD_eq_getElem _ _ (by omega)]
  exact List.getElem_mem _

theorem pad_line (row : Nat) (inside : row < pad.totalLines) :
    Line (pad.buffer.getD row []) (guiStrlen (pad.buffer.getD row [])) := right.lines _ (row_member pad right row inside)

theorem own_line : Line pad.line (guiStrlen pad.line) := pad_line pad right pad.cursorRow right.row

theorem edited_line (line : List UInt8) : (pad.edit line).line = line := by
  have row := right.row
  have total := right.total
  have rows := right.rows
  rw [Notepad.line, Notepad.edit]
  dsimp only
  rw [List.getD_eq_getElem _ _ (by rw [List.length_set]; omega)]
  exact List.getElem_set_self _

theorem edit_right (line : List UInt8) (length col : Nat) (own : Line line length) (inside : col ≤ length) :
    PadRight { pad.edit line with cursorCol := col } := by
  have strlen := line_strlen line length own
  refine ⟨(List.length_set).trans right.rows, fun other member => ?_, right.row, right.total, ?_⟩
  · rcases List.mem_or_eq_of_mem_set member with old | new
    · exact right.lines other old
    · rw [new, strlen]
      exact own
  · have here := edited_line pad right line
    show col ≤ guiStrlen (pad.edit line).line
    rw [here, strlen]
    exact inside

theorem col_right (row col : Nat) (inside : row < pad.totalLines) (text : col ≤ guiStrlen (pad.buffer.getD row [])) :
    PadRight { pad with cursorRow := row, cursorCol := col } := ⟨right.rows, right.lines, inside, right.total, text⟩

theorem clamp_right (row : Nat) (inside : row < pad.totalLines) : PadRight (clampCol { pad with cursorRow := row }) := by
  rw [clampCol]
  split
  · exact col_right pad right row _ inside (Nat.le_refl _)
  · rename_i short
    exact col_right pad right row _ inside (Nat.not_lt.mp short)

theorem insert_right (c : UInt8) (solid : c ≠ 0) : PadRight (notepadInsertChar pad c) := by
  rw [notepadInsertChar]
  split
  · have inserted := line_inserted pad.line _ pad.cursorCol (own_line pad right) c solid right.col (by assumption)
    exact edit_right pad right _ _ _ inserted (Nat.le_max_right _ _)
  · exact right

theorem new_line_right : PadRight (notepadNewLine pad) := by
  rw [notepadNewLine]
  split
  · have total := right.total
    have row := right.row
    refine ⟨right.rows, right.lines, ?_, ?_, Nat.zero_le _⟩
    · dsimp only
      split <;> omega
    · dsimp only
      split <;> omega
  · exact right

theorem backspace_right : PadRight (notepadBackspace pad) := by
  have col := right.col
  have row := right.row
  rw [notepadBackspace]
  split
  · have erased := line_erased pad.line _ (pad.cursorCol - 1) (own_line pad right) (by omega)
    exact edit_right pad right _ _ _ erased (by omega)
  · split
    · exact col_right pad right _ _ (by omega) (Nat.le_refl _)
    · exact right

theorem press_right (key : NotepadKey) (solid : key ≠ .char 0) (after : Notepad) (pressed : pressKey pad key = some after) :
    PadRight after := by
  have row := right.row
  have col := right.col
  cases key with
  | reboot => cases pressed
  | up =>
      cases pressed
      split
      · exact clamp_right pad right _ (by omega)
      · exact clamp_right pad right _ row
  | down =>
      cases pressed
      split
      · exact clamp_right pad right _ (by omega)
      · exact clamp_right pad right _ row
  | left =>
      cases pressed
      split
      · exact col_right pad right _ _ row (Nat.le_trans (Nat.sub_le _ _) col)
      · exact right
  | right =>
      cases pressed
      split
      · exact col_right pad right _ _ row (by assumption)
      · exact right
  | backspace =>
      cases pressed
      exact backspace_right pad right
  | enter =>
      cases pressed
      exact new_line_right pad right
  | save =>
      cases pressed
      exact right
  | char c =>
      cases pressed
      exact insert_right pad right c fun nul => solid (by rw [nul])
  | other =>
      cases pressed
      exact right

theorem pad_sound : PadSound pad := by
  have line := own_line pad right
  refine ⟨right.row, right.total, right.col, line.short, fun own member => ?_⟩
  have text := right.lines own member
  have width := text.width
  have short := text.short
  have nul : own.getD (guiStrlen own) 0 = 0 :=
    Classical.not_not.mp fun some' => Nat.lt_irrefl _ ((text.text _).mp some')
  rw [List.getD_eq_getElem _ _ (by omega)] at nul
  rw [← nul]
  exact List.getElem_mem _

theorem undo_iff (c : UInt8) (solid : c ≠ 0) (room : guiStrlen pad.line < 90) :
    notepadBackspace (notepadInsertChar pad c) = pad ↔ pad.cursorCol = guiStrlen pad.line := by
  have own := own_line pad right
  have col := right.col
  have inserted := line_inserted pad.line _ pad.cursorCol own c solid col (by omega)
  have erased := line_erased _ _ pad.cursorCol inserted (by omega)
  have undone : notepadBackspace (notepadInsertChar pad c) = pad.edit (eraseAt (pad.line.set pad.cursorCol c) pad.cursorCol) := by
    have here := edited_line pad right (pad.line.set pad.cursorCol c)
    rw [notepadInsertChar, if_pos (by omega), notepadBackspace]
    dsimp only
    rw [if_pos (Nat.succ_pos _), Nat.add_sub_cancel]
    simp only [Notepad.line, Notepad.edit, List.set_set] at here ⊢
    rw [here]
  rw [undone]
  constructor
  · intro same
    have lines := congrArg (fun pad => guiStrlen (Notepad.line pad)) same
    rw [edited_line pad right, line_strlen _ _ erased] at lines
    omega
  · intro end'
    have row := right.row
    have total := right.total
    have rows := right.rows
    rw [end', line_undone pad.line _ own c solid room, Notepad.edit, Notepad.line,
      List.getD_eq_getElem _ _ (by omega), List.set_getElem_self]
end

theorem notepad_clear_right : PadRight notepadClear := by
  have zeros : Line (List.replicate 91 0) 0 := by
    refine ⟨List.length_replicate, Nat.zero_le _, fun j => iff_of_false (fun some' => some' ?_) (Nat.not_lt_zero j)⟩
    rw [List.getD_eq_getElem?_getD, List.getElem?_replicate]
    split <;> rfl
  refine ⟨List.length_replicate, fun line member => ?_, by decide, by decide, Nat.zero_le _⟩
  rw [List.eq_of_mem_replicate member, line_strlen _ 0 zeros]
  exact zeros

theorem typed_solid (key : UInt16) (c : UInt8) (typed : notepadKey key = .char c) : c ≠ 0 := by
  intro nul
  rw [nul, notepadKey] at typed
  grind

theorem keys_right (keys : List UInt16) (pad after : Notepad) (right : PadRight pad)
    (run : runAll guiNotepad pad keys = some after) : PadRight after :=
  run_all_invariant guiNotepad PadRight (fun pad key next right pressed =>
    press_right pad right (notepadKey key) (fun nul => typed_solid key 0 nul rfl) next pressed) pad after keys right run

theorem notepad_undo_iff (keys : List UInt16) (pad : Notepad) (run : runAll guiNotepad notepadClear keys = some pad) :
    PadSound pad ∧ ∀ key back c, notepadKey key = .char c → notepadKey back = .backspace → guiStrlen pad.line < 90 →
      (runAll guiNotepad pad [key, back] = some pad ↔ pad.cursorCol = guiStrlen pad.line) := by
  have right := keys_right keys notepadClear pad notepad_clear_right run
  refine ⟨pad_sound pad right, fun key back c typed backspace room => ?_⟩
  have both : runAll guiNotepad pad [key, back] = some (notepadBackspace (notepadInsertChar pad c)) := by
    simp only [runAll, guiNotepad, typed, backspace, pressKey, Option.bind_some]
  rw [both, Option.some.injEq]
  exact undo_iff pad right c (typed_solid key c typed) room

def typedPad : Notepad := ⟨(List.replicate 35 (List.replicate 91 0)).set 0 (97 :: 98 :: List.replicate 89 0), 0, 1, 1⟩

theorem typed_pad_reached : runAll guiNotepad notepadClear [0x61, 0x62, 0x4B00] = some typedPad := by decide +kernel

theorem notepad_undo_typed : PadSound typedPad ∧
    (runAll guiNotepad typedPad [0x63, 0x08] = some typedPad ↔ typedPad.cursorCol = guiStrlen typedPad.line) := by
  obtain ⟨sound, undone⟩ := notepad_undo_iff [0x61, 0x62, 0x4B00] typedPad typed_pad_reached
  exact ⟨sound, undone 0x63 0x08 99 (by decide) (by decide) (by decide +kernel)⟩

theorem notepad_not_undone : ¬ ∀ keys pad, runAll guiNotepad notepadClear keys = some pad →
    PadSound pad ∧ ∀ key back c, notepadKey key = .char c → notepadKey back = .backspace → guiStrlen pad.line < 90 →
      runAll guiNotepad pad [key, back] = some pad := by
  intro claimed
  have undone := (claimed [0x61, 0x62, 0x4B00] typedPad typed_pad_reached).2 0x63 0x08 99 (by decide) (by decide)
    (by decide +kernel)
  exact absurd undone (by decide +kernel)

end RoDos.Gui
