import Mathlib.Algebra.Ring.Nat
import RoDos.Base.Ring
import RoDos.Screen.Model

set_option autoImplicit false

namespace RoDos.Screen

open Base

def rows (output : Output) (r : Nat) : List UInt16 := line (output.scrollbackBuffer r)

def history (output : Output) : List (List UInt16) :=
  recent scrollbackLines (rows output) output.scrollbackWritePos output.scrollbackCount

-- Between scrollback_capture_line and its last assignment the history is neither the old nor the new one.
def capturing : Pc → Bool
  | .capture _ | .tally => true
  | .idle | .move _ | .blank _ => false

structure Faithful (console plain : Console) : Prop where
  history : capturing console.output.pc = false →
    history console.output = newest scrollbackLines plain.scrolledOff
  screen : console.scrollOffset = 0 → ∀ i < screenCells, console.vga i = plain.vga i

def touchesScreen (output : Output) : OutputOp → Bool
  | .putc ch =>
      if ch = 0x0A ∨ ch = 0x0D then false else if ch = 0x08 then output.cursorCol ≠ 0 else true
  | .setAttr _ => false
  | .tick =>
      match output.pc with
      | .idle | .tally => false
      | .capture x => x < screenWidth
      | .move i => i < movedCells
      | .blank i => i < screenWidth

-- Output comes to the video memory only while that shows the live screen.
def OutputLive (console : Console) : Op → Prop
  | .output op => touchesScreen console.output op = true → console.scrollOffset = 0
  | .pageUp | .pageDown => True

def liveCell (console : Console) (i : Nat) : UInt16 :=
  if console.screenSaved = true then console.savedScreen i else console.vga i

instance (console : Console) (op : Op) : Decidable (OutputLive console op) :=
  match op with
  | .output op => inferInstanceAs (Decidable (touchesScreen console.output op = true → console.scrollOffset = 0))
  | .pageUp => .isTrue trivial
  | .pageDown => .isTrue trivial

structure Shadows (console plain : Console) : Prop where
  output : console.output = plain.output
  live : ∀ i < screenCells, liveCell console i = plain.vga i
  offset : 0 ≤ console.scrollOffset
  saved : console.screenSaved = true ↔ 0 < console.scrollOffset

def bump (count : Nat) : Nat := if count < scrollbackLines then count + 1 else count

-- While a line is captured the history is what it will be once the line is in its row.
def Promised (output : Output) (vga : Nat → UInt16) (lines : List (List UInt16)) : Prop :=
  match output.pc with
  | .capture x =>
      recent scrollbackLines (Function.update (rows output) output.scrollbackWritePos (line vga))
          ((output.scrollbackWritePos + 1) % scrollbackLines) (bump output.scrollbackCount) = lines ∧
        ∀ k < x, output.scrollbackBuffer output.scrollbackWritePos k = vga k
  | .tally => recent scrollbackLines (rows output) output.scrollbackWritePos (bump output.scrollbackCount) = lines
  | .idle | .move _ | .blank _ => history output = lines

structure Recorded (console : Console) : Prop where
  inside : console.output.scrollbackWritePos < scrollbackLines
  full : console.output.scrollbackCount ≤ scrollbackLines
  promised : Promised console.output console.vga (newest scrollbackLines console.scrolledOff)

def writeCell (vga : Nat → UInt16) : Option (Nat × UInt16) → (Nat → UInt16)
  | none => vga
  | some (i, value) => Function.update vga i value

theorem write_cell_same (vga other : Nat → UInt16) (write : Option (Nat × UInt16))
    (same : ∀ i < screenCells, vga i = other i) : ∀ i < screenCells, writeCell vga write i = writeCell other write i := by
  intro i inside
  cases write with
  | none => exact same i inside
  | some entry =>
      by_cases here : i = entry.1
      · subst here
        rw [writeCell, writeCell, Function.update_self, Function.update_self]
      · rw [writeCell, writeCell, Function.update_of_ne here, Function.update_of_ne here, same i inside]

structure Continues (output next : Output) : Prop where
  buffer : next.scrollbackBuffer = output.scrollbackBuffer
  writePos : next.scrollbackWritePos = output.scrollbackWritePos
  count : next.scrollbackCount = output.scrollbackCount
  pc : next.pc = output.pc ∨ next.pc = .capture 0

section
variable (output : Output)

theorem new_line_continues : Continues output (newLine output) := by
  rw [newLine, checkScroll]
  split
  · exact ⟨rfl, rfl, rfl, Or.inl rfl⟩
  · exact ⟨rfl, rfl, rfl, Or.inr rfl⟩

theorem advance_continues (col : Nat) : Continues output (checkWrap { output with cursorCol := col }) := by
  rw [checkWrap]
  split
  · exact ⟨rfl, rfl, rfl, Or.inl rfl⟩
  · obtain ⟨buffer, writePos, count, pc⟩ := new_line_continues { output with cursorCol := col }
    exact ⟨buffer, writePos, count, pc⟩

theorem putc_cases (ch : UInt8) : ∃ result write, (∀ vga, putc output vga ch = (result, writeCell vga write)) ∧
    touchesScreen output (.putc ch) = write.isSome ∧ Continues output result := by
  have same : Continues output output := ⟨rfl, rfl, rfl, Or.inl rfl⟩
  by_cases feed : ch = 0x0A
  · refine ⟨newLine output, none, fun vga => ?_, ?_, new_line_continues output⟩
    · rw [putc, if_pos feed, writeCell]
    · rw [touchesScreen, if_pos (Or.inl feed), Option.isSome_none]
  by_cases home : ch = 0x0D
  · refine ⟨{ output with cursorCol := 0 }, none, fun vga => ?_, ?_, ⟨rfl, rfl, rfl, Or.inl rfl⟩⟩
    · rw [putc, if_neg feed, if_pos home, writeCell]
    · rw [touchesScreen, if_pos (Or.inr home), Option.isSome_none]
  have shown : ¬ (ch = 0x0A ∨ ch = 0x0D) := not_or.mpr ⟨feed, home⟩
  by_cases back : ch = 0x08
  · by_cases first : output.cursorCol = 0
    · refine ⟨output, none, fun vga => ?_, ?_, same⟩
      · rw [putc, if_neg feed, if_neg home, if_pos back, if_pos first, writeCell]
      · rw [touchesScreen, if_neg shown, if_pos back, Option.isSome_none, decide_eq_false (not_not.mpr first)]
    · let moved := { output with cursorCol := output.cursorCol - 1 }
      refine ⟨moved, some (cellIndex moved, cell output.defaultAttr 0x20), fun vga => ?_, ?_, ⟨rfl, rfl, rfl, Or.inl rfl⟩⟩
      · rw [putc, if_neg feed, if_neg home, if_pos back, if_neg first, writeCell]
      · rw [touchesScreen, if_neg shown, if_pos back, Option.isSome_some, decide_eq_true first]
  · refine ⟨checkWrap { output with cursorCol := output.cursorCol + 1 },
      some (cellIndex output, cell output.defaultAttr ch), fun vga => ?_, ?_, advance_continues output _⟩
    · rw [putc, if_neg feed, if_neg home, if_neg back, writeCell]
    · rw [touchesScreen, if_neg shown, if_neg back, Option.isSome_some]

structure Alike (op : OutputOp) (vga : Nat → UInt16) (result : Output × (Nat → UInt16))
    (write : Option (Nat × UInt16)) : Prop where
  written : result.2 = writeCell vga write
  apart : touchesScreen output op = false → write = none
  alike : ∀ other, (touchesScreen output op = true → ∀ i < screenCells, vga i = other i) →
    outputStep output other op = some (result.1, writeCell other write)

inductive ScrollRound (vga : Nat → UInt16) : Output → Option (Nat × UInt16) → Prop where
  | captures (x : Nat) (phase : output.pc = .capture x) (more : x < screenWidth) :
      ScrollRound vga (captureCell output vga x) none
  | captured (x : Nat) (phase : output.pc = .capture x) (full : ¬ x < screenWidth) : ScrollRound vga
      { output with scrollbackWritePos := (output.scrollbackWritePos + 1) % scrollbackLines, pc := .tally } none
  | counts (phase : output.pc = .tally) :
      ScrollRound vga { output with scrollbackCount := bump output.scrollbackCount, pc := .move 0 } none
  | moves (i : Nat) (phase : output.pc = .move i) (more : i < movedCells) :
      ScrollRound vga { output with pc := .move (i + 1) } (some (i, vga (i + screenWidth)))
  | moved (i : Nat) (phase : output.pc = .move i) (full : ¬ i < movedCells) :
      ScrollRound vga { output with pc := .blank 0 } none
  | blanks (i : Nat) (phase : output.pc = .blank i) (more : i < screenWidth) :
      ScrollRound vga { output with pc := .blank (i + 1) } (some (movedCells + i, cell output.defaultAttr 0x20))
  | blanked (i : Nat) (phase : output.pc = .blank i) (full : ¬ i < screenWidth) :
      ScrollRound vga { output with cursorRow := 24, pc := .idle } none

theorem round_taken (vga : Nat → UInt16) (next : Output) (write : Option (Nat × UInt16)) (round : ScrollRound output vga next write) :
    scrollUp output vga = some (next, writeCell vga write) := by
  cases round with
  | captures x phase more => simp only [scrollUp, phase, if_pos more, writeCell]
  | captured x phase full => simp only [scrollUp, phase, if_neg full, writeCell]
  | counts phase => simp only [scrollUp, phase, bump, writeCell]
  | moves i phase more => simp only [scrollUp, phase, if_pos more, writeCell]
  | moved i phase full => simp only [scrollUp, phase, if_neg full, writeCell]
  | blanks i phase more => simp only [scrollUp, phase, if_pos more, writeCell]
  | blanked i phase full => simp only [scrollUp, phase, if_neg full, writeCell]

theorem round_goes (vga : Nat → UInt16) (busy : output.pc ≠ .idle) : ∃ next write, ScrollRound output vga next write := by
  cases phase : output.pc with
  | idle => exact absurd phase busy
  | capture x =>
      by_cases more : x < screenWidth
      · exact ⟨_, _, .captures x phase more⟩
      · exact ⟨_, _, .captured x phase more⟩
  | tally => exact ⟨_, _, .counts phase⟩
  | move i =>
      by_cases more : i < movedCells
      · exact ⟨_, _, .moves i phase more⟩
      · exact ⟨_, _, .moved i phase more⟩
  | blank i =>
      by_cases more : i < screenWidth
      · exact ⟨_, _, .blanks i phase more⟩
      · exact ⟨_, _, .blanked i phase more⟩

theorem scroll_up_rounds (vga : Nat → UInt16) (result : Output × (Nat → UInt16)) (taken : scrollUp output vga = some result) :
    ∃ next write, ScrollRound output vga next write ∧ result = (next, writeCell vga write) := by
  have busy : output.pc ≠ .idle := fun idle => by
    rw [scrollUp, idle] at taken
    cases taken
  obtain ⟨next, write, round⟩ := round_goes output vga busy
  rw [round_taken output vga next write round] at taken
  exact ⟨next, write, round, (Option.some.inj taken).symm⟩

theorem scroll_up_alike (vga : Nat → UInt16) (result : Output × (Nat → UInt16))
    (taken : scrollUp output vga = some result) : ∃ write, Alike output .tick vga result write := by
  obtain ⟨next, write, round, rfl⟩ := scroll_up_rounds output vga result taken
  have touches : touchesScreen output .tick = false → write = none := by
    intro apart
    cases round with
    | captures | captured | counts | moved | blanked => rfl
    | moves i phase more => simp only [touchesScreen, phase, more, decide_true, reduceCtorEq] at apart
    | blanks i phase more => simp only [touchesScreen, phase, more, decide_true, reduceCtorEq] at apart
  -- The cells that a round reads lie on the screen, and it reads them only where it touches the screen.
  have reads : ∀ other, (touchesScreen output .tick = true → ∀ i < screenCells, vga i = other i) →
      ScrollRound output other next write := by
    intro other same
    cases round with
    | captures x phase more =>
        have shown : vga x = other x := same (by simp only [touchesScreen, phase, more, decide_true]) x (Nat.lt_trans more (by decide))
        have cells : captureCell output vga x = captureCell output other x := by simp only [captureCell, shown]
        exact cells ▸ .captures x phase more
    | captured x phase full => exact .captured x phase full
    | counts phase => exact .counts phase
    | moves i phase more =>
        have shown : vga (i + screenWidth) = other (i + screenWidth) :=
          same (by simp only [touchesScreen, phase, more, decide_true]) _ (Nat.add_lt_add_right more screenWidth)
        exact shown ▸ .moves i phase more
    | moved i phase full => exact .moved i phase full
    | blanks i phase more => exact .blanks i phase more
    | blanked i phase full => exact .blanked i phase full
  exact ⟨write, rfl, touches, fun other same => round_taken output other next write (reads other same)⟩

theorem output_step_alike (vga : Nat → UInt16) (op : OutputOp) (result : Output × (Nat → UInt16))
    (taken : outputStep output vga op = some result) : ∃ write, Alike output op vga result write := by
  cases op with
  | putc ch =>
      obtain ⟨idle, moved⟩ := Option.ite_none_right_eq_some.mp taken
      cases moved
      obtain ⟨next, write, written, touched, _⟩ := putc_cases output ch
      refine ⟨write, by rw [written], fun apart => ?_, fun other _ => ?_⟩
      · rw [touched] at apart
        exact Option.isNone_iff_eq_none.mp (Option.isSome_eq_false_iff.mp apart)
      · rw [outputStep, if_pos idle, written, written]
  | setAttr attr =>
      obtain ⟨idle, moved⟩ := Option.ite_none_right_eq_some.mp taken
      cases moved
      exact ⟨none, rfl, fun _ => rfl, fun other _ => by rw [outputStep, if_pos idle, writeCell]⟩
  | tick => exact scroll_up_alike output vga result taken
end

theorem redraw_keeps (console : Console) : ∃ vga, scrollbackRedraw console = { console with vga := vga } := by
  rw [scrollbackRedraw]
  split
  · exact ⟨console.vga, rfl⟩
  · exact ⟨_, rfl⟩

section
variable (console plain : Console) (shadows : Shadows console plain)
include shadows

theorem paged_shadows (paged : Console) (output : paged.output = console.output)
    (saved : paged.screenSaved = true) (kept : ∀ i < screenCells, paged.savedScreen i = plain.vga i)
    (offset : 0 < paged.scrollOffset) : Shadows (scrollbackRedraw paged) plain := by
  obtain ⟨vga, drawn⟩ := redraw_keeps paged
  rw [drawn]
  refine ⟨output.trans shadows.output, fun i inside => ?_, Int.le_of_lt offset, iff_of_true saved offset⟩
  rw [liveCell, if_pos saved]
  exact kept i inside

theorem further_shadows (paged : Console) (output : paged.output = console.output)
    (saved : paged.screenSaved = true) (kept : ∀ i < screenCells, paged.savedScreen i = plain.vga i)
    (offset : 0 ≤ paged.scrollOffset) (count : Int) (some : 0 < count) :
    Shadows (scrollbackRedraw { paged with
      scrollOffset := if count < paged.scrollOffset + 5 then count else paged.scrollOffset + 5 }) plain := by
  refine paged_shadows console plain shadows _ output saved kept ?_
  show 0 < if count < paged.scrollOffset + 5 then count else paged.scrollOffset + 5
  split <;> omega

theorem away_live (away : 0 < console.scrollOffset) :
    console.screenSaved = true ∧ ∀ i < screenCells, console.savedScreen i = plain.vga i := by
  have saved := shadows.saved.mpr away
  refine ⟨saved, fun i inside => ?_⟩
  have live := shadows.live i inside
  rw [liveCell, if_pos saved] at live
  exact live

theorem back_live (back : console.scrollOffset = 0) :
    ¬ console.screenSaved = true ∧ ∀ i < screenCells, console.vga i = plain.vga i := by
  have unsaved : ¬ console.screenSaved = true := by
    rw [shadows.saved, back]
    decide
  refine ⟨unsaved, fun i inside => ?_⟩
  have live := shadows.live i inside
  rw [liveCell, if_neg unsaved] at live
  exact live

theorem scroll_up_shadows : Shadows (scrollbackScrollUp console) plain := by
  rw [scrollbackScrollUp]
  by_cases none : (console.output.scrollbackCount : Int) = 0
  · rw [if_pos none]
    exact shadows
  have some : 0 < (console.output.scrollbackCount : Int) := by omega
  rw [if_neg none]
  dsimp only
  by_cases back : console.scrollOffset = 0
  · obtain ⟨unsaved, live⟩ := back_live console plain shadows back
    rw [if_pos back, saveCurrentScreen, if_neg unsaved]
    dsimp only
    rw [if_pos (back ▸ some)]
    let paged := { console with
      savedScreen := fun i => if i < screenCells then console.vga i else console.savedScreen i, screenSaved := true }
    refine further_shadows console plain shadows paged rfl rfl (fun i inside => ?_) shadows.offset _ some
    show (if i < screenCells then console.vga i else console.savedScreen i) = plain.vga i
    rw [if_pos inside, live i inside]
  · obtain ⟨saved, kept⟩ := away_live console plain shadows (lt_of_le_of_ne shadows.offset (Ne.symm back))
    rw [if_neg back]
    split
    · exact further_shadows console plain shadows console rfl saved kept shadows.offset _ some
    · exact shadows

theorem scroll_down_shadows : Shadows (scrollbackScrollDown console) plain := by
  rw [scrollbackScrollDown]
  by_cases away : 0 < console.scrollOffset
  · obtain ⟨saved, kept⟩ := away_live console plain shadows away
    rw [if_pos away]
    dsimp only
    by_cases back : console.scrollOffset - 5 ≤ 0
    · rw [if_pos back, restoreSavedScreen, if_pos saved]
      refine ⟨shadows.output, fun i inside => ?_, Int.le_refl 0, iff_of_false Bool.false_ne_true (Int.lt_irrefl 0)⟩
      show (if i < screenCells then console.savedScreen i else console.vga i) = plain.vga i
      rw [if_pos inside, kept i inside]
    · rw [if_neg back]
      refine paged_shadows console plain shadows _ rfl saved kept ?_
      show 0 < console.scrollOffset - 5
      omega
  · rw [if_neg away]
    exact shadows

theorem output_shadows (op : OutputOp) (next : Console) (live : OutputLive console (.output op))
    (taken : consoleStep console (.output op) = some next) :
    ∃ also, consoleStep plain (.output op) = some also ∧ Shadows next also := by
  obtain ⟨result, stepped, rfl⟩ := Option.map_eq_some_iff.mp taken
  obtain ⟨write, written, apart, alike⟩ := output_step_alike console.output console.vga op result stepped
  have same (touched : touchesScreen console.output op = true) : ∀ i < screenCells, console.vga i = plain.vga i :=
    (back_live console plain shadows (live touched)).2
  have moved := alike plain.vga same
  rw [shadows.output] at moved
  refine ⟨_, Option.map_eq_some_iff.mpr ⟨_, moved, rfl⟩, rfl, fun i inside => ?_, shadows.offset, shadows.saved⟩
  show (if console.screenSaved = true then console.savedScreen i else result.2 i) = writeCell plain.vga write i
  cases touched : touchesScreen console.output op with
  | true =>
      obtain ⟨unsaved, shown⟩ := back_live console plain shadows (live touched)
      rw [if_neg unsaved, written]
      exact write_cell_same console.vga plain.vga write shown i inside
  | false =>
      have shown := shadows.live i inside
      rw [liveCell] at shown
      rw [written, apart touched, writeCell, writeCell, shown]
end

section
variable (output : Output) (vga : Nat → UInt16) (x : Nat)

theorem captured_here : (captureCell output vga x).scrollbackBuffer output.scrollbackWritePos =
    Function.update (output.scrollbackBuffer output.scrollbackWritePos) x (vga x) := Function.update_self ..

theorem captured_elsewhere (r : Nat) (elsewhere : r ≠ output.scrollbackWritePos) :
    (captureCell output vga x).scrollbackBuffer r = output.scrollbackBuffer r := Function.update_of_ne elsewhere ..

theorem captured_rows (value : List UInt16) :
    Function.update (rows (captureCell output vga x)) output.scrollbackWritePos value =
      Function.update (rows output) output.scrollbackWritePos value := by
  funext r
  by_cases here : r = output.scrollbackWritePos
  · subst here
    rw [Function.update_self, Function.update_self]
  · rw [Function.update_of_ne here, Function.update_of_ne here, rows, captured_elsewhere output vga x r here, rows]

theorem captured_cells (filled : ∀ k < x, output.scrollbackBuffer output.scrollbackWritePos k = vga k) :
    ∀ k < x + 1, (captureCell output vga x).scrollbackBuffer output.scrollbackWritePos k = vga k := by
  intro k before
  rw [captured_here]
  by_cases last : k = x
  · subst last
    exact Function.update_self ..
  · rw [Function.update_of_ne last]
    exact filled k (Nat.lt_of_le_of_ne (Nat.le_of_lt_succ before) last)
end

theorem whole_row (output : Output) (vga : Nat → UInt16)
    (filled : ∀ k < screenWidth, output.scrollbackBuffer output.scrollbackWritePos k = vga k) :
    Function.update (rows output) output.scrollbackWritePos (line vga) = rows output := by
  have same : line vga = rows output output.scrollbackWritePos :=
    List.map_congr_left fun k member => (filled k (List.mem_range.mp member)).symm
  rw [same, Function.update_eq_self]

section
variable (console : Console) (recorded : Recorded console)
include recorded

theorem begin_capture (value : List UInt16) (known : history console.output = newest scrollbackLines console.scrolledOff) :
    recent scrollbackLines (Function.update (rows console.output) console.output.scrollbackWritePos value)
        ((console.output.scrollbackWritePos + 1) % scrollbackLines) (bump console.output.scrollbackCount) =
      newest scrollbackLines (console.scrolledOff ++ [value]) := by
  have length : (newest scrollbackLines console.scrolledOff).length = console.output.scrollbackCount := by
    rw [← known, history, recent, List.length_map, List.length_range]
  rw [bump, recent_push scrollbackLines _ _ _ value recorded.inside recorded.full,
    newest_push scrollbackLines (by decide), length, ← known, history]

theorem putc_recorded (ch : UInt8) (idle : console.output.pc = .idle) (next : Console)
    (taken : consoleStep console (.output (.putc ch)) = some next) : Recorded next := by
  have known := recorded.promised
  rw [Promised, idle] at known
  obtain ⟨result, write, written, _, continues⟩ := putc_cases console.output ch
  rw [consoleStep, outputStep, if_pos idle, written, Option.map_some] at taken
  cases taken
  obtain ⟨buffer, writePos, count, pc⟩ := continues
  have same : rows result = rows console.output := by
    funext r
    rw [rows, rows, buffer]
  refine ⟨writePos ▸ recorded.inside, count ▸ recorded.full, ?_⟩
  rcases pc with stays | starts
  · rw [idle] at stays
    simp only [Promised, stays, history, same, writePos, count, reduceCtorEq, if_false]
    exact known
  · simp only [Promised, starts, same, writePos, count, if_true, Nat.not_lt_zero, false_implies, implies_true, and_true]
    exact begin_capture console recorded _ known

theorem tick_recorded (next : Console) (taken : consoleStep console (.output .tick) = some next) : Recorded next := by
  have known := recorded.promised
  obtain ⟨result, stepped, rfl⟩ := Option.map_eq_some_iff.mp taken
  obtain ⟨next, write, round, rfl⟩ := scroll_up_rounds console.output console.vga result stepped
  rw [Promised] at known
  cases round with
  | captures x phase more =>
      simp only [phase] at known
      refine ⟨recorded.inside, recorded.full, ?_, captured_cells console.output console.vga x known.2⟩
      exact (congrArg (fun rows => recent scrollbackLines rows _ _) (captured_rows ..)).trans known.1
  | captured x phase full =>
      simp only [phase] at known
      obtain ⟨promised, filled⟩ := known
      rw [whole_row console.output console.vga fun k before => filled k (Nat.lt_of_lt_of_le before (Nat.le_of_not_lt full))]
        at promised
      exact ⟨Nat.mod_lt _ (by decide), recorded.full, promised⟩
  | counts phase =>
      simp only [phase] at known
      have full := recorded.full
      refine ⟨recorded.inside, ?_, known⟩
      dsimp only [bump]
      split
      · assumption
      · exact full
  | moves i phase | moved i phase | blanks i phase | blanked i phase =>
      simp only [phase] at known
      exact ⟨recorded.inside, recorded.full, known⟩
end

theorem output_recorded (console : Console) (recorded : Recorded console) (op : OutputOp) (next : Console)
    (taken : consoleStep console (.output op) = some next) : Recorded next := by
  cases op with
  | putc ch =>
      have idle : console.output.pc = .idle := by
        obtain ⟨result, stepped, _⟩ := Option.map_eq_some_iff.mp taken
        exact (Option.ite_none_right_eq_some.mp stepped).1
      exact putc_recorded console recorded ch idle next taken
  | setAttr attr =>
      obtain ⟨result, stepped, rfl⟩ := Option.map_eq_some_iff.mp taken
      obtain ⟨idle, moved⟩ := Option.ite_none_right_eq_some.mp stepped
      cases moved
      have known := recorded.promised
      refine ⟨recorded.inside, recorded.full, ?_⟩
      rw [Promised, idle] at known
      simp only [Promised, idle, reduceCtorEq, if_false]
      exact known
  | tick => exact tick_recorded console recorded next taken

theorem init_shadows (memory : Nat → UInt16) : Shadows (ioInit memory) (ioInit memory) :=
  ⟨rfl, fun _ _ => rfl, Int.le_refl 0, iff_of_false Bool.false_ne_true (Int.lt_irrefl 0)⟩

theorem init_recorded (memory : Nat → UInt16) : Recorded (ioInit memory) :=
  ⟨Nat.succ_pos _, Nat.zero_le _, List.drop_nil.symm⟩

theorem shadows_faithful (console plain : Console) (shadows : Shadows console plain) (recorded : Recorded plain) :
    Faithful console plain := by
  refine ⟨fun settled => ?_, fun back => (back_live console plain shadows back).2⟩
  have known := recorded.promised
  rw [shadows.output] at settled ⊢
  rw [Promised] at known
  cases phase : plain.output.pc with
  | capture x => rw [phase] at settled; cases settled
  | tally => rw [phase] at settled; cases settled
  | idle | move i | blank i =>
      rw [phase] at known
      exact known

theorem paging_run (ops : List Op) (console plain finish : Console) (shadows : Shadows console plain)
    (recorded : Recorded plain) (live : Along consoleStep OutputLive console ops)
    (done : runAll consoleStep console ops = some finish) :
    ∃ also, runWithout consoleStep isPaging plain ops = some also ∧ Shadows finish also ∧ Recorded also := by
  induction ops generalizing console plain with
  | nil =>
      cases done
      exact ⟨plain, rfl, shadows, recorded⟩
  | cons op ops ih =>
      obtain ⟨reached, taken, further⟩ := Option.bind_eq_some_iff.mp done
      have later := live.2 reached taken
      cases op with
      | output op =>
          obtain ⟨also, moved, kept⟩ := output_shadows console plain shadows op reached live.1 taken
          obtain ⟨last, alone, agreed⟩ :=
            ih reached also kept (output_recorded plain recorded op also moved) later further
          refine ⟨last, ?_, agreed⟩
          rw [runWithout, if_neg (by simp [isPaging]), moved, Option.bind_some, alone]
      | pageUp =>
          cases taken
          exact ih _ plain (scroll_up_shadows console plain shadows) recorded later further
      | pageDown =>
          cases taken
          exact ih _ plain (scroll_down_shadows console plain shadows) recorded later further

theorem paging_invisible (memory : Nat → UInt16) (ops : List Op) (finish : Console)
    (live : Along consoleStep OutputLive (ioInit memory) ops)
    (done : runAll consoleStep (ioInit memory) ops = some finish) :
    ∃ plain, runWithout consoleStep isPaging (ioInit memory) ops = some plain ∧ Faithful finish plain := by
  obtain ⟨plain, alone, shadows, recorded⟩ :=
    paging_run ops _ _ finish (init_shadows memory) (init_recorded memory) live done
  exact ⟨plain, alone, shadows_faithful finish plain shadows recorded⟩

def ticks (n : Nat) : List Op := List.replicate n (.output .tick)

def lineFeeds (n : Nat) : List Op := List.replicate n (.output (.putc 0x0A))

theorem paging_invisible_captured : ∃ finish plain : Console, finish.output.scrollbackCount = 1 ∧
    runAll consoleStep (ioInit fun _ => 0) (lineFeeds 25 ++ ticks 82 ++ [.pageUp, .pageDown] ++ ticks 1) = some finish ∧
      runWithout consoleStep isPaging (ioInit fun _ => 0)
        (lineFeeds 25 ++ ticks 82 ++ [.pageUp, .pageDown] ++ ticks 1) = some plain ∧ Faithful finish plain := by
  have evaluated : (runAll consoleStep (ioInit fun _ => 0)
      (lineFeeds 25 ++ ticks 82 ++ [.pageUp, .pageDown] ++ ticks 1)).any
        (fun finish => finish.output.scrollbackCount = 1) = true := by decide +kernel
  obtain ⟨finish, done, counted⟩ := (Option.any_eq_true _ _).mp evaluated
  obtain ⟨plain, alone, faithful⟩ := paging_invisible _ _ finish (by decide +kernel) done
  exact ⟨finish, plain, of_decide_eq_true counted, done, alone, faithful⟩

-- The x is drawn over the history and not on the screen that comes back.
def hidden : List Op := lineFeeds 25 ++ ticks 2084 ++ [.pageUp, .output (.putc 0x78), .pageDown]

theorem paging_not_invisible : ¬ ∀ memory ops finish, runAll consoleStep (ioInit memory) ops = some finish →
    ∃ plain, runWithout consoleStep isPaging (ioInit memory) ops = some plain ∧ Faithful finish plain := by
  intro claimed
  have paged : (runAll consoleStep (ioInit fun _ => 0) hidden).any
      (fun finish => finish.scrollOffset = 0 ∧ finish.vga 1920 = 0x0720) = true := by decide +kernel
  have shown : (runWithout consoleStep isPaging (ioInit fun _ => 0) hidden).any
      (fun plain => plain.vga 1920 = 0x0778) = true := by decide +kernel
  obtain ⟨finish, done, blank⟩ := (Option.any_eq_true _ _).mp paged
  obtain ⟨back, blank⟩ := of_decide_eq_true blank
  obtain ⟨plain, alone, faithful⟩ := claimed _ hidden finish done
  rw [alone, Option.any_some] at shown
  have drawn := of_decide_eq_true shown
  rw [← faithful.screen back 1920 (by decide), blank] at drawn
  exact absurd drawn (by decide)

end RoDos.Screen
