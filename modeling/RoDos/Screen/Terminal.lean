import Mathlib.Data.List.FinRange
import RoDos.Screen.Scrollback

set_option autoImplicit false

namespace RoDos.Screen

open Base

-- What the console is for: 25 lines of 80 cells, a cursor on one of them, and the lines that have left at the top.
structure Terminal where
  cells : Fin 25 → Fin 80 → UInt16
  row : Fin 25
  col : Fin 80
  attr : UInt8
  captured : List (List UInt16)

namespace Terminal

def draw (terminal : Terminal) (col : Fin 80) (value : UInt16) : Terminal :=
  { terminal with cells := Function.update terminal.cells terminal.row (Function.update (terminal.cells terminal.row) col value) }

def scroll (terminal : Terminal) : Terminal :=
  { terminal with
    cells := fun row col =>
      if below : row.val + 1 < 25 then terminal.cells ⟨row.val + 1, below⟩ col else cell terminal.attr 0x20
    captured := terminal.captured ++ [(List.finRange 80).map (terminal.cells 0)] }

-- To the start of the next line, which is the last one again if the cursor is there.
def feed (terminal : Terminal) : Terminal :=
  if below : terminal.row.val + 1 < 25 then { terminal with row := ⟨terminal.row.val + 1, below⟩, col := 0 }
  else { terminal.scroll with col := 0 }

def erase (terminal : Terminal) (col : Fin 80) : Terminal :=
  { terminal.draw col (cell terminal.attr 0x20) with col := col }

def put (terminal : Terminal) (ch : UInt8) : Terminal :=
  if ch = 0x0A then terminal.feed
  else if ch = 0x0D then { terminal with col := 0 }
  else if ch = 0x08 then
    if terminal.col = 0 then terminal else terminal.erase ⟨terminal.col.val - 1, (Nat.sub_le _ _).trans_lt terminal.col.isLt⟩
  else
    let drawn := terminal.draw terminal.col (cell terminal.attr ch)
    if inside : terminal.col.val + 1 < 80 then { drawn with col := ⟨terminal.col.val + 1, inside⟩ } else drawn.feed

end Terminal

def Pictures (vga : Nat → UInt16) (terminal : Terminal) : Prop :=
  ∀ (row : Fin 25) (col : Fin 80), vga (row.val * screenWidth + col.val) = terminal.cells row col

structure Shown (console : Console) (terminal : Terminal) : Prop where
  idle : console.output.pc = .idle
  row : console.output.cursorRow = terminal.row
  col : console.output.cursorCol = terminal.col
  attr : console.output.defaultAttr = terminal.attr
  cells : Pictures console.vga terminal
  captured : console.scrolledOff = terminal.captured

structure Scrolling (console : Console) (terminal : Terminal) : Prop where
  row : terminal.row = 24
  col : console.output.cursorCol = terminal.col
  attr : console.output.defaultAttr = terminal.attr
  captured : console.scrolledOff = terminal.captured
  last : ∀ col, terminal.cells 24 col = cell terminal.attr 0x20
  rest : match console.output.pc with
    | .idle => False
    | .capture _ | .tally => ∀ (row : Fin 25) (col : Fin 80), row.val < 24 →
        terminal.cells row col = console.vga (row.val * screenWidth + col.val + screenWidth)
    | .move i => i ≤ movedCells ∧ ∀ (row : Fin 25) (col : Fin 80), row.val < 24 → terminal.cells row col =
        console.vga (if row.val * screenWidth + col.val < i then row.val * screenWidth + col.val
          else row.val * screenWidth + col.val + screenWidth)
    | .blank i => i ≤ screenWidth ∧
        (∀ (row : Fin 25) (col : Fin 80), row.val < 24 →
          terminal.cells row col = console.vga (row.val * screenWidth + col.val)) ∧
        ∀ k < i, console.vga (movedCells + k) = cell terminal.attr 0x20

def Simulates (console : Console) (terminal : Terminal) : Prop := Shown console terminal ∨ Scrolling console terminal

def WritesInside (console : Console) (op : Op) : Prop :=
  ∀ next, consoleStep console op = some next →
    ∃ write : Option (Nat × UInt16), next.vga = writeCell console.vga write ∧ ∀ entry ∈ write, entry.1 < screenCells

def consoleAfter (console : Console) (result : Output × (Nat → UInt16)) : Console :=
  { console with
    output := result.1
    vga := result.2
    scrolledOff := if result.1.pc = .capture 0 then console.scrolledOff ++ [line result.2] else console.scrolledOff }

theorem output_steps_to (console next : Console) (op : OutputOp) : consoleStep console (.output op) = some next ↔
    ∃ result, outputStep console.output console.vga op = some result ∧ consoleAfter console result = next :=
  Option.map_eq_some_iff

theorem tick_rounds (console next : Console) (taken : consoleStep console (.output .tick) = some next) :
    ∃ output write, ScrollRound console.output console.vga output write ∧
      next = consoleAfter console (output, writeCell console.vga write) := by
  obtain ⟨result, stepped, rfl⟩ := (output_steps_to console next _).mp taken
  obtain ⟨output, write, round, rfl⟩ := scroll_up_rounds console.output console.vga result stepped
  exact ⟨output, write, round, rfl⟩

theorem nothing_captured (console : Console) (result : Output × (Nat → UInt16)) (terminal : Terminal)
    (later : result.1.pc ≠ .capture 0) (captured : console.scrolledOff = terminal.captured) :
    (consoleAfter console result).scrolledOff = terminal.captured := (if_neg later).trans captured

theorem idle_later {pc : Pc} (idle : pc = .idle) : pc ≠ .capture 0 := by
  rw [idle]
  decide

theorem top_line (vga : Nat → UInt16) (terminal : Terminal) (pictures : Pictures vga terminal) :
    line vga = (List.finRange 80).map (terminal.cells 0) := by
  rw [line, screenWidth, ← List.map_coe_finRange_eq_range, List.map_map]
  refine List.map_congr_left fun col _ => ?_
  have here := pictures 0 col
  rw [Fin.val_zero, Nat.zero_mul, Nat.zero_add] at here
  exact here

theorem cell_drawn (vga : Nat → UInt16) (terminal : Terminal) (pictures : Pictures vga terminal) (col : Fin 80)
    (value : UInt16) : Pictures (Function.update vga (terminal.row.val * screenWidth + col.val) value)
      (terminal.draw col value) := by
  intro row other
  rw [Terminal.draw]
  dsimp only
  by_cases sameRow : row = terminal.row
  · subst sameRow
    rw [Function.update_self]
    by_cases sameCol : other = col
    · subst sameCol
      rw [Function.update_self, Function.update_self]
    · have apart : terminal.row.val * screenWidth + other.val ≠ terminal.row.val * screenWidth + col.val :=
        fun same => sameCol (Fin.ext (Nat.add_left_cancel same))
      rw [Function.update_of_ne sameCol, Function.update_of_ne apart, pictures]
  · have apart : row.val * screenWidth + other.val ≠ terminal.row.val * screenWidth + col.val := by
      have differ : row.val ≠ terminal.row.val := fun same => sameRow (Fin.ext same)
      have left := other.isLt
      have right := col.isLt
      rw [screenWidth]
      omega
    rw [Function.update_of_ne sameRow, Function.update_of_ne apart, pictures]

theorem feed_simulates (console : Console) (output : Output) (vga : Nat → UInt16) (terminal : Terminal)
    (idle : output.pc = .idle) (row : output.cursorRow = terminal.row) (attr : output.defaultAttr = terminal.attr)
    (pictures : Pictures vga terminal) (captured : console.scrolledOff = terminal.captured) :
    Simulates (consoleAfter console (newLine output, vga)) terminal.feed := by
  rw [newLine, checkScroll]
  dsimp only
  by_cases below : terminal.row.val + 1 < 25
  · have inside : output.cursorRow + 1 < screenHeight := by
      rw [row]
      exact below
    rw [if_pos inside, Terminal.feed, dif_pos below]
    exact Or.inl ⟨idle, congrArg (· + 1) row, rfl, attr, pictures, nothing_captured console _ terminal (idle_later idle) captured⟩
  · have outside : ¬ output.cursorRow + 1 < screenHeight := by
      rw [row]
      exact below
    have bottom : terminal.row = 24 := by
      have bound := terminal.row.isLt
      exact Fin.ext (by omega)
    rw [if_neg outside, Terminal.feed, dif_neg below]
    refine Or.inr ⟨bottom, rfl, attr, ?_, fun col => rfl, ?_⟩
    · dsimp only [consoleAfter]
      rw [if_pos rfl, captured, top_line vga terminal pictures]
      rfl
    · intro row col below
      have upper : row.val + 1 < 25 := Nat.succ_lt_succ below
      have next := pictures ⟨row.val + 1, upper⟩ col
      have place : row.val * screenWidth + col.val + screenWidth = (row.val + 1) * screenWidth + col.val := by
        rw [screenWidth]
        omega
      rw [place]
      dsimp only [Terminal.scroll]
      rw [dif_pos upper]
      exact next.symm

theorem putc_simulates (console next : Console) (terminal : Terminal) (ch : UInt8) (shown : Shown console terminal)
    (taken : consoleStep console (.output (.putc ch)) = some next) : Simulates next (terminal.put ch) := by
  obtain ⟨result, stepped, rfl⟩ := (output_steps_to console next _).mp taken
  obtain ⟨idle, row, col, attr, cells, captured⟩ := shown
  rw [outputStep, if_pos idle] at stepped
  cases stepped
  have still : consoleAfter console (console.output, console.vga) = console := by
    rw [consoleAfter, if_neg (by rw [idle]; decide)]
  rw [putc, Terminal.put]
  by_cases feed : ch = 0x0A
  · rw [if_pos feed, if_pos feed]
    exact feed_simulates console console.output console.vga terminal idle row attr cells captured
  by_cases home : ch = 0x0D
  · rw [if_neg feed, if_pos home, if_neg feed, if_pos home]
    exact Or.inl ⟨idle, row, rfl, attr, cells, nothing_captured console _ terminal (idle_later idle) captured⟩
  rw [if_neg feed, if_neg home, if_neg feed, if_neg home]
  by_cases back : ch = 0x08
  · rw [if_pos back, if_pos back]
    by_cases first : terminal.col = 0
    · have left : console.output.cursorCol = 0 := by rw [col, first, Fin.val_zero]
      rw [if_pos left, if_pos first, still]
      exact Or.inl ⟨idle, row, col, attr, cells, captured⟩
    · have inside : console.output.cursorCol ≠ 0 := fun left => first (Fin.ext (col.symm.trans left))
      rw [if_neg inside, if_neg first]
      dsimp only [cellIndex]
      rw [row, col, attr]
      refine Or.inl ⟨idle, rfl, rfl, rfl, ?_, nothing_captured console _ terminal (idle_later idle) captured⟩
      exact cell_drawn console.vga terminal cells ⟨terminal.col.val - 1, _⟩ (cell terminal.attr 0x20)
  · rw [if_neg back, if_neg back, cellIndex, row, col, attr, checkWrap]
    have drawn := cell_drawn console.vga terminal cells terminal.col (cell terminal.attr ch)
    dsimp only
    by_cases inside : terminal.col.val + 1 < screenWidth
    · have fits : terminal.col.val + 1 < 80 := inside
      rw [if_pos inside, dif_pos fits]
      exact Or.inl ⟨idle, rfl, rfl, rfl, drawn, nothing_captured console _ terminal (idle_later idle) captured⟩
    · have full : ¬ terminal.col.val + 1 < 80 := inside
      rw [if_neg inside, dif_neg full]
      exact feed_simulates console _ _ (terminal.draw terminal.col (cell terminal.attr ch)) idle rfl rfl drawn
        captured

theorem upper_cell (row : Fin 25) (col : Fin 80) (below : row.val < 24) :
    row.val * screenWidth + col.val < movedCells := by
  have inside := col.isLt
  rw [screenWidth, movedCells]
  omega

theorem moved_cell (vga : Nat → UInt16) (i place : Nat) :
    Function.update vga i (vga (i + screenWidth)) (if place < i + 1 then place else place + screenWidth) =
      vga (if place < i then place else place + screenWidth) := by
  rcases Nat.lt_trichotomy place i with before | here | behind
  · rw [if_pos (Nat.lt_succ_of_lt before), if_pos before, Function.update_of_ne (Nat.ne_of_lt before)]
  · subst here
    rw [if_pos (Nat.lt_succ_self _), if_neg (Nat.lt_irrefl _), Function.update_self]
  · rw [if_neg (by omega), if_neg (Nat.not_lt_of_gt behind), Function.update_of_ne (by omega)]

theorem blanked_cell (vga : Nat → UInt16) (i : Nat) (blank : UInt16) (blanks : ∀ k < i, vga (movedCells + k) = blank) :
    ∀ k < i + 1, Function.update vga (movedCells + i) blank (movedCells + k) = blank := by
  intro k before
  by_cases here : k = i
  · rw [here]
    exact Function.update_self ..
  · rw [← blanks k (by omega)]
    exact Function.update_of_ne (by omega) _ _

theorem blanked_pictures (vga : Nat → UInt16) (terminal : Terminal)
    (cells : ∀ (row : Fin 25) (col : Fin 80), row.val < 24 → terminal.cells row col = vga (row.val * screenWidth + col.val))
    (last : ∀ col, terminal.cells 24 col = cell terminal.attr 0x20)
    (blanks : ∀ k < screenWidth, vga (movedCells + k) = cell terminal.attr 0x20) : Pictures vga terminal := by
  intro row col
  by_cases upper : row.val < 24
  · exact (cells row col upper).symm
  · have bottom : row = 24 := by
      have inside := row.isLt
      exact Fin.ext (by omega)
    rw [bottom, last col]
    exact blanks col.val col.isLt

theorem tick_simulates (console next : Console) (terminal : Terminal) (scrolling : Scrolling console terminal)
    (taken : consoleStep console (.output .tick) = some next) : Simulates next terminal := by
  obtain ⟨output, write, round, rfl⟩ := tick_rounds console next taken
  obtain ⟨row, col, attr, captured, last, rest⟩ := scrolling
  have kept (later : output.pc ≠ .capture 0) := nothing_captured console (output, writeCell console.vga write) terminal later captured
  cases round with
  | captures x phase | captured x phase =>
      simp only [phase] at rest
      exact Or.inr ⟨row, col, attr, kept nofun, last, rest⟩
  | counts phase =>
      simp only [phase] at rest
      refine Or.inr ⟨row, col, attr, kept nofun, last, Nat.zero_le _, fun row col below => ?_⟩
      rw [if_neg (Nat.not_lt_zero _)]
      exact rest row col below
  | moves i phase more =>
      simp only [phase] at rest
      refine Or.inr ⟨row, col, attr, kept nofun, last, more, fun row col below => ?_⟩
      rw [rest.2 row col below]
      exact (moved_cell console.vga i _).symm
  | moved i phase full =>
      simp only [phase] at rest
      refine Or.inr ⟨row, col, attr, kept nofun, last, Nat.zero_le _, fun row col below => ?_,
        fun k none' => absurd none' (Nat.not_lt_zero _)⟩
      have upper := upper_cell row col below
      rw [rest.2 row col below, if_pos (by omega)]
      rfl
  | blanks i phase more =>
      simp only [phase] at rest
      obtain ⟨bound, cells, blanks⟩ := rest
      rw [← attr] at blanks
      refine Or.inr ⟨row, col, attr, kept nofun, last, more, fun row col below => ?_, ?_⟩
      · have upper := upper_cell row col below
        rw [cells row col below]
        exact (Function.update_of_ne (by omega) _ _).symm
      · rw [← attr]
        exact blanked_cell console.vga i _ blanks
  | blanked i phase full =>
      simp only [phase] at rest
      obtain ⟨bound, cells, blanks⟩ := rest
      refine Or.inl ⟨rfl, by rw [row]; rfl, col, attr, ?_, kept nofun⟩
      exact blanked_pictures console.vga terminal cells last fun k inside => blanks k (inside.trans_le (Nat.le_of_not_lt full))

theorem putc_writes_inside (console : Console) (terminal : Terminal) (ch : UInt8) (shown : Shown console terminal) :
    WritesInside console (.output (.putc ch)) := by
  intro next taken
  obtain ⟨result, stepped, rfl⟩ := (output_steps_to console next _).mp taken
  have row := terminal.row.isLt
  have col := terminal.col.isLt
  rw [outputStep, if_pos shown.idle, putc] at stepped
  by_cases feed : ch = 0x0A
  · rw [if_pos feed] at stepped
    cases stepped
    exact ⟨none, rfl, by simp⟩
  by_cases home : ch = 0x0D
  · rw [if_neg feed, if_pos home] at stepped
    cases stepped
    exact ⟨none, rfl, by simp⟩
  rw [if_neg feed, if_neg home] at stepped
  by_cases back : ch = 0x08
  · rw [if_pos back] at stepped
    by_cases first : console.output.cursorCol = 0
    · rw [if_pos first] at stepped
      cases stepped
      exact ⟨none, rfl, by simp⟩
    · rw [if_neg first] at stepped
      cases stepped
      refine ⟨some (_, _), rfl, fun entry member => ?_⟩
      cases member
      dsimp only [cellIndex]
      rw [shown.row, shown.col, screenWidth, screenCells]
      omega
  · rw [if_neg back] at stepped
    cases stepped
    refine ⟨some (_, _), rfl, fun entry member => ?_⟩
    cases member
    dsimp only [cellIndex]
    rw [shown.row, shown.col, screenWidth, screenCells]
    omega

theorem tick_writes_inside (console : Console) : WritesInside console (.output .tick) := by
  intro next taken
  obtain ⟨output, write, round, rfl⟩ := tick_rounds console next taken
  refine ⟨write, rfl, fun entry member => ?_⟩
  cases round with
  | captures | captured | counts | moved | blanked => cases member
  | moves i phase more =>
      cases member
      exact more.trans (by decide)
  | blanks i phase more =>
      cases member
      exact Nat.add_lt_add_left more movedCells

def Pc.left : Pc → Nat
  | .idle => 0
  | .capture x => 80 - x + 2004
  | .tally => 2003
  | .move i => 1920 - i + 82
  | .blank i => 80 - i + 1

theorem tick_left (console : Console) (busy : console.output.pc ≠ .idle) :
    ∃ next, consoleStep console (.output .tick) = some next ∧ next.output.pc.left + 1 = console.output.pc.left := by
  obtain ⟨output, write, round⟩ := round_goes console.output console.vga busy
  have stepped := round_taken console.output console.vga output write round
  refine ⟨_, (output_steps_to console _ _).mpr ⟨_, stepped, rfl⟩, ?_⟩
  dsimp only [consoleAfter]
  cases round with
  | captures x phase more =>
      rw [screenWidth] at more
      rw [phase]
      dsimp only [captureCell, Pc.left]
      omega
  | captured x phase bound | blanks x phase bound | blanked x phase bound =>
      rw [screenWidth] at bound
      rw [phase]
      dsimp only [Pc.left]
      omega
  | counts phase => rw [phase]; rfl
  | moves i phase bound | moved i phase bound =>
      rw [movedCells] at bound
      rw [phase]
      dsimp only [Pc.left]
      omega

theorem left_zero (pc : Pc) (done : pc.left = 0) : pc = .idle := by
  cases pc with
  | idle => rfl
  | capture x => rw [Pc.left] at done; omega
  | tally => cases done
  | move i => rw [Pc.left] at done; omega
  | blank i => rw [Pc.left] at done; omega

theorem settles (n : Nat) (console : Console) (left : console.output.pc.left = n) :
    ∃ finish, runAll consoleStep console (ticks n) = some finish ∧ finish.output.pc = .idle := by
  induction n generalizing console with
  | zero => exact ⟨console, rfl, left_zero _ left⟩
  | succ n ih =>
      have busy : console.output.pc ≠ .idle := fun idle => by
        rw [idle] at left
        cases left
      obtain ⟨next, taken, fewer⟩ := tick_left console busy
      obtain ⟨finish, run, idle⟩ := ih next (by omega)
      refine ⟨finish, ?_, idle⟩
      rw [ticks, List.replicate_succ, runAll, taken, Option.bind_some]
      exact run

-- The characters of the calls of putc; puts makes one call for each byte in front of the NUL.
def callsOf : List Op → List UInt8
  | [] => []
  | .output (.putc ch) :: ops => ch :: callsOf ops
  | .output (.setAttr _) :: ops | .output .tick :: ops | .pageUp :: ops | .pageDown :: ops => callsOf ops

def isPrinting : Op → Bool
  | .output (.putc _) | .output .tick => true
  | .output (.setAttr _) | .pageUp | .pageDown => false

theorem calls_of_append (first second : List Op) : callsOf (first ++ second) = callsOf first ++ callsOf second := by
  induction first with
  | nil => rfl
  | cons op ops ih =>
      cases op with
      | output op =>
          cases op with
          | putc ch => exact congrArg (ch :: ·) ih
          | setAttr attr => exact ih
          | tick => exact ih
      | pageUp => exact ih
      | pageDown => exact ih

theorem calls_of_ticks (n : Nat) : callsOf (ticks n) = [] := by
  induction n with
  | zero => rfl
  | succ n ih => exact ih

theorem prints_simulate (ops : List Op) (console finish : Console) (terminal : Terminal)
    (simulates : Simulates console terminal) (printing : ∀ op ∈ ops, isPrinting op = true)
    (done : runAll consoleStep console ops = some finish) :
    Along consoleStep WritesInside console ops ∧ Simulates finish ((callsOf ops).foldl Terminal.put terminal) := by
  induction ops generalizing console terminal with
  | nil =>
      cases done
      exact ⟨trivial, simulates⟩
  | cons op ops ih =>
      obtain ⟨reached, taken, further⟩ := Option.bind_eq_some_iff.mp done
      have later := fun op member => printing op (List.mem_cons_of_mem _ member)
      have along (inside : WritesInside console op) (rest : Along consoleStep WritesInside reached ops) :
          Along consoleStep WritesInside console (op :: ops) := by
        refine ⟨inside, fun other moved => ?_⟩
        rw [taken] at moved
        cases moved
        exact rest
      have only := printing op List.mem_cons_self
      cases op with
      | pageUp => cases only
      | pageDown => cases only
      | output op =>
          cases op with
          | setAttr attr => cases only
          | putc ch =>
              rcases simulates with shown | scrolling
              · obtain ⟨inside, simulated⟩ :=
                  ih reached (terminal.put ch) (putc_simulates console reached terminal ch shown taken) later further
                exact ⟨along (putc_writes_inside console terminal ch shown) inside, simulated⟩
              · obtain ⟨result, stepped, _⟩ := (output_steps_to console reached _).mp taken
                have idle := (Option.ite_none_right_eq_some.mp stepped).1
                have rest := scrolling.rest
                rw [idle] at rest
                exact rest.elim
          | tick =>
              rcases simulates with shown | scrolling
              · rw [consoleStep, outputStep, scrollUp, shown.idle] at taken
                cases taken
              · obtain ⟨inside, simulated⟩ :=
                  ih reached terminal (tick_simulates console reached terminal scrolling taken) later further
                exact ⟨along (tick_writes_inside console) inside, simulated⟩

theorem string_printed (str : List UInt8) (console : Console) (idle : console.output.pc = .idle) :
    ∃ ops finish, callsOf ops = str ∧ (∀ op ∈ ops, isPrinting op = true) ∧
      runAll consoleStep console ops = some finish ∧ finish.output.pc = .idle := by
  induction str generalizing console with
  | nil => exact ⟨[], console, rfl, fun _ member => absurd member List.not_mem_nil, rfl, idle⟩
  | cons ch str ih =>
      have taken : consoleStep console (.output (.putc ch)) = some (consoleAfter console (putc console.output console.vga ch)) :=
        (output_steps_to console _ _).mpr ⟨_, if_pos idle, rfl⟩
      generalize consoleAfter console (putc console.output console.vga ch) = next at taken
      obtain ⟨settled, scrolled, settledIdle⟩ := settles next.output.pc.left next rfl
      obtain ⟨ops, finish, calls, printing, run, finishIdle⟩ := ih settled settledIdle
      refine ⟨.output (.putc ch) :: (ticks next.output.pc.left ++ ops), finish, ?_, ?_, ?_, finishIdle⟩
      · rw [callsOf, calls_of_append, calls_of_ticks, calls, List.nil_append]
      · intro op member
        rcases List.mem_cons.mp member with rfl | later
        · rfl
        · rcases List.mem_append.mp later with tick | further
          · rw [List.eq_of_mem_replicate tick]
            rfl
          · exact printing op further
      · rw [runAll, taken, Option.bind_some, run_all_append, scrolled, Option.bind_some, run]

def terminalOf (console : Console) (row : Fin 25) (col : Fin 80) : Terminal where
  cells row col := console.vga (row.val * screenWidth + col.val)
  row := row
  col := col
  attr := console.output.defaultAttr
  captured := console.scrolledOff

theorem prints_as_terminal (console : Console) (str : List UInt8) (idle : console.output.pc = .idle)
    (row : console.output.cursorRow < 25) (col : console.output.cursorCol < 80) :
    (∃ ops finish, callsOf ops = str ∧ (∀ op ∈ ops, isPrinting op = true) ∧
      runAll consoleStep console ops = some finish ∧ finish.output.pc = .idle) ∧
    ∀ ops finish, callsOf ops = str → (∀ op ∈ ops, isPrinting op = true) → runAll consoleStep console ops = some finish →
      Along consoleStep WritesInside console ops ∧ (finish.output.pc = .idle →
        Shown finish (str.foldl Terminal.put (terminalOf console ⟨_, row⟩ ⟨_, col⟩))) := by
  refine ⟨string_printed str console idle, ?_⟩
  rintro ops finish rfl printing done
  have shown : Shown console (terminalOf console ⟨_, row⟩ ⟨_, col⟩) := ⟨idle, rfl, rfl, rfl, fun _ _ => rfl, rfl⟩
  obtain ⟨inside, simulates⟩ := prints_simulate ops console finish _ (Or.inl shown) printing done
  refine ⟨inside, fun settled => simulates.elim id fun scrolling => ?_⟩
  have rest := scrolling.rest
  rw [settled] at rest
  exact rest.elim

def longText : List UInt8 := List.replicate 81 0x61 ++ List.replicate 25 0x0A

theorem prints_as_terminal_first : ∃ finish, Shown finish (longText.foldl Terminal.put (terminalOf (ioInit fun _ => 0) 0 0)) ∧
    finish.output.cursorRow = 24 ∧ finish.scrolledOff.length = 2 := by
  have prints := prints_as_terminal (ioInit fun _ => 0) longText rfl (by decide) (by decide)
  obtain ⟨ops, finish, calls, printing, run, idle⟩ := prints.1
  have shown : Shown finish (longText.foldl Terminal.put (terminalOf (ioInit fun _ => 0) 0 0)) :=
    (prints.2 ops finish calls printing run).2 idle
  have ends : (longText.foldl Terminal.put (terminalOf (ioInit fun _ => 0) 0 0)).row = 24 ∧
      (longText.foldl Terminal.put (terminalOf (ioInit fun _ => 0) 0 0)).captured.length = 2 := by decide +kernel
  refine ⟨finish, shown, ?_⟩
  generalize longText.foldl Terminal.put (terminalOf (ioInit fun _ => 0) 0 0) = terminal at shown ends
  rw [shown.row, shown.captured, ends.1, ends.2]
  exact ⟨rfl, rfl⟩

end RoDos.Screen
