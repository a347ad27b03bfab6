import RoDos.Screen.Terminal

set_option autoImplicit false

namespace RoDos.Screen

open Base

def place (console : Console) : Nat := console.scrolledOff.length * screenWidth + cellIndex console.output

def charAt (console : Console) (p : Nat) : Option UInt8 :=
  let top := console.scrolledOff.length * screenWidth
  if top ≤ p ∧ p < top + screenCells then some (console.vga (p - top)).toUInt8 else none

def textFrom (console : Console) (start : Nat) : List (Option UInt8) :=
  (List.range (place console - start)).map fun i => charAt console (start + i)

def BlankBehind (console : Console) : Prop :=
  ∀ i < screenCells, cellIndex console.output ≤ i → (console.vga i).toUInt8 = 0x20

-- One call of putc after the other, each with the call of scroll_up that it makes.
def printAll : Console → List UInt8 → Option Console
  | console, [] => some console
  | console, ch :: str =>
      (consoleStep console (.output (.putc ch))).bind fun called =>
        (runAll consoleStep called (ticks called.output.pc.left)).bind fun settled => printAll settled str

namespace Terminal

def placeOf (terminal : Terminal) (row : Fin 25) (col : Fin 80) : Nat :=
  (terminal.captured.length + row.val) * screenWidth + col.val

def here (terminal : Terminal) : Nat := terminal.placeOf terminal.row terminal.col

def BlankBehind (terminal : Terminal) : Prop :=
  ∀ row col, terminal.here ≤ terminal.placeOf row col → (terminal.cells row col).toUInt8 = 0x20

structure Displays (terminal : Terminal) (start : Nat) (text : List UInt8) : Prop where
  here : terminal.here = start + text.length
  top : terminal.captured.length * screenWidth ≤ start
  shows : ∀ row col i, terminal.placeOf row col = start + i → i < text.length →
    text[i]? = some (terminal.cells row col).toUInt8

structure Advances (terminal next : Terminal) (value : UInt16) : Prop where
  here : next.here = terminal.here + 1
  captured : next.captured.length = terminal.captured.length ∨
    next.captured.length = terminal.captured.length + 1 ∧ terminal.row.val = 24
  cells : ∀ row col, (next.placeOf row col = terminal.here ∧ next.cells row col = value) ∨
    (next.placeOf row col ≠ terminal.here ∧
      ∃ from' at', terminal.placeOf from' at' = next.placeOf row col ∧ next.cells row col = terminal.cells from' at') ∨
    (terminal.here < next.placeOf row col ∧ next.cells row col = cell terminal.attr 0x20)

end Terminal

theorem cell_char (attr ch : UInt8) : (cell attr ch).toUInt8 = ch := by
  refine UInt8.toNat_inj.mp ?_
  have low := ch.toNat_lt
  have shifted : attr.toNat <<< 8 % 65536 % 2 ^ 8 = 0 := by
    rw [Nat.shiftLeft_eq]
    omega
  rw [cell, UInt16.toNat_toUInt8, UInt16.toNat_or, UInt16.toNat_shiftLeft, UInt8.toNat_toUInt16, UInt8.toNat_toUInt16]
  show (attr.toNat <<< 8 % 65536 ||| ch.toNat) % 2 ^ 8 = ch.toNat
  rw [Nat.or_mod_two_pow, shifted, Nat.zero_or, Nat.mod_eq_of_lt low]

section
variable (terminal : Terminal)

theorem place_same (row other : Fin 25) (col also : Fin 80) (same : terminal.placeOf row col = terminal.placeOf other also) :
    row = other ∧ col = also := by
  have left := col.isLt
  have right := also.isLt
  rw [Terminal.placeOf, Terminal.placeOf, screenWidth] at same
  exact ⟨Fin.ext (by omega), Fin.ext (by omega)⟩

theorem draw_cells (value : UInt16) (row : Fin 25) (col : Fin 80) :
    (terminal.placeOf row col = terminal.here ∧ (terminal.draw terminal.col value).cells row col = value) ∨
      (terminal.placeOf row col ≠ terminal.here ∧
        (terminal.draw terminal.col value).cells row col = terminal.cells row col) := by
  rw [Terminal.draw]
  dsimp only
  by_cases sameRow : row = terminal.row
  · subst sameRow
    rw [Function.update_self]
    by_cases sameCol : col = terminal.col
    · subst sameCol
      exact Or.inl ⟨rfl, Function.update_self ..⟩
    · exact Or.inr ⟨fun same => sameCol (place_same terminal _ _ _ _ same).2, Function.update_of_ne sameCol ..⟩
  · rw [Function.update_of_ne sameRow]
    exact Or.inr ⟨fun same => sameRow (place_same terminal _ _ _ _ same).1, rfl⟩

theorem scroll_cell (row : Fin 25) (col : Fin 80) :
    (∃ above, terminal.placeOf above col = terminal.scroll.placeOf row col ∧
      terminal.scroll.cells row col = terminal.cells above col) ∨
    ((terminal.captured.length + 25) * screenWidth ≤ terminal.scroll.placeOf row col ∧
      terminal.scroll.cells row col = cell terminal.attr 0x20) := by
  have lines : terminal.scroll.captured.length = terminal.captured.length + 1 := List.length_append
  rw [Terminal.placeOf, lines]
  by_cases upper : row.val + 1 < 25
  · refine Or.inl ⟨⟨row.val + 1, upper⟩, ?_, dif_pos upper⟩
    rw [Terminal.placeOf, Nat.add_assoc, Nat.add_comm 1 row.val]
  · refine Or.inr ⟨?_, dif_neg upper⟩
    rw [screenWidth]
    omega

theorem put_advances (ch : UInt8) (feed : ch ≠ 0x0A) (home : ch ≠ 0x0D) (back : ch ≠ 0x08) :
    Terminal.Advances terminal (terminal.put ch) (cell terminal.attr ch) := by
  have drawn := draw_cells terminal (cell terminal.attr ch)
  have kept (next : Terminal) (captured : next.captured = terminal.captured)
      (cells : next.cells = (terminal.draw terminal.col (cell terminal.attr ch)).cells) (row : Fin 25) (col : Fin 80) :
      (next.placeOf row col = terminal.here ∧ next.cells row col = cell terminal.attr ch) ∨
        (next.placeOf row col ≠ terminal.here ∧ ∃ from' at', terminal.placeOf from' at' = next.placeOf row col ∧
          next.cells row col = terminal.cells from' at') ∨
        (terminal.here < next.placeOf row col ∧ next.cells row col = cell terminal.attr 0x20) := by
    have same : next.placeOf row col = terminal.placeOf row col := by rw [Terminal.placeOf, captured, Terminal.placeOf]
    rw [cells, same]
    exact (drawn row col).imp id fun apart => Or.inl ⟨apart.1, row, col, rfl, apart.2⟩
  have edge := terminal.col.isLt
  rw [Terminal.put, if_neg feed, if_neg home, if_neg back]
  dsimp only
  by_cases inside : terminal.col.val + 1 < 80
  · rw [dif_pos inside]
    exact ⟨rfl, Or.inl rfl, kept _ rfl rfl⟩
  rw [dif_neg inside, Terminal.feed]
  by_cases below : (terminal.draw terminal.col (cell terminal.attr ch)).row.val + 1 < 25
  · rw [dif_pos below]
    refine ⟨?_, Or.inl rfl, kept _ rfl rfl⟩
    simp only [Terminal.here, Terminal.placeOf, Terminal.draw, screenWidth, Fin.val_zero]
    omega
  · have bottom : terminal.row.val = 24 := by
      have inside := terminal.row.isLt
      change ¬ terminal.row.val + 1 < 25 at below
      omega
    rw [dif_neg below]
    have lines : ((terminal.draw terminal.col (cell terminal.attr ch)).scroll).captured.length =
        terminal.captured.length + 1 := List.length_append
    refine ⟨?_, Or.inr ⟨lines, bottom⟩, fun row col => ?_⟩
    · have row' : ((terminal.draw terminal.col (cell terminal.attr ch)).scroll).row.val = 24 := bottom
      simp only [Terminal.here, Terminal.placeOf, lines, row', bottom, screenWidth, Fin.val_zero]
      omega
    · rcases scroll_cell (terminal.draw terminal.col (cell terminal.attr ch)) row col with ⟨above, moved, same⟩ | ⟨new, blank⟩
      · rcases drawn above col with ⟨here, value⟩ | ⟨apart, old⟩
        · exact Or.inl ⟨moved.symm.trans here, same.trans value⟩
        · exact Or.inr (Or.inl ⟨fun here => apart (moved.trans here), above, col, moved, same.trans old⟩)
      · refine Or.inr (Or.inr ⟨Nat.lt_of_lt_of_le ?_ new, blank⟩)
        change (terminal.captured.length + terminal.row.val) * screenWidth + terminal.col.val <
          (terminal.captured.length + 25) * screenWidth
        rw [bottom, screenWidth]
        omega
theorem advances_displays (next : Terminal) (ch : UInt8) (advances : Terminal.Advances terminal next (cell terminal.attr ch))
    (start : Nat) (text : List UInt8) (displays : terminal.Displays start text) (short : text.length < 255) :
    next.Displays start (text ++ [ch]) := by
  have here := displays.here
  refine ⟨?_, ?_, fun row col i at' before => ?_⟩
  · rw [advances.here, here, List.length_append, List.length_singleton, Nat.add_assoc]
  · rcases advances.captured with same | ⟨scrolled, bottom⟩
    · rw [same]
      exact displays.top
    · rw [Terminal.here, Terminal.placeOf, bottom, screenWidth] at here
      rw [scrolled, screenWidth]
      omega
  · rw [List.length_append, List.length_singleton] at before
    rcases advances.cells row col with ⟨last, drawn⟩ | ⟨apart, from', column, same, old⟩ | ⟨behind, _⟩
    · have index : i = text.length := by omega
      rw [index, drawn, cell_char, List.getElem?_concat_length]
    · have earlier : i < text.length := by omega
      rw [List.getElem?_append_left earlier, old]
      exact displays.shows from' column i (same.trans at') earlier
    · omega

theorem advances_blank (next : Terminal) (ch : UInt8) (advances : Terminal.Advances terminal next (cell terminal.attr ch))
    (blank : terminal.BlankBehind) : next.BlankBehind := by
  intro row col behind
  rw [advances.here] at behind
  rcases advances.cells row col with ⟨last, _⟩ | ⟨_, from', at', same, old⟩ | ⟨_, new⟩
  · omega
  · rw [old]
    exact blank from' at' (by omega)
  · rw [new, cell_char]

theorem put_back (col : Fin 80) (back : terminal.col.val = col.val + 1) : terminal.put 0x08 = terminal.erase col := by
  have inside : terminal.col ≠ 0 := fun zero => by
    rw [zero] at back
    cases back
  rw [Terminal.put, if_neg (by decide), if_neg (by decide), if_pos rfl, if_neg inside]
  exact congrArg terminal.erase (Fin.ext (by dsimp only; omega))

theorem erase_cells (column : Fin 80) (row : Fin 25) (col : Fin 80) :
    (terminal.placeOf row col = (terminal.erase column).here ∧
      (terminal.erase column).cells row col = cell terminal.attr 0x20) ∨
    (terminal.placeOf row col ≠ (terminal.erase column).here ∧
      (terminal.erase column).cells row col = terminal.cells row col) :=
  draw_cells { terminal with col := column } (cell terminal.attr 0x20) row col

section
variable (column : Fin 80) (back : terminal.col.val = column.val + 1)
include back

theorem erase_here : (terminal.erase column).here + 1 = terminal.here := by
  rw [Terminal.here, Terminal.here, Terminal.placeOf, Terminal.placeOf, back]
  rfl

theorem erase_displays (start : Nat) (text : List UInt8) (displays : terminal.Displays start text) (some : 0 < text.length) :
    (terminal.erase column).Displays start text.dropLast := by
  have here := displays.here
  have moved := erase_here terminal column back
  refine ⟨?_, displays.top, fun row col i at' before => ?_⟩
  · rw [List.length_dropLast]
    omega
  · rw [List.length_dropLast] at before
    rcases erase_cells terminal column row col with ⟨last, _⟩ | ⟨_, old⟩
    · change terminal.placeOf row col = start + i at at'
      omega
    · rw [old, List.getElem?_dropLast, if_pos before]
      exact displays.shows row col i at' (by omega)

theorem erase_blank (blank : terminal.BlankBehind) : (terminal.erase column).BlankBehind := by
  intro row col behind
  have moved := erase_here terminal column back
  change (terminal.erase column).here ≤ terminal.placeOf row col at behind
  rcases erase_cells terminal column row col with ⟨_, new⟩ | ⟨apart, old⟩
  · rw [new, cell_char]
  · rw [old]
    exact blank row col (by omega)

theorem erase_echo : [0x08, 0x20, 0x08].foldl Terminal.put terminal = terminal.erase column := by
  have first := put_back terminal column back
  have inside : (terminal.erase column).col.val + 1 < 80 := by
    rw [← show terminal.col.val = (terminal.erase column).col.val + 1 from back]
    exact terminal.col.isLt
  have second : (terminal.erase column).put 0x20 = { terminal.erase column with col := terminal.col } := by
    rw [Terminal.put, if_neg (by decide), if_neg (by decide), if_neg (by decide)]
    dsimp only
    rw [dif_pos inside]
    simp only [Terminal.erase, Terminal.draw, Function.update_self, Function.update_idem, ← back]
  have third := put_back { terminal.erase column with col := terminal.col } column back
  rw [List.foldl_cons, List.foldl_cons, List.foldl_cons, List.foldl_nil, first, second, third]
  simp only [Terminal.erase, Terminal.draw, Function.update_self, Function.update_idem]
end

theorem edge_echo (edge : terminal.col = 0) : ([0x08, 0x20, 0x08].foldl Terminal.put terminal).here = terminal.here := by
  have first : terminal.put 0x08 = terminal := by
    rw [Terminal.put, if_neg (by decide), if_neg (by decide), if_pos rfl, if_pos edge]
  have inside : terminal.col.val + 1 < 80 := by
    rw [edge]
    decide
  have second := put_advances terminal 0x20 (by decide) (by decide) (by decide)
  have moved : (terminal.put 0x20).col.val = terminal.col.val + 1 := by
    rw [Terminal.put, if_neg (by decide), if_neg (by decide), if_neg (by decide)]
    dsimp only
    rw [dif_pos inside]
  have third := put_back (terminal.put 0x20) terminal.col moved
  rw [List.foldl_cons, List.foldl_cons, List.foldl_cons, List.foldl_nil, first, third]
  exact Nat.succ.inj ((erase_here (terminal.put 0x20) terminal.col moved).trans second.here)

section
variable (console : Console) (shown : Shown console terminal)
include shown

theorem place_shown : place console = terminal.here := by
  rw [place, cellIndex, shown.captured, shown.row, shown.col, Terminal.here, Terminal.placeOf, Nat.add_mul, Nat.add_assoc]

theorem char_shown (row : Fin 25) (col : Fin 80) :
    charAt console (terminal.placeOf row col) = some (terminal.cells row col).toUInt8 := by
  have lines := row.isLt
  have columns := col.isLt
  have top : terminal.placeOf row col = terminal.captured.length * screenWidth + (row.val * screenWidth + col.val) := by
    rw [Terminal.placeOf, Nat.add_mul, Nat.add_assoc]
  have inside : row.val * screenWidth + col.val < screenCells := by
    rw [screenWidth, screenCells]
    omega
  rw [charAt, shown.captured, top, if_pos ⟨Nat.le_add_right _ _, Nat.add_lt_add_left inside _⟩, Nat.add_sub_cancel_left, shown.cells]

theorem text_displayed (start : Nat) (text : List UInt8) (displays : terminal.Displays start text) :
    textFrom console start = text.map some := by
  have here := displays.here
  have top := displays.top
  rw [textFrom, place_shown terminal console shown, here, Nat.add_sub_cancel_left]
  refine List.ext_getElem (by simp) fun i left right => ?_
  have before : i < text.length := by simpa using right
  rw [List.getElem_map, List.getElem_range, List.getElem_map]
  have lines := terminal.row.isLt
  have columns := terminal.col.isLt
  rw [Terminal.here, Terminal.placeOf, screenWidth] at here
  rw [screenWidth] at top
  obtain ⟨cells, counted⟩ : ∃ cells, start + i = terminal.captured.length * 80 + cells := ⟨start + i - terminal.captured.length * 80, by omega⟩
  have at' : terminal.placeOf ⟨cells / 80, by omega⟩ ⟨cells % 80, Nat.mod_lt _ (by decide)⟩ = start + i := by
    rw [Terminal.placeOf, screenWidth]
    dsimp only
    omega
  rw [← at', char_shown terminal console shown, ← displays.shows _ _ i at' before, List.getElem?_eq_getElem before]

theorem blank_shown : BlankBehind console ↔ terminal.BlankBehind := by
  have cursor : cellIndex console.output = terminal.row.val * screenWidth + terminal.col.val := by
    rw [cellIndex, shown.row, shown.col]
  constructor
  · intro blank row col behind
    have lines := row.isLt
    have columns := col.isLt
    rw [Terminal.here, Terminal.placeOf, Terminal.placeOf, screenWidth] at behind
    rw [← shown.cells]
    refine blank _ ?_ ?_
    · rw [screenWidth, screenCells]
      omega
    · rw [cursor, screenWidth]
      omega
  · intro blank i inside behind
    rw [screenCells] at inside
    rw [cursor, screenWidth] at behind
    have same : (i / 80) * 80 + i % 80 = i := by omega
    have cells := shown.cells ⟨i / 80, by omega⟩ ⟨i % 80, Nat.mod_lt _ (by decide)⟩
    rw [screenWidth] at cells
    dsimp only at cells
    rw [same] at cells
    rw [cells]
    refine blank _ _ ?_
    rw [Terminal.here, Terminal.placeOf, Terminal.placeOf, screenWidth]
    dsimp only
    omega
end
end

theorem print_all_shown (str : List UInt8) (console : Console) (terminal : Terminal) (shown : Shown console terminal) :
    ∃ finish, printAll console str = some finish ∧ Shown finish (str.foldl Terminal.put terminal) := by
  induction str generalizing console terminal with
  | nil => exact ⟨console, rfl, shown⟩
  | cons ch str ih =>
      have taken : consoleStep console (.output (.putc ch)) =
          some (consoleAfter console (putc console.output console.vga ch)) :=
        (output_steps_to console _ _).mpr ⟨_, if_pos shown.idle, rfl⟩
      have simulates := putc_simulates console _ terminal ch shown taken
      generalize consoleAfter console (putc console.output console.vga ch) = called at taken simulates
      obtain ⟨settled, scrolled, idle⟩ := settles called.output.pc.left called rfl
      have only : ∀ op ∈ ticks called.output.pc.left, isPrinting op = true := fun op tick => by
        rw [List.eq_of_mem_replicate tick]
        rfl
      have still := (prints_simulate _ called settled _ simulates only scrolled).2
      rw [calls_of_ticks] at still
      have settledShown : Shown settled (terminal.put ch) := still.elim id fun scrolling => by
        have rest := scrolling.rest
        rw [idle] at rest
        exact rest.elim
      obtain ⟨finish, printed, finishShown⟩ := ih settled _ settledShown
      refine ⟨finish, ?_, finishShown⟩
      rw [printAll, taken, Option.bind_some, scrolled, Option.bind_some, printed]

end RoDos.Screen
