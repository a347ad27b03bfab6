import Mathlib.Algebra.Ring.Nat
import RoDos.Screen.Scrollback

set_option autoImplicit false

namespace RoDos.Screen

open Base

def lineSequence (scrolledOff : List (List UInt16)) (savedScreen : Nat → UInt16) : List (List UInt16) :=
  newest scrollbackLines scrolledOff ++
    (List.range screenHeight).map fun y => line fun x => savedScreen (y * screenWidth + x)

def IsIndicator (y x : Nat) : Prop := x = 79 ∧ (y = 0 ∨ y = 24)

-- The screen shows 25 of the lines, first on top, but for the two cells of the indicator.
def ShowsFrom (first : Nat) (lines : List (List UInt16)) (vga : Nat → UInt16) : Prop :=
  ∀ y < screenHeight, ∃ shown, lines[first + y]? = some shown ∧
    ∀ x < screenWidth, ¬ IsIndicator y x → shown[x]? = some (vga (y * screenWidth + x))

def linesKept (console : Console) : Nat := min console.scrolledOff.length scrollbackLines

structure PagedFrom (before console : Console) : Prop where
  output : console.output = before.output
  low : 0 ≤ console.scrollOffset
  high : console.scrollOffset ≤ linesKept before
  away : console.screenSaved = true ↔ 0 < console.scrollOffset
  saved : 0 < console.scrollOffset → ∀ i < screenCells, console.savedScreen i = before.vga i
  shows : 0 < console.scrollOffset → ShowsFrom (linesKept before - console.scrollOffset.toNat)
    (lineSequence before.scrolledOff console.savedScreen) console.vga
  beyond : ∀ i, screenCells ≤ i → console.vga i = before.vga i
  back : console.scrollOffset = 0 → console.vga = before.vga

def InLiveView (console : Console) : Op → Prop
  | .output _ => console.scrollOffset = 0
  | .pageUp | .pageDown => True

instance (console : Console) (op : Op) : Decidable (InLiveView console op) :=
  match op with
  | .output _ => inferInstanceAs (Decidable (console.scrollOffset = 0))
  | .pageUp => .isTrue trivial
  | .pageDown => .isTrue trivial

-- The run with the keys and the run without them have seen the same lines leave the screen.
def Viewed (console : Console) : Prop :=
  ∃ plain, Shadows console plain ∧ Recorded plain ∧ console.scrolledOff = plain.scrolledOff

theorem output_viewed (console next : Console) (op : OutputOp) (viewed : Viewed console)
    (live : console.scrollOffset = 0) (taken : consoleStep console (.output op) = some next) : Viewed next := by
  obtain ⟨plain, shadows, recorded, same⟩ := viewed
  obtain ⟨also, moved, kept⟩ := output_shadows console plain shadows op next (fun _ => live) taken
  refine ⟨also, kept, output_recorded plain recorded op also moved, ?_⟩
  obtain ⟨result, _, rfl⟩ := Option.map_eq_some_iff.mp taken
  obtain ⟨other, _, rfl⟩ := Option.map_eq_some_iff.mp moved
  have shown := (back_live _ _ kept live).2
  have top : line result.2 = line other.2 :=
    List.map_congr_left fun x member => shown x (Nat.lt_trans (List.mem_range.mp member) (by decide))
  have outputs : result.1 = other.1 := kept.output
  dsimp only
  rw [outputs, top, same]

theorem save_scrolled_off (console : Console) : (saveCurrentScreen console).scrolledOff = console.scrolledOff := by
  rw [saveCurrentScreen]
  split <;> rfl

theorem restore_scrolled_off (console : Console) : (restoreSavedScreen console).scrolledOff = console.scrolledOff := by
  rw [restoreSavedScreen]
  split <;> rfl

theorem redraw_scrolled_off (console : Console) : (scrollbackRedraw console).scrolledOff = console.scrolledOff := by
  obtain ⟨vga, drawn⟩ := redraw_keeps console
  rw [drawn]

theorem page_up_scrolled_off (console : Console) : (scrollbackScrollUp console).scrolledOff = console.scrolledOff := by
  have kept : (if console.scrollOffset = 0 then saveCurrentScreen console else console).scrolledOff = console.scrolledOff := by
    split
    · exact save_scrolled_off console
    · rfl
  rw [scrollbackScrollUp]
  dsimp only
  generalize (if console.scrollOffset = 0 then saveCurrentScreen console else console) = saved at kept ⊢
  split
  · rfl
  · split
    · rw [redraw_scrolled_off, kept]
    · exact kept

theorem page_down_scrolled_off (console : Console) :
    (scrollbackScrollDown console).scrolledOff = console.scrolledOff := by
  rw [scrollbackScrollDown]
  dsimp only
  split
  · split
    · rw [restore_scrolled_off]
    · rw [redraw_scrolled_off]
  · rfl

theorem viewed_step (console : Console) (op : Op) (reached : Console) (viewed : Viewed console) (live : InLiveView console op)
    (taken : consoleStep console op = some reached) : Viewed reached := by
  obtain ⟨plain, shadows, recorded, same⟩ := viewed
  cases op with
  | output op => exact output_viewed console reached op ⟨plain, shadows, recorded, same⟩ live taken
  | pageUp =>
      cases taken
      exact ⟨plain, scroll_up_shadows console plain shadows, recorded, (page_up_scrolled_off console).trans same⟩
  | pageDown =>
      cases taken
      exact ⟨plain, scroll_down_shadows console plain shadows, recorded, (page_down_scrolled_off console).trans same⟩

theorem viewed_run (ops : List Op) (console finish : Console) (viewed : Viewed console)
    (live : Along consoleStep InLiveView console ops) (done : runAll consoleStep console ops = some finish) : Viewed finish :=
  along_invariant consoleStep InLiveView Viewed viewed_step console finish ops viewed live done

theorem init_viewed (memory : Nat → UInt16) : Viewed (ioInit memory) :=
  ⟨_, init_shadows memory, init_recorded memory, rfl⟩

theorem viewed_history (console : Console) (viewed : Viewed console) (settled : capturing console.output.pc = false) :
    history console.output = newest scrollbackLines console.scrolledOff := by
  obtain ⟨plain, shadows, recorded, same⟩ := viewed
  rw [same]
  exact (shadows_faithful console plain shadows recorded).history settled

section
variable (console : Console) (known : history console.output = newest scrollbackLines console.scrolledOff)
include known

theorem count_kept : console.output.scrollbackCount = linesKept console := by
  rw [linesKept, ← newest_length, ← known, history, recent, List.length_map, List.length_range]

theorem kept_line (k : Nat) (inside : k < linesKept console) : (newest scrollbackLines console.scrolledOff)[k]? =
    some (line (console.output.scrollbackBuffer
      ((console.output.scrollbackWritePos + scrollbackLines - linesKept console + k) % scrollbackLines))) := by
  rw [← known, history, recent, count_kept console known, List.getElem?_map, List.getElem?_range inside, Option.map_some, rows]
end

theorem line_cell (cells : Nat → UInt16) (x : Nat) (inside : x < screenWidth) : (line cells)[x]? = some (cells x) := by
  rw [line, List.getElem?_map, List.getElem?_range inside, Option.map_some]

theorem redraw_cell_line (before console : Console) (known : history before.output = newest scrollbackLines before.scrolledOff)
    (output : console.output = before.output) (saved : console.screenSaved = true) (low : 0 < console.scrollOffset)
    (high : console.scrollOffset ≤ linesKept before) (y : Nat) (inside : y < screenHeight) :
    ∃ shown, (lineSequence before.scrolledOff console.savedScreen)[linesKept before - console.scrollOffset.toNat + y]? =
      some shown ∧ ∀ x < screenWidth, shown[x]? = some (redrawCell console y x) := by
  have length : (newest scrollbackLines before.scrolledOff).length = linesKept before := newest_length _ _
  have count := count_kept before known
  generalize placeEq : linesKept before - console.scrollOffset.toNat + y = place
  have index : (linesKept before : Int) + screenHeight - screenHeight - console.scrollOffset + y = place := by omega
  rw [lineSequence]
  by_cases buffered : place < linesKept before
  · rw [List.getElem?_append_left (by rw [length]; exact buffered), kept_line before known place buffered]
    refine ⟨_, rfl, fun x left => ?_⟩
    rw [line_cell _ x left, redrawCell, output, count]
    dsimp only
    rw [index, if_neg (by omega), if_pos (by omega), Int.toNat_natCast]
  · have screen : place - linesKept before < screenHeight := by
      rw [screenHeight] at inside ⊢
      omega
    rw [List.getElem?_append_right (by rw [length]; exact Nat.le_of_not_lt buffered), length, List.getElem?_map,
      List.getElem?_range screen, Option.map_some]
    refine ⟨_, rfl, fun x left => ?_⟩
    have line' : ((place : Int) - (linesKept before : Int)).toNat = place - linesKept before := by omega
    rw [line_cell _ x left, redrawCell, output, count]
    dsimp only
    rw [index, if_neg (by omega), if_neg (by omega), line', if_pos ⟨screen, saved⟩]

theorem cell_place (y x : Nat) (inside : x < screenWidth) :
    (y * screenWidth + x) / screenWidth = y ∧ (y * screenWidth + x) % screenWidth = x := by
  rw [screenWidth] at inside ⊢
  omega

theorem redraw_shown (console : Console) (some : console.output.scrollbackCount ≠ 0) (y x : Nat) (row : y < screenHeight)
    (col : x < screenWidth) (plain : ¬ IsIndicator y x) :
    (scrollbackRedraw console).vga (y * screenWidth + x) = redrawCell console y x := by
  obtain ⟨line', column⟩ := cell_place y x col
  rw [scrollbackRedraw, if_neg some]
  dsimp only
  rw [IsIndicator] at plain
  rw [screenHeight] at row
  rw [line', column, screenWidth] at *
  rw [if_neg (by rw [screenCells]; omega), if_neg (by omega), if_neg (by omega)]

theorem start_paged (before plain : Console) (shadows : Shadows before plain) (live : before.scrollOffset = 0) :
    PagedFrom before before := by
  have zero : ¬ 0 < before.scrollOffset := by omega
  exact ⟨rfl, shadows.offset, by omega, shadows.saved, fun far => absurd far zero, fun far => absurd far zero,
    fun _ _ => rfl, fun _ => rfl⟩

theorem restore_paged (before console : Console) (paged : PagedFrom before console) (far : 0 < console.scrollOffset) :
    PagedFrom before (restoreSavedScreen { console with scrollOffset := 0 }) := by
  rw [restoreSavedScreen, if_pos (paged.away.mpr far)]
  have whole : (fun i => if i < screenCells then console.savedScreen i else console.vga i) = before.vga := by
    funext i
    split
    case isTrue inside => exact paged.saved far i inside
    case isFalse outside => exact paged.beyond i (Nat.le_of_not_lt outside)
  exact ⟨paged.output, Int.le_refl 0, Int.natCast_nonneg _, iff_of_false Bool.false_ne_true (Int.lt_irrefl 0),
    fun far => absurd far (Int.lt_irrefl 0), fun far => absurd far (Int.lt_irrefl 0), fun i _ => congrFun whole i,
    fun _ => whole⟩

theorem reset_paged (before console : Console) (paged : PagedFrom before console) :
    PagedFrom before (scrollbackReset console) ∧ (scrollbackReset console).scrollOffset = 0 := by
  rw [scrollbackReset]
  by_cases far : 0 < console.scrollOffset
  · have restored := restore_paged before console paged far
    rw [if_pos far]
    refine ⟨restored, ?_⟩
    rw [restoreSavedScreen]
    split <;> rfl
  · rw [if_neg far]
    exact ⟨paged, le_antisymm (Int.not_lt.mp far) paged.low⟩

section
variable (before : Console) (known : history before.output = newest scrollbackLines before.scrolledOff)
include known

theorem redraw_paged (console : Console) (output : console.output = before.output) (away : console.screenSaved = true)
    (low : 0 < console.scrollOffset) (high : console.scrollOffset ≤ linesKept before)
    (saved : ∀ i < screenCells, console.savedScreen i = before.vga i)
    (beyond : ∀ i, screenCells ≤ i → console.vga i = before.vga i) : PagedFrom before (scrollbackRedraw console) := by
  have some : console.output.scrollbackCount ≠ 0 := by
    rw [output, count_kept before known]
    omega
  have shown : ShowsFrom (linesKept before - console.scrollOffset.toNat)
      (lineSequence before.scrolledOff console.savedScreen) (scrollbackRedraw console).vga := by
    intro y row
    obtain ⟨line', found, cells⟩ := redraw_cell_line before console known output away low high y row
    refine ⟨line', found, fun x col plain => ?_⟩
    rw [redraw_shown console some y x row col plain, cells x col]
  have rest : ∀ i, screenCells ≤ i → (scrollbackRedraw console).vga i = before.vga i := by
    intro i outside
    rw [scrollbackRedraw, if_neg some]
    dsimp only
    rw [if_pos outside, beyond i outside]
  obtain ⟨vga, drawn⟩ := redraw_keeps console
  rw [drawn] at shown rest ⊢
  exact ⟨output, Int.le_of_lt low, high, iff_of_true away low, fun _ => saved, fun _ => shown, rest,
    fun zero => absurd zero (Int.ne_of_gt low)⟩

variable (console : Console) (paged : PagedFrom before console)
include paged

theorem page_up_paged : PagedFrom before (scrollbackScrollUp console) := by
  have count : (console.output.scrollbackCount : Int) = linesKept before := by
    rw [paged.output, count_kept before known]
  rw [scrollbackScrollUp, count]
  dsimp only
  by_cases none : (linesKept before : Int) = 0
  · rw [if_pos none]
    exact paged
  rw [if_neg none]
  by_cases live : console.scrollOffset = 0
  · have unsaved : ¬ console.screenSaved = true := by
      rw [paged.away, live]
      decide
    rw [if_pos live, saveCurrentScreen, if_neg unsaved]
    dsimp only
    rw [if_pos (by omega)]
    refine redraw_paged before known _ paged.output rfl ?_ ?_ (fun i inside => ?_) paged.beyond
    · dsimp only
      split <;> omega
    · dsimp only
      split <;> omega
    · dsimp only
      rw [if_pos inside, paged.back live]
  · have far : 0 < console.scrollOffset := lt_of_le_of_ne paged.low (Ne.symm live)
    rw [if_neg live]
    split
    · refine redraw_paged before known _ paged.output (paged.away.mpr far) ?_ ?_ (paged.saved far) paged.beyond
      · dsimp only
        split <;> omega
      · dsimp only
        split <;> omega
    · exact paged

theorem page_down_paged : PagedFrom before (scrollbackScrollDown console) := by
  rw [scrollbackScrollDown]
  dsimp only
  by_cases far : 0 < console.scrollOffset
  · rw [if_pos far]
    by_cases last : console.scrollOffset - 5 ≤ 0
    · rw [if_pos last]
      exact restore_paged before console paged far
    · have high := paged.high
      rw [if_neg last]
      refine redraw_paged before known _ paged.output (paged.away.mpr far) ?_ ?_ (paged.saved far) paged.beyond
      · dsimp only
        omega
      · dsimp only
        omega
  · rw [if_neg far]
    exact paged

theorem keys_paged (keys : List Op) (only : ∀ op ∈ keys, isPaging before op = true) :
    ∃ finish, runAll consoleStep console keys = some finish ∧ PagedFrom before finish := by
  induction keys generalizing console with
  | nil => exact ⟨console, rfl, paged⟩
  | cons op keys ih =>
      have later : ∀ op ∈ keys, isPaging before op = true := fun op member => only op (List.mem_cons_of_mem _ member)
      cases op with
      | output op => cases only (.output op) List.mem_cons_self
      | pageUp => exact ih _ (page_up_paged before known console paged) later
      | pageDown => exact ih _ (page_down_paged before known console paged) later
end

theorem paging_shows_lines (memory : Nat → UInt16) (ops keys : List Op) (before : Console)
    (viewed : Along consoleStep InLiveView (ioInit memory) ops)
    (done : runAll consoleStep (ioInit memory) ops = some before) (settled : capturing before.output.pc = false)
    (live : before.scrollOffset = 0) (only : ∀ op ∈ keys, isPaging before op = true) :
    ∃ finish, runAll consoleStep before keys = some finish ∧ PagedFrom before finish ∧
      (scrollbackReset finish).vga = before.vga := by
  have reached := viewed_run ops _ before (init_viewed memory) viewed done
  have known := viewed_history before reached settled
  obtain ⟨plain, shadows, _⟩ := reached
  obtain ⟨finish, paging, paged⟩ :=
    keys_paged before known before (start_paged before plain shadows live) keys only
  obtain ⟨again, zero⟩ := reset_paged before finish paged
  exact ⟨finish, paging, paged, again.back zero⟩

theorem paging_shows_lines_first : ∃ before finish : Console, before.scrolledOff.length = 1 ∧
    runAll consoleStep before [.pageUp, .pageUp, .pageDown, .pageUp] = some finish ∧ PagedFrom before finish := by
  have evaluated : (runAll consoleStep (ioInit fun _ => 0) (lineFeeds 25 ++ ticks 82)).any (fun before =>
      before.scrolledOff.length = 1 ∧ capturing before.output.pc = false ∧ before.scrollOffset = 0) = true := by
    decide +kernel
  obtain ⟨before, done, known⟩ := (Option.any_eq_true _ _).mp evaluated
  obtain ⟨length, settled, live⟩ := of_decide_eq_true known
  obtain ⟨finish, paged, shown, _⟩ := paging_shows_lines (fun _ => 0) (lineFeeds 25 ++ ticks 82)
    [.pageUp, .pageUp, .pageDown, .pageUp] before (by decide +kernel) done settled live (by simp [isPaging])
  exact ⟨before, finish, length, paged, shown⟩

end RoDos.Screen
