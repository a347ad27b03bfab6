import RoDos.Base.Runs
import Mathlib.Algebra.Ring.Int.Defs

set_option autoImplicit false

namespace RoDos.Gui

open Base

structure Browser where
  selected : Int
  scroll : Int
deriving DecidableEq

inductive BrowserEvent where
  | key (key : UInt16)
  | click (x y : Int)

def browserStart : Browser := ⟨0, 0⟩

def visibleItems : Int := 8

-- The entries that one round of the drawing loop shows, from the i-th on.
def drawFiles (fsCount : Int) (i : Int) : Nat → List Int
  | 0 => []
  | left + 1 => if i < fsCount then i :: drawFiles fsCount (i + 1) left else []

def drawnFiles (fsCount : Int) (browser : Browser) : List Int := drawFiles fsCount browser.scroll visibleItems.toNat

def browserUp (browser : Browser) : Browser :=
  if 0 < browser.selected then
    let selected := browser.selected - 1
    ⟨selected, if selected < browser.scroll then selected else browser.scroll⟩
  else browser

def browserDown (fsCount : Int) (browser : Browser) : Browser :=
  if browser.selected < fsCount - 1 then
    let selected := browser.selected + 1
    ⟨selected, if browser.scroll + visibleItems ≤ selected then selected - visibleItems + 1 else browser.scroll⟩
  else browser

-- The list area is 288 wide and 120 high, from (16, 36) on.
def inList (x y : Int) : Prop := 16 ≤ x ∧ x < 16 + 288 ∧ 36 ≤ y ∧ y < 36 + 120

instance (x y : Int) : Decidable (inList x y) := inferInstanceAs (Decidable (16 ≤ x ∧ x < 16 + 288 ∧ 36 ≤ y ∧ y < 36 + 120))

def clickedItem (browser : Browser) (y : Int) : Int := browser.scroll + (y - 36) / 14

def browserClick (fsCount : Int) (browser : Browser) (x y : Int) : Browser :=
  if inList x y ∧ clickedItem browser y < fsCount then { browser with selected := clickedItem browser y } else browser

-- Escape and the close button reboot, which does not come back.
def guiFilebrowser (fsCount : Int) (browser : Browser) : BrowserEvent → Option Browser
  | .key key =>
      let scancode := (key >>> 8).toUInt8
      if scancode = 0x01 then none
      else if scancode = 0x48 then some (browserUp browser)
      else if scancode = 0x50 then some (browserDown fsCount browser)
      else some browser
  | .click x y =>
      if 300 ≤ x ∧ x < 315 ∧ 10 ≤ y ∧ y < 25 then none
      else some (browserClick fsCount browser x y)

structure BrowserSound (fsCount : Int) (browser : Browser) : Prop where
  table : 0 ≤ browser.selected ∧ browser.selected < max fsCount 1
  top : 0 ≤ browser.scroll
  page : browser.scroll ≤ browser.selected ∧ browser.selected < browser.scroll + 8
  drawn : 0 < fsCount → browser.selected ∈ drawnFiles fsCount browser

-- The list area is taller than its eight entries: below them a ninth one answers, where there is one.
def Shown (fsCount : Int) (browser : Browser) : BrowserEvent → Prop
  | .key _ => True
  | .click x y => ¬ (inList x y ∧ 36 + 8 * 14 ≤ y ∧ browser.scroll + 8 < fsCount)

theorem draw_files_mem (fsCount i own : Int) (left : Nat) :
    own ∈ drawFiles fsCount i left ↔ i ≤ own ∧ own < i + left ∧ own < fsCount := by
  induction left generalizing i with
  | zero =>
      rw [drawFiles]
      exact iff_of_false List.not_mem_nil (by omega)
  | succ left ih =>
      rw [drawFiles]
      by_cases inside : i < fsCount
      · rw [if_pos inside, List.mem_cons, ih]
        omega
      · rw [if_neg inside]
        exact iff_of_false List.not_mem_nil (by omega)

section
variable (fsCount : Int) (browser : Browser)

theorem browser_sound_iff : BrowserSound fsCount browser ↔
    browser.selected < max fsCount 1 ∧ 0 ≤ browser.scroll ∧ browser.scroll ≤ browser.selected ∧
      browser.selected < browser.scroll + 8 := by
  constructor
  · rintro ⟨⟨_, high⟩, top, ⟨above, below⟩, _⟩
    exact ⟨high, top, above, below⟩
  · rintro ⟨high, top, above, below⟩
    refine ⟨⟨Int.le_trans top above, high⟩, top, ⟨above, below⟩, fun some' => ?_⟩
    have page : ((visibleItems.toNat : Nat) : Int) = 8 := rfl
    rw [drawnFiles, draw_files_mem, page]
    omega

variable (sound : BrowserSound fsCount browser)
include sound

theorem up_sound : BrowserSound fsCount (browserUp browser) := by
  have held := (browser_sound_iff fsCount browser).mp sound
  rw [browserUp]
  by_cases first : 0 < browser.selected
  · rw [if_pos first, browser_sound_iff]
    dsimp only
    by_cases scrolls : browser.selected - 1 < browser.scroll
    · rw [if_pos scrolls]
      omega
    · rw [if_neg scrolls]
      omega
  · rw [if_neg first]
    exact sound

theorem down_sound : BrowserSound fsCount (browserDown fsCount browser) := by
  have held := (browser_sound_iff fsCount browser).mp sound
  rw [browserDown]
  by_cases last : browser.selected < fsCount - 1
  · rw [if_pos last, browser_sound_iff]
    have eight : visibleItems = 8 := rfl
    dsimp only
    by_cases scrolls : browser.scroll + visibleItems ≤ browser.selected + 1
    · rw [if_pos scrolls]
      omega
    · rw [if_neg scrolls]
      omega
  · rw [if_neg last]
    exact sound

theorem click_sound_iff (x y : Int) : Shown fsCount browser (.click x y) ↔ BrowserSound fsCount (browserClick fsCount browser x y) := by
  have held := (browser_sound_iff fsCount browser).mp sound
  rw [browserClick, Shown, clickedItem]
  by_cases clicked : inList x y ∧ browser.scroll + (y - 36) / 14 < fsCount
  · have area := clicked.1
    rw [if_pos clicked, browser_sound_iff]
    rw [inList] at area ⊢
    dsimp only
    omega
  · rw [if_neg clicked]
    refine iff_of_true (fun ninth => clicked ⟨ninth.1, ?_⟩) sound
    have area := ninth.1
    rw [inList] at area
    omega

theorem step_shown_iff (event : BrowserEvent) : Shown fsCount browser event ↔
    ∀ after, guiFilebrowser fsCount browser event = some after → BrowserSound fsCount after := by
  cases event with
  | key key =>
      refine iff_of_true trivial fun after taken => ?_
      rw [guiFilebrowser] at taken
      split at taken
      · cases taken
      · split at taken
        · cases taken
          exact up_sound fsCount browser sound
        · split at taken
          · cases taken
            exact down_sound fsCount browser sound
          · cases taken
            exact sound
  | click x y =>
      rw [guiFilebrowser]
      by_cases closes : 300 ≤ x ∧ x < 315 ∧ 10 ≤ y ∧ y < 25
      · rw [if_pos closes]
        refine iff_of_true (fun ninth => ?_) fun after taken => ?_
        · have area := ninth.1.2.2.1
          omega
        · cases taken
      · rw [if_neg closes, click_sound_iff fsCount browser sound]
        exact ⟨fun right after taken => Option.some.inj taken ▸ right, fun all => all _ rfl⟩
end

theorem browser_start_sound (fsCount : Int) : BrowserSound fsCount browserStart :=
  (browser_sound_iff fsCount browserStart).mpr
    ⟨Int.lt_of_lt_of_le Int.one_pos (Int.le_max_right _ _), Int.le_refl _, Int.le_refl _, by decide⟩

theorem browser_shown_iff (fsCount : Int) (events : List BrowserEvent) :
    (∀ prior browser, prior <+: events → runAll (guiFilebrowser fsCount) browserStart prior = some browser →
      BrowserSound fsCount browser) ↔ Along (guiFilebrowser fsCount) (Shown fsCount) browserStart events :=
  prefixes_iff_along (guiFilebrowser fsCount) (BrowserSound fsCount) (Shown fsCount)
    (fun browser event sound => step_shown_iff fsCount browser sound event) browserStart (browser_start_sound fsCount) events

theorem browser_not_shown : ¬ ∀ fsCount events browser, runAll (guiFilebrowser fsCount) browserStart events = some browser →
    BrowserSound fsCount browser := by
  intro claimed
  have sound := claimed 9 [.click 20 150] ⟨8, 0⟩ (by decide)
  exact absurd sound.page.2 (by decide)

end RoDos.Gui
