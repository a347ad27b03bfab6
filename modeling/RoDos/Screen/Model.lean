import Mathlib.Logic.Function.Basic
import Mathlib.Tactic.Common
import RoDos.Base.Erasure

set_option autoImplicit false

namespace RoDos.Screen

open Base

def scrollbackLines : Nat := 500
def screenWidth : Nat := 80
def screenHeight : Nat := 25
def screenCells : Nat := 2000
def movedCells : Nat := 1920

-- Where scroll_up is; capture and tally belong to scrollback_capture_line.
inductive Pc where
  | idle
  | capture (x : Nat)
  | tally
  | move (i : Nat)
  | blank (i : Nat)
deriving DecidableEq, Repr

-- What putc and scroll_up keep besides the video memory.
structure Output where
  cursorRow : Nat
  cursorCol : Nat
  defaultAttr : UInt8
  scrollbackBuffer : Nat → Nat → UInt16
  scrollbackWritePos : Nat
  scrollbackCount : Nat
  pc : Pc

inductive OutputOp where
  | putc (ch : UInt8)
  | setAttr (attr : UInt8)
  | tick
deriving DecidableEq, Repr

-- scrolledOff are the top lines of the video memory when scroll_up was called.
structure Console where
  output : Output
  vga : Nat → UInt16
  savedScreen : Nat → UInt16
  screenSaved : Bool
  scrollOffset : Int
  scrolledOff : List (List UInt16)

inductive Op where
  | output (op : OutputOp)
  | pageUp
  | pageDown
deriving DecidableEq, Repr

def cell (attr ch : UInt8) : UInt16 := (attr.toUInt16 <<< 8) ||| ch.toUInt16

def line (cells : Nat → UInt16) : List UInt16 := (List.range screenWidth).map cells

def cellIndex (output : Output) : Nat := output.cursorRow * screenWidth + output.cursorCol

def checkScroll (output : Output) : Output :=
  if output.cursorRow < screenHeight then output else { output with pc := .capture 0 }

def newLine (output : Output) : Output :=
  checkScroll { output with cursorCol := 0, cursorRow := output.cursorRow + 1 }

def checkWrap (output : Output) : Output := if output.cursorCol < screenWidth then output else newLine output

def putc (output : Output) (vga : Nat → UInt16) (ch : UInt8) : Output × (Nat → UInt16) :=
  if ch = 0x0A then (newLine output, vga)
  else if ch = 0x0D then ({ output with cursorCol := 0 }, vga)
  else if ch = 0x08 then
    if output.cursorCol = 0 then (output, vga)
    else
      let back := { output with cursorCol := output.cursorCol - 1 }
      (back, Function.update vga (cellIndex back) (cell output.defaultAttr 0x20))
  else
    (checkWrap { output with cursorCol := output.cursorCol + 1 },
      Function.update vga (cellIndex output) (cell output.defaultAttr ch))

def captureCell (output : Output) (vga : Nat → UInt16) (x : Nat) : Output :=
  { output with
    scrollbackBuffer := Function.update output.scrollbackBuffer output.scrollbackWritePos
      (Function.update (output.scrollbackBuffer output.scrollbackWritePos) x (vga x))
    pc := .capture (x + 1) }

-- The keyboard interrupts between any two of these steps.
def scrollUp (output : Output) (vga : Nat → UInt16) : Option (Output × (Nat → UInt16)) :=
  match output.pc with
  | .idle => none
  | .capture x =>
      if x < screenWidth then some (captureCell output vga x, vga)
      else
        some ({ output with
          scrollbackWritePos := (output.scrollbackWritePos + 1) % scrollbackLines, pc := .tally }, vga)
  | .tally =>
      let count := output.scrollbackCount
      some ({ output with scrollbackCount := if count < scrollbackLines then count + 1 else count, pc := .move 0 }, vga)
  | .move i =>
      if i < movedCells then
        some ({ output with pc := .move (i + 1) }, Function.update vga i (vga (i + screenWidth)))
      else some ({ output with pc := .blank 0 }, vga)
  | .blank i =>
      if i < screenWidth then
        some ({ output with pc := .blank (i + 1) },
          Function.update vga (movedCells + i) (cell output.defaultAttr 0x20))
      else some ({ output with cursorRow := 24, pc := .idle }, vga)

def outputStep (output : Output) (vga : Nat → UInt16) : OutputOp → Option (Output × (Nat → UInt16))
  | .putc ch => if output.pc = .idle then some (putc output vga ch) else none
  | .setAttr attr => if output.pc = .idle then some ({ output with defaultAttr := attr }, vga) else none
  | .tick => scrollUp output vga

def saveCurrentScreen (console : Console) : Console :=
  if console.screenSaved then console
  else
    { console with
      savedScreen := fun i => if i < screenCells then console.vga i else console.savedScreen i, screenSaved := true }

def restoreSavedScreen (console : Console) : Console :=
  if console.screenSaved then
    { console with
      vga := fun i => if i < screenCells then console.savedScreen i else console.vga i, screenSaved := false }
  else console

def redrawCell (console : Console) (y x : Nat) : UInt16 :=
  let count := console.output.scrollbackCount
  let totalLines : Int := count + screenHeight
  let viewStart := totalLines - screenHeight - console.scrollOffset
  let lineIdx := viewStart + y
  if lineIdx < 0 then 0x0720
  else if lineIdx < count then
    let bufIdx := (console.output.scrollbackWritePos + scrollbackLines - count + lineIdx.toNat) % scrollbackLines
    console.output.scrollbackBuffer bufIdx x
  else
    let screenY := (lineIdx - count).toNat
    if screenY < screenHeight ∧ console.screenSaved = true then console.savedScreen (screenY * screenWidth + x)
    else console.vga (y * screenWidth + x)

-- The two indicators are drawn over the last cell of the first and of the last line.
def scrollbackRedraw (console : Console) : Console :=
  if console.output.scrollbackCount = 0 then console
  else
    { console with
      vga := fun i =>
        if screenCells ≤ i then console.vga i
        else if 0 < console.scrollOffset ∧ i = 79 then 0x4E00 ||| 0x5E
        else if 0 < console.scrollOffset ∧ i = 24 * screenWidth + 79 then 0x4E00 ||| 0x76
        else redrawCell console (i / screenWidth) (i % screenWidth) }

def scrollbackScrollUp (console : Console) : Console :=
  let count : Int := console.output.scrollbackCount
  if count = 0 then console
  else
    let saved := if console.scrollOffset = 0 then saveCurrentScreen console else console
    if saved.scrollOffset < count then
      let further := saved.scrollOffset + 5
      scrollbackRedraw { saved with scrollOffset := if count < further then count else further }
    else saved

def scrollbackScrollDown (console : Console) : Console :=
  if 0 < console.scrollOffset then
    let back := console.scrollOffset - 5
    if back ≤ 0 then restoreSavedScreen { console with scrollOffset := 0 }
    else scrollbackRedraw { console with scrollOffset := back }
  else console

def scrollbackReset (console : Console) : Console :=
  if 0 < console.scrollOffset then restoreSavedScreen { console with scrollOffset := 0 } else console

def consoleStep (console : Console) : Op → Option Console
  | .output op =>
      (outputStep console.output console.vga op).map fun result =>
        { console with
          output := result.1
          vga := result.2
          scrolledOff :=
            if result.1.pc = .capture 0 then console.scrolledOff ++ [line result.2] else console.scrolledOff }
  | .pageUp => some (scrollbackScrollUp console)
  | .pageDown => some (scrollbackScrollDown console)

def isPaging (_ : Console) : Op → Bool
  | .output _ => false
  | .pageUp | .pageDown => true

-- io_init clears the cells of the screen, memory is what the rest of the video memory holds.
def ioInit (memory : Nat → UInt16) : Console :=
  { output := { cursorRow := 0, cursorCol := 0, defaultAttr := 0x07, scrollbackBuffer := fun _ _ => 0
                scrollbackWritePos := 0, scrollbackCount := 0, pc := .idle }
    vga := fun i => if i < screenCells then cell 0x07 0x20 else memory i
    savedScreen := fun _ => 0, screenSaved := false, scrollOffset := 0, scrolledOff := [] }

end RoDos.Screen
