import RoDos.Base.CString

set_option autoImplicit false

namespace RoDos.Shell

open Base

def maxInput : Nat := 256
def historySize : Nat := 20

structure ShellState where
  line : List UInt8
  pos : Nat
  history : List (List UInt8)
  historyCount : Nat
  historyPos : Nat
deriving DecidableEq, Repr

def isBlank (byte : UInt8) : Bool := byte = 32 ∨ byte = 9 ∨ byte = 10 ∨ byte = 13

def strTrimLoop (s : List UInt8) : Nat → List UInt8
  | 0 => s
  | len + 1 => if isBlank (s.getD len 0) then strTrimLoop (s.set len 0) len else s

def strTrim (s : List UInt8) : List UInt8 := strTrimLoop s (cString s).length

def isLower (byte : UInt8) : Bool := 97 ≤ byte ∧ byte ≤ 122

def toUpper (byte : UInt8) : UInt8 := if isLower byte then byte - 32 else byte

def strupr (s : List UInt8) : List UInt8 := (cString s).map toUpper ++ s.drop (cString s).length

-- The static arrays are zero before the first prompt.
def boot : ShellState :=
  ⟨List.replicate maxInput 0, 0, List.replicate historySize (List.replicate maxInput 0), 0, 0⟩

def prompt (shell : ShellState) : ShellState := { shell with pos := 0, line := List.replicate maxInput 0 }

-- Both arrow keys copy an entry over the line; the bytes behind its NUL stay.
def recallEntry (shell : ShellState) (entry : Nat) : ShellState :=
  let source := shell.history.getD entry []
  { shell with
    line := strCopy shell.line source maxInput
    pos := ((cString source).take (maxInput - 1)).length
    historyPos := entry }

def arrowUp (shell : ShellState) : ShellState :=
  if 0 < shell.historyCount then
    recallEntry shell (if 0 < shell.historyPos then shell.historyPos - 1 else shell.historyPos)
  else shell

def arrowDown (shell : ShellState) : ShellState :=
  if 0 < shell.historyCount ∧ shell.historyPos + 1 < shell.historyCount then recallEntry shell (shell.historyPos + 1)
  else shell

def addHistory (shell : ShellState) (line : List UInt8) : ShellState :=
  if shell.historyCount < historySize then
    { shell with
      history := shell.history.set shell.historyCount
        (strCopy (shell.history.getD shell.historyCount []) line maxInput)
      historyCount := shell.historyCount + 1
      historyPos := shell.historyCount + 1 }
  else
    { shell with
      history := shell.history.drop 1 ++ [strCopy (shell.history.getD (historySize - 1) []) line maxInput]
      historyPos := shell.historyCount }

-- What follows the inner loop, whichever key left it: the string handed to cmd_dispatch, if any.
def submit (shell : ShellState) : ShellState × Option (List UInt8) :=
  let line := strTrim shell.line
  if 0 < (cString line).length then (prompt (addHistory shell line), some (cString (strupr line)))
  else (prompt shell, none)

-- Page Up and Page Down come with key 0, which no later branch takes either.
def pressKey (shell : ShellState) (k : UInt16) : ShellState × Option (List UInt8) :=
  let key := k.toUInt8
  let scan := (k >>> 8).toUInt8
  if key = 0 ∧ scan = 0x48 then (arrowUp shell, none)
  else if key = 0 ∧ scan = 0x50 then (arrowDown shell, none)
  else if key = 13 ∨ key = 10 then submit { shell with line := shell.line.set shell.pos 0 }
  else if key = 3 then submit { shell with pos := 0 }
  else if key = 8 then (if 0 < shell.pos then { shell with pos := shell.pos - 1 } else shell, none)
  else if shell.pos < maxInput - 1 ∧ 32 ≤ key ∧ key ≤ 126 then
    ({ shell with line := shell.line.set shell.pos key, pos := shell.pos + 1 }, none)
  else (shell, none)

def session : ShellState → List UInt16 → List (Option (List UInt8)) × ShellState
  | shell, [] => ([], shell)
  | shell, k :: keys =>
      let pressed := pressKey shell k
      let rest := session pressed.1 keys
      (pressed.2 :: rest.1, rest.2)

def storedLines (shell : ShellState) : List (List UInt8) := (shell.history.take shell.historyCount).map cString

end RoDos.Shell
