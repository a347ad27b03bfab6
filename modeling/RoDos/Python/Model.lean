import RoDos.Base.Bindings
import RoDos.Fs.Model
import RoDos.Gui.Calculator
import RoDos.Tokens

set_option autoImplicit false

namespace RoDos.Python

open Base Fs Gui

-- What the interpreter sends to the screen: a byte of putc, or an attribute of set_attr.
inductive Shown where
  | put (byte : UInt8)
  | attr (color : UInt8)
deriving DecidableEq

def puts (text : List UInt8) : List Shown := text.map .put

def say (text : String) : List Shown := puts (ascii text)

-- The rows of var_names and var_values in use.
abbrev Variables := List (List UInt8 × UInt32)

def maxVariables : Nat := 16

-- char buf[16]; int_to_str(n, buf); puts(buf); puts("\n");
def putsInt (n : UInt32) : List Shown :=
  puts (cString (setAll (List.replicate 16 0) (intToStr n.toNat))) ++ say "\n"

def helpText : List Shown :=
  say "RO-DOS Python Micro Edition\n" ++
  say "Commands:\n" ++
  say "  print(\"text\") or print(expr) - Display output\n" ++
  say "  input(\"prompt\")             - Get user input\n" ++
  say "  x = value                    - Assign variable\n" ++
  say "  Math: + - * / % ( )          - Arithmetic\n" ++
  say "  exit() or quit()             - Exit interpreter\n"

def nameError (p : List UInt8) : List Shown :=
  .attr 0x0C :: say "NameError: name '" ++ puts p ++ say "' is not defined\n" ++ [.attr 0x07]

-- print() with what stands before the first ')' behind its '('.
def printContent (vars : Variables) (content : List UInt8) : List Shown :=
  let inner := content.takeWhile fun byte => byte ≠ 41
  match inner with
  | [] => say "\n"
  | first :: rest =>
      if first = 34 ∨ first = 39 then puts (rest.takeWhile fun byte => byte ≠ first) ++ say "\n"
      else
        let expr := inner.take 63
        match lookupRow vars expr with
        | some value => putsInt value
        | none => putsInt (strToInt expr)

-- The name is what stands before the '=' without its blanks, cut to the 31 bytes of varname.
def assignVariable (vars : Variables) (front rest : List UInt8) : Variables :=
  let varname := (front.filter fun byte => !isSpace byte).take 31
  assignRow maxVariables vars varname (strToInt (skipSpaces (rest.drop 1)))

-- One line of the session: its output, and the variables behind it unless it leaves the interpreter.
def evalLine (vars : Variables) (line : List UInt8) : List Shown × Option Variables :=
  if line = [] then ([], some vars)
  else
    let p := skipSpaces line
    if p = ascii "exit()" ∨ p = ascii "quit()" then (say "Goodbye!\n", none)
    else if p = ascii "help()" then (helpText, some vars)
    else if p.take 6 = ascii "print(" then (printContent vars (p.drop 6), some vars)
    else
      let front := p.takeWhile fun byte => byte ≠ 61
      let rest := p.drop front.length
      if rest.getD 0 0 = 61 ∧ rest.getD 1 0 ≠ 61 then ([], some (assignVariable vars front rest))
      else if isDigit (p.getD 0 0) then (putsInt (strToInt p), some vars)
      else
        match lookupRow vars p with
        | some value => (putsInt value, some vars)
        | none => (if p = [] then [] else nameError p, some vars)

-- What a key does to the line: it goes on, or it is read, as it stands or as nothing.
inductive LineKey where
  | more (line : List UInt8)
  | read (line : List UInt8)
deriving DecidableEq

def maxLine : Nat := 255

def lineKey (line : List UInt8) (k : UInt16) : List Shown × LineKey :=
  let key := k.toUInt8
  if key = 13 ∨ key = 10 then ([.put 10], .read line)
  else if key = 27 then (say "\nKeyboardInterrupt\n", .read [])
  else if key = 8 ∧ line ≠ [] then ([.put 8, .put 32, .put 8], .more line.dropLast)
  else if 32 ≤ key ∧ key ≤ 126 then
    let line := line ++ [key]
    ([.put key], if line.length < maxLine then .more line else .read line)
  else ([], .more line)

def prompt : List Shown := say ">>> "

def emit (shown : List Shown) (rest : List Shown × Option (List UInt16)) : List Shown × Option (List UInt16) :=
  (shown ++ rest.1, rest.2)

-- The two loops: what they show, and the keys left for the shell once the interpreter returns.
def pythonLoop (vars : Variables) (line : List UInt8) : List UInt16 → List Shown × Option (List UInt16)
  | [] => ([], none)
  | k :: keys =>
      match lineKey line k with
      | (echo, .more line) => emit echo (pythonLoop vars line keys)
      | (echo, .read full) =>
          match evalLine vars full with
          | (shown, none) => (echo ++ shown, some keys)
          | (shown, some vars) => emit (echo ++ shown ++ prompt) (pythonLoop vars [] keys)

def banner : List Shown :=
  .attr 0x0E :: say "RO-DOS Python 0.1 (Micro Edition)\n" ++
  say "A minimal Python-like interpreter for RO-DOS.\n" ++
  .attr 0x07 :: say "Type 'exit()' or 'quit()' to exit.\n" ++
  say "Supported: print(), input(), basic math (+,-,*,/,%), variables\n\n"

def cmdPython (keys : List UInt16) : List Shown × Option (List UInt16) := emit (banner ++ prompt) (pythonLoop [] [] keys)

end RoDos.Python
