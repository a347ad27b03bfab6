import RoDos.Python.Model
import RoDos.Utils.ReadBack

set_option autoImplicit false

namespace RoDos.Python

open Base Fs Gui

-- The language of the interpreter: names are byte strings, the values 32-bit numbers.
inductive Statement where
  | blank
  | quit
  | help
  | printBlank
  | printText (text : List UInt8)
  | printValue (expr : List UInt8)
  | assign (name : List UInt8) (value : UInt32)
  | number (value : UInt32)
  | mention (name : List UInt8)
deriving DecidableEq

def parsePrint (content : List UInt8) : Statement :=
  match content.takeWhile fun byte => byte ≠ 41 with
  | [] => .printBlank
  | first :: rest =>
      if first = 34 ∨ first = 39 then .printText (rest.takeWhile fun byte => byte ≠ first)
      else .printValue ((first :: rest).take 63)

def parseRest (p : List UInt8) : Statement :=
  let front := p.takeWhile fun byte => byte ≠ 61
  let rest := p.drop front.length
  if rest.getD 0 0 = 61 ∧ rest.getD 1 0 ≠ 61 then
    .assign ((front.filter fun byte => !isSpace byte).take 31) (strToInt (skipSpaces (rest.drop 1)))
  else if isDigit (p.getD 0 0) then .number (strToInt p)
  else .mention p

def parse (line : List UInt8) : Statement :=
  if line = [] then .blank
  else
    let p := skipSpaces line
    if p = ascii "exit()" ∨ p = ascii "quit()" then .quit
    else if p = ascii "help()" then .help
    else if p.take 6 = ascii "print(" then parsePrint (p.drop 6)
    else parseRest p

def decimalLine (value : UInt32) : List Shown := puts (decimalText value.toNat ++ [10])

-- What a statement shows where the names have the values of an environment.
def Statement.shown (value : List UInt8 → Option UInt32) : Statement → List Shown
  | .blank => []
  | .quit => say "Goodbye!\n"
  | .help => helpText
  | .printBlank => say "\n"
  | .printText text => puts text ++ say "\n"
  | .printValue expr => decimalLine ((value expr).getD (strToInt expr))
  | .assign _ _ => []
  | .number n => decimalLine n
  | .mention p =>
      match value p with
      | some n => decimalLine n
      | none => if p = [] then [] else nameError p

def Statement.stores : Statement → List (List UInt8 × UInt32)
  | .assign name value => [(name, value)]
  | _ => []

-- The session over the history of all assignments, with no table and no bound on what it remembers.
def historyLoop (history : Variables) (line : List UInt8) : List UInt16 → List Shown × Option (List UInt16)
  | [] => ([], none)
  | k :: keys =>
      match lineKey line k with
      | (echo, .more line) => emit echo (historyLoop history line keys)
      | (echo, .read full) =>
          let shown := (parse full).shown (boundValue maxVariables history)
          if parse full = .quit then (echo ++ shown, some keys)
          else emit (echo ++ shown ++ prompt) (historyLoop (history ++ (parse full).stores) [] keys)

theorem puts_int_decimal (n : UInt32) : putsInt n = decimalLine n := by
  have short : (decimalText n.toNat).length ≤ 9 + 1 :=
    decimal_text_length n.toNat 9 (Nat.lt_trans n.toNat_lt (by decide))
  have bytes := int_to_str_bytes (List.replicate 16 0) n.toNat (by rw [List.length_replicate]; omega)
  rw [putsInt, bytes, c_string_terminated _ _ fun byte member => digit_not_nul byte (decimal_text_digits _ byte member)]
  exact (List.map_append).symm

theorem print_content_shown (vars : Variables) (content : List UInt8) :
    printContent vars content = (parsePrint content).shown (lookupRow vars) ∧ (parsePrint content).stores = [] ∧
      parsePrint content ≠ .quit := by
  rw [printContent, parsePrint]
  dsimp only
  cases content.takeWhile fun byte => byte ≠ 41 with
  | nil => exact ⟨rfl, rfl, Statement.noConfusion⟩
  | cons first rest =>
      dsimp only
      by_cases quote : first = 34 ∨ first = 39
      · rw [if_pos quote, if_pos quote]
        exact ⟨rfl, rfl, Statement.noConfusion⟩
      · rw [if_neg quote, if_neg quote]
        refine ⟨?_, rfl, Statement.noConfusion⟩
        rw [Statement.shown]
        cases lookupRow vars ((first :: rest).take 63) with
        | none => exact puts_int_decimal _
        | some value => exact puts_int_decimal _

theorem eval_line_parse (vars : Variables) (line : List UInt8) :
    evalLine vars line = ((parse line).shown (lookupRow vars),
      if parse line = .quit then none
      else some ((parse line).stores.foldl (fun table row => assignRow maxVariables table row.1 row.2) vars)) := by
  rw [evalLine, parse]
  by_cases empty : line = []
  · rw [if_pos empty, if_pos empty]
    rfl
  rw [if_neg empty, if_neg empty]
  dsimp only
  by_cases quits : skipSpaces line = ascii "exit()" ∨ skipSpaces line = ascii "quit()"
  · rw [if_pos quits, if_pos quits]
    rfl
  rw [if_neg quits, if_neg quits]
  by_cases helps : skipSpaces line = ascii "help()"
  · rw [if_pos helps, if_pos helps]
    rfl
  rw [if_neg helps, if_neg helps]
  by_cases prints : (skipSpaces line).take 6 = ascii "print("
  · rw [if_pos prints, if_pos prints]
    obtain ⟨shown, stores, stays⟩ := print_content_shown vars ((skipSpaces line).drop 6)
    rw [shown, stores, if_neg stays]
    rfl
  rw [if_neg prints, if_neg prints, parseRest]
  split
  · rfl
  split
  · rw [puts_int_decimal]
    rfl
  · rw [Statement.shown]
    cases lookupRow vars (skipSpaces line) with
    | none => rfl
    | some value =>
        dsimp only
        rw [puts_int_decimal]
        rfl

theorem binds_stores (vars history : Variables) (binds : Binds maxVariables vars history) (statement : Statement) :
    Binds maxVariables (statement.stores.foldl (fun table row => assignRow maxVariables table row.1 row.2) vars)
      (history ++ statement.stores) := by
  cases statement with
  | assign name value => exact binds_assign maxVariables vars history name value binds
  | _ =>
      show Binds maxVariables vars (history ++ [])
      rwa [List.append_nil]

-- By induction on the keys: the table is the one of the history at every prompt.
theorem python_loop_history (vars history : Variables) (binds : Binds maxVariables vars history) (line : List UInt8)
    (keys : List UInt16) : pythonLoop vars line keys = historyLoop history line keys := by
  have same : lookupRow vars = boundValue maxVariables history := funext binds.values
  induction keys generalizing vars history line with
  | nil => rfl
  | cons k keys ih =>
      rw [pythonLoop, historyLoop]
      rcases lineKey line k with ⟨echo, edited⟩
      cases edited with
      | more line => exact congrArg (emit echo) (ih vars history binds line same)
      | read full =>
          dsimp only
          rw [eval_line_parse, same]
          by_cases quits : parse full = .quit
          · rw [if_pos quits, if_pos quits]
          · have bound := binds_stores vars history binds (parse full)
            rw [if_neg quits, if_neg quits]
            exact congrArg (emit _) (ih _ _ bound [] (funext bound.values))

theorem session_follows_history (keys : List UInt16) : cmdPython keys = emit (banner ++ prompt) (historyLoop [] [] keys) :=
  congrArg (emit (banner ++ prompt)) (python_loop_history [] [] (binds_start maxVariables) [] keys)

end RoDos.Python
