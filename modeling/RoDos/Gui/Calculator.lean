import RoDos.Base.Decimal
import RoDos.Base.Memory
import RoDos.Base.Runs

set_option autoImplicit false

namespace RoDos.Gui

open Base

structure Calculator where
  display : Buffer 32
  storedValue : Int
  currentValue : Int
  operation : UInt8
  newNumber : Bool

def calculatorStart : Calculator := ⟨⟨48 :: List.replicate 31 0, rfl⟩, 0, 0, 0, true⟩

def digitCount (n : Nat) : Nat := if n = 0 then 0 else digitCount (n / 10) + 1

def putDigits (n i : Nat) : Writes :=
  if n = 0 then [] else (i - 1, UInt8.ofNat (48 + n % 10)) :: putDigits (n / 10) (i - 1)

def intToStr (n : Nat) : Writes :=
  if n = 0 then [(0, 48), (1, 0)] else (digitCount n, 0) :: putDigits n (digitCount n)

-- The digits of the display; all other characters are passed over.
def parseDisplay (text : List UInt8) : Int :=
  text.foldl (fun value byte => if isDigit byte then wrapInt (value * 10 + ((byte.toNat - 48 : Nat) : Int)) else value) 0

-- A division by zero and the one whose quotient is no int trap.
def idiv (a b : Int) : Option Int := if b = 0 ∨ a = -2 ^ 31 ∧ b = -1 then none else some (a.tdiv b)

def applyOperation (operation : UInt8) (stored current : Int) : Option Int :=
  if operation = 43 then some (wrapInt (stored + current))
  else if operation = 45 then some (wrapInt (stored - current))
  else if operation = 42 then some (wrapInt (stored * current))
  else if operation = 47 then (if current ≠ 0 then idiv stored current else some current)
  else some current

def isOperator (bc : UInt8) : Prop := bc = 43 ∨ bc = 45 ∨ bc = 42 ∨ bc = 47

instance (bc : UInt8) : Decidable (isOperator bc) := inferInstanceAs (Decidable (bc = 43 ∨ bc = 45 ∨ bc = 42 ∨ bc = 47))

def Calculator.put (state : Calculator) (writes : Writes) : Writes × Calculator :=
  (writes, { state with display := state.display.store writes })

-- PROCESS_BUTTON: the stores to the display, and the state behind the press, unless it traps.
def processButton (state : Calculator) (bc : UInt8) : Option (Writes × Calculator) :=
  let text := state.display.text
  if bc = 67 then
    some (Calculator.put { state with storedValue := 0, currentValue := 0, operation := 0, newNumber := true } [(0, 48), (1, 0)])
  else if isDigit bc then
    if state.newNumber ∨ text.length = 1 ∧ text.head? = some 48 then
      some (Calculator.put { state with newNumber := false } [(0, bc), (1, 0)])
    else if text.length < 10 then some (state.put [(text.length, bc), (text.length + 1, 0)])
    else some (state.put [])
  else if bc = 46 then
    if 46 ∉ text ∧ text.length < 10 then some (state.put [(text.length, 46), (text.length + 1, 0)]) else some (state.put [])
  else if bc = 61 then
    (applyOperation state.operation state.storedValue (parseDisplay text)).map fun current =>
      Calculator.put { state with currentValue := current, operation := 0, newNumber := true } (intToStr (current % 2 ^ 32).toNat)
  else if isOperator bc then
    some (Calculator.put { state with
      currentValue := parseDisplay text
      storedValue := parseDisplay text
      operation := bc
      newNumber := true } [])
  else some (state.put [])

def pressButton (state : Calculator) (bc : UInt8) : Option Calculator := (processButton state bc).map Prod.snd

def Divides (state : Calculator) (bc : UInt8) : Prop :=
  ¬ (bc = 61 ∧ state.operation = 47 ∧ state.storedValue = -2 ^ 31 ∧ parseDisplay state.display.text = -1)

structure DisplaySound (state : Calculator) : Prop where
  terminated : state.display.Terminated
  short : state.display.text.length ≤ 10
  inside : ∀ bc writes next, processButton state bc = some (writes, next) → Inside 32 writes

theorem digit_count_body (n : Nat) : digitCount n = (decimalBody n).length := by
  induction n using Nat.strongRecOn with
  | ind n ih =>
      rw [digitCount]
      by_cases zero : n = 0
      · rw [if_pos zero, zero, decimal_body_zero, List.length_nil]
      · rw [if_neg zero, ih (n / 10) (Nat.div_lt_self (Nat.pos_of_ne_zero zero) (by decide)),
          decimal_body_step n (Nat.pos_of_ne_zero zero), List.length_append, List.length_singleton]

theorem put_digits_stored (bytes : List UInt8) (n i : Nat) (long : (decimalBody n).length ≤ i) (inside : i ≤ bytes.length) :
    setAll bytes (putDigits n i) = bytes.take (i - (decimalBody n).length) ++ decimalBody n ++ bytes.drop i := by
  induction n using Nat.strongRecOn generalizing bytes i with
  | ind n ih =>
      rw [putDigits]
      by_cases zero : n = 0
      · rw [if_pos zero, zero, decimal_body_zero, List.length_nil, Nat.sub_zero, List.append_nil, List.take_append_drop]
        rfl
      · have step := decimal_body_step n (Nat.pos_of_ne_zero zero)
        have width := congrArg List.length step
        rw [List.length_append, List.length_singleton] at width
        have later := ih (n / 10) (Nat.div_lt_self (Nat.pos_of_ne_zero zero) (by decide))
          (bytes.set (i - 1) (UInt8.ofNat (48 + n % 10))) (i - 1) (by omega) (by rw [List.length_set]; omega)
        have front : i - 1 - (decimalBody (n / 10)).length = i - (decimalBody n).length := by omega
        have back : (bytes.set (i - 1) (UInt8.ofNat (48 + n % 10))).drop (i - 1) =
            UInt8.ofNat (48 + n % 10) :: bytes.drop i := by
          have next : i - 1 + 1 = i := by omega
          rw [List.drop_set, if_neg (Nat.lt_irrefl _), Nat.sub_self, List.drop_eq_getElem_cons (by omega), List.set_cons_zero, next]
        have kept : (bytes.set (i - 1) (UInt8.ofNat (48 + n % 10))).take (i - (decimalBody n).length) =
            bytes.take (i - (decimalBody n).length) := by
          rw [List.take_set_of_le (by omega)]
        rw [if_neg zero, setAll, List.foldl_cons, ← setAll, later, front, back, kept, step]
        simp only [List.append_assoc, List.cons_append, List.nil_append]

theorem put_digits_inside (n i : Nat) (long : (decimalBody n).length ≤ i) (size : Nat) (inside : i ≤ size) :
    Inside size (putDigits n i) := by
  induction n using Nat.strongRecOn generalizing i with
  | ind n ih =>
      rw [putDigits]
      by_cases zero : n = 0
      · rw [if_pos zero]
        exact fun write member => absurd member List.not_mem_nil
      · have width := congrArg List.length (decimal_body_step n (Nat.pos_of_ne_zero zero))
        rw [List.length_append, List.length_singleton] at width
        rw [if_neg zero]
        exact List.forall_mem_cons.mpr ⟨by dsimp only; omega,
          ih (n / 10) (Nat.div_lt_self (Nat.pos_of_ne_zero zero) (by decide)) (i - 1) (by omega) (by omega)⟩

theorem int_to_str_bytes (bytes : List UInt8) (n : Nat) (room : (decimalText n).length < bytes.length) :
    setAll bytes (intToStr n) = decimalText n ++ 0 :: bytes.drop ((decimalText n).length + 1) := by
  rw [intToStr]
  rw [decimalText] at room ⊢
  by_cases zero : n = 0
  · rw [if_pos zero] at room ⊢
    have copied := set_all_run bytes 0 [48, 0] room
    rw [if_pos zero]
    exact copied
  · rw [if_neg zero] at room ⊢
    have later := put_digits_stored (bytes.set (decimalBody n).length 0) n (decimalBody n).length (Nat.le_refl _)
      (by rw [List.length_set]; omega)
    rw [if_neg zero, digit_count_body, setAll, List.foldl_cons, ← setAll, later, Nat.sub_self, List.take_zero, List.nil_append,
      List.drop_set, if_neg (Nat.lt_irrefl _), Nat.sub_self, List.drop_eq_getElem_cons (by omega), List.set_cons_zero]

theorem int_to_str_inside (n size : Nat) (room : (decimalText n).length < size) : Inside size (intToStr n) := by
  rw [intToStr]
  rw [decimalText] at room
  by_cases zero : n = 0
  · rw [if_pos zero] at room ⊢
    exact (copy_run_inside size 0 [48, 0]).mpr (Or.inr room)
  · rw [if_neg zero] at room ⊢
    have count := digit_count_body n
    exact List.forall_mem_cons.mpr ⟨by rw [count]; exact room, put_digits_inside n _ (by omega) size (by omega)⟩

theorem int_to_str_stored (buffer : Buffer 32) (n : Nat) (word : n < 2 ^ 32) :
    (buffer.store (intToStr n)).text = decimalText n ∧ (buffer.store (intToStr n)).Terminated ∧ Inside 32 (intToStr n) := by
  have short := decimal_text_length n 9 (Nat.lt_trans word (by decide))
  have width := buffer.width
  have noNul : ∀ byte ∈ decimalText n, byte ≠ 0 := fun byte member => digit_not_nul byte (decimal_text_digits n byte member)
  have stored := text_of_split (buffer.store (intToStr n)) _ _ noNul (int_to_str_bytes buffer.bytes n (by omega))
  exact ⟨stored.1, stored.2, int_to_str_inside n 32 (by omega)⟩

theorem apply_traps_iff (operation : UInt8) (stored current : Int) :
    applyOperation operation stored current = none ↔ operation = 47 ∧ stored = -2 ^ 31 ∧ current = -1 := by
  have trap : current ≠ 0 → (idiv stored current = none ↔ stored = -2 ^ 31 ∧ current = -1) := by
    intro some'
    rw [idiv]
    by_cases least : stored = -2 ^ 31 ∧ current = -1
    · rw [if_pos (Or.inr least)]
      exact iff_of_true rfl least
    · rw [if_neg (not_or.mpr ⟨some', least⟩)]
      exact iff_of_false (Option.some_ne_none _) least
  rw [applyOperation]
  by_cases divides : operation = 47
  · rw [divides, if_neg (by decide), if_neg (by decide), if_neg (by decide), if_pos rfl]
    by_cases some' : current ≠ 0
    · rw [if_pos some', trap some']
      exact ⟨fun least => ⟨rfl, least⟩, And.right⟩
    · rw [if_neg some']
      exact iff_of_false (Option.some_ne_none _) (by omega)
  · refine iff_of_false (fun none' => ?_) fun all => divides all.1
    rw [if_neg divides] at none'
    split at none'
    · exact Option.some_ne_none _ none'
    · split at none'
      · exact Option.some_ne_none _ none'
      · split at none' <;> exact Option.some_ne_none _ none'

theorem press_divides_iff (state : Calculator) (bc : UInt8) : Divides state bc ↔ pressButton state bc ≠ none := by
  rw [Divides, pressButton, ne_eq, Option.map_eq_none_iff, not_iff_not, processButton]
  by_cases equals : bc = 61
  · rw [equals, if_neg (by decide), if_neg (by decide), if_neg (by decide), if_pos rfl, Option.map_eq_none_iff, apply_traps_iff]
    exact ⟨And.right, fun all => ⟨rfl, all⟩⟩
  · refine iff_of_false (fun all => equals all.1) fun none' => ?_
    rw [if_neg equals] at none'
    grind

-- What a press does to a display that holds at most ten characters.
section
variable (state : Calculator)

theorem fresh_shown (byte : UInt8) (solid : byte ≠ 0) : (state.display.store [(0, byte), (1, 0)]).Terminated ∧
    (state.display.store [(0, byte), (1, 0)]).text.length ≤ 10 ∧ Inside 32 [(0, byte), (1, 0)] := by
  have stored := text_stored state.display [byte] (by simpa using solid) (show 1 < 32 by decide)
  exact ⟨stored.2, stored.1.symm ▸ (by decide : 1 ≤ 10), (copy_run_inside 32 0 [byte, 0]).mpr (Or.inr (show 2 ≤ 32 by decide))⟩

theorem longer_shown (byte : UInt8) (solid : byte ≠ 0) (room : state.display.text.length < 10) :
    let stores := [(state.display.text.length, byte), (state.display.text.length + 1, 0)]
    (state.display.store stores).Terminated ∧ (state.display.store stores).text.length ≤ 10 ∧ Inside 32 stores := by
  have stored := text_extended state.display byte solid (by omega)
  refine ⟨stored.2, ?_, (copy_run_inside 32 state.display.text.length [byte, 0]).mpr (Or.inr ?_)⟩
  · have width := congrArg List.length stored.1
    rw [List.length_append, List.length_singleton] at width
    exact width.trans_le room
  · have two : [byte, 0].length = 2 := rfl
    omega

theorem printed_shown (current : Int) : (state.display.store (intToStr (current % 2 ^ 32).toNat)).Terminated ∧
    (state.display.store (intToStr (current % 2 ^ 32).toNat)).text.length ≤ 10 ∧
      Inside 32 (intToStr (current % 2 ^ 32).toNat) := by
  have word : (current % 2 ^ 32).toNat < 2 ^ 32 := by omega
  obtain ⟨text, ended, inside⟩ := int_to_str_stored state.display _ word
  have width := decimal_text_length _ 9 (Nat.lt_trans word (by decide))
  rw [← text] at width
  exact ⟨ended, width, inside⟩

variable (terminated : state.display.Terminated) (short : state.display.text.length ≤ 10)
include terminated short

theorem press_display (bc : UInt8) (writes : Writes) (next : Calculator) (processed : processButton state bc = some (writes, next)) :
    next.display.Terminated ∧ next.display.text.length ≤ 10 ∧ Inside 32 writes := by
  have kept : state.display.Terminated ∧ state.display.text.length ≤ 10 ∧ Inside 32 ([] : Writes) :=
    ⟨terminated, short, fun write member => absurd member List.not_mem_nil⟩
  rw [processButton] at processed
  split at processed
  · cases processed
    exact fresh_shown state 48 (by decide)
  split at processed
  · rename_i digit
    have solid := digit_not_nul bc digit
    split at processed
    · cases processed
      exact fresh_shown state bc solid
    · split at processed
      · cases processed
        exact longer_shown state bc solid (by assumption)
      · cases processed
        exact kept
  split at processed
  · split at processed
    · rename_i room
      cases processed
      exact longer_shown state 46 (by decide) room.2
    · cases processed
      exact kept
  split at processed
  · obtain ⟨current, _, same⟩ := Option.map_eq_some_iff.mp processed
    cases same
    exact printed_shown state current
  split at processed
  · cases processed
    exact kept
  · cases processed
    exact kept

theorem display_sound : DisplaySound state :=
  ⟨terminated, short, fun bc writes next processed => (press_display state terminated short bc writes next processed).2.2⟩
end

theorem calculator_start_display : calculatorStart.display.Terminated ∧ calculatorStart.display.text = [48] :=
  text_of_split _ [48] (List.replicate 30 0) (by simp) rfl |>.symm

theorem presses_display (presses : List UInt8) (state : Calculator) (terminated : state.display.Terminated)
    (short : state.display.text.length ≤ 10) (reached : Calculator) (run : runAll pressButton state presses = some reached) :
    DisplaySound reached := by
  have kept : reached.display.Terminated ∧ reached.display.text.length ≤ 10 := by
    refine run_all_invariant pressButton (fun state => state.display.Terminated ∧ state.display.text.length ≤ 10) ?_
      state reached presses ⟨terminated, short⟩ run
    intro state bc next held pressed
    obtain ⟨⟨writes, own⟩, processed, same⟩ := Option.map_eq_some_iff.mp pressed
    cases same
    obtain ⟨ended, width, _⟩ := press_display state held.1 held.2 bc writes own processed
    exact ⟨ended, width⟩
  exact display_sound reached kept.1 kept.2

end RoDos.Gui
