import RoDos.Gui.Calculator

set_option autoImplicit false

namespace RoDos.Gui

open Base

structure Chain where
  first : List UInt8
  rest : List (UInt8 × List UInt8)

def Chain.typed (chain : Chain) : List UInt8 := chain.first ++ chain.rest.flatMap fun step => step.1 :: step.2

def Chain.presses (chain : Chain) : List UInt8 := chain.typed ++ [61]

structure IsNumber (digits : List UInt8) : Prop where
  some' : digits ≠ []
  solid : ∀ byte ∈ digits, isDigit byte = true
  fits : decimalValue digits < 2 ^ 32

structure Whole (chain : Chain) : Prop where
  first : IsNumber chain.first
  rest : ∀ step ∈ chain.rest, isOperator step.1 ∧ IsNumber step.2

def numberOf (digits : List UInt8) : Int := wrapInt (decimalValue digits)

-- The arithmetic of 32 bits. A division by zero has no result.
def reckon (operation : UInt8) (a b : Int) : Option Int :=
  if operation = 43 then some (wrapInt (a + b))
  else if operation = 45 then some (wrapInt (a - b))
  else if operation = 42 then some (wrapInt (a * b))
  else if b = 0 then none
  else some (wrapInt (a.tdiv b))

def leftToRight (chain : Chain) : Option Int :=
  chain.rest.foldl (fun result step => result.bind fun a => reckon step.1 a (numberOf step.2)) (some (numberOf chain.first))

def lastNumber (chain : Chain) : List UInt8 := (chain.rest.getLast?.map Prod.snd).getD chain.first

def lastPart (chain : Chain) : Chain :=
  match chain.rest.getLast? with
  | none => chain
  | some step => ⟨lastNumber ⟨chain.first, chain.rest.dropLast⟩, [step]⟩

def Displays (state : Calculator) (chain : Chain) (text : List UInt8) : Prop :=
  ∃ final, runAll pressButton state chain.presses = some final ∧ final.display.text = text

structure Holding (state : Calculator) (operation : UInt8) (stored : Int) (value : Nat) : Prop where
  text : state.display.text = decimalText value
  terminated : state.display.Terminated
  operation : state.operation = operation
  stored : state.storedValue = stored

theorem wrap_wrap (value digit : Int) : wrapInt (wrapInt value * 10 + digit) = wrapInt (value * 10 + digit) := by
  unfold wrapInt
  omega

theorem parse_digits (digits : List UInt8) (solid : ∀ byte ∈ digits, isDigit byte = true) :
    parseDisplay digits = numberOf digits := by
  have general : ∀ n : Nat, digits.foldl (fun value byte =>
      if isDigit byte then wrapInt (value * 10 + ((byte.toNat - 48 : Nat) : Int)) else value) (wrapInt (n : Int)) =
        wrapInt (digits.foldl (fun n byte => n * 10 + (byte.toNat - 48)) n : Nat) := by
    induction digits with
    | nil =>
        intro n
        rw [List.foldl_nil, List.foldl_nil]
    | cons byte rest ih =>
        intro n
        have digit := solid byte List.mem_cons_self
        have later := ih (fun own member => solid own (List.mem_cons_of_mem _ member)) (n * 10 + (byte.toNat - 48))
        have cast : ((n * 10 + (byte.toNat - 48) : Nat) : Int) = (n : Int) * 10 + ((byte.toNat - 48 : Nat) : Int) := by
          rw [Int.natCast_add, Int.natCast_mul]
          rfl
        rw [List.foldl_cons, if_pos digit, wrap_wrap, ← cast, List.foldl_cons]
        exact later
  have start : wrapInt ((0 : Nat) : Int) = 0 := by
    unfold wrapInt
    omega
  rw [parseDisplay, numberOf, decimalValue, ← general 0, start]

theorem parse_text (n : Nat) : parseDisplay (decimalText n) = wrapInt n := by
  rw [parse_digits _ (decimal_text_digits n), numberOf, decimal_text_value]

section
variable (state : Calculator) (operation : UInt8) (stored : Int)

theorem first_digit (byte : UInt8) (digit : isDigit byte = true)
    (fresh : state.newNumber = true ∨ state.display.text = [48]) :
    ∃ next, pressButton state byte = some next ∧ Holding next state.operation state.storedValue (byte.toNat - 48) ∧
      next.newNumber = false := by
  have solid := digit_not_nul byte digit
  have clear : byte ≠ 67 := by
    rintro rfl
    exact absurd digit (by decide)
  have begins : state.newNumber = true ∨ state.display.text.length = 1 ∧ state.display.text.head? = some 48 :=
    fresh.imp id fun zero => by rw [zero]; exact ⟨rfl, rfl⟩
  have written := text_stored state.display [byte] (by simpa using solid) (show 1 < 32 by decide)
  have pressed : pressButton state byte = some (Calculator.put { state with newNumber := false } [(0, byte), (1, 0)]).2 := by
    rw [pressButton, processButton, if_neg clear, if_pos digit, if_pos begins]
    rfl
  exact ⟨_, pressed, ⟨written.1.trans (decimal_text_digit byte digit).symm, written.2, rfl, rfl⟩, rfl⟩

theorem next_digit (value : Nat) (byte : UInt8) (digit : isDigit byte = true) (holding : Holding state operation stored value)
    (continues : state.newNumber = false) (fits : value * 10 + (byte.toNat - 48) < 2 ^ 32) :
    ∃ next, pressButton state byte = some next ∧ Holding next operation stored (value * 10 + (byte.toNat - 48)) ∧
      next.newNumber = false := by
  by_cases zero : value = 0
  · have text : state.display.text = [48] := by
      rw [holding.text, zero]
      rfl
    obtain ⟨next, pressed, held, same⟩ := first_digit state byte digit (Or.inr text)
    rw [holding.operation, holding.stored] at held
    rw [zero, Nat.zero_mul, Nat.zero_add]
    exact ⟨next, pressed, held, same⟩
  · have solid := digit_not_nul byte digit
    have clear : byte ≠ 67 := by
      rintro rfl
      exact absurd digit (by decide)
    have width : state.display.text.length ≤ 8 + 1 := by
      rw [holding.text]
      exact decimal_text_length value 8 (by omega)
    have begins : ¬ (state.newNumber = true ∨ state.display.text.length = 1 ∧ state.display.text.head? = some 48) := by
      rintro (new | ⟨single, head⟩)
      · exact Bool.noConfusion (continues.symm.trans new)
      · obtain ⟨first, only⟩ := List.length_eq_one_iff.mp single
        rw [only, List.head?_cons, Option.some.injEq] at head
        have none' := decimal_text_value value
        rw [← holding.text, only, head] at none'
        exact zero none'.symm
    have written := text_extended state.display byte solid (by omega)
    have pressed : pressButton state byte =
        some (state.put [(state.display.text.length, byte), (state.display.text.length + 1, 0)]).2 := by
      rw [pressButton, processButton, if_neg clear, if_pos digit, if_neg begins, if_pos (by omega)]
      rfl
    refine ⟨_, pressed, ⟨written.1.trans ?_, written.2, holding.operation, holding.stored⟩, continues⟩
    rw [holding.text, decimal_text_snoc value (Nat.pos_of_ne_zero zero) byte digit]

theorem later_digits (digits : List UInt8) (value : Nat) (solid : ∀ byte ∈ digits, isDigit byte = true)
    (holding : Holding state operation stored value) (continues : state.newNumber = false)
    (fits : digits.foldl (fun n byte => n * 10 + (byte.toNat - 48)) value < 2 ^ 32) :
    ∃ next, runAll pressButton state digits = some next ∧
      Holding next operation stored (digits.foldl (fun n byte => n * 10 + (byte.toNat - 48)) value) := by
  induction digits generalizing state value with
  | nil => exact ⟨state, rfl, holding⟩
  | cons byte rest ih =>
      have grows : ∀ (digits : List UInt8) (n : Nat), n ≤ digits.foldl (fun n byte => n * 10 + (byte.toNat - 48)) n := by
        intro digits
        induction digits with
        | nil => exact fun n => Nat.le_refl n
        | cons byte rest ih => exact fun n => Nat.le_trans (by dsimp only; omega) (ih _)
      rw [List.foldl_cons] at fits ⊢
      obtain ⟨next, pressed, held, same⟩ := next_digit state operation stored value byte (solid byte List.mem_cons_self) holding
        continues (Nat.lt_of_le_of_lt (grows rest _) fits)
      obtain ⟨final, run, result⟩ := ih next _ (fun own member => solid own (List.mem_cons_of_mem _ member)) held same fits
      exact ⟨final, by rw [runAll, pressed, Option.bind_some, run], result⟩

theorem number_typed (digits : List UInt8) (number : IsNumber digits) (fresh : state.newNumber = true) :
    ∃ next, runAll pressButton state digits = some next ∧
      Holding next state.operation state.storedValue (decimalValue digits) := by
  cases digits with
  | nil => exact absurd rfl number.some'
  | cons byte rest =>
      have fits := number.fits
      rw [decimalValue, List.foldl_cons, Nat.zero_mul, Nat.zero_add] at fits
      obtain ⟨next, pressed, held, same⟩ := first_digit state byte (number.solid byte List.mem_cons_self) (Or.inl fresh)
      obtain ⟨final, run, result⟩ := later_digits next _ _ rest _
        (fun own member => number.solid own (List.mem_cons_of_mem _ member)) held same fits
      refine ⟨final, by rw [runAll, pressed, Option.bind_some, run], ?_⟩
      rw [decimalValue, List.foldl_cons, Nat.zero_mul, Nat.zero_add]
      exact result

theorem operator_typed (value : Nat) (bc : UInt8) (operator : isOperator bc) (holding : Holding state operation stored value) :
    ∃ next, pressButton state bc = some next ∧ Holding next bc (wrapInt value) value ∧ next.newNumber = true := by
  have others : bc ≠ 67 ∧ ¬ isDigit bc = true ∧ bc ≠ 46 ∧ bc ≠ 61 := by
    rcases operator with rfl | rfl | rfl | rfl <;> decide
  have parsed : parseDisplay state.display.text = wrapInt value := by rw [holding.text, parse_text]
  have kept : state.display.store [] = state.display := rfl
  have pressed : pressButton state bc = some { state with
      currentValue := wrapInt value
      storedValue := wrapInt value
      operation := bc
      newNumber := true } := by
    rw [pressButton, processButton, if_neg others.1, if_neg others.2.1, if_neg others.2.2.1, if_neg others.2.2.2,
      if_pos operator, parsed, Option.map_some, Calculator.put, kept]
  exact ⟨_, pressed, ⟨holding.text, holding.terminated, rfl, rfl⟩, rfl⟩

theorem equals_typed (value : Nat) (holding : Holding state operation stored value) : pressButton state 61 =
    (applyOperation operation stored (wrapInt value)).map fun current => (Calculator.put { state with
      currentValue := current, operation := 0, newNumber := true } (intToStr (current % 2 ^ 32).toNat)).2 := by
  have parsed : parseDisplay state.display.text = wrapInt value := by rw [holding.text, parse_text]
  rw [pressButton, processButton, if_neg (by decide), if_neg (by decide), if_neg (by decide), if_pos rfl, parsed,
    holding.operation, holding.stored, Option.map_map]
  rfl
end

theorem last_number_snoc (first : List UInt8) (pre : List (UInt8 × List UInt8)) (step : UInt8 × List UInt8) :
    lastNumber ⟨first, pre ++ [step]⟩ = step.2 := by
  rw [lastNumber, List.getLast?_concat]
  rfl

theorem last_part_snoc (first : List UInt8) (pre : List (UInt8 × List UInt8)) (step : UInt8 × List UInt8) :
    lastPart ⟨first, pre ++ [step]⟩ = ⟨lastNumber ⟨first, pre⟩, [step]⟩ := by
  rw [lastPart, List.getLast?_concat, List.dropLast_concat]

theorem left_to_right_snoc (first : List UInt8) (pre : List (UInt8 × List UInt8)) (step : UInt8 × List UInt8) :
    leftToRight ⟨first, pre ++ [step]⟩ = (leftToRight ⟨first, pre⟩).bind fun a => reckon step.1 a (numberOf step.2) := by
  rw [leftToRight, List.foldl_append]
  rfl

theorem left_to_right_single (first : List UInt8) (step : UInt8 × List UInt8) :
    leftToRight ⟨first, [step]⟩ = reckon step.1 (numberOf first) (numberOf step.2) := rfl

theorem typed_snoc (first : List UInt8) (pre : List (UInt8 × List UInt8)) (step : UInt8 × List UInt8) :
    Chain.typed ⟨first, pre ++ [step]⟩ = Chain.typed ⟨first, pre⟩ ++ step.1 :: step.2 := by
  rw [Chain.typed, Chain.typed, List.flatMap_append, List.flatMap_singleton, List.append_assoc]

section
variable (state : Calculator) (fresh : state.newNumber = true) (first : List UInt8)
include fresh

theorem chain_held (pre : List (UInt8 × List UInt8)) (whole : Whole ⟨first, pre⟩) :
    ∃ next operation stored, runAll pressButton state (Chain.typed ⟨first, pre⟩) = some next ∧
      Holding next operation stored (decimalValue (lastNumber ⟨first, pre⟩)) := by
  induction pre using List.reverseRecOn with
  | nil =>
      obtain ⟨next, run, held⟩ := number_typed state first whole.first fresh
      refine ⟨next, _, _, ?_, held⟩
      rw [Chain.typed, List.flatMap_nil, List.append_nil, run]
  | append_singleton pre step ih =>
      obtain ⟨operator, number⟩ := whole.rest step (List.mem_append_right _ List.mem_cons_self)
      obtain ⟨before, operation, stored, run, held⟩ :=
        ih ⟨whole.first, fun own member => whole.rest own (List.mem_append_left _ member)⟩
      obtain ⟨pending, pressed, _, new⟩ := operator_typed before operation stored _ step.1 operator held
      obtain ⟨next, typed, result⟩ := number_typed pending step.2 number new
      refine ⟨next, _, _, ?_, last_number_snoc first pre step ▸ result⟩
      rw [typed_snoc, run_all_append, run, Option.bind_some, runAll, pressed, Option.bind_some, typed]

theorem chain_pending (pre : List (UInt8 × List UInt8)) (step : UInt8 × List UInt8) (whole : Whole ⟨first, pre ++ [step]⟩) :
    ∃ next, runAll pressButton state (Chain.typed ⟨first, pre ++ [step]⟩) = some next ∧
      Holding next step.1 (numberOf (lastNumber ⟨first, pre⟩)) (decimalValue step.2) := by
  obtain ⟨operator, number⟩ := whole.rest step (List.mem_append_right _ List.mem_cons_self)
  obtain ⟨before, operation, stored, run, held⟩ :=
    chain_held state fresh first pre ⟨whole.first, fun own member => whole.rest own (List.mem_append_left _ member)⟩
  obtain ⟨pending, pressed, waiting, new⟩ := operator_typed before operation stored _ step.1 operator held
  obtain ⟨next, typed, result⟩ := number_typed pending step.2 number new
  rw [waiting.operation, waiting.stored] at result
  refine ⟨next, ?_, result⟩
  rw [typed_snoc, run_all_append, run, Option.bind_some, runAll, pressed, Option.bind_some, typed]
end

theorem equals_displays (state next : Calculator) (chain : Chain) (operation : UInt8) (stored : Int) (value : Nat)
    (typed : runAll pressButton state chain.typed = some next) (holding : Holding next operation stored value)
    (text : List UInt8) : Displays state chain text ↔
      ∃ current, applyOperation operation stored (wrapInt value) = some current ∧
        decimalText (current % 2 ^ 32).toNat = text := by
  have run : runAll pressButton state chain.presses = pressButton next 61 := by
    rw [Chain.presses, run_all_append, typed, Option.bind_some, runAll]
    cases pressButton next 61 <;> rfl
  have shown : ∀ current : Int, (next.display.store (intToStr (current % 2 ^ 32).toNat)).text =
      decimalText (current % 2 ^ 32).toNat := fun current => (int_to_str_stored next.display _ (by omega)).1
  rw [Displays, run, equals_typed next operation stored value holding]
  constructor
  · rintro ⟨final, pressed, same⟩
    obtain ⟨current, applied, rfl⟩ := Option.map_eq_some_iff.mp pressed
    exact ⟨current, applied, (shown current).symm.trans same⟩
  · rintro ⟨current, applied, same⟩
    rw [applied]
    exact ⟨_, rfl, (shown current).trans same⟩

theorem wrap_range (value : Int) : -2 ^ 31 ≤ wrapInt value ∧ wrapInt value < 2 ^ 31 := by
  unfold wrapInt
  omega

theorem tdiv_range (a b : Int) (low : -2 ^ 31 ≤ a) (high : a < 2 ^ 31) (quotient : ¬ (a = -2 ^ 31 ∧ b = -1)) :
    wrapInt (a.tdiv b) = a.tdiv b := by
  have fits : -2 ^ 31 ≤ a.tdiv b ∧ a.tdiv b < 2 ^ 31 := by
    have size := Int.natAbs_tdiv_le_natAbs a b
    by_cases least : a = -2 ^ 31
    · by_cases one : b = 1
      · rw [one, Int.tdiv_one]
        exact ⟨low, high⟩
      · by_cases zero : b = 0
        · rw [zero, Int.tdiv_zero]
          omega
        · have two : 2 ≤ b.natAbs := by omega
          have half : a.natAbs / b.natAbs ≤ a.natAbs / 2 := Nat.div_le_div_left two (by decide)
          have exact' : (a.tdiv b).natAbs = a.natAbs / b.natAbs := Int.natAbs_tdiv a b
          omega
    · omega
  unfold wrapInt
  omega

-- The pending operation is reckoned like the last part of the chain, where it does not trap and divides by no zero.
theorem apply_reckons (operation : UInt8) (operator : isOperator operation) (a b : Int) (low : -2 ^ 31 ≤ a) (high : a < 2 ^ 31)
    (divisor : operation = 47 → b ≠ 0) (quotient : ¬ (operation = 47 ∧ a = -2 ^ 31 ∧ b = -1)) :
    applyOperation operation a b = reckon operation a b := by
  rcases operator with rfl | rfl | rfl | rfl
  · rfl
  · rfl
  · rfl
  · have some' := divisor rfl
    have least : ¬ (a = -2 ^ 31 ∧ b = -1) := fun both => quotient ⟨rfl, both⟩
    have trap : ¬ (b = 0 ∨ a = -2 ^ 31 ∧ b = -1) := not_or.mpr ⟨some', least⟩
    rw [applyOperation, if_neg (by decide), if_neg (by decide), if_neg (by decide), if_pos rfl, if_pos some', idiv, if_neg trap,
      reckon, if_neg (by decide), if_neg (by decide), if_neg (by decide), if_neg some', tdiv_range a b low high least]

theorem reckon_range (operation : UInt8) (a b result : Int) (reckoned : reckon operation a b = some result) :
    -2 ^ 31 ≤ result ∧ result < 2 ^ 31 := by
  rw [reckon] at reckoned
  split at reckoned
  · exact Option.some.inj reckoned ▸ wrap_range _
  split at reckoned
  · exact Option.some.inj reckoned ▸ wrap_range _
  split at reckoned
  · exact Option.some.inj reckoned ▸ wrap_range _
  split at reckoned
  · cases reckoned
  · exact Option.some.inj reckoned ▸ wrap_range _

theorem reckon_divisor (operation : UInt8) (a b result : Int) (reckoned : reckon operation a b = some result)
    (divides : operation = 47) : b ≠ 0 := by
  rintro rfl
  rw [divides, reckon, if_neg (by decide), if_neg (by decide), if_neg (by decide), if_pos rfl] at reckoned
  cases reckoned

theorem left_to_right_range (chain : Chain) (result : Int) (reckoned : leftToRight chain = some result) :
    -2 ^ 31 ≤ result ∧ result < 2 ^ 31 := by
  obtain ⟨first, rest⟩ := chain
  induction rest using List.reverseRecOn with
  | nil => exact Option.some.inj reckoned ▸ wrap_range _
  | append_singleton pre step _ =>
      rw [left_to_right_snoc] at reckoned
      obtain ⟨a, _, last⟩ := Option.bind_eq_some_iff.mp reckoned
      exact reckon_range step.1 a _ result last

theorem shown_signed (current result : Int) (low : -2 ^ 31 ≤ current) (high : current < 2 ^ 31) (below : result < 2 ^ 31) :
    decimalText (current % 2 ^ 32).toNat = signedDecimal result ↔ current = result ∧ 0 ≤ result := by
  rw [decimal_text_signed]
  omega

theorem some_shown_iff (found : Option Int) (ints : ∀ current, found = some current → -2 ^ 31 ≤ current ∧ current < 2 ^ 31)
    (result : Int) (below : result < 2 ^ 31) :
    (∃ current, found = some current ∧ decimalText (current % 2 ^ 32).toNat = signedDecimal result) ↔
      found = some result ∧ 0 ≤ result := by
  constructor
  · rintro ⟨current, last, text⟩
    have own := ints current last
    obtain ⟨same, sign⟩ := (shown_signed current result own.1 own.2 below).mp text
    exact ⟨same ▸ last, sign⟩
  · rintro ⟨last, sign⟩
    have own := ints result last
    exact ⟨result, last, (shown_signed result result own.1 own.2 below).mpr ⟨rfl, sign⟩⟩

section
variable (state : Calculator) (fresh : state.newNumber = true) (first : List UInt8) (result : Int)
include fresh

theorem number_displays_iff (idle : state.operation = 0) (whole : Whole ⟨first, []⟩) (below : result < 2 ^ 31) :
    Displays state ⟨first, []⟩ (signedDecimal result) ↔ some (numberOf first) = some result ∧ 0 ≤ result := by
  obtain ⟨next, typed, held⟩ := number_typed state first whole.first fresh
  have run : runAll pressButton state (Chain.typed ⟨first, []⟩) = some next := by
    rw [Chain.typed, List.flatMap_nil, List.append_nil, typed]
  have applied : ∀ stored, applyOperation 0 stored (numberOf first) = some (numberOf first) := fun stored => by
    rw [applyOperation, if_neg (by decide), if_neg (by decide), if_neg (by decide), if_neg (by decide)]
  rw [idle] at held
  rw [equals_displays state next ⟨first, []⟩ 0 _ _ run held, ← numberOf, applied]
  exact some_shown_iff _ (fun current same => Option.some.inj same ▸ wrap_range (decimalValue first)) result below

theorem pending_displays_iff (pre : List (UInt8 × List UInt8)) (step : UInt8 × List UInt8) (whole : Whole ⟨first, pre ++ [step]⟩)
    (divisor : step.1 = 47 → numberOf step.2 ≠ 0) (below : result < 2 ^ 31) :
    Displays state ⟨first, pre ++ [step]⟩ (signedDecimal result) ↔
      reckon step.1 (numberOf (lastNumber ⟨first, pre⟩)) (numberOf step.2) = some result ∧ 0 ≤ result := by
  obtain ⟨next, run, held⟩ := chain_pending state fresh first pre step whole
  have operator := (whole.rest step (List.mem_append_right _ List.mem_cons_self)).1
  have left := wrap_range (decimalValue (lastNumber ⟨first, pre⟩))
  rw [← numberOf] at left
  rw [equals_displays state next _ step.1 _ _ run held]
  by_cases trap : step.1 = 47 ∧ numberOf (lastNumber ⟨first, pre⟩) = -2 ^ 31 ∧ numberOf step.2 = -1
  · have none' := (apply_traps_iff step.1 (numberOf (lastNumber ⟨first, pre⟩)) (numberOf step.2)).mpr trap
    have least : reckon 47 (-2 ^ 31) (-1) = some (-2 ^ 31) := by decide
    rw [← numberOf, none', trap.1, trap.2.1, trap.2.2, least]
    refine iff_of_false (fun ⟨current, some', _⟩ => Option.some_ne_none current some'.symm) fun ⟨same, sign⟩ => ?_
    rw [← Option.some.inj same] at sign
    exact absurd sign (by decide)
  · rw [← numberOf, apply_reckons step.1 operator _ _ left.1 left.2 divisor trap]
    exact some_shown_iff _ (fun current last => reckon_range step.1 _ _ current last) result below
end

theorem chain_displays_iff (state : Calculator) (fresh : state.newNumber = true) (idle : state.operation = 0) (chain : Chain)
    (whole : Whole chain) (result : Int) (reckoned : leftToRight chain = some result) :
    Displays state chain (signedDecimal result) ↔ leftToRight (lastPart chain) = some result ∧ 0 ≤ result := by
  have below := (left_to_right_range chain result reckoned).2
  obtain ⟨first, rest⟩ := chain
  induction rest using List.reverseRecOn with
  | nil => exact number_displays_iff state fresh first result idle whole below
  | append_singleton pre step _ =>
      have divisor : step.1 = 47 → numberOf step.2 ≠ 0 := by
        rw [left_to_right_snoc] at reckoned
        obtain ⟨a, _, last⟩ := Option.bind_eq_some_iff.mp reckoned
        exact reckon_divisor step.1 a _ result last
      rw [last_part_snoc, left_to_right_single]
      exact pending_displays_iff state fresh first result pre step whole divisor below

theorem calculator_right_iff (presses : List UInt8) :
    (runAll pressButton calculatorStart presses ≠ none ↔ Along pressButton Divides calculatorStart presses) ∧
    ∀ state, runAll pressButton calculatorStart presses = some state → DisplaySound state ∧
      (state.newNumber = true → state.operation = 0 → ∀ chain result, Whole chain → leftToRight chain = some result →
        (Displays state chain (signedDecimal result) ↔ leftToRight (lastPart chain) = some result ∧ 0 ≤ result)) := by
  refine ⟨run_all_along pressButton Divides press_divides_iff calculatorStart presses, fun state run => ⟨?_, ?_⟩⟩
  · have start := calculator_start_display
    exact presses_display presses calculatorStart start.1 (start.2 ▸ by decide) state run
  · exact fun fresh idle chain result whole reckoned => chain_displays_iff state fresh idle chain whole result reckoned

theorem difference_whole : Whole ⟨[51], [(45, [53])]⟩ := by
  refine ⟨⟨by decide, List.all_eq_true.mp (by decide), by decide⟩, fun step member => ?_⟩
  rw [List.mem_singleton.mp member]
  exact ⟨by decide, by decide, List.all_eq_true.mp (by decide), by decide⟩

theorem calculator_not_right : ¬ ∀ presses, runAll pressButton calculatorStart presses ≠ none ∧
    ∀ state, runAll pressButton calculatorStart presses = some state → DisplaySound state ∧
      (state.newNumber = true → state.operation = 0 → ∀ chain result, Whole chain → leftToRight chain = some result →
        Displays state chain (signedDecimal result)) := by
  intro claimed
  have shown := ((claimed []).2 calculatorStart rfl).2 rfl rfl ⟨[51], [(45, [53])]⟩ (-2) difference_whole (by decide)
  have right := (chain_displays_iff calculatorStart rfl rfl ⟨[51], [(45, [53])]⟩ difference_whole (-2) (by decide)).mp shown
  exact absurd right.2 (by decide)

end RoDos.Gui
