import RoDos.Python.Session

set_option autoImplicit false

namespace RoDos.Python

open Base Fs Gui Utils

def isWord (byte : UInt8) : Bool := 65 ≤ byte ∧ byte ≤ 90 ∨ 97 ≤ byte ∧ byte ≤ 122 ∨ 48 ≤ byte ∧ byte ≤ 57 ∨ byte = 95

structure Identifier (name : List UInt8) : Prop where
  words : ∀ byte ∈ name, isWord byte = true
  leading : ∃ first rest, name = first :: rest ∧ isDigit first = false
  short : name.length ≤ 31

def isPrintable (byte : UInt8) : Bool := 32 ≤ byte ∧ byte ≤ 126

-- The statements one line can hold, and how each is typed.
def Statement.Proper : Statement → Prop
  | .blank => True
  | .quit => False
  | .help => True
  | .printBlank => True
  | .printText text => text.length ≤ 240 ∧ ∀ byte ∈ text, isPrintable byte = true ∧ byte ≠ 34 ∧ byte ≠ 41
  | .printValue expr => expr.length ≤ 63 ∧ (∃ first rest, expr = first :: rest ∧ first ≠ 34 ∧ first ≠ 39) ∧
      ∀ byte ∈ expr, isPrintable byte = true ∧ byte ≠ 41
  | .assign name _ => Identifier name
  | .number _ => True
  | .mention name => Identifier name

def Statement.text : Statement → List UInt8
  | .blank => []
  | .quit => ascii "quit()"
  | .help => ascii "help()"
  | .printBlank => ascii "print()"
  | .printText text => ascii "print(\"" ++ text ++ ascii "\")"
  | .printValue expr => ascii "print(" ++ expr ++ ascii ")"
  | .assign name value => name ++ ascii " = " ++ decimalText value.toNat
  | .number value => decimalText value.toNat
  | .mention name => name

def Statement.typed (statement : Statement) : List UInt16 := statement.text.map (fun byte => byte.toUInt16) ++ [13]

-- What the session of a program shows: each line as it is typed, its output, and the next prompt.
def transcript (history : Variables) : List Statement → List Shown
  | [] => puts (ascii "quit()" ++ [10]) ++ say "Goodbye!\n"
  | statement :: program =>
      puts (statement.text ++ [10]) ++ statement.shown (boundValue maxVariables history) ++ prompt ++
        transcript (history ++ statement.stores) program

theorem word_bytes (byte : UInt8) (word : isWord byte = true) :
    isPrintable byte = true ∧ isSpace byte = false ∧ byte ≠ 61 ∧ byte ≠ 40 := by
  have range : 48 ≤ byte.toNat ∧ byte.toNat ≤ 122 := by
    have cases' := of_decide_eq_true word
    simp only [UInt8.le_iff_toNat_le, ← UInt8.toNat_inj] at cases'
    have values : (48 : UInt8).toNat = 48 ∧ (57 : UInt8).toNat = 57 ∧ (65 : UInt8).toNat = 65 ∧ (90 : UInt8).toNat = 90 ∧
        (95 : UInt8).toNat = 95 ∧ (97 : UInt8).toNat = 97 ∧ (122 : UInt8).toNat = 122 := by decide
    omega
  refine ⟨decide_eq_true ⟨UInt8.le_iff_toNat_le.mpr ?_, UInt8.le_iff_toNat_le.mpr ?_⟩, decide_eq_false ?_, ?_, ?_⟩
  · exact Nat.le_trans (by decide) range.1
  · exact Nat.le_trans range.2 (by decide)
  · rintro (rfl | rfl)
    · exact absurd range.1 (by decide)
    · exact absurd range.1 (by decide)
  · rintro rfl
    exact absurd word (by decide)
  · rintro rfl
    exact absurd word (by decide)

theorem digit_word (byte : UInt8) (digit : isDigit byte = true) : isWord byte = true := by
  have range := of_decide_eq_true digit
  exact decide_eq_true (Or.inr (Or.inr (Or.inl range)))

theorem parse_plain (first : UInt8) (rest : List UInt8) (solid : isSpace first = false) (plain : ∀ byte ∈ first :: rest, byte ≠ 40) :
    parse (first :: rest) = parseRest (first :: rest) := by
  have kept : skipSpaces (first :: rest) = first :: rest := List.dropWhile_cons_of_neg (by rw [solid]; exact Bool.false_ne_true)
  have absent : ∀ text : List UInt8, 40 ∈ text → first :: rest ≠ text := fun text member same =>
    plain 40 (same ▸ member) rfl
  have prints : (first :: rest).take 6 ≠ ascii "print(" := fun same =>
    plain 40 (List.mem_of_mem_take (i := 6) (same ▸ by decide)) rfl
  rw [parse, if_neg (List.cons_ne_nil _ _), kept]
  dsimp only
  rw [if_neg (not_or.mpr ⟨absent _ (by decide), absent _ (by decide)⟩), if_neg (absent _ (by decide)), if_neg prints]

theorem take_until (stop : UInt8) (front rest : List UInt8) (free : ∀ byte ∈ front, byte ≠ stop) :
    (front ++ stop :: rest).takeWhile (fun byte => byte ≠ stop) = front := by
  rw [List.takeWhile_append_of_pos fun byte member => decide_eq_true (free byte member),
    List.takeWhile_cons_of_neg (by simp), List.append_nil]

theorem parse_print (content : List UInt8) : parse (ascii "print(" ++ content) = parsePrint content := by
  have word : ascii "print(" = [112, 114, 105, 110, 116, 40] := by decide
  have letters : ascii "exit()" = [101, 120, 105, 116, 40, 41] ∧ ascii "quit()" = [113, 117, 105, 116, 40, 41] ∧
      ascii "help()" = [104, 101, 108, 112, 40, 41] := by decide
  rw [parse, word, letters.1, letters.2.1, letters.2.2, if_neg (by simp)]
  have kept : skipSpaces ([112, 114, 105, 110, 116, 40] ++ content) = [112, 114, 105, 110, 116, 40] ++ content :=
    List.dropWhile_cons_of_neg (by decide)
  rw [kept]
  dsimp only
  rw [if_neg, if_neg]
  · exact if_pos rfl
  · intro same
    exact absurd (List.cons.inj same).1 (by decide)
  · rintro (same | same)
    · exact absurd (List.cons.inj same).1 (by decide)
    · exact absurd (List.cons.inj same).1 (by decide)

theorem parse_print_text (text : List UInt8) (free : ∀ byte ∈ text, byte ≠ 34 ∧ byte ≠ 41) :
    parse (Statement.printText text).text = .printText text := by
  have shape : (Statement.printText text).text = ascii "print(" ++ ((34 :: text ++ [34]) ++ 41 :: []) := by
    rw [Statement.text, List.append_assoc]
    simp [show ascii "print(\"" = ascii "print(" ++ [34] by decide, show ascii "\")" = [34, 41] by decide]
  have inner : ∀ byte ∈ 34 :: text ++ [34], byte ≠ 41 := by
    intro byte member
    rcases List.mem_append.mp member with early | last
    · rcases List.mem_cons.mp early with rfl | inside
      · decide
      · exact (free byte inside).2
    · rw [List.mem_singleton.mp last]
      decide
  rw [shape, parse_print, parsePrint, take_until 41 _ [] inner]
  show Statement.printText ((text ++ 34 :: []).takeWhile fun byte => byte ≠ 34) = _
  rw [take_until 34 text [] fun byte member => (free byte member).1]

theorem parse_print_value (expr : List UInt8) (short : expr.length ≤ 63)
    (leading : ∃ first rest, expr = first :: rest ∧ first ≠ 34 ∧ first ≠ 39) (free : ∀ byte ∈ expr, byte ≠ 41) :
    parse (Statement.printValue expr).text = .printValue expr := by
  obtain ⟨first, rest, rfl, plain⟩ := leading
  rw [Statement.text, List.append_assoc, show ascii ")" = [41] by decide, parse_print, parsePrint, take_until 41 _ [] free]
  dsimp only
  rw [if_neg (not_or.mpr plain), List.take_of_length_le short]

theorem str_to_int_decimal (value : UInt32) : strToInt (decimalText value.toNat) = value := by
  rw [decimal_numeral, str_to_int_numeral, UInt32.ofNat_toNat]

theorem decimal_leading (value : UInt32) :
    ∃ first rest, decimalText value.toNat = first :: rest ∧ isDigit first = true ∧ isSpace first = false := by
  have some' : decimalText value.toNat ≠ [] := by
    rw [decimal_numeral]
    exact numeral_some 10 (by decide) _
  obtain ⟨first, rest, split⟩ := List.exists_cons_of_ne_nil some'
  have digit := decimal_text_digits value.toNat first (split ▸ List.mem_cons_self)
  exact ⟨first, rest, split, digit, (word_bytes first (digit_word first digit)).2.1⟩

theorem parse_number (value : UInt32) : parse (Statement.number value).text = .number value := by
  obtain ⟨first, rest, split, digit, solid⟩ := decimal_leading value
  have words : ∀ byte ∈ decimalText value.toNat, byte ≠ 61 ∧ byte ≠ 40 := fun byte member =>
    (word_bytes byte (digit_word byte (decimal_text_digits _ byte member))).2.2
  have whole : (decimalText value.toNat).takeWhile (fun byte => byte ≠ 61) = decimalText value.toNat :=
    List.takeWhile_eq_self_iff.mpr fun byte member => decide_eq_true (words byte member).1
  have plain : parse (decimalText value.toNat) = parseRest (decimalText value.toNat) := by
    rw [split] at words ⊢
    exact parse_plain first rest solid fun byte member => (words byte member).2
  rw [Statement.text, plain, parseRest, whole, List.drop_length]
  rw [if_neg (by decide), if_pos (by rw [split]; exact digit), str_to_int_decimal]

theorem parse_mention (x : List UInt8) (proper : Identifier x) : parse (Statement.mention x).text = .mention x := by
  obtain ⟨first, rest, split, letter⟩ := proper.leading
  have words : ∀ byte ∈ x, byte ≠ 61 ∧ byte ≠ 40 := fun byte member => (word_bytes byte (proper.words byte member)).2.2
  have solid := (word_bytes first (proper.words first (split ▸ List.mem_cons_self))).2.1
  have whole : x.takeWhile (fun byte => byte ≠ 61) = x :=
    List.takeWhile_eq_self_iff.mpr fun byte member => decide_eq_true (words byte member).1
  have plain : parse x = parseRest x := by
    rw [split] at words ⊢
    exact parse_plain first rest solid fun byte member => (words byte member).2
  rw [Statement.text, plain, parseRest, whole, List.drop_length]
  rw [if_neg (by decide), if_neg (by rw [split]; simpa using letter)]

theorem parse_assign (x : List UInt8) (value : UInt32) (proper : Identifier x) :
    parse (Statement.assign x value).text = .assign x value := by
  obtain ⟨first, rest, split, -⟩ := proper.leading
  have words : ∀ byte ∈ x, isSpace byte = false ∧ byte ≠ 61 ∧ byte ≠ 40 := fun byte member =>
    (word_bytes byte (proper.words byte member)).2
  have digits : ∀ byte ∈ decimalText value.toNat, byte ≠ 40 := fun byte member =>
    (word_bytes byte (digit_word byte (decimal_text_digits _ byte member))).2.2.2
  have shape : (Statement.assign x value).text = (x ++ [32]) ++ 61 :: 32 :: decimalText value.toNat := by
    rw [Statement.text, show ascii " = " = [32, 61, 32] by decide]
    simp
  have front : ((x ++ [32]) ++ 61 :: 32 :: decimalText value.toNat).takeWhile (fun byte => byte ≠ 61) = x ++ [32] := by
    refine take_until 61 _ _ fun byte member => ?_
    rcases List.mem_append.mp member with inside | last
    · exact (words byte inside).2.1
    · rw [List.mem_singleton.mp last]
      decide
  have kept : (x ++ [32]).filter (fun byte => !isSpace byte) = x := by
    rw [List.filter_append, List.filter_eq_self.mpr fun byte member => by rw [(words byte member).1]; rfl]
    exact List.append_nil x
  have plain : parse ((x ++ [32]) ++ 61 :: 32 :: decimalText value.toNat) =
      parseRest ((x ++ [32]) ++ 61 :: 32 :: decimalText value.toNat) := by
    have free : ∀ byte ∈ (x ++ [32]) ++ 61 :: 32 :: decimalText value.toNat, byte ≠ 40 := by
      intro byte member
      simp only [List.mem_append, List.mem_cons, List.not_mem_nil, or_false] at member
      rcases member with (inside | rfl) | rfl | rfl | inside
      · exact (words byte inside).2.2
      · decide
      · decide
      · decide
      · exact digits byte inside
    rw [split] at words free ⊢
    exact parse_plain first _ (words first List.mem_cons_self).1 free
  obtain ⟨digit, others, decimal, -, solid⟩ := decimal_leading value
  have read : skipSpaces (32 :: decimalText value.toNat) = decimalText value.toNat := by
    rw [skipSpaces, List.dropWhile_cons_of_pos (by decide), decimal]
    exact List.dropWhile_cons_of_neg (by rw [solid]; exact Bool.false_ne_true)
  rw [shape, plain, parseRest, front, List.drop_left]
  rw [if_pos ⟨rfl, show (32 : UInt8) ≠ 61 by decide⟩, kept, List.take_of_length_le proper.short, List.drop_one, List.tail_cons, read, str_to_int_decimal]

theorem parse_text (statement : Statement) (proper : statement.Proper) : parse statement.text = statement := by
  cases statement with
  | blank => rfl
  | quit => exact absurd proper id
  | help => decide
  | printBlank => decide
  | printText text => exact parse_print_text text fun byte member => (proper.2 byte member).2
  | printValue expr => exact parse_print_value expr proper.1 proper.2.1 fun byte member => (proper.2.2 byte member).2
  | assign x value => exact parse_assign x value proper
  | number value => exact parse_number value
  | mention x => exact parse_mention x proper

theorem text_typed (statement : Statement) (proper : statement.Proper) :
    statement.text.length < maxLine ∧ ∀ byte ∈ statement.text, isPrintable byte = true := by
  have words : ∀ x : List UInt8, Identifier x → ∀ byte ∈ x, isPrintable byte = true := fun x name byte member =>
    (word_bytes byte (name.words byte member)).1
  have digits : ∀ value : UInt32, ∀ byte ∈ decimalText value.toNat, isPrintable byte = true := fun value byte member =>
    (word_bytes byte (digit_word byte (decimal_text_digits _ byte member))).1
  have short : ∀ value : UInt32, (decimalText value.toNat).length ≤ 9 + 1 := fun value =>
    decimal_text_length value.toNat 9 (Nat.lt_trans value.toNat_lt (by decide))
  have parts : (ascii "print(\"" = [112, 114, 105, 110, 116, 40, 34] ∧ ascii "\")" = [34, 41]) ∧
      (ascii "print(" = [112, 114, 105, 110, 116, 40] ∧ ascii ")" = [41]) ∧ ascii " = " = [32, 61, 32] := by decide
  have enclosed : ∀ front text back : List UInt8, front.all isPrintable = true → back.all isPrintable = true →
      (∀ byte ∈ text, isPrintable byte = true) → ∀ byte ∈ front ++ text ++ back, isPrintable byte = true := by
    intro front text back before behind inside byte member
    rcases List.mem_append.mp member with early | late
    · rcases List.mem_append.mp early with first | second
      · exact List.all_eq_true.mp before byte first
      · exact inside byte second
    · exact List.all_eq_true.mp behind byte late
  have fixed : ∀ text : List UInt8, text.all isPrintable = true → ∀ byte ∈ text, isPrintable byte = true := fun text all =>
    List.all_eq_true.mp all
  cases statement with
  | blank => exact ⟨by decide, fixed _ (by decide)⟩
  | quit => exact absurd proper id
  | help => exact ⟨by decide, fixed _ (by decide)⟩
  | printBlank => exact ⟨by decide, fixed _ (by decide)⟩
  | printText text =>
      rw [Statement.text, parts.1.1, parts.1.2]
      refine ⟨?_, enclosed _ _ _ (by decide) (by decide) fun byte member => (proper.2 byte member).1⟩
      have room := proper.1
      simp only [List.length_append, List.length_cons, List.length_nil, maxLine]
      omega
  | printValue expr =>
      rw [Statement.text, parts.2.1.1, parts.2.1.2]
      refine ⟨?_, enclosed _ _ _ (by decide) (by decide) fun byte member => (proper.2.2 byte member).1⟩
      have room := proper.1
      simp only [List.length_append, List.length_cons, List.length_nil, maxLine]
      omega
  | assign x value =>
      have named := proper.short
      have room := short value
      rw [Statement.text, parts.2.2]
      constructor
      · simp only [List.length_append, List.length_cons, List.length_nil, maxLine]
        omega
      · intro byte member
        rcases List.mem_append.mp member with early | late
        · rcases List.mem_append.mp early with first | second
          · exact words x proper byte first
          · exact fixed _ (by decide) byte second
        · exact digits value byte late
  | number value => exact ⟨Nat.lt_of_le_of_lt (short value) (by decide), digits value⟩
  | mention x => exact ⟨Nat.lt_of_le_of_lt proper.short (by decide), words x proper⟩

theorem line_key_printable (line : List UInt8) (byte : UInt8) (printable : isPrintable byte = true)
    (room : line.length + 1 < maxLine) : lineKey line byte.toUInt16 = ([.put byte], .more (line ++ [byte])) := by
  have range := of_decide_eq_true printable
  have whole : byte.toUInt16.toUInt8 = byte := UInt8.toUInt8_toUInt16 byte
  have apart : ∀ control : UInt8, control < 32 → byte ≠ control := by
    rintro control small rfl
    exact absurd range.1 (UInt8.not_le.mpr small)
  rw [lineKey, whole, if_neg (not_or.mpr ⟨apart 13 (by decide), apart 10 (by decide)⟩), if_neg (apart 27 (by decide)),
    if_neg fun both => apart 8 (by decide) both.1, if_pos range]
  dsimp only
  rw [if_pos (by rw [List.length_append]; exact room)]

theorem emit_emit (first second : List Shown) (rest : List Shown × Option (List UInt16)) :
    emit first (emit second rest) = emit (first ++ second) rest := by
  rw [emit, emit, emit, List.append_assoc]

-- By induction on the text: the keys of a line that fits are its bytes, each shown as it is typed.
theorem history_loop_typed (history : Variables) (front text : List UInt8) (keys : List UInt16)
    (printable : ∀ byte ∈ text, isPrintable byte = true) (room : front.length + text.length < maxLine) :
    historyLoop history front (text.map (fun byte => byte.toUInt16) ++ keys) =
      emit (puts text) (historyLoop history (front ++ text) keys) := by
  induction text generalizing front with
  | nil =>
      rw [List.append_nil]
      rfl
  | cons byte text ih =>
      rw [List.length_cons] at room
      rw [List.map_cons, List.cons_append, historyLoop,
        line_key_printable front byte (printable byte List.mem_cons_self) (by omega)]
      dsimp only
      rw [ih (front ++ [byte]) (fun other member => printable other (List.mem_cons_of_mem _ member))
        (by rw [List.length_append, List.length_singleton]; omega), emit_emit, List.append_assoc]
      rfl

theorem history_loop_entered (history : Variables) (line : List UInt8) (keys : List UInt16) :
    historyLoop history line (13 :: keys) =
      if parse line = .quit then ([.put 10] ++ (parse line).shown (boundValue maxVariables history), some keys)
      else emit ([.put 10] ++ (parse line).shown (boundValue maxVariables history) ++ prompt)
        (historyLoop (history ++ (parse line).stores) [] keys) := rfl

-- By induction on the program: each statement typed as a line runs on the history of those before it.
theorem program_loop (history : Variables) (program : List Statement) (proper : ∀ statement ∈ program, statement.Proper)
    (rest : List UInt16) :
    historyLoop history [] (program.flatMap Statement.typed ++ Statement.quit.typed ++ rest) = (transcript history program, some rest) := by
  induction program generalizing history with
  | nil =>
      rw [List.flatMap_nil, List.nil_append, Statement.typed, List.append_assoc,
        history_loop_typed history [] _ _ (List.all_eq_true.mp (by decide)) (by decide)]
      rw [List.singleton_append, history_loop_entered, if_pos (by decide)]
      exact congrArg (fun shown => (shown, some rest)) (List.append_assoc _ _ _).symm
  | cons statement program ih =>
      have first := proper statement List.mem_cons_self
      obtain ⟨room, printable⟩ := text_typed statement first
      have back := parse_text statement first
      have stays : statement ≠ .quit := by
        rintro rfl
        exact first
      rw [List.flatMap_cons, Statement.typed, List.append_assoc, List.append_assoc, List.append_assoc,
        history_loop_typed history [] _ _ printable (by simpa using room)]
      rw [List.singleton_append, List.nil_append, history_loop_entered, back, if_neg stays, ← List.append_assoc,
        ih (history ++ statement.stores) fun other member => proper other (List.mem_cons_of_mem _ member), emit_emit]
      rw [transcript, emit, puts, puts, List.map_append]
      simp only [List.append_assoc]
      rfl

theorem typed_program_runs (program : List Statement) (proper : ∀ statement ∈ program, statement.Proper) (rest : List UInt16) :
    cmdPython (program.flatMap Statement.typed ++ Statement.quit.typed ++ rest) =
      (banner ++ prompt ++ transcript [] program, some rest) := by
  rw [cmdPython, python_loop_history [] [] (binds_start maxVariables), program_loop [] program proper rest]
  rfl

def sampleProgram : List Statement := [.assign [120] 7, .printValue [120], .printText (ascii "x is known"), .mention [121]]

theorem typed_program_runs_sample :
    cmdPython (sampleProgram.flatMap Statement.typed ++ Statement.quit.typed ++ [100]) =
      (banner ++ prompt ++ transcript [] sampleProgram, some [100]) := by
  refine typed_program_runs sampleProgram (fun statement member => ?_) [100]
  have letter : ∀ byte : UInt8, isWord byte = true → isDigit byte = false → Identifier [byte] := fun byte word digit =>
    ⟨fun other single => by rw [List.mem_singleton.mp single]; exact word, ⟨byte, [], rfl, digit⟩, by simp⟩
  simp only [sampleProgram, List.mem_cons, List.not_mem_nil, or_false] at member
  rcases member with rfl | rfl | rfl | rfl
  · exact letter 120 (by decide) (by decide)
  · refine ⟨by decide, ⟨120, [], rfl, by decide, by decide⟩, fun byte single => ?_⟩
    rw [List.mem_singleton.mp single]
    decide
  · have checked : (ascii "x is known").all (fun byte => isPrintable byte && byte != 34 && byte != 41) = true := by decide
    refine ⟨by decide, fun byte inside => ?_⟩
    simpa [and_assoc] using List.all_eq_true.mp checked byte inside
  · exact letter 121 (by decide) (by decide)

end RoDos.Python
