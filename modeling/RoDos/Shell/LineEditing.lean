import Mathlib.Data.List.GetD
import Mathlib.Data.List.Induction
import RoDos.Shell.Model

set_option autoImplicit false

namespace RoDos.Shell

open Base

-- What a user means by the keys, without buffers: a text, the lines entered and a place among them.
structure Editor where
  text : List UInt8
  history : List (List UInt8)
  recalled : Nat
deriving DecidableEq, Repr

inductive Press where
  | character (byte : UInt8)
  | backspace
  | up
  | down
  | enter
  | cancel
  | other
deriving DecidableEq, Repr

def readKey (k : UInt16) : Press :=
  let key := k.toUInt8
  let scan := (k >>> 8).toUInt8
  if key = 0 ∧ scan = 0x48 then .up
  else if key = 0 ∧ scan = 0x50 then .down
  else if key = 13 ∨ key = 10 then .enter
  else if key = 3 then .cancel
  else if key = 8 then .backspace
  else if 32 ≤ key ∧ key ≤ 126 then .character key
  else .other

def rtrim (text : List UInt8) : List UInt8 := text.rdropWhile isBlank

def remember (history : List (List UInt8)) (line : List UInt8) : List (List UInt8) :=
  if history.length < historySize then history ++ [line] else history.drop 1 ++ [line]

def Editor.select (editor : Editor) (entry : Nat) : Editor :=
  { editor with text := editor.history.getD entry [], recalled := entry }

def edit (editor : Editor) : Press → Editor × Option (List UInt8)
  | .character byte =>
      (if editor.text.length < maxInput - 1 then { editor with text := editor.text ++ [byte] } else editor, none)
  | .backspace => ({ editor with text := editor.text.dropLast }, none)
  | .up => (if editor.history = [] then editor else editor.select (editor.recalled - 1), none)
  | .down => (if editor.recalled + 1 < editor.history.length then editor.select (editor.recalled + 1) else editor, none)
  | .enter =>
      let line := rtrim editor.text
      if line = [] then ({ editor with text := [] }, none)
      else
        let history := remember editor.history line
        (⟨[], history, history.length⟩, some line)
  | .cancel => ({ editor with text := [] }, none)
  | .other => (editor, none)

def editing : Editor → List UInt16 → List (Option (List UInt8)) × Editor
  | editor, [] => ([], editor)
  | editor, k :: keys =>
      let edited := edit editor (readKey k)
      let rest := editing edited.1 keys
      (edited.2 :: rest.1, rest.2)

-- What the shell hands to cmd_dispatch at each key, and the history it ends with, are those of the folded edits.
def Folded (keys : List UInt16) : Prop :=
  (session boot keys).1 = (editing ⟨[], [], 0⟩ keys).1 ∧
    storedLines (session boot keys).2 = (editing ⟨[], [], 0⟩ keys).2.history

theorem press_key_read (shell : ShellState) (k : UInt16) :
    pressKey shell k =
      match readKey k with
      | .character byte =>
          (if shell.pos < maxInput - 1 then { shell with line := shell.line.set shell.pos byte, pos := shell.pos + 1 }
            else shell, none)
      | .backspace => (if 0 < shell.pos then { shell with pos := shell.pos - 1 } else shell, none)
      | .up => (arrowUp shell, none)
      | .down => (arrowDown shell, none)
      | .enter => submit { shell with line := shell.line.set shell.pos 0 }
      | .cancel => submit { shell with pos := 0 }
      | .other => (shell, none) := by
  simp only [pressKey, readKey]
  by_cases up : k.toUInt8 = 0 ∧ (k >>> 8).toUInt8 = 0x48
  · simp [up]
  by_cases down : k.toUInt8 = 0 ∧ (k >>> 8).toUInt8 = 0x50
  · simp [down]
  by_cases enter : k.toUInt8 = 13 ∨ k.toUInt8 = 10
  · simp only [if_neg up, if_neg down, if_pos enter]
  by_cases cancel : k.toUInt8 = 3
  · simp only [if_neg up, if_neg down, if_neg enter, if_pos cancel]
  by_cases backspace : k.toUInt8 = 8
  · simp only [if_neg up, if_neg down, if_neg enter, if_neg cancel, if_pos backspace]
  by_cases printable : 32 ≤ k.toUInt8 ∧ k.toUInt8 ≤ 126
  · simp only [if_neg up, if_neg down, if_neg enter, if_neg cancel, if_neg backspace, if_pos printable]
    by_cases room : shell.pos < maxInput - 1 <;> simp [room, printable]
  · simp [up, down, enter, cancel, backspace, printable]

theorem rtrim_blank (text : List UInt8) (byte : UInt8) (blank : isBlank byte = true) :
    rtrim (text ++ [byte]) = rtrim text := List.rdropWhile_concat_pos _ _ _ blank

theorem rtrim_solid (text : List UInt8) (byte : UInt8) (solid : ¬ isBlank byte = true) :
    rtrim (text ++ [byte]) = text ++ [byte] := List.rdropWhile_concat_neg _ _ _ solid

theorem rtrim_shorter (text : List UInt8) : rtrim text <+: text := List.rdropWhile_prefix _ _

theorem rtrim_length (text : List UInt8) : (rtrim text).length ≤ text.length := (rtrim_shorter text).length_le

theorem str_trim_loop_string (text rest : List UInt8) (noNul : ∀ byte ∈ text, byte ≠ 0)
    (ended : cString (text ++ rest) = text) : cString (strTrimLoop (text ++ rest) text.length) = rtrim text := by
  induction text using List.reverseRecOn generalizing rest with
  | nil => simpa [strTrimLoop, rtrim] using ended
  | append_singleton text byte ih =>
      have last : (text ++ [byte] ++ rest).getD text.length 0 = byte := by simp
      have cleared : (text ++ [byte] ++ rest).set text.length 0 = text ++ 0 :: rest := by simp
      have before : ∀ other ∈ text, other ≠ 0 := fun other member => noNul other (by simp [member])
      rw [List.length_append, List.length_singleton, strTrimLoop, last, cleared]
      by_cases blank : isBlank byte = true
      · rw [if_pos blank, rtrim_blank text byte blank]
        exact ih (0 :: rest) before (c_string_terminated text rest before)
      · rw [if_neg blank, rtrim_solid text byte blank]
        exact ended

theorem str_trim_string (s : List UInt8) : cString (strTrim s) = rtrim (cString s) := by
  have noNul := c_string_no_nul s
  rcases c_string_split s with whole | ⟨rest, split⟩
  · have trimmed := str_trim_loop_string (cString s) [] noNul (by rw [List.append_nil]; exact c_string_self _ noNul)
    rw [List.append_nil] at trimmed
    rw [strTrim]
    generalize cString s = text at whole trimmed ⊢
    rw [whole]
    exact trimmed
  · have trimmed := str_trim_loop_string (cString s) (0 :: rest) noNul (c_string_terminated _ _ noNul)
    rw [← split] at trimmed
    exact trimmed

theorem lower_shift (byte : UInt8) (lower : isLower byte = true) :
    97 ≤ byte.toNat ∧ byte.toNat ≤ 122 ∧ (byte - 32).toNat = byte.toNat - 32 := by
  simp only [isLower, Bool.decide_and, Bool.and_eq_true, decide_eq_true_eq] at lower
  have low : 97 ≤ byte.toNat := UInt8.le_iff_toNat_le.mp lower.1
  exact ⟨low, UInt8.le_iff_toNat_le.mp lower.2,
    UInt8.toNat_sub_of_le _ _ (UInt8.le_iff_toNat_le.mpr (Nat.le_trans (by decide) low))⟩

theorem to_upper_no_nul (byte : UInt8) (notNull : byte ≠ 0) : toUpper byte ≠ 0 := by
  rw [toUpper]
  by_cases lower : isLower byte = true
  · obtain ⟨low, _, shifted⟩ := lower_shift byte lower
    rw [if_pos lower]
    intro null
    rw [null] at shifted
    have zero : 0 = byte.toNat - 32 := shifted
    omega
  · rw [if_neg lower]
    exact notNull

theorem strupr_string (s : List UInt8) : cString (strupr s) = (cString s).map toUpper := by
  have noNul : ∀ byte ∈ (cString s).map toUpper, byte ≠ 0 := by
    intro byte member
    obtain ⟨typed, inside, rfl⟩ := List.mem_map.mp member
    exact to_upper_no_nul typed (c_string_no_nul s typed inside)
  rw [strupr]
  rcases c_string_split s with whole | ⟨rest, split⟩
  · have empty : s.drop (cString s).length = [] := by
      rw [← whole]
      exact List.drop_length
    rw [empty, List.append_nil]
    exact c_string_self _ noNul
  · have behind : s.drop (cString s).length = 0 :: rest := by
      conv => lhs; rw [split]
      rw [List.drop_left' (by rw [← split])]
    rw [behind]
    exact c_string_terminated _ _ noNul

theorem submit_blank (shell : ShellState) (blank : rtrim (cString shell.line) = []) : submit shell = (prompt shell, none) := by
  rw [submit]
  simp only [str_trim_string, blank, List.length_nil, Nat.lt_irrefl, if_false]

theorem submit_line (shell : ShellState) (text : List UInt8) (content : rtrim (cString shell.line) = text) (solid : text ≠ []) :
    submit shell = (prompt (addHistory shell (strTrim shell.line)), some (text.map toUpper)) := by
  have positive : 0 < text.length := List.length_pos_iff.mpr solid
  rw [submit]
  simp only [str_trim_string, content, strupr_string, if_pos positive]

theorem take_typed (line : List UInt8) (pos : Nat) (byte : UInt8) (inside : pos < line.length) :
    (line.set pos byte).take (pos + 1) = line.take pos ++ [byte] := by
  rw [List.take_add_one, List.take_set_of_le (Nat.le_refl _), List.getElem?_set_self inside]
  rfl

structure Mirrors (shell : ShellState) (editor : Editor) : Prop where
  length : shell.line.length = maxInput
  pos : shell.pos ≤ maxInput - 1
  text : editor.text = shell.line.take shell.pos
  noNul : ∀ byte ∈ editor.text, byte ≠ 0
  slots : shell.history.length = historySize
  count : shell.historyCount ≤ historySize
  history : editor.history = storedLines shell
  fits : ∀ entry ∈ editor.history, entry.length ≤ maxInput - 1
  position : editor.recalled = shell.historyPos
  within : shell.historyPos ≤ shell.historyCount

section
variable (shell : ShellState) (editor : Editor) (mirrors : Mirrors shell editor)
include mirrors

theorem mirrors_length : editor.text.length = shell.pos := by
  have length := mirrors.length
  have pos := mirrors.pos
  rw [mirrors.text, List.length_take]
  simp only [maxInput] at length pos
  omega

theorem mirrors_count : editor.history.length = shell.historyCount := by
  have slots := mirrors.slots
  have count := mirrors.count
  rw [mirrors.history, storedLines, List.length_map, List.length_take]
  omega

theorem mirrors_entry (entry : Nat) (inside : entry < shell.historyCount) :
    editor.history.getD entry [] = cString (shell.history.getD entry []) := by
  have slots := mirrors.slots
  have count := mirrors.count
  have bound : entry < shell.history.length := by omega
  rw [mirrors.history, storedLines]
  simp [List.getD_eq_getElem?_getD, inside, List.getElem?_eq_getElem bound]

theorem mirrors_copied (entry : Nat) (inside : entry < shell.historyCount) :
    (cString (shell.history.getD entry [])).take (maxInput - 1) = editor.history.getD entry [] := by
  have stored := mirrors_entry shell editor mirrors entry inside
  have listed : editor.history.getD entry [] ∈ editor.history := by
    have short := mirrors_count shell editor mirrors
    rw [List.getD_eq_getElem _ _ (by omega)]
    exact List.getElem_mem _
  have fits := mirrors.fits _ listed
  rw [← stored]
  exact List.take_of_length_le fits

theorem mirrors_recall (entry : Nat) (inside : entry < shell.historyCount) :
    Mirrors (recallEntry shell entry) (editor.select entry) := by
  have length := mirrors.length
  have stored := mirrors_entry shell editor mirrors entry inside
  have whole := mirrors_copied shell editor mirrors entry inside
  refine ⟨?_, ?_, ?_, ?_, mirrors.slots, mirrors.count, mirrors.history, mirrors.fits, rfl, Nat.le_of_lt inside⟩
  · exact (str_copy_length _ _ _ (Nat.le_of_eq length.symm) (by decide)).trans length
  · rw [recallEntry]
    exact List.length_take_le _ _
  · simp only [recallEntry, Editor.select, strCopy, whole]
    rw [List.take_left' rfl]
  · intro byte member
    simp only [Editor.select, stored] at member
    exact c_string_no_nul _ byte member

theorem stored_lines_add (line : List UInt8) (fits : (cString line).length ≤ maxInput - 1) :
    storedLines (addHistory shell line) = remember editor.history (cString line) := by
  have slots := mirrors.slots
  have count := mirrors.count
  have short := mirrors_count shell editor mirrors
  have copied (slot : List UInt8) : cString (strCopy slot line maxInput) = cString line := by
    rw [c_string_copy]
    exact List.take_of_length_le fits
  by_cases room : shell.historyCount < historySize
  · rw [addHistory, if_pos room, remember, short, if_pos room, mirrors.history, storedLines, storedLines]
    rw [List.take_add_one, List.take_set_of_le (Nat.le_refl _), List.getElem?_set_self (by omega)]
    simp [copied]
  · have full : shell.historyCount = historySize := by omega
    have all : shell.history.take shell.historyCount = shell.history := List.take_of_length_le (by omega)
    rw [addHistory, if_neg room, remember, short, if_neg room, mirrors.history, storedLines, storedLines, all]
    dsimp only
    rw [full, List.take_of_length_le (by simp [slots, historySize])]
    simp [copied]

omit mirrors in
theorem prompt_add_history (typed line : List UInt8) :
    prompt (addHistory { shell with line := typed } line) = prompt (addHistory shell line) := by
  simp only [prompt, addHistory]
  split <;> rfl

theorem mirrors_prompt : Mirrors (prompt shell) { editor with text := [] } :=
  ⟨by simp [prompt], Nat.zero_le _, rfl, by simp, mirrors.slots, mirrors.count, mirrors.history, mirrors.fits,
    mirrors.position, mirrors.within⟩

theorem mirrors_add (line : List UInt8) (fits : (cString line).length ≤ maxInput - 1) :
    Mirrors (prompt (addHistory shell line))
      ⟨[], remember editor.history (cString line), (remember editor.history (cString line)).length⟩ := by
  have slots := mirrors.slots
  have short := mirrors_count shell editor mirrors
  have count := mirrors.count
  have grown := stored_lines_add shell editor mirrors line fits
  have entries : ∀ entry ∈ remember editor.history (cString line), entry.length ≤ maxInput - 1 := by
    intro entry member
    have known : entry ∈ editor.history ∨ entry = cString line := by
      rw [remember] at member
      by_cases room : editor.history.length < historySize
      · simpa [room] using member
      · rw [if_neg room, List.mem_append, List.mem_singleton] at member
        exact member.imp_left List.mem_of_mem_drop
    rcases known with older | same
    · exact mirrors.fits entry older
    · rw [same]
      exact fits
  by_cases room : shell.historyCount < historySize
  · refine ⟨by simp [prompt], Nat.zero_le _, rfl, by simp, ?_, ?_, grown.symm, entries, ?_, ?_⟩
    · simp [prompt, addHistory, room, slots]
    · simp only [prompt, addHistory, if_pos room]
      omega
    · simp [prompt, addHistory, remember, short, room]
    · simp [prompt, addHistory, room]
  · refine ⟨by simp [prompt], Nat.zero_le _, rfl, by simp, ?_, ?_, grown.symm, entries, ?_, ?_⟩
    · simp only [prompt, addHistory, if_neg room, List.length_append, List.length_drop, List.length_singleton, slots]
      rfl
    · simp only [prompt, addHistory, if_neg room]
      exact count
    · simp only [prompt, addHistory, remember, short, if_neg room, List.length_append, List.length_drop,
        List.length_singleton]
      simp only [historySize] at room
      omega
    · simp [prompt, addHistory, room]

theorem mirrors_entered : cString (shell.line.set shell.pos 0) = editor.text := by
  have length := mirrors.length
  have pos := mirrors.pos
  simp only [maxInput] at length pos
  have noNul := mirrors.noNul
  rw [List.set_eq_take_append_cons_drop, if_pos (by omega), ← mirrors.text]
  exact c_string_terminated _ _ noNul

theorem mirrors_up : Mirrors (arrowUp shell)
    (if editor.history = [] then editor else editor.select (editor.recalled - 1)) := by
  have short := mirrors_count shell editor mirrors
  have position := mirrors.position
  have within := mirrors.within
  rw [arrowUp]
  by_cases some : 0 < shell.historyCount
  · have listed : editor.history ≠ [] := by
      rintro empty
      rw [empty] at short
      exact absurd some (by simp [← short])
    rw [if_pos some, if_neg listed, position]
    by_cases back : 0 < shell.historyPos
    · rw [if_pos back]
      exact mirrors_recall shell editor mirrors (shell.historyPos - 1) (by omega)
    · rw [if_neg back]
      have first : shell.historyPos - 1 = shell.historyPos := by omega
      rw [first]
      exact mirrors_recall shell editor mirrors shell.historyPos (by omega)
  · have listed : editor.history = [] := List.length_eq_zero_iff.mp (by omega)
    rw [if_neg some, if_pos listed]
    exact mirrors

theorem mirrors_down : Mirrors (arrowDown shell)
    (if editor.recalled + 1 < editor.history.length then editor.select (editor.recalled + 1) else editor) := by
  have short := mirrors_count shell editor mirrors
  have position := mirrors.position
  rw [arrowDown, short, position]
  by_cases later : shell.historyPos + 1 < shell.historyCount
  · rw [if_pos ⟨by omega, later⟩, if_pos later]
    exact mirrors_recall shell editor mirrors (shell.historyPos + 1) later
  · rw [if_neg fun both => later both.2, if_neg later]
    exact mirrors

theorem mirrors_erase : Mirrors (if 0 < shell.pos then { shell with pos := shell.pos - 1 } else shell)
    { editor with text := editor.text.dropLast } := by
  have length := mirrors_length shell editor mirrors
  have filled := mirrors.length
  have pos := mirrors.pos
  by_cases some : 0 < shell.pos
  · rw [if_pos some]
    refine ⟨filled, Nat.le_trans (Nat.sub_le _ _) pos, ?_, ?_, mirrors.slots, mirrors.count, mirrors.history,
      mirrors.fits, mirrors.position, mirrors.within⟩
    · rw [mirrors.text, List.dropLast_take (by simp only [maxInput] at filled pos; omega)]
    · exact fun byte member => mirrors.noNul byte (List.dropLast_subset _ member)
  · have empty : editor.text = [] := List.length_eq_zero_iff.mp (by omega)
    rw [if_neg some]
    have same : { editor with text := editor.text.dropLast } = editor := by
      cases editor
      simp_all
    rw [same]
    exact mirrors

theorem mirrors_type (byte : UInt8) (notNull : byte ≠ 0) :
    Mirrors
      (if shell.pos < maxInput - 1 then { shell with line := shell.line.set shell.pos byte, pos := shell.pos + 1 }
        else shell)
      (if editor.text.length < maxInput - 1 then { editor with text := editor.text ++ [byte] } else editor) := by
  have length := mirrors_length shell editor mirrors
  have filled := mirrors.length
  rw [length]
  by_cases room : shell.pos < maxInput - 1
  · rw [if_pos room, if_pos room]
    refine ⟨by simpa using filled, room, ?_, ?_, mirrors.slots, mirrors.count, mirrors.history, mirrors.fits,
      mirrors.position, mirrors.within⟩
    · have bound : shell.pos < shell.line.length := by omega
      dsimp only
      rw [take_typed _ _ _ bound, mirrors.text]
    · intro other member
      rcases List.mem_append.mp member with older | new
      · exact mirrors.noNul other older
      · rw [List.mem_singleton.mp new]
        exact notNull
  · rw [if_neg room, if_neg room]
    exact mirrors
end

-- Ctrl+C asks for a buffer that holds only blanks, erased characters included, and Enter for a
-- line without a lower-case letter.
def Accepts (shell : ShellState) (k : UInt16) : Prop :=
  match readKey k with
  | .enter => ∀ byte ∈ rtrim (shell.line.take shell.pos), isLower byte = false
  | .cancel => rtrim (cString shell.line) = []
  | _ => True

theorem to_upper_same (byte : UInt8) : toUpper byte = byte ↔ isLower byte = false := by
  rw [toUpper]
  by_cases lower : isLower byte = true
  · rw [if_pos lower]
    refine ⟨fun same => ?_, fun upper => absurd lower (by simp [upper])⟩
    obtain ⟨low, _, shifted⟩ := lower_shift byte lower
    rw [same] at shifted
    omega
  · simp [lower]

theorem map_upper_same (text : List UInt8) : text.map toUpper = text ↔ ∀ byte ∈ text, isLower byte = false := by
  induction text with
  | nil => simp
  | cons byte rest ih =>
      rw [List.map_cons, List.cons.injEq, to_upper_same, ih]
      simp

theorem read_key_printable (k : UInt16) (byte : UInt8) (read : readKey k = .character byte) : 32 ≤ byte ∧ byte ≤ 126 := by
  simp only [readKey] at read
  repeat' split at read
  all_goals simp only [Press.character.injEq, reduceCtorEq] at read
  rename_i printable
  rw [← read]
  exact printable

theorem read_key_character (k : UInt16) (byte : UInt8) (read : readKey k = .character byte) : byte ≠ 0 := by
  rintro rfl
  exact absurd (read_key_printable k 0 read).1 (by decide)

-- One key: the shell and the editor stay together as long as the key is accepted, and the
-- first key that is not shows in what is dispatched.
theorem press_key_mirrors (shell : ShellState) (editor : Editor) (mirrors : Mirrors shell editor) (k : UInt16) :
    (Accepts shell k → Mirrors (pressKey shell k).1 (edit editor (readKey k)).1) ∧
      ((pressKey shell k).2 = (edit editor (readKey k)).2 ↔ Accepts shell k) := by
  rw [press_key_read, Accepts]
  cases read : readKey k with
  | character byte =>
      have notNull := read_key_character k byte read
      exact ⟨fun _ => mirrors_type shell editor mirrors byte notNull, by simp [edit]⟩
  | backspace => exact ⟨fun _ => mirrors_erase shell editor mirrors, by simp [edit]⟩
  | up => exact ⟨fun _ => mirrors_up shell editor mirrors, by simp [edit]⟩
  | down => exact ⟨fun _ => mirrors_down shell editor mirrors, by simp [edit]⟩
  | other => exact ⟨fun _ => mirrors, by simp [edit]⟩
  | enter =>
      have entered := mirrors_entered shell editor mirrors
      have text := mirrors.text
      by_cases blank : rtrim editor.text = []
      · have submitted := submit_blank { shell with line := shell.line.set shell.pos 0 } (by rw [entered]; exact blank)
        simp only [submitted, edit, ← text, blank]
        exact ⟨fun _ => mirrors_prompt shell editor mirrors, by simp⟩
      · have submitted := submit_line { shell with line := shell.line.set shell.pos 0 } (rtrim editor.text)
          (by rw [entered]) blank
        have trimmed : cString (strTrim (shell.line.set shell.pos 0)) = rtrim editor.text := by
          rw [str_trim_string, entered]
        have fits : (cString (strTrim (shell.line.set shell.pos 0))).length ≤ maxInput - 1 := by
          have short := rtrim_length editor.text
          have pos := mirrors.pos
          rw [mirrors_length shell editor mirrors] at short
          rw [trimmed]
          omega
        have added := mirrors_add shell editor mirrors _ fits
        rw [trimmed] at added
        simp only [submitted, edit, if_neg blank, ← text, Option.some.injEq, map_upper_same, prompt_add_history]
        exact ⟨fun _ => added, trivial⟩
  | cancel =>
      by_cases blank : rtrim (cString shell.line) = []
      · have submitted := submit_blank { shell with pos := 0 } blank
        simp only [submitted, edit, blank]
        exact ⟨fun _ => mirrors_prompt shell editor mirrors, by simp⟩
      · have submitted := submit_line { shell with pos := 0 } (rtrim (cString shell.line)) rfl blank
        simp only [submitted, edit, blank]
        exact ⟨fun impossible => absurd impossible (by simp), by simp⟩

def CleanSession : ShellState → List UInt16 → Prop
  | _, [] => True
  | shell, k :: keys => Accepts shell k ∧ CleanSession (pressKey shell k).1 keys

theorem session_mirrors (keys : List UInt16) (shell : ShellState) (editor : Editor) (mirrors : Mirrors shell editor) :
    (CleanSession shell keys → Mirrors (session shell keys).2 (editing editor keys).2) ∧
      ((session shell keys).1 = (editing editor keys).1 ↔ CleanSession shell keys) := by
  induction keys generalizing shell editor with
  | nil => exact ⟨fun _ => mirrors, by simp [session, editing, CleanSession]⟩
  | cons k keys ih =>
      obtain ⟨together, same⟩ := press_key_mirrors shell editor mirrors k
      simp only [session, editing, CleanSession, List.cons.injEq, same]
      refine ⟨fun clean => (ih _ _ (together clean.1)).1 clean.2, and_congr_right fun accepted => ?_⟩
      exact (ih _ _ (together accepted)).2

theorem boot_mirrors : Mirrors boot ⟨[], [], 0⟩ :=
  ⟨by simp [boot], Nat.zero_le _, rfl, by simp, by simp [boot], Nat.zero_le _, rfl, by simp, rfl, Nat.le_refl _⟩

theorem session_folds_edits (keys : List UInt16) : Folded keys ↔ CleanSession boot keys := by
  obtain ⟨together, same⟩ := session_mirrors keys boot ⟨[], [], 0⟩ boot_mirrors
  constructor
  · intro folded
    exact same.mp folded.1
  · intro clean
    exact ⟨same.mpr clean, (together clean).history.symm⟩

-- Ctrl+C after a typed D leaves the letter in the buffer, and the line is dispatched all the same.
theorem cancelled_line_dispatched : ¬ ∀ keys, Folded keys := by
  intro claimed
  have folded := (claimed [68, 3]).1
  exact absurd folded (by decide +kernel)

end RoDos.Shell
