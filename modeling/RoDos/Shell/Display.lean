import RoDos.Screen.Text
import RoDos.Shell.History

set_option autoImplicit false

namespace RoDos.Shell

open Base Screen

def eraseEcho : List UInt8 := [0x08, 0x20, 0x08]

-- The characters of the line are erased one by one before the entry is printed.
def recallEcho (shell : ShellState) (entry : Nat) : List UInt8 :=
  (List.replicate shell.pos eraseEcho).flatten ++ (cString (shell.history.getD entry [])).take (maxInput - 1)

-- What shell_main prints for a key before it reads the next one or leaves the inner loop.
def echo (shell : ShellState) (k : UInt16) : List UInt8 :=
  match readKey k with
  | .character byte => if shell.pos < maxInput - 1 then [byte] else []
  | .backspace => if 0 < shell.pos then eraseEcho else []
  | .up | .down => (recalledEntry shell k).elim [] (recallEcho shell)
  | .enter => [0x0A]
  | .cancel => [0x5E, 0x43, 0x0A]
  | .other => []

def typeKey (desk : ShellState × Console) (k : UInt16) : Option (ShellState × Console) :=
  (printAll desk.2 (echo desk.1 k)).map fun console => ((pressKey desk.1 k).1, console)

def isEditing (k : UInt16) : Bool :=
  match readKey k with
  | .character _ | .backspace => true
  | .up | .down | .enter | .cancel | .other => false

structure LineShown (before console : Console) (shell : ShellState) : Prop where
  text : textFrom console (place before) = (shell.line.take shell.pos).map some
  blank : BlankBehind before → BlankBehind console

def KeyShown (before : Console) (desk : ShellState × Console) (k : UInt16) : Prop :=
  ∀ next, typeKey desk k = some next → LineShown before next.2 next.1

def ErasesInRow (desk : ShellState × Console) (k : UInt16) : Prop :=
  readKey k = .backspace → 0 < desk.1.pos → desk.2.output.cursorCol ≠ 0

instance (desk : ShellState × Console) (k : UInt16) : Decidable (ErasesInRow desk k) :=
  inferInstanceAs (Decidable (readKey k = .backspace → 0 < desk.1.pos → desk.2.output.cursorCol ≠ 0))

structure Typing (before console : Console) (shell : ShellState) : Prop where
  length : shell.line.length = maxInput
  pos : shell.pos ≤ maxInput - 1
  shown : ∃ terminal, Shown console terminal ∧ terminal.Displays (place before) (shell.line.take shell.pos) ∧
    (BlankBehind before → terminal.BlankBehind)

theorem typing_shown (before console : Console) (shell : ShellState) (typing : Typing before console shell) :
    LineShown before console shell := by
  obtain ⟨terminal, shown, displays, blank⟩ := typing.shown
  exact ⟨text_displayed terminal console shown _ _ displays,
    fun clear => (blank_shown terminal console shown).mpr (blank clear)⟩

theorem prompt_typing (shell : ShellState) (console : Console) (idle : console.output.pc = .idle)
    (row : console.output.cursorRow < 25) (col : console.output.cursorCol < 80) :
    Typing console console (prompt shell) := by
  have shown : Shown console (terminalOf console ⟨_, row⟩ ⟨_, col⟩) := ⟨idle, rfl, rfl, rfl, fun _ _ => rfl, rfl⟩
  refine ⟨List.length_replicate, Nat.zero_le _, _, shown, ⟨?_, ?_, ?_⟩, (blank_shown _ console shown).mp⟩
  · exact (place_shown _ console shown).symm
  · exact Nat.le_add_right _ _
  · intro row col i _ before
    exact absurd before (Nat.not_lt_zero i)

section
variable (before console : Console) (shell : ShellState) (typing : Typing before console shell)
include typing

theorem typed_length : (shell.line.take shell.pos).length = shell.pos := by
  have length := typing.length
  have pos := typing.pos
  rw [List.length_take]
  omega

theorem character_typed (k : UInt16) (byte : UInt8) (read : readKey k = .character byte) :
    ∃ next, typeKey (shell, console) k = some next ∧ Typing before next.2 next.1 := by
  obtain ⟨length, pos, terminal, shown, displays, blank⟩ := typing
  obtain ⟨low, high⟩ := read_key_printable k byte read
  have echoed : echo shell k = if shell.pos < maxInput - 1 then [byte] else [] := by rw [echo, read]
  have pressed := press_key_read shell k
  rw [read] at pressed
  dsimp only at pressed
  by_cases room : shell.pos < maxInput - 1
  · rw [if_pos room] at echoed pressed
    have glyph (control : UInt8) (below : control < 32) : byte ≠ control := fun same =>
      absurd (same ▸ low) (UInt8.not_le.mpr below)
    have advances := put_advances terminal byte (glyph _ (by decide)) (glyph _ (by decide)) (glyph _ (by decide))
    obtain ⟨finish, printed, finishShown⟩ := print_all_shown [byte] console terminal shown
    have inside : shell.pos < shell.line.length := by omega
    have short : (shell.line.take shell.pos).length < 255 := by
      rw [List.length_take]
      exact Nat.lt_of_le_of_lt (Nat.min_le_left _ _) room
    refine ⟨({ shell with line := shell.line.set shell.pos byte, pos := shell.pos + 1 }, finish), ?_,
      List.length_set.trans length, room, _, finishShown, ?_, ?_⟩
    · rw [typeKey, echoed, printed, Option.map_some, pressed]
    · dsimp only
      rw [take_typed _ _ _ inside]
      exact advances_displays terminal _ byte advances _ _ displays short
    · exact fun clear => advances_blank terminal _ byte advances (blank clear)
  · rw [if_neg room] at echoed pressed
    refine ⟨(shell, console), ?_, length, pos, terminal, shown, displays, blank⟩
    rw [typeKey, echoed, printAll, Option.map_some, pressed]

theorem backspace_typed (k : UInt16) (read : readKey k = .backspace) (sound : ErasesInRow (shell, console) k) :
    ∃ next, typeKey (shell, console) k = some next ∧ Typing before next.2 next.1 := by
  have filled := typed_length before console shell typing
  obtain ⟨length, pos, terminal, shown, displays, blank⟩ := typing
  have echoed : echo shell k = if 0 < shell.pos then eraseEcho else [] := by rw [echo, read]
  have pressed := press_key_read shell k
  rw [read] at pressed
  dsimp only at pressed
  by_cases some : 0 < shell.pos
  · rw [if_pos some] at echoed pressed
    have inside : terminal.col.val ≠ 0 := shown.col ▸ sound read some
    have back : terminal.col.val = (⟨terminal.col.val - 1, by omega⟩ : Fin 80).val + 1 := by
      dsimp only
      omega
    obtain ⟨finish, printed, finishShown⟩ := print_all_shown eraseEcho console terminal shown
    rw [eraseEcho, erase_echo terminal _ back] at finishShown
    refine ⟨({ shell with pos := shell.pos - 1 }, finish), ?_, length, Nat.le_trans (Nat.sub_le _ _) pos, _, finishShown, ?_, ?_⟩
    · rw [typeKey, echoed, printed, Option.map_some, pressed]
    · dsimp only
      rw [← List.dropLast_take (by omega)]
      exact erase_displays terminal _ back _ _ displays (by omega)
    · exact fun clear => erase_blank terminal _ back (blank clear)
  · rw [if_neg some] at echoed pressed
    refine ⟨(shell, console), ?_, length, pos, terminal, shown, displays, blank⟩
    rw [typeKey, echoed, printAll, Option.map_some, pressed]

theorem backspace_missed (k : UInt16) (unsound : ¬ ErasesInRow (shell, console) k) :
    ∃ next, typeKey (shell, console) k = some next ∧ ¬ LineShown before next.2 next.1 := by
  have filled := typed_length before console shell typing
  obtain ⟨length, pos, terminal, shown, displays, blank⟩ := typing
  rw [ErasesInRow] at unsound
  push Not at unsound
  obtain ⟨read, some, edge⟩ := unsound
  have echoed : echo shell k = eraseEcho := by rw [echo, read]; exact if_pos some
  have pressed := press_key_read shell k
  rw [read] at pressed
  dsimp only at pressed
  rw [if_pos some] at pressed
  have first : terminal.col = 0 := Fin.ext (shown.col.symm.trans edge)
  obtain ⟨finish, printed, finishShown⟩ := print_all_shown eraseEcho console terminal shown
  refine ⟨({ shell with pos := shell.pos - 1 }, finish), ?_, fun right => ?_⟩
  · rw [typeKey, echoed, printed, Option.map_some, pressed]
  have stays := place_shown _ finish finishShown
  rw [eraseEcho, edge_echo terminal first, displays.here, filled] at stays
  have lengths := congrArg List.length right.text
  rw [textFrom, List.length_map, List.length_range, List.length_map, List.length_take, stays] at lengths
  dsimp only at lengths some
  omega
end

theorem along_shown_iff (before : Console) (keys : List UInt16) (console : Console) (shell : ShellState)
    (typing : Typing before console shell) (editing : ∀ k ∈ keys, isEditing k = true) :
    Along typeKey (KeyShown before) (shell, console) keys ↔ Along typeKey ErasesInRow (shell, console) keys := by
  induction keys generalizing console shell with
  | nil => exact Iff.rfl
  | cons k keys ih =>
      rw [Along, Along]
      by_cases sound : ErasesInRow (shell, console) k
      · have typed : ∃ next, typeKey (shell, console) k = some next ∧ Typing before next.2 next.1 := by
          have key := editing k List.mem_cons_self
          rw [isEditing] at key
          cases read : readKey k with
          | character byte => exact character_typed before console shell typing k byte read
          | backspace => exact backspace_typed before console shell typing k read sound
          | up | down | enter | cancel | other =>
              rw [read] at key
              cases key
        obtain ⟨next, taken, later⟩ := typed
        have right : KeyShown before (shell, console) k := fun other moved => by
          rw [taken] at moved
          cases moved
          exact typing_shown before _ _ later
        have further := ih next.2 next.1 later fun k member => editing k (List.mem_cons_of_mem _ member)
        rw [taken]
        refine and_congr (iff_of_true right sound) (forall_congr' fun reached => imp_congr_right fun moved => ?_)
        cases moved
        exact further
      · obtain ⟨next, taken, missed⟩ := backspace_missed before console shell typing k sound
        exact iff_of_false (fun both => missed (both.1 next taken)) fun both => sound both.1

theorem line_shown_iff (shell : ShellState) (console : Console) (keys : List UInt16) (idle : console.output.pc = .idle)
    (row : console.output.cursorRow < 25) (col : console.output.cursorCol < 80)
    (editing : ∀ k ∈ keys, isEditing k = true) :
    Along typeKey (KeyShown console) (prompt shell, console) keys ↔
      Along typeKey ErasesInRow (prompt shell, console) keys :=
  along_shown_iff console keys console (prompt shell) (prompt_typing shell console idle row col) editing

def wideConsole : Console :=
  let console := ioInit fun _ => 0
  { console with output := { console.output with cursorCol := 78 } }

theorem line_shown_wrapped : Along typeKey (KeyShown wideConsole) (prompt boot, wideConsole) [97, 98, 99, 8] :=
  (line_shown_iff boot wideConsole [97, 98, 99, 8] rfl (by decide) (by decide) (List.all_eq_true.mp (by decide))).mpr
    (by decide +kernel)

-- The second character is the last of its row and stays there.
theorem line_not_shown : ¬ ∀ shell console keys, console.output.pc = .idle → console.output.cursorRow < 25 →
    console.output.cursorCol < 80 → (∀ k ∈ keys, isEditing k = true) →
      Along typeKey (KeyShown console) (prompt shell, console) keys := by
  intro claimed
  have along := claimed boot wideConsole [97, 97, 8] rfl (by decide) (by decide) (List.all_eq_true.mp (by decide))
  have evaluated : (runAll typeKey (prompt boot, wideConsole) [97, 97]).any (fun desk => (typeKey desk 8).any fun next =>
      (textFrom next.2 (place wideConsole)).length = 2 ∧ next.1.pos = 1) = true := by decide +kernel
  obtain ⟨desk, run, erased⟩ := (Option.any_eq_true _ _).mp evaluated
  obtain ⟨next, taken, seen⟩ := (Option.any_eq_true _ _).mp erased
  obtain ⟨shown, held⟩ := of_decide_eq_true seen
  have right := along_last typeKey (KeyShown wideConsole) _ desk [97, 97] 8 along run
  have lengths := congrArg List.length (right next taken).text
  rw [shown, List.length_map, List.length_take, held] at lengths
  omega

end RoDos.Shell
