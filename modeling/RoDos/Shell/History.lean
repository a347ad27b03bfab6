import RoDos.Base.Ring
import RoDos.Shell.LineEditing

set_option autoImplicit false

namespace RoDos.Shell

open Base

def trimmedLine (line : List UInt8) : Option (List UInt8) :=
  let trimmed := cString (strTrim line)
  if 0 < trimmed.length then some trimmed else none

def handedLine (shell : ShellState) (k : UInt16) : Option (List UInt8) :=
  match readKey k with
  | .enter => trimmedLine (shell.line.set shell.pos 0)
  | .cancel => trimmedLine shell.line
  | _ => none

def handedOver : ShellState → List UInt16 → List (List UInt8)
  | _, [] => []
  | shell, k :: keys => (handedLine shell k).toList ++ handedOver (pressKey shell k).1 keys

def recalledEntry (shell : ShellState) (k : UInt16) : Option Nat :=
  match readKey k with
  | .up =>
      if 0 < shell.historyCount then some (if 0 < shell.historyPos then shell.historyPos - 1 else shell.historyPos)
      else none
  | .down =>
      if 0 < shell.historyCount ∧ shell.historyPos + 1 < shell.historyCount then some (shell.historyPos + 1) else none
  | _ => none

structure ShowsEntry (shell : ShellState) (entry : Nat) : Prop where
  within : entry < shell.historyCount
  position : shell.historyPos = entry
  line : (storedLines shell)[entry]? = some (cString shell.line)
  pos : shell.pos = (cString shell.line).length

def upKey : UInt16 := 0x4800
def downKey : UInt16 := 0x5000

-- Up goes to the older line and stays at the oldest, Down to the newer one and stays at the newest.
def walk (count position : Nat) : Press → Nat
  | .up => if 0 < count then position - 1 else position
  | .down => if position + 1 < count then position + 1 else position
  | _ => position

structure HistoryRight (shell : ShellState) (handed : List (List UInt8)) : Prop where
  stored : storedLines shell = newest historySize handed
  position : shell.historyPos ≤ shell.historyCount
  recalls : ∀ k entry, recalledEntry shell k = some entry →
    pressKey shell k = (recallEntry shell entry, none) ∧ ShowsEntry (recallEntry shell entry) entry
  walks : ∀ k text, handedLine shell k = some text → ∀ keys, handedOver (pressKey shell k).1 keys = [] →
    (session (pressKey shell k).1 keys).2.historyPos =
      (keys.map readKey).foldl (walk (pressKey shell k).1.historyCount) (pressKey shell k).1.historyCount
  arrows : ∀ k text, handedLine shell k = some text → ∀ ups downs, 0 < ups →
    ShowsEntry (session (pressKey shell k).1 (List.replicate ups upKey ++ List.replicate downs downKey)).2
      (min ((pressKey shell k).1.historyCount - ups + downs) ((pressKey shell k).1.historyCount - 1))

def editorOf (shell : ShellState) : Editor := ⟨shell.line.take shell.pos, storedLines shell, shell.historyPos⟩

structure Remembers (shell : ShellState) (handed : List (List UInt8)) : Prop where
  mirrors : Mirrors shell (editorOf shell)
  stored : storedLines shell = newest historySize handed
  ended : shell.line.getD (maxInput - 1) 0 = 0

theorem mirrors_editor (shell : ShellState) (editor : Editor) (mirrors : Mirrors shell editor) : editorOf shell = editor := by
  rw [editorOf, ← mirrors.text, ← mirrors.history, ← mirrors.position]

theorem remembers_of (shell : ShellState) (editor : Editor) (handed : List (List UInt8)) (mirrors : Mirrors shell editor)
    (stored : editor.history = newest historySize handed) (ended : shell.line.getD (maxInput - 1) 0 = 0) :
    Remembers shell handed := by
  refine ⟨?_, mirrors.history.symm.trans stored, ended⟩
  rw [mirrors_editor shell editor mirrors]
  exact mirrors

theorem submit_trimmed (shell : ShellState) : submit shell =
    match trimmedLine shell.line with
    | none => (prompt shell, none)
    | some text => (prompt (addHistory shell (strTrim shell.line)), some (text.map toUpper)) := by
  rw [submit, trimmedLine]
  by_cases solid : 0 < (cString (strTrim shell.line)).length
  · rw [if_pos solid, if_pos solid, strupr_string]
  · rw [if_neg solid, if_neg solid]

theorem handed_dispatched (shell : ShellState) (k : UInt16) :
    (pressKey shell k).2 = (handedLine shell k).map fun text => text.map toUpper := by
  have submitted (typed : ShellState) : (submit typed).2 = (trimmedLine typed.line).map fun text => text.map toUpper := by
    rw [submit_trimmed]
    cases trimmedLine typed.line <;> rfl
  rw [press_key_read, handedLine]
  cases readKey k with
  | enter => exact submitted _
  | cancel => exact submitted _
  | character | backspace | up | down | other => rfl

theorem session_dispatched (keys : List UInt16) (shell : ShellState) :
    (session shell keys).1.reduceOption = (handedOver shell keys).map fun text => text.map toUpper := by
  induction keys generalizing shell with
  | nil => rfl
  | cons k keys ih =>
      rw [session, handedOver, List.map_append, ← ih, handed_dispatched]
      cases handedLine shell k <;> rfl

theorem session_append (first second : List UInt16) (shell : ShellState) :
    (session shell (first ++ second)).2 = (session (session shell first).2 second).2 := by
  induction first generalizing shell with
  | nil => rfl
  | cons k keys ih => exact ih _

theorem remember_newest (handed : List (List UInt8)) (line : List UInt8) :
    remember (newest historySize handed) line = newest historySize (handed ++ [line]) := by
  have length := newest_length historySize handed
  rw [newest_push historySize (by decide), remember]
  by_cases room : (newest historySize handed).length < historySize
  · rw [if_pos room, Nat.sub_eq_zero_of_le room, List.drop_zero]
  · have full : (newest historySize handed).length = historySize := by omega
    rw [if_neg room, full, Nat.add_sub_cancel_left, List.drop_append_of_le_length (by rw [full]; decide)]

theorem c_string_short (buffer : List UInt8) (length : buffer.length = maxInput)
    (ended : buffer.getD (maxInput - 1) 0 = 0) : (cString buffer).length ≤ maxInput - 1 := by
  rcases c_string_split buffer with whole | ⟨rest, split⟩
  · have inside : maxInput - 1 < buffer.length := by rw [length]; decide
    rw [List.getD_eq_getElem _ _ inside] at ended
    have member : (0 : UInt8) ∈ cString buffer := by
      rw [← whole, ← ended]
      exact List.getElem_mem inside
    exact absurd rfl (c_string_no_nul buffer 0 member)
  · have lengths := congrArg List.length split
    rw [length, List.length_append, List.length_cons] at lengths
    omega

theorem str_copy_ended (dst src : List UInt8) (length : dst.length = maxInput) (ended : dst.getD (maxInput - 1) 0 = 0) :
    (strCopy dst src maxInput).getD (maxInput - 1) 0 = 0 := by
  have short := List.length_take_le (maxInput - 1) (cString src)
  rw [strCopy]
  generalize (cString src).take (maxInput - 1) = kept at short ⊢
  obtain ⟨more, whole⟩ : ∃ more, maxInput - 1 = kept.length + more := ⟨maxInput - 1 - kept.length, by omega⟩
  rw [whole] at ended ⊢
  rw [get_behind]
  cases more with
  | zero => rfl
  | succ more =>
      rw [List.getD_cons_succ, List.getD_eq_getElem?_getD, List.getElem?_drop, ← List.getD_eq_getElem?_getD]
      have place : kept.length + 1 + more = kept.length + (more + 1) := by omega
      rw [place, ended]

theorem prompt_ended (shell : ShellState) : (prompt shell).line.getD (maxInput - 1) 0 = 0 := by
  rw [prompt, List.getD_replicate _ (by decide)]

theorem prompt_keeps_nothing (shell : ShellState) (typed : List UInt8) (pos : Nat) (line : List UInt8) :
    prompt (addHistory { shell with line := typed, pos := pos } line) = prompt (addHistory shell line) := by
  rw [addHistory, addHistory]
  split <;> rfl

theorem submit_remembers (shell : ShellState) (handed : List (List UInt8)) (remembers : Remembers shell handed)
    (typed : List UInt8) (pos : Nat) (short : (cString typed).length ≤ maxInput - 1) :
    Remembers (submit { shell with line := typed, pos := pos }).1 (handed ++ (trimmedLine typed).toList) := by
  have mirrors := remembers.mirrors
  rw [submit_trimmed]
  dsimp only
  cases trimmed : trimmedLine typed with
  | none =>
      rw [Option.toList_none, List.append_nil]
      exact remembers_of _ _ _ (mirrors_prompt shell _ mirrors) remembers.stored (prompt_ended _)
  | some text =>
      have content : cString (strTrim typed) = text := by
        rw [trimmedLine] at trimmed
        exact Option.some.inj (Option.ite_none_right_eq_some.mp trimmed).2
      have fits : (cString (strTrim typed)).length ≤ maxInput - 1 := by
        rw [str_trim_string]
        exact Nat.le_trans (rtrim_length _) short
      have added := mirrors_add shell _ mirrors _ fits
      dsimp only
      rw [prompt_keeps_nothing, Option.toList_some]
      refine remembers_of _ _ _ added ?_ (prompt_ended _)
      rw [content, ← remember_newest, ← remembers.stored]
      rfl

theorem press_ended (shell : ShellState) (k : UInt16) (length : shell.line.length = maxInput)
    (ended : shell.line.getD (maxInput - 1) 0 = 0) : (pressKey shell k).1.line.getD (maxInput - 1) 0 = 0 := by
  have copied (entry : Nat) : (recallEntry shell entry).line.getD (maxInput - 1) 0 = 0 :=
    str_copy_ended shell.line _ length ended
  have submitted (typed : ShellState) : (submit typed).1.line.getD (maxInput - 1) 0 = 0 := by
    rw [submit_trimmed]
    cases trimmedLine typed.line with
    | none => exact prompt_ended _
    | some text => exact prompt_ended _
  rw [press_key_read]
  cases readKey k with
  | character byte =>
      dsimp only
      split
      case isTrue room =>
        dsimp only
        rw [List.getD_eq_getElem?_getD, List.getElem?_set_ne (Nat.ne_of_lt room), ← List.getD_eq_getElem?_getD]
        exact ended
      case isFalse => exact ended
  | backspace =>
      dsimp only
      split
      · exact ended
      · exact ended
  | up =>
      dsimp only
      rw [arrowUp]
      split
      · exact copied _
      · exact ended
  | down =>
      dsimp only
      rw [arrowDown]
      split
      · exact copied _
      · exact ended
  | enter => exact submitted _
  | cancel => exact submitted _
  | other => exact ended

theorem edit_history (editor : Editor) (press : Press) (typed : press ≠ .enter) :
    (edit editor press).1.history = editor.history := by
  cases press with
  | enter => exact absurd rfl typed
  | character byte =>
      rw [edit]
      dsimp only
      split <;> rfl
  | up =>
      rw [edit]
      dsimp only
      split <;> rfl
  | down =>
      rw [edit]
      dsimp only
      split <;> rfl
  | backspace | cancel | other => rfl

theorem press_remembers (shell : ShellState) (handed : List (List UInt8)) (remembers : Remembers shell handed)
    (k : UInt16) : Remembers (pressKey shell k).1 (handed ++ (handedLine shell k).toList) := by
  have mirrors := remembers.mirrors
  have ended := remembers.ended
  cases read : readKey k with
  | enter =>
      rw [press_key_read, handedLine, read]
      refine submit_remembers shell handed remembers _ shell.pos ?_
      rw [mirrors_entered shell _ mirrors, mirrors_length shell _ mirrors]
      exact mirrors.pos
  | cancel =>
      rw [press_key_read, handedLine, read]
      exact submit_remembers shell handed remembers _ 0 (c_string_short _ mirrors.length ended)
  | character | backspace | up | down | other =>
      have edited := (press_key_mirrors shell _ mirrors k).1 (by rw [Accepts, read]; trivial)
      have kept := edit_history (editorOf shell) (readKey k) (by rw [read]; exact Press.noConfusion)
      rw [handedLine, read, Option.toList_none, List.append_nil]
      exact remembers_of _ _ _ edited (kept.trans remembers.stored) (press_ended shell k mirrors.length ended)

theorem session_remembers (keys : List UInt16) (shell : ShellState) (handed : List (List UInt8))
    (remembers : Remembers shell handed) : Remembers (session shell keys).2 (handed ++ handedOver shell keys) := by
  induction keys generalizing shell handed with
  | nil =>
      rw [handedOver, List.append_nil]
      exact remembers
  | cons k keys ih =>
      rw [handedOver, ← List.append_assoc]
      exact ih _ _ (press_remembers shell handed remembers k)

theorem boot_remembers : Remembers boot [] := remembers_of _ _ _ boot_mirrors rfl (by decide)

theorem recall_read (shell : ShellState) (k : UInt16) (entry : Nat) (recalled : recalledEntry shell k = some entry) :
    pressKey shell k = (recallEntry shell entry, none) := by
  rw [recalledEntry] at recalled
  rw [press_key_read]
  cases read : readKey k with
  | up =>
      rw [read] at recalled
      obtain ⟨some, same⟩ := Option.ite_none_right_eq_some.mp recalled
      dsimp only
      rw [arrowUp, if_pos some, Option.some.inj same]
  | down =>
      rw [read] at recalled
      obtain ⟨later, same⟩ := Option.ite_none_right_eq_some.mp recalled
      dsimp only
      rw [arrowDown, if_pos later, Option.some.inj same]
  | character | backspace | enter | cancel | other =>
      rw [read] at recalled
      cases recalled

theorem recall_within (shell : ShellState) (within : shell.historyPos ≤ shell.historyCount) (k : UInt16) (entry : Nat)
    (recalled : recalledEntry shell k = some entry) : entry < shell.historyCount := by
  rw [recalledEntry] at recalled
  cases read : readKey k with
  | up =>
      rw [read] at recalled
      obtain ⟨some, same⟩ := Option.ite_none_right_eq_some.mp recalled
      have index := Option.some.inj same
      split at index <;> omega
  | down =>
      rw [read] at recalled
      obtain ⟨later, same⟩ := Option.ite_none_right_eq_some.mp recalled
      have index := Option.some.inj same
      omega
  | character | backspace | enter | cancel | other =>
      rw [read] at recalled
      cases recalled

theorem recall_shows (shell : ShellState) (mirrors : Mirrors shell (editorOf shell)) (entry : Nat)
    (inside : entry < shell.historyCount) : ShowsEntry (recallEntry shell entry) entry := by
  have whole : (cString (shell.history.getD entry [])).take (maxInput - 1) = (storedLines shell).getD entry [] :=
    mirrors_copied shell _ mirrors entry inside
  have length : entry < (storedLines shell).length := (mirrors_count shell _ mirrors).symm ▸ inside
  have line : cString (recallEntry shell entry).line = (storedLines shell).getD entry [] :=
    (c_string_copy _ _ _).trans whole
  refine ⟨inside, rfl, ?_, ?_⟩
  · rw [line, List.getD_eq_getElem _ _ length]
    exact List.getElem?_eq_getElem length
  · rw [line, ← whole]
    rfl

structure Walks (shell next : ShellState) (position : Nat) : Prop where
  history : next.history = shell.history
  count : next.historyCount = shell.historyCount
  position : next.historyPos = position

theorem press_walks (shell : ShellState) (k : UInt16) (kept : handedLine shell k = none) :
    Walks shell (pressKey shell k).1 (walk shell.historyCount shell.historyPos (readKey k)) := by
  rw [handedLine] at kept
  rw [press_key_read]
  cases read : readKey k with
  | enter =>
      rw [read] at kept
      dsimp only at kept ⊢
      rw [submit_trimmed, kept]
      exact ⟨rfl, rfl, rfl⟩
  | cancel =>
      rw [read] at kept
      dsimp only at kept ⊢
      rw [submit_trimmed, kept]
      exact ⟨rfl, rfl, rfl⟩
  | character byte =>
      dsimp only
      split <;> exact ⟨rfl, rfl, rfl⟩
  | backspace =>
      dsimp only
      split <;> exact ⟨rfl, rfl, rfl⟩
  | up =>
      dsimp only
      rw [arrowUp, walk]
      by_cases some : 0 < shell.historyCount
      · rw [if_pos some, if_pos some]
        refine ⟨rfl, rfl, ?_⟩
        rw [recallEntry]
        dsimp only
        split <;> omega
      · rw [if_neg some, if_neg some]
        exact ⟨rfl, rfl, rfl⟩
  | down =>
      dsimp only
      rw [arrowDown, walk]
      by_cases later : shell.historyPos + 1 < shell.historyCount
      · rw [if_pos ⟨Nat.zero_lt_of_lt later, later⟩, if_pos later]
        exact ⟨rfl, rfl, rfl⟩
      · rw [if_neg fun both => later both.2, if_neg later]
        exact ⟨rfl, rfl, rfl⟩
  | other => exact ⟨rfl, rfl, rfl⟩

theorem session_walks (keys : List UInt16) (shell : ShellState) (kept : handedOver shell keys = []) :
    Walks shell (session shell keys).2 ((keys.map readKey).foldl (walk shell.historyCount) shell.historyPos) := by
  induction keys generalizing shell with
  | nil => exact ⟨rfl, rfl, rfl⟩
  | cons k keys ih =>
      rw [handedOver] at kept
      obtain ⟨first, rest⟩ := List.append_eq_nil_iff.mp kept
      obtain ⟨history, count, position⟩ := press_walks shell k (Option.toList_eq_nil_iff.mp first)
      obtain ⟨laterHistory, laterCount, laterPosition⟩ := ih (pressKey shell k).1 rest
      rw [count, position] at laterPosition
      exact ⟨laterHistory.trans history, laterCount.trans count, laterPosition⟩

theorem accepted_position (shell : ShellState) (k : UInt16) (text : List UInt8) (handed : handedLine shell k = some text) :
    (pressKey shell k).1.historyPos = (pressKey shell k).1.historyCount ∧ 0 < (pressKey shell k).1.historyCount := by
  have added (typed : ShellState) (line : List UInt8) : (prompt (addHistory typed line)).historyPos =
      (prompt (addHistory typed line)).historyCount ∧ 0 < (prompt (addHistory typed line)).historyCount := by
    rw [addHistory]
    split
    case isTrue => exact ⟨rfl, Nat.succ_pos _⟩
    case isFalse full => exact ⟨rfl, Nat.lt_of_lt_of_le (by decide) (Nat.le_of_not_lt full)⟩
  rw [handedLine] at handed
  rw [press_key_read]
  cases read : readKey k with
  | enter =>
      rw [read] at handed
      dsimp only at handed ⊢
      rw [submit_trimmed, handed]
      exact added _ _
  | cancel =>
      rw [read] at handed
      dsimp only at handed ⊢
      rw [submit_trimmed, handed]
      exact added _ _
  | character | backspace | up | down | other =>
      rw [read] at handed
      cases handed

section
variable (shell : ShellState) (handed : List (List UInt8)) (remembers : Remembers shell handed)
include remembers

theorem up_shows (some : 0 < shell.historyCount) : ShowsEntry (pressKey shell upKey).1 (shell.historyPos - 1) := by
  have recalled : recalledEntry shell upKey = Option.some (shell.historyPos - 1) := by
    have read : readKey upKey = .up := by decide
    rw [recalledEntry, read]
    dsimp only
    rw [if_pos some]
    split
    · rfl
    · exact congrArg Option.some (by omega)
  rw [recall_read shell upKey _ recalled]
  exact recall_shows shell remembers.mirrors _ (recall_within shell remembers.mirrors.within upKey _ recalled)

theorem down_shows (entry : Nat) (shows' : ShowsEntry shell entry) :
    ShowsEntry (pressKey shell downKey).1 (min (entry + 1) (shell.historyCount - 1)) := by
  have read : readKey downKey = .down := by decide
  have position := shows'.position
  have within := shows'.within
  by_cases later : shell.historyPos + 1 < shell.historyCount
  · have place : min (entry + 1) (shell.historyCount - 1) = shell.historyPos + 1 := by omega
    have recalled : recalledEntry shell downKey = some (shell.historyPos + 1) := by
      rw [recalledEntry, read]
      dsimp only
      rw [if_pos ⟨by omega, later⟩]
    rw [recall_read shell downKey _ recalled, place]
    exact recall_shows shell remembers.mirrors _ later
  · have place : min (entry + 1) (shell.historyCount - 1) = entry := by omega
    rw [press_key_read, read, place]
    dsimp only
    rw [arrowDown, if_neg fun both => later both.2]
    exact shows'
end

theorem press_count (shell : ShellState) (k : UInt16) (kept : handedLine shell k = none) :
    (pressKey shell k).1.historyCount = shell.historyCount := (press_walks shell k kept).count

theorem ups_show (ups : Nat) (shell : ShellState) (handed : List (List UInt8)) (remembers : Remembers shell handed)
    (some : 0 < shell.historyCount) :
    ShowsEntry (session shell (List.replicate (ups + 1) upKey)).2 (shell.historyPos - (ups + 1)) ∧
      (session shell (List.replicate (ups + 1) upKey)).2.historyCount = shell.historyCount := by
  have shown := up_shows shell handed remembers some
  have count := press_count shell upKey (by rfl)
  induction ups generalizing shell handed with
  | zero => exact ⟨shown, count⟩
  | succ ups ih =>
      have next := press_remembers shell handed remembers upKey
      obtain ⟨last, kept⟩ := ih (pressKey shell upKey).1 _ next (count.symm ▸ some)
        (up_shows _ _ next (count.symm ▸ some)) (press_count _ upKey (by rfl))
      rw [shown.position] at last
      have place : shell.historyPos - 1 - (ups + 1) = shell.historyPos - (ups + 1 + 1) := by omega
      rw [place] at last
      exact ⟨last, kept.trans count⟩

theorem downs_show (downs : Nat) (shell : ShellState) (handed : List (List UInt8)) (remembers : Remembers shell handed)
    (entry : Nat) (shown : ShowsEntry shell entry) :
    ShowsEntry (session shell (List.replicate downs downKey)).2 (min (entry + downs) (shell.historyCount - 1)) := by
  induction downs generalizing shell handed entry with
  | zero =>
      have within := shown.within
      have place : min (entry + 0) (shell.historyCount - 1) = entry := by omega
      rw [place]
      exact shown
  | succ downs ih =>
      have last := ih _ _ (press_remembers shell handed remembers downKey) _ (down_shows shell handed remembers entry shown)
      rw [press_count shell downKey (by rfl)] at last
      have place : min (min (entry + 1) (shell.historyCount - 1) + downs) (shell.historyCount - 1) =
          min (entry + (downs + 1)) (shell.historyCount - 1) := by omega
      rw [place] at last
      exact last

theorem remembers_right (shell : ShellState) (handed : List (List UInt8)) (remembers : Remembers shell handed) :
    HistoryRight shell handed where
  stored := remembers.stored
  position := remembers.mirrors.within
  recalls k entry recalled := ⟨recall_read shell k entry recalled,
    recall_shows shell remembers.mirrors entry (recall_within shell remembers.mirrors.within k entry recalled)⟩
  walks k text line keys kept := by
    have walked := session_walks keys (pressKey shell k).1 kept
    rw [(accepted_position shell k text line).1] at walked
    exact walked.position
  arrows k text line ups downs some := by
    obtain ⟨position, positive⟩ := accepted_position shell k text line
    have accepted := press_remembers shell handed remembers k
    obtain ⟨more, rfl⟩ : ∃ more, ups = more + 1 := ⟨ups - 1, by omega⟩
    obtain ⟨older, count⟩ := ups_show more _ _ accepted positive
    have newer := downs_show downs _ _ (session_remembers (List.replicate (more + 1) upKey) _ _ accepted) _ older
    rw [session_append, ← position]
    rw [count, ← position] at newer
    exact newer

theorem history_right (keys : List UInt16) :
    HistoryRight (session boot keys).2 (handedOver boot keys) ∧
      (session boot keys).1.reduceOption = (handedOver boot keys).map fun text => text.map toUpper :=
  ⟨remembers_right _ _ (session_remembers keys boot [] boot_remembers), session_dispatched keys boot⟩

end RoDos.Shell
