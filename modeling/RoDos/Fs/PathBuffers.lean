import RoDos.Base.Runs
import RoDos.Base.Writes
import RoDos.Fs.Disk

set_option autoImplicit false

namespace RoDos.Fs

open Base

-- The 64 bytes of an entry that the image fills; reserved, behind them, is always zero.
structure LoadedEntry where
  bytes : List UInt8
  width : bytes.length = 64

-- A name without a NUL in its 56 bytes runs on into the fields behind it.
def LoadedEntry.text (entry : LoadedEntry) : List UInt8 := cString entry.bytes

def LoadedEntry.type (entry : LoadedEntry) : UInt8 := entry.bytes.getD 60 0

structure PathState where
  currentDir : Buffer 256
  fsTable : List LoadedEntry

-- The loops stop at 255, the write of the NUL does not.
def buildPath (currentDir name : List UInt8) : Writes :=
  copyRun 0 (currentDir.take 255) ++ copyRun currentDir.length (name.take (255 - currentDir.length)) ++
    [(currentDir.length + name.length, 0)]

def strCopyWrites (src : List UInt8) (max : Nat) : Writes := copyRun 0 (src.take (max - 1) ++ [0])

def saveContentPath (currentDir filename : List UInt8) : Writes :=
  if filename.getD 1 0 ≠ colon then
    copyRun 0 currentDir ++ copyRun currentDir.length filename ++ [(currentDir.length + filename.length, 0)]
  else strCopyWrites filename 256

-- The name that a command appends to current_dir in its full_path.
def pathName (state : PathState) : Command → Option (List UInt8)
  | .mkdir args | .touch args =>
      if token args = [] ∨ fsMaxFiles ≤ state.fsTable.length then none else some (token args)
  | .del args | .cat args | .nano args _ _ => if token args = [] then none else some (token args)
  | .cd args => if token args = [] ∨ token args = ascii ".." then none else some (token args)
  | .wget outputFile _ =>
      let filename := (cString outputFile).take 63
      if filename = [] ∨ filename.getD 1 0 = colon then none else some filename
  | _ => none

def pathWrites (state : PathState) : Command → Writes
  | .wget outputFile _ =>
      let filename := (cString outputFile).take 63
      if filename = [] then [] else saveContentPath state.currentDir.text filename
  | command => (pathName state command).elim [] (buildPath state.currentDir.text)

def backslashAbove (currentDir : List UInt8) : Nat → Writes
  | 0 => []
  | i + 1 => if currentDir.getD i 0 = backslash then [(i + 1, 0)] else backslashAbove currentDir i

def parentWrites (currentDir : List UInt8) : Writes :=
  if 3 < currentDir.length then backslashAbove currentDir (currentDir.length - 1) else []

def enterWrites (path : List UInt8) : Writes :=
  let kept := path.take 255
  strCopyWrites path 256 ++ (if kept.getLast? = some backslash then [] else copyRun kept.length [backslash, 0])

-- The writes to current_dir; stack is what full_path holds before.
def dirWrites (state : PathState) (stack : Buffer 256) (command : Command) : Writes :=
  match command with
  | .cd args =>
      if token args = [] then []
      else if token args = ascii ".." then parentWrites state.currentDir.text
      else
        let path := (stack.store (pathWrites state command)).text
        if state.fsTable.any fun entry => entry.text = path ∧ entry.type = 1 then enterWrites path else []
  | _ => []

-- none when the sector could not be read.
def loadWrites : Option (List UInt8) → Writes
  | none => []
  | some sector =>
      if sector.getD 0 0 = 67 ∧ sector.getD 1 0 = colon then copyRun 0 (cString (sector.take 256)) ++ [(255, 0)] else []

inductive PathOp where
  | load (read : Option (List UInt8))
  | command (command : Command)

def opWrites (state : PathState) (stack : Buffer 256) : PathOp → Writes
  | .load read => loadWrites read
  | .command command => dirWrites state stack command

-- Afterwards the table may hold anything: what an image or a command makes of it is left open.
def PathStep (state : PathState) (op : PathOp) (next : PathState) : Prop :=
  ∃ stack, next.currentDir = state.currentDir.store (opWrites state stack op)

def initialDir : Buffer 256 := ⟨rootDir ++ List.replicate 253 0, by rw [List.length_append, List.length_replicate]; rfl⟩

def PathBoot (state : PathState) : Prop := state.currentDir = initialDir

structure OpInside (state : PathState) (op : PathOp) (stack : Buffer 256) : Prop where
  path : ∀ command, op = .command command → pathWrites state command ≠ [] →
    Inside 256 (pathWrites state command) ∧ (stack.store (pathWrites state command)).Terminated
  dir : Inside 256 (opWrites state stack op) ∧ (state.currentDir.store (opWrites state stack op)).Terminated

def PathFits (state : PathState) (op : PathOp) : Prop :=
  ∀ command name, op = .command command → pathName state command = some name →
    state.currentDir.text.length + name.length < 256

section
variable (currentDir name : List UInt8)

theorem build_path_fits (fits : currentDir.length + name.length < 256) :
    buildPath currentDir name = copyRun 0 (currentDir ++ name ++ [0]) := by
  rw [buildPath, List.take_of_length_le (by omega), List.take_of_length_le (by omega), copy_run_append, copy_run_append,
    List.length_append, Nat.zero_add, Nat.zero_add]
  rfl

theorem save_content_path_fits (relative : name.getD 1 0 ≠ colon) :
    saveContentPath currentDir name = copyRun 0 (currentDir ++ name ++ [0]) := by
  rw [saveContentPath, if_pos relative, copy_run_append, copy_run_append, List.length_append, Nat.zero_add, Nat.zero_add]
  rfl
end

section
variable (state : PathState)

theorem saved_name (outputFile body name : List UInt8) (named : pathName state (.wget outputFile body) = some name) :
    name ≠ [] ∧ name = (cString outputFile).take 63 ∧ name.getD 1 0 ≠ colon := by
  simp only [pathName] at named
  split at named
  · cases named
  · rename_i possible
    cases named
    rw [not_or] at possible
    exact ⟨possible.1, rfl, possible.2⟩

theorem path_writes_built (command : Command) : (∃ outputFile body, command = .wget outputFile body) ∨
    pathWrites state command = (pathName state command).elim [] (buildPath state.currentDir.text) := by
  cases command with
  | wget outputFile body => exact Or.inl ⟨outputFile, body, rfl⟩
  | _ => exact Or.inr rfl

theorem path_writes_fit (command : Command) (name : List UInt8) (named : pathName state command = some name)
    (fits : state.currentDir.text.length + name.length < 256) :
    pathWrites state command = copyRun 0 (state.currentDir.text ++ name ++ [0]) := by
  rcases path_writes_built state command with ⟨outputFile, body, rfl⟩ | built
  · obtain ⟨nonempty, rfl, relative⟩ := saved_name state outputFile body name named
    rw [pathWrites, if_neg nonempty, save_content_path_fits _ _ relative]
  · rw [built, named, Option.elim_some, build_path_fits _ _ fits]

theorem path_terminator (command : Command) (name : List UInt8) (named : pathName state command = some name) :
    (state.currentDir.text.length + name.length, 0) ∈ pathWrites state command := by
  rcases path_writes_built state command with ⟨outputFile, body, rfl⟩ | built
  · obtain ⟨nonempty, rfl, relative⟩ := saved_name state outputFile body name named
    rw [pathWrites, if_neg nonempty, saveContentPath, if_pos relative]
    exact List.mem_append_right _ List.mem_cons_self
  · rw [built, named, Option.elim_some, buildPath]
    exact List.mem_append_right _ List.mem_cons_self

theorem path_name_no_nul (command : Command) (name : List UInt8) (named : pathName state command = some name) :
    ∀ byte ∈ name, byte ≠ 0 := by
  cases command with
  | wget outputFile body =>
      obtain ⟨_, rfl, _⟩ := saved_name state outputFile body name named
      exact fun byte member => c_string_no_nul outputFile byte (List.mem_of_mem_take member)
  | mkdir args | touch args | del args | cat args | nano args _ _ | cd args =>
      simp only [pathName] at named
      split at named
      · cases named
      · cases named
        exact token_no_nul args
  | _ => cases named

theorem path_unnamed (command : Command) (unnamed : pathName state command = none) :
    pathWrites state command = [] ∨ ∃ filename : List UInt8, filename.length ≤ 63 ∧ (∀ byte ∈ filename, byte ≠ 0) ∧
      pathWrites state command = copyRun 0 (filename ++ [0]) := by
  rcases path_writes_built state command with ⟨outputFile, body, rfl⟩ | built
  · simp only [pathName] at unnamed
    split at unnamed
    · rename_i absolute
      by_cases empty : (cString outputFile).take 63 = []
      · exact Or.inl (by rw [pathWrites, if_pos empty])
      · have short : ((cString outputFile).take 63).length ≤ 63 := List.length_take_le _ _
        refine Or.inr ⟨(cString outputFile).take 63, short,
          fun byte member => c_string_no_nul outputFile byte (List.mem_of_mem_take member), ?_⟩
        rw [pathWrites, if_neg empty, saveContentPath, if_neg (not_not_intro (absolute.resolve_left empty)),
          strCopyWrites, List.take_of_length_le (by omega)]
    · cases unnamed
  · exact Or.inl (by rw [built, unnamed, Option.elim_none])
end

section
variable (buffer : Buffer 256)

theorem back_to_parent (i : Nat) (inside : i < buffer.text.length) (terminated : buffer.Terminated) :
    Inside 256 (backslashAbove buffer.text i) ∧ (buffer.store (backslashAbove buffer.text i)).Terminated := by
  have short := text_short buffer terminated
  induction i with
  | zero => exact ⟨fun write member => absurd member List.not_mem_nil, terminated⟩
  | succ i ih =>
      rw [backslashAbove]
      split
      · refine ⟨fun write member => ?_, (text_cut buffer (i + 1) inside).2⟩
        rw [List.mem_singleton.mp member]
        exact Nat.lt_trans inside short
      · exact ih (Nat.lt_of_succ_lt inside)

theorem parent_inside (terminated : buffer.Terminated) :
    Inside 256 (parentWrites buffer.text) ∧ (buffer.store (parentWrites buffer.text)).Terminated := by
  rw [parentWrites]
  split
  · exact back_to_parent buffer _ (by omega) terminated
  · exact ⟨fun write member => absurd member List.not_mem_nil, terminated⟩

theorem run_inside (text : List UInt8) (noNul : ∀ byte ∈ text, byte ≠ 0) (room : text.length < 256) :
    Inside 256 (copyRun 0 (text ++ [0])) ∧ (buffer.store (copyRun 0 (text ++ [0]))).text = text ∧
      (buffer.store (copyRun 0 (text ++ [0]))).Terminated := by
  refine ⟨(copy_run_inside _ _ _).mpr (Or.inr ?_), text_stored buffer text noNul room⟩
  rw [List.length_append, List.length_singleton]
  omega

theorem enter_inside (path : List UInt8) (noNul : ∀ byte ∈ path, byte ≠ 0) (short : path.length ≤ 64) :
    Inside 256 (enterWrites path) ∧ (buffer.store (enterWrites path)).text = withBackslash path ∧
      (buffer.store (enterWrites path)).Terminated := by
  obtain ⟨inside, text, terminated⟩ := run_inside buffer path noNul (by omega)
  have copied : strCopyWrites path 256 = copyRun 0 (path ++ [0]) := by
    rw [strCopyWrites, List.take_of_length_le (by omega)]
  have kept : path.take 255 = path := List.take_of_length_le (by omega)
  simp only [enterWrites, kept, withBackslash, copied]
  by_cases last : path.getLast? = some backslash
  · rw [if_pos last, if_pos last, List.append_nil]
    exact ⟨inside, text, terminated⟩
  · have extended := text_extended (buffer.store (copyRun 0 (path ++ [0]))) backslash (by decide) (by rw [text]; omega)
    rw [text] at extended
    rw [if_neg last, if_neg last, store_append]
    refine ⟨(inside_append _ _ _).mpr ⟨inside, (copy_run_inside _ _ _).mpr (Or.inr ?_)⟩, extended.1, extended.2⟩
    show path.length + 2 ≤ 256
    omega

theorem load_inside (read : Option (List UInt8)) (terminated : buffer.Terminated) :
    Inside 256 (loadWrites read) ∧ (buffer.store (loadWrites read)).Terminated := by
  cases read with
  | none => exact ⟨fun write member => absurd member List.not_mem_nil, terminated⟩
  | some sector =>
      rw [loadWrites]
      split
      · have short : (cString (sector.take 256)).length ≤ 256 :=
          Nat.le_trans (List.takeWhile_prefix _).length_le (List.length_take_le _ _)
        refine ⟨(inside_append _ _ _).mpr ⟨(copy_run_inside _ _ _).mpr (Or.inr (by omega)), ?_⟩, ?_⟩
        · intro write member
          rw [List.mem_singleton.mp member]
          decide
        · rw [store_append]
          generalize buffer.store (copyRun 0 (cString (sector.take 256))) = loaded
          show 0 ∈ loaded.bytes.set 255 0
          exact List.mem_set (by rw [loaded.width]; decide) 0
      · exact ⟨fun write member => absurd member List.not_mem_nil, terminated⟩
end

section
variable (state : PathState) (stack : Buffer 256)

theorem path_inside (command : Command) (name : List UInt8) (named : pathName state command = some name)
    (fits : state.currentDir.text.length + name.length < 256) :
    Inside 256 (pathWrites state command) ∧
      (stack.store (pathWrites state command)).text = state.currentDir.text ++ name ∧
        (stack.store (pathWrites state command)).Terminated := by
  rw [path_writes_fit state command name named fits]
  refine run_inside stack (state.currentDir.text ++ name) (fun byte member => ?_) (by rw [List.length_append]; exact fits)
  rcases List.mem_append.mp member with dir | own
  · exact c_string_no_nul _ byte dir
  · exact path_name_no_nul state command name named byte own

-- What CD copies into current_dir equals a name of the table, so it is short.
theorem entry_text_short (entry : LoadedEntry) : entry.text.length ≤ 64 :=
  Nat.le_trans (List.takeWhile_prefix _).length_le (Nat.le_of_eq entry.width)

theorem entered_inside (path : List UInt8)
    (found : (state.fsTable.any fun entry => entry.text = path ∧ entry.type = 1) = true) :
    Inside 256 (enterWrites path) ∧ (state.currentDir.store (enterWrites path)).text = withBackslash path ∧
      (state.currentDir.store (enterWrites path)).Terminated := by
  obtain ⟨entry, _, matched⟩ := List.any_eq_true.mp found
  obtain ⟨same, _⟩ := of_decide_eq_true matched
  rw [← same]
  exact enter_inside state.currentDir entry.text (c_string_no_nul _) (entry_text_short entry)

theorem dir_inside (op : PathOp) (terminated : state.currentDir.Terminated) :
    Inside 256 (opWrites state stack op) ∧ (state.currentDir.store (opWrites state stack op)).Terminated := by
  have unchanged : Inside 256 [] ∧ (state.currentDir.store []).Terminated :=
    ⟨fun write member => absurd member List.not_mem_nil, terminated⟩
  cases op with
  | load read => exact load_inside state.currentDir read terminated
  | command command =>
      rw [opWrites]
      cases command with
      | cd args =>
          rw [dirWrites]
          split
          · exact unchanged
          · split
            · exact parent_inside state.currentDir terminated
            · dsimp only
              split
              · rename_i found
                obtain ⟨inside, _, closed⟩ := entered_inside state _ found
                exact ⟨inside, closed⟩
              · exact unchanged
      | _ => exact unchanged

theorem op_inside_iff (op : PathOp) (terminated : state.currentDir.Terminated) :
    OpInside state op stack ↔ PathFits state op := by
  refine ⟨fun inside command name same named => ?_, fun fits => ⟨fun command same builds => ?_, ?_⟩⟩
  · have last := path_terminator state command name named
    exact (inside.path command same (List.ne_nil_of_mem last)).1 _ last
  · cases named : pathName state command with
    | some name =>
        obtain ⟨inside, _, closed⟩ := path_inside state stack command name named (fits command name same named)
        exact ⟨inside, closed⟩
    | none =>
        rcases path_unnamed state command named with nothing | ⟨filename, short, noNul, writes⟩
        · exact absurd nothing builds
        · rw [writes]
          obtain ⟨inside, _, closed⟩ := run_inside stack filename noNul (by omega)
          exact ⟨inside, closed⟩
  · exact dir_inside state stack op terminated
end

theorem full_path_refines (state : PathState) (stack : Buffer 256) (command : Command) (name path : List UInt8)
    (named : pathName state command = some name) : fullPath state.currentDir.text name = some path ↔
      Inside 256 (pathWrites state command) ∧ (stack.store (pathWrites state command)).text = path := by
  rw [fullPath]
  constructor
  · intro built
    obtain ⟨fits, same⟩ := Option.ite_none_right_eq_some.mp built
    obtain ⟨inside, text, _⟩ := path_inside state stack command name named fits
    exact ⟨inside, text.trans (Option.some.inj same)⟩
  · rintro ⟨inside, same⟩
    have fits := inside _ (path_terminator state command name named)
    rw [if_pos fits, ← same, (path_inside state stack command name named fits).2.1]

theorem backslash_above_text (buffer : Buffer 256) (i : Nat) (inside : i < buffer.text.length) :
    (buffer.store (backslashAbove buffer.text i)).text =
      if (buffer.text.take i).rdropWhile (fun byte => byte ≠ backslash) = [] then buffer.text
      else (buffer.text.take i).rdropWhile fun byte => byte ≠ backslash := by
  induction i with
  | zero => rfl
  | succ i ih =>
      have here : i < buffer.text.length := Nat.lt_of_succ_lt inside
      have front : buffer.text.take (i + 1) = buffer.text.take i ++ [buffer.text[i]] := by
        rw [List.take_add_one, List.getElem?_eq_getElem here, Option.toList_some]
      rw [backslashAbove, List.getD_eq_getElem _ _ here]
      by_cases found : buffer.text[i] = backslash
      · have kept : (buffer.text.take (i + 1)).rdropWhile (fun byte => byte ≠ backslash) = buffer.text.take (i + 1) := by
          rw [front, List.rdropWhile_concat_neg _ _ _ (by simpa using found)]
        rw [if_pos found, kept, if_neg (front ▸ List.append_ne_nil_of_right_ne_nil _ (List.cons_ne_nil _ _)),
          (text_cut buffer (i + 1) inside).1]
      · rw [if_neg found, front, List.rdropWhile_concat_pos _ _ _ (by simpa using found)]
        exact ih here

theorem parent_refines (buffer : Buffer 256) : (buffer.store (parentWrites buffer.text)).text = parentDir buffer.text := by
  rw [parentWrites, parentDir, List.dropLast_eq_take]
  by_cases deep : 3 < buffer.text.length
  · rw [if_pos deep, backslash_above_text buffer _ (by omega)]
    by_cases top : (buffer.text.take (buffer.text.length - 1)).rdropWhile (fun byte => byte ≠ backslash) = []
    · rw [if_pos top, if_neg fun both => both.2 top]
    · rw [if_neg top, if_pos ⟨deep, top⟩]
  · rw [if_neg deep, if_neg fun both => deep both.1]
    rfl

structure ShowsDir (state : PathState) (fs : FileSystem) : Prop where
  dir : state.currentDir.text = fs.currentDir
  table : state.fsTable.map (fun entry => (entry.text, entry.type)) = fs.fsTable.map fun entry => (entry.name, entry.type)

theorem shows_found (state : PathState) (fs : FileSystem) (shows : ShowsDir state fs) (path : List UInt8) (type : UInt8) :
    (state.fsTable.any fun entry => entry.text = path ∧ entry.type = type) = (findTyped fs path type).isSome := by
  have left : (state.fsTable.any fun entry => entry.text = path ∧ entry.type = type) =
      (state.fsTable.map fun entry => (entry.text, entry.type)).any fun named => named.1 = path ∧ named.2 = type := by
    rw [List.any_map]
    rfl
  rw [left, shows.table, List.any_map, findTyped, List.findIdx?_isSome]
  rfl

theorem cd_refines (state : PathState) (fs : FileSystem) (shows : ShowsDir state fs) (stack : Buffer 256)
    (args : List UInt8) (update : Update) (done : cmdCd fs args = some update) :
    (state.currentDir.store (dirWrites state stack (.cd args))).text = update.fs.currentDir := by
  simp only [cmdCd] at done
  rw [dirWrites]
  by_cases empty : token args = []
  · rw [if_pos empty] at done
    cases done
    rw [if_pos empty]
    exact shows.dir
  rw [if_neg empty] at done
  rw [if_neg empty]
  by_cases up : token args = ascii ".."
  · rw [if_pos up] at done
    cases done
    rw [if_pos up, parent_refines, shows.dir]
  rw [if_neg up] at done
  rw [if_neg up]
  obtain ⟨path, built, done⟩ := Option.bind_eq_some_iff.mp done
  have named : pathName state (.cd args) = some (token args) := by
    rw [pathName, if_neg (not_or.mpr ⟨empty, up⟩)]
  rw [← shows.dir] at built
  obtain ⟨_, text⟩ := (full_path_refines state stack (.cd args) (token args) path named).mp built
  rw [text, ← shows_found state fs shows] at *
  dsimp only
  by_cases found : (state.fsTable.any fun entry => entry.text = path ∧ entry.type = 1) = true
  · rw [if_pos found] at done ⊢
    cases done
    exact (entered_inside state path found).2.1
  · rw [if_neg found] at done ⊢
    cases done
    exact shows.dir

theorem load_refines (sector : List UInt8) :
    (initialDir.store (loadWrites (some sector))).text = loadDir sector rootDir := by
  have solid : ∀ byte ∈ rootDir, byte ≠ 0 := by decide +kernel
  rw [loadWrites, loadDir]
  by_cases valid : sector.getD 0 0 = 67 ∧ sector.getD 1 0 = colon
  · rw [if_pos valid, if_pos valid, store_append]
    dsimp only
    generalize named : cString (sector.take 256) = stored
    have noNul : ∀ byte ∈ stored, byte ≠ 0 := named ▸ c_string_no_nul (sector.take 256)
    have short : stored.length ≤ 256 :=
      named ▸ Nat.le_trans (List.takeWhile_prefix _).length_le (List.length_take_le _ _)
    have kept : ∀ byte ∈ (stored ++ rootDir.drop stored.length).take 255, byte ≠ 0 := by
      intro byte member
      cases List.mem_append.mp (List.mem_of_mem_take member) with
      | inl own => exact noNul byte own
      | inr old => exact solid byte (List.mem_of_mem_drop old)
    have copied : (initialDir.store (copyRun 0 stored)).bytes =
        (stored ++ rootDir.drop stored.length) ++ List.replicate (253 - (stored.length - 3)) 0 := by
      show setAll initialDir.bytes (copyRun 0 stored) = _
      rw [set_all_run _ _ _ (by rw [initialDir.width]; omega), List.take_zero, List.nil_append, Nat.zero_add, initialDir,
        List.drop_append, List.drop_replicate, List.append_assoc]
      rfl
    have width := (initialDir.store (copyRun 0 stored)).width
    have cut : (initialDir.store (copyRun 0 stored)).bytes.set 255 0 = (stored ++ rootDir.drop stored.length).take 255 ++
        0 :: List.replicate (255 - (stored ++ rootDir.drop stored.length).length) 0 := by
      rw [List.set_eq_take_append_cons_drop, if_pos (by omega), List.drop_of_length_le (by omega), copied]
      rw [copied, List.length_append, List.length_replicate] at width
      rw [List.take_append, List.take_replicate, Nat.min_eq_left (by omega), List.append_assoc, ← List.replicate_succ',
        List.replicate_succ]
    exact (text_of_split _ _ _ kept cut).1
  · rw [if_neg valid, if_neg valid]
    exact (text_of_split initialDir rootDir (List.replicate 252 0) solid rfl).1

theorem dir_terminated (state : PathState) (run : Run PathBoot PathStep PathFits state) : state.currentDir.Terminated := by
  refine run_invariant (fun state => state.currentDir.Terminated) (fun state boot => ?_)
    (fun state next op terminated _ taken => ?_) state run
  · rw [boot]
    exact List.mem_append_right _ (List.mem_replicate.mpr ⟨by decide, rfl⟩)
  · obtain ⟨stack, same⟩ := taken
    rw [same]
    exact (dir_inside state stack op terminated).2

theorem paths_inside (state : PathState) (op : PathOp) (stack : Buffer 256) (run : Run PathBoot PathStep PathFits state) :
    state.currentDir.Terminated ∧ (OpInside state op stack ↔ PathFits state op) :=
  ⟨dir_terminated state run, op_inside_iff state stack op (dir_terminated state run)⟩

def longSector : List UInt8 := ascii "C:" ++ List.replicate 248 120 ++ List.replicate 262 0

def longState : PathState := ⟨initialDir.store (loadWrites (some longSector)), []⟩

theorem long_reached (guard : PathState → PathOp → Prop) (admitted : ∀ state, guard state (.load (some longSector))) :
    Run PathBoot PathStep guard longState := by
  have boot : PathBoot ⟨initialDir, []⟩ := Eq.refl initialDir
  refine .step ⟨initialDir, []⟩ longState (.load (some longSector)) (.start _ boot) (admitted _) ⟨initialDir, ?_⟩
  rw [longState, opWrites]

theorem long_text : longState.currentDir.text.length = 250 := by
  rw [longState, load_refines]
  decide +kernel

theorem paths_inside_five : OpInside longState (.command (.touch (ascii "notes"))) initialDir := by
  refine (paths_inside longState _ initialDir (long_reached _ fun state command name same => ?_)).2.mpr ?_
  · cases same
  · intro command name same named
    cases same
    have own : pathName longState (.touch (ascii "notes")) = some (ascii "notes") := by decide +kernel
    rw [own] at named
    cases named
    rw [long_text]
    decide

theorem paths_not_inside : ¬ ∀ state op stack, Run PathBoot PathStep (fun _ _ => True) state → OpInside state op stack := by
  intro claimed
  have inside := claimed longState (.command (.touch (ascii "abcdefghij"))) initialDir (long_reached _ fun _ => trivial)
  have named : pathName longState (.touch (ascii "abcdefghij")) = some (ascii "abcdefghij") := by decide +kernel
  have last := path_terminator longState _ _ named
  have index := (inside.path _ rfl (List.ne_nil_of_mem last)).1 _ last
  rw [long_text] at index
  exact absurd index (by decide)

end RoDos.Fs
