import RoDos.Base.Paths
import RoDos.Fs.WellFormed

set_option autoImplicit false

namespace RoDos.Fs

open Base

def IsDirectory (table : List FSEntry) (name : List UInt8) : Prop :=
  ∃ entry ∈ table, entry.name = name ∧ entry.type = 1

def IsName (table : List FSEntry) (name : List UInt8) : Prop := ∃ entry ∈ table, entry.name = name

def TreeShaped (table : List FSEntry) (currentDir : List UInt8) : Prop :=
  PathTree backslash rootDir (IsDirectory table) (IsName table) currentDir

def Spare (table next : List FSEntry) (currentDir : List UInt8) : Prop :=
  ∀ directory, IsDirectory table directory →
    IsDirectory next directory ∨ ¬ Needed backslash (IsName next) currentDir directory

structure PlaceFound (fs : FileSystem) (command : Command) : Prop where
  created : ∀ stored, newName fs command = some stored → Placed backslash rootDir (IsDirectory fs.fsTable) stored
  renamed : ∀ i stored, renames fs command = some (i, stored) →
    Placed backslash rootDir (IsDirectory (renameAt fs i stored).fsTable) stored ∧
      Spare fs.fsTable (renameAt fs i stored).fsTable fs.currentDir
  removed : ∀ i, removes fs command = some i → Spare fs.fsTable (removeAt fs i).fsTable fs.currentDir
  formatted : formats command = true → fs.currentDir = rootDir

-- The save gets as far as the user table, and a restart reads every slot and finds room for the whole table.
def TreeGuarded (machine : Machine) : FsOp → Prop
  | .command command failing =>
      PlaceFound machine.fs command ∧ ∀ n, n ≤ max 64 (machine.fs.fsTable.length + 1) → failing n = false
  | .reboot failing => machine.fs.fsTable.length ≤ 64 ∧ ∀ i < 64, failing (fsDataStartLba + i) = false

structure TreeKept (machine : Machine) : Prop where
  ok : WellFormed machine
  memory : TreeShaped machine.fs.fsTable machine.fs.currentDir
  disk : ∃ table, Holds machine.disk table ∧ TreeShaped table (loadDir (machine.disk fsCurdirLba) rootDir) ∧
    table.length ≤ machine.fs.fsTable.length

theorem member_modify {α : Type} (xs : List α) (i : Nat) (f : α → α) (x : α) (member : x ∈ xs) :
    x ∈ xs.modify i f ∨ f x ∈ xs.modify i f := by
  obtain ⟨k, inside, same⟩ := List.mem_iff_getElem.mp member
  have within : k < (xs.modify i f).length := by rw [List.length_modify]; exact inside
  have present := List.getElem_mem within
  rw [List.getElem_modify] at present
  by_cases here : i = k
  · rw [if_pos here, same] at present
    exact Or.inr present
  · rw [if_neg here, same] at present
    exact Or.inl present

theorem modify_name (table : List FSEntry) (i : Nat) (change : FSEntry → FSEntry) (path : List UInt8)
    (found : IsName (table.modify i change) path) : IsName table path ∨ ∃ old ∈ table, (change old).name = path := by
  obtain ⟨entry, member, same⟩ := found
  cases modify_member _ _ _ _ member with
  | inl kept => exact Or.inl ⟨entry, kept, same⟩
  | inr changed =>
      obtain ⟨old, inside, rfl⟩ := changed
      exact Or.inr ⟨old, inside, same⟩

theorem tree_modify (table : List FSEntry) (currentDir : List UInt8) (i : Nat) (change : FSEntry → FSEntry)
    (tree : TreeShaped table currentDir) (name : ∀ entry, (change entry).name = entry.name)
    (type : ∀ entry, (change entry).type = entry.type) : TreeShaped (table.modify i change) currentDir := by
  apply path_tree_change tree
  · intro path found
    cases modify_name table i change path found with
    | inl old => exact Or.inl old
    | inr changed =>
        obtain ⟨old, inside, same⟩ := changed
        exact Or.inl ⟨old, inside, (name old).symm.trans same⟩
  · intro path found
    obtain ⟨entry, member, same, isDirectory⟩ := found
    apply Or.inl
    cases member_modify table i change entry member with
    | inl kept => exact ⟨entry, kept, same, isDirectory⟩
    | inr changed => exact ⟨change entry, changed, (name entry).trans same, (type entry).trans isDirectory⟩

theorem tree_added (table : List FSEntry) (currentDir : List UInt8) (entry : FSEntry) (tree : TreeShaped table currentDir)
    (placed : Placed backslash rootDir (IsDirectory table) entry.name) : TreeShaped (table ++ [entry]) currentDir := by
  have wider (path : List UInt8) (found : IsDirectory table path) : IsDirectory (table ++ [entry]) path := by
    obtain ⟨other, member, same⟩ := found
    exact ⟨other, List.mem_append_left _ member, same⟩
  apply path_tree_change tree
  · intro path found
    obtain ⟨other, member, same⟩ := found
    cases List.mem_append.mp member with
    | inl old => exact Or.inl ⟨other, old, same⟩
    | inr last =>
        rw [List.mem_singleton.mp last] at same
        rw [← same]
        exact Or.inr (placed_weaken entry.name wider placed)
  · exact fun path found => Or.inl (wider path found)

theorem tree_renamed (fs : FileSystem) (i : Nat) (stored : List UInt8) (tree : TreeShaped fs.fsTable fs.currentDir)
    (placed : Placed backslash rootDir (IsDirectory (renameAt fs i stored).fsTable) stored)
    (spare : Spare fs.fsTable (renameAt fs i stored).fsTable fs.currentDir) :
    TreeShaped (renameAt fs i stored).fsTable fs.currentDir := by
  apply path_tree_change tree
  · intro path found
    cases modify_name fs.fsTable i _ path found with
    | inl old => exact Or.inl old
    | inr changed =>
        obtain ⟨_, _, same⟩ := changed
        exact Or.inr (same ▸ placed)
  · exact spare

theorem tree_removed (fs : FileSystem) (i : Nat) (tree : TreeShaped fs.fsTable fs.currentDir)
    (spare : Spare fs.fsTable (removeAt fs i).fsTable fs.currentDir) :
    TreeShaped (removeAt fs i).fsTable fs.currentDir := by
  apply path_tree_change tree
  · intro path found
    obtain ⟨entry, member, same⟩ := found
    exact Or.inl ⟨entry, List.mem_of_mem_eraseIdx member, same⟩
  · exact spare

theorem root_ends : rootDir.getLast? = some backslash := by decide

theorem directory_placed (table : List FSEntry) (currentDir path : List UInt8) (tree : TreeShaped table currentDir)
    (found : IsDirectory table path) : Placed backslash rootDir (IsDirectory table) path := by
  obtain ⟨entry, member, same, _⟩ := found
  exact tree.placed path ⟨entry, member, same⟩

theorem tree_left (table : List FSEntry) (currentDir : List UInt8) (tree : TreeShaped table currentDir) :
    TreeShaped table (parentDir currentDir) := by
  refine ⟨tree.placed, ?_⟩
  rw [parentDir]
  split
  · cases tree.here with
    | inl top =>
        rename_i above
        rw [top] at above
        exact absurd above.1 (by decide)
    | inr below =>
        obtain ⟨directory, found, same⟩ := below
        obtain ⟨folder, component, name, _, clean, path⟩ := directory_placed table currentDir directory tree found
        have ends := folder_path_ends folder root_ends path
        rw [same, List.dropLast_concat, name, r_drop_while_component folder component ends clean]
        exact path
  · exact tree.here

theorem entered_backslash (table : List FSEntry) (currentDir path : List UInt8) (tree : TreeShaped table currentDir)
    (found : IsDirectory table path) : withBackslash path = path ++ [backslash] :=
  if_neg (placed_end path (directory_placed table currentDir path tree found))

theorem enters_directory (fs : FileSystem) (command : Command) (path : List UInt8)
    (into : enters fs command = some path) : IsDirectory fs.fsTable path := by
  obtain ⟨args, _, _, _, entry, member, name, type⟩ := enters_found fs command path into
  exact ⟨entry, member, name, type⟩

theorem tree_empty : TreeShaped [] rootDir := by
  refine ⟨fun name nothing => ?_, Or.inl rfl⟩
  obtain ⟨entry, member, _⟩ := nothing
  cases member

theorem outcome_tree (fs next : FileSystem) (command : Command) (found : PlaceFound fs command)
    (tree : TreeShaped fs.fsTable fs.currentDir) (outcome : Outcome fs command next) :
    TreeShaped next.fsTable next.currentDir := by
  cases outcome with
  | same next table contents dir accounts count =>
      rw [table, dir]
      exact tree
  | created stored size type attr contents named room bounded puts =>
      exact tree_added _ _ _ tree (found.created stored named)
  | sized i size contents inside bounded puts => exact tree_modify _ _ i _ tree (fun _ => rfl) fun _ => rfl
  | marked i attr => exact tree_modify _ _ i _ tree (fun _ => rfl) fun _ => rfl
  | renamed i stored moved =>
      obtain ⟨placed, spare⟩ := found.renamed i stored moved
      exact tree_renamed fs i stored tree placed spare
  | removed i removal => exact tree_removed fs i tree (found.removed i removal)
  | left up => exact tree_left _ _ tree
  | entered path into =>
      have directory := enters_directory fs command path into
      refine ⟨tree.placed, Or.inr ⟨path, directory, ?_⟩⟩
      exact entered_backslash fs.fsTable fs.currentDir path tree directory
  | cleared formatted =>
      show TreeShaped [] fs.currentDir
      rw [found.formatted formatted]
      exact tree_empty

theorem formats_run (fs : FileSystem) (command : Command) (formatted : formats command = true) :
    runCommand fs command = saved { fs with fsTable := [], fileContents := [] } := by
  cases command with
  | format k => exact if_pos (of_decide_eq_true formatted)
  | _ => cases formatted

-- What shortens the table is saved.
theorem unsaved_grows (fs : FileSystem) (command : Command) (update : Update) (ran : runCommand fs command = some update)
    (quiet : update.saves = false) : fs.fsTable.length ≤ update.fs.fsTable.length := by
  have outcome := run_command_outcome fs update command ran
  have saves (next : FileSystem) (same : runCommand fs command = saved next) : False := by
    rw [same] at ran
    cases ran
    cases quiet
  generalize update.fs = next at outcome
  cases outcome with
  | same next table contents dir accounts count => rw [table]
  | created stored size type attr contents named room bounded puts =>
      rw [List.length_append]
      exact Nat.le_add_right _ _
  | sized i size contents inside bounded puts => rw [List.length_modify]
  | marked i attr => rw [List.length_modify]
  | renamed i stored moved => rw [renameAt, List.length_modify]
  | removed i removal => exact (saves _ (removes_run fs command i removal)).elim
  | left up => exact Nat.le_refl _
  | entered path into => exact Nat.le_refl _
  | cleared formatted => exact (saves _ (formats_run fs command formatted)).elim

theorem tree_step (machine next : Machine) (op : FsOp) (kept : TreeKept machine) (guarded : TreeGuarded machine op)
    (taken : FsStep machine op next) : TreeKept next := by
  have ok := well_formed_step machine next op kept.ok taken
  obtain ⟨table, held, onDisk, fewer⟩ := kept.disk
  cases op with
  | command command failing =>
      have outcome := step_outcome machine next command failing taken
      have memory := outcome_tree _ _ command guarded.1 kept.memory outcome
      refine ⟨ok, memory, ?_⟩
      obtain ⟨update, ran, same, quiet | ⟨complete, done⟩⟩ := step_command machine next command failing taken
      · have grows := unsaved_grows machine.fs command update ran quiet.1
        rw [← same] at grows
        exact ⟨table, quiet.2 ▸ held, quiet.2 ▸ onDisk, Nat.le_trans fewer grows⟩
      · have length := outcome_length _ _ command outcome
        have written := save_table_written failing next.fs machine.disk next.disk complete (fun n small => by
          apply guarded.2 n
          rw [tableWrites] at small
          omega) done
        refine ⟨next.fs.fsTable, table_saved_holds next.fs next.disk ok.fs.entries written, ?_, Nat.le_refl _⟩
        rw [written.dir, load_dir_sector _ ok.fs.dir]
        exact memory
  | reboot failing =>
      obtain ⟨room, readable⟩ := guarded
      have loaded := load_table_held failing machine.disk table held readable (Nat.le_trans fewer room)
      rw [step_reboot machine next failing taken] at ok ⊢
      have sameTable : (fsInitCommands failing machine.disk).fsTable = table := loaded
      refine ⟨ok, ?_, table, held, onDisk, Nat.le_of_eq (congrArg List.length sameTable.symm)⟩
      rw [sameTable]
      show TreeShaped table (if failing fsCurdirLba then rootDir else loadDir (machine.disk fsCurdirLba) rootDir)
      split
      · exact ⟨onDisk.placed, Or.inl rfl⟩
      · exact onDisk

theorem booted_tree (machine : Machine) (boot : Booted machine) : TreeKept machine := by
  have held : Holds machine.disk [] := by
    refine ⟨fun i entry _ found => ?_, fun i _ inside => boot.1.files i inside⟩
    cases found
  have dir : loadDir (machine.disk fsCurdirLba) rootDir = rootDir := by
    rw [loadDir, boot.1.dir, if_neg fun drive => absurd drive.1 (by decide)]
  have loaded : machine.fs.fsTable = [] := by
    rw [boot.2]
    exact load_table_held never machine.disk [] held (fun _ _ => rfl) (Nat.zero_le _)
  have here : machine.fs.currentDir = rootDir := by
    rw [boot.2]
    exact dir
  refine ⟨booted_well_formed machine boot, ?_, [], held, ?_, Nat.zero_le _⟩
  · rw [loaded, here]
    exact tree_empty
  · rw [dir]
    exact tree_empty

theorem enters_run (fs : FileSystem) (args path : List UInt8) (into : enters fs (.cd args) = some path) :
    runCommand fs (.cd args) = saved { fs with currentDir := withBackslash path } := by
  rw [enters] at into
  by_cases special : token args = [] ∨ token args = ascii ".."
  · rw [if_pos special] at into
    cases into
  · rw [if_neg special] at into
    rw [not_or] at special
    obtain ⟨full, built, into⟩ := Option.bind_eq_some_iff.mp into
    by_cases found : (findTyped fs full 1).isSome = true
    · rw [if_pos found] at into
      cases into
      rw [runCommand, cmdCd, if_neg special.1, if_neg special.2, built, Option.bind_some, if_pos found]
    · rw [if_neg found] at into
      cases into

theorem up_run (fs : FileSystem) (up : List UInt8) (dots : token up = ascii "..") :
    runCommand fs (.cd up) = saved { fs with currentDir := parentDir fs.currentDir } := by
  have some : token up ≠ [] := by
    rw [dots]
    decide
  rw [runCommand, cmdCd, if_neg some, if_pos dots]

theorem saved_step (machine next : Machine) (command : Command) (failing : Nat → Bool) (fs : FileSystem)
    (same : runCommand machine.fs command = saved fs) (taken : FsStep machine (.command command failing) next) :
    next.fs = fs := by
  obtain ⟨update, ran, isUpdate, _⟩ := step_command machine next command failing taken
  rw [same] at ran
  rw [isUpdate]
  exact saved_fs fs update ran

theorem up_returns (fs : FileSystem) (args path : List UInt8) (rooted : rootDir <+: fs.currentDir)
    (tree : TreeShaped fs.fsTable fs.currentDir) (into : enters fs (.cd args) = some path) :
    parentDir (withBackslash path) = fs.currentDir ↔ backslash ∉ token args := by
  obtain ⟨other, same, built, nonempty, _⟩ := enters_found fs (.cd args) path into
  cases same
  have directory := enters_directory fs (.cd args) path into
  rw [entered_backslash fs.fsTable fs.currentDir path tree directory, built]
  have ends := folder_path_ends fs.currentDir root_ends tree.here
  have long : 3 < (fs.currentDir ++ token args ++ [backslash]).length := by
    have drive : 3 ≤ fs.currentDir.length := rooted.length_le
    have some := List.length_pos_of_ne_nil nonempty
    rw [List.length_append, List.length_append, List.length_singleton]
    omega
  by_cases deeper : backslash ∈ token args
  · have longer := r_drop_while_deeper fs.currentDir (token args) deeper
    have different : ((fs.currentDir ++ token args).rdropWhile fun byte => byte ≠ backslash) ≠ fs.currentDir := by
      intro same
      rw [same] at longer
      exact absurd longer (Nat.lt_irrefl _)
    have some : ((fs.currentDir ++ token args).rdropWhile fun byte => byte ≠ backslash) ≠ [] :=
      List.ne_nil_of_length_pos (Nat.lt_of_le_of_lt (Nat.zero_le _) longer)
    rw [parentDir, List.dropLast_concat, if_pos ⟨long, some⟩]
    exact ⟨fun same => absurd same different, fun clean => absurd deeper clean⟩
  · have back := r_drop_while_component fs.currentDir (token args) ends deeper
    have some : fs.currentDir ≠ [] := by
      intro none
      rw [none] at ends
      cases ends
    rw [parentDir, List.dropLast_concat, back, if_pos ⟨long, some⟩]
    exact ⟨fun _ => deeper, fun _ => rfl⟩

theorem paths_stay_tree (machine : Machine) (run : Run Booted FsStep TreeGuarded machine) :
    TreeShaped machine.fs.fsTable machine.fs.currentDir ∧
      ∀ args path failing next up again final, enters machine.fs (.cd args) = some path →
        FsStep machine (.command (.cd args) failing) next → token up = ascii ".." →
          FsStep next (.command (.cd up) again) final →
            (final.fs.currentDir = machine.fs.currentDir ↔ backslash ∉ token args) := by
  have kept := run_invariant TreeKept booted_tree tree_step machine run
  refine ⟨kept.memory, fun args path failing next up again final into down dots back => ?_⟩
  have below := saved_step machine next _ failing _ (enters_run machine.fs args path into) down
  have above := saved_step next final _ again _ (up_run next.fs up dots) back
  rw [above, below]
  exact up_returns machine.fs args path kept.ok.fs.dir.rooted kept.memory into

theorem paths_stay_tree_entered : ∃ machine next final : Machine,
    machine.fs.fsTable = [⟨ascii "C:\\D", 0, 1, 0x10⟩] ∧ TreeShaped machine.fs.fsTable machine.fs.currentDir ∧
      next.fs.currentDir = ascii "C:\\D\\" ∧ final.fs.currentDir = machine.fs.currentDir := by
  have evaluated : (stepOp firstBoot (plain (.mkdir (ascii "D")))).any (fun one =>
      newName firstBoot.fs (.mkdir (ascii "D")) = some (ascii "C:\\D") ∧ one.1.fs.fsTable = [⟨ascii "C:\\D", 0, 1, 0x10⟩] ∧
        enters one.1.fs (.cd (ascii "D")) = some (ascii "C:\\D") ∧
        (stepOp one.1 (plain (.cd (ascii "D")))).any fun two =>
          two.1.fs.currentDir = ascii "C:\\D\\" ∧ (stepOp two.1 (plain (.cd (ascii "..")))).isSome) = true := by
    decide +kernel
  obtain ⟨one, first, reached⟩ := (Option.any_eq_true _ _).mp evaluated
  obtain ⟨named, table, into, further⟩ := of_decide_eq_true reached
  obtain ⟨two, second, after⟩ := (Option.any_eq_true _ _).mp further
  obtain ⟨inside, up⟩ := of_decide_eq_true after
  obtain ⟨three, third⟩ := Option.isSome_iff_exists.mp up
  have place : PlaceFound firstBoot.fs (.mkdir (ascii "D")) := by
    refine ⟨fun stored same => ?_, fun i stored moved => ?_, fun i removal => ?_, fun formatted => ?_⟩
    · rw [named] at same
      cases same
      exact ⟨rootDir, ascii "D", rfl, by decide, by decide, Or.inl rfl⟩
    · cases moved
    · cases removal
    · cases formatted
  have run : Run Booted FsStep TreeGuarded one.1 :=
    .step firstBoot one.1 (plain (.mkdir (ascii "D"))) (.start _ first_boot_booted) ⟨place, fun _ _ => rfl⟩ ⟨one.2, first⟩
  obtain ⟨tree, returns⟩ := paths_stay_tree one.1 run
  have back := returns (ascii "D") _ never two.1 (ascii "..") never three.1 into ⟨two.2, second⟩ (by decide) ⟨three.2, third⟩
  exact ⟨one.1, two.1, three.1, table, tree, inside, back.mpr (by decide)⟩

-- FORMAT leaves the current directory in a directory that is gone.
theorem paths_not_always_tree : ¬ ∀ machine, Run Booted FsStep (fun _ _ => True) machine →
    TreeShaped machine.fs.fsTable machine.fs.currentDir := by
  intro claimed
  have evaluated : (runOps firstBoot [plain (.mkdir (ascii "D")), plain (.cd (ascii "D")), plain (.format 89)]).any
      (fun machine => machine.fs.fsTable = [] ∧ machine.fs.currentDir = ascii "C:\\D\\") = true := by decide +kernel
  obtain ⟨machine, done, reached⟩ := (Option.any_eq_true _ _).mp evaluated
  obtain ⟨empty, here⟩ := of_decide_eq_true reached
  have tree := claimed machine (run_ops_run firstBoot machine _ (.start _ first_boot_booted) done)
  rw [empty, here] at tree
  cases tree.here with
  | inl top => exact absurd top (by decide)
  | inr below =>
      obtain ⟨directory, found, _⟩ := below
      obtain ⟨entry, member, _⟩ := found
      cases member

end RoDos.Fs
