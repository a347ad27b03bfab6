import RoDos.Base.Runs
import RoDos.Fs.Removal
import RoDos.Fs.Saving

set_option autoImplicit false

namespace RoDos.Fs

open Base

structure FsOk (fs : FileSystem) : Prop where
  dir : DirOk fs.currentDir
  entries : ∀ entry ∈ fs.fsTable, EntryOk entry
  count : fs.fsTable.length ≤ fsMaxFiles
  users : ∀ user ∈ fs.userTable, UserOk user
  userCount : fs.userTable.length ≤ fsMaxUsers
  lengths : ∀ content ∈ fs.fileContents, content.data.length = maxFileSize

structure DiskOk (disk : Disk) : Prop where
  dir : (disk fsCurdirLba).getD 0 0 = 0 ∨ ∃ dir, DirOk dir ∧ disk fsCurdirLba = dirSector dir
  files : ∀ i < 64, (disk (fsDataStartLba + i)).getD 0 0 = 0 ∨
    ∃ entry, EntryOk entry ∧ disk (fsDataStartLba + i) = entrySector entry
  users : ∀ i < 5, (disk (fsUserStartLba + i)).getD 0 0 = 0 ∨
    ∃ user, UserOk user ∧ disk (fsUserStartLba + i) = userSector user
  sectors : ∀ lba, (disk lba).length = sectorSize

structure WellFormed (machine : Machine) : Prop where
  fs : FsOk machine.fs
  disk : DiskOk machine.disk

theorem second_token_no_nul (args : List UInt8) : ∀ byte ∈ secondToken args, byte ≠ 0 := by
  intro byte member
  have rest := (get_token_subset _ _ byte member).1
  exact c_string_no_nul args byte ((List.dropWhile_sublist _).subset (List.mem_of_mem_drop rest))

theorem stored_name_ok (path : List UInt8) (nonempty : path ≠ []) (noNul : ∀ byte ∈ path, byte ≠ 0) :
    NameOk (storedName path) := by
  refine ⟨fun empty => ?_, List.length_take_le _ _, fun byte member => noNul byte (List.mem_of_mem_take member)⟩
  rcases List.take_eq_nil_iff.mp empty with zero | empty
  · exact absurd zero (by decide)
  · exact nonempty empty

theorem full_path_some (currentDir name path : List UInt8) (built : fullPath currentDir name = some path) :
    path = currentDir ++ name := by
  rw [fullPath] at built
  split at built
  · exact (Option.some.inj built).symm
  · cases built

theorem full_path_ok (currentDir name path : List UInt8) (ok : DirOk currentDir) (noNul : ∀ byte ∈ name, byte ≠ 0)
    (built : fullPath currentDir name = some path) :
    path ≠ [] ∧ (∀ byte ∈ path, byte ≠ 0) ∧ rootDir <+: path := by
  rw [full_path_some currentDir name path built]
  refine ⟨fun empty => ?_, fun byte member => ?_, ok.rooted.trans (List.prefix_append _ _)⟩
  · have root := ok.rooted
    rw [(List.append_eq_nil_iff.mp empty).1, List.prefix_nil] at root
    exact absurd root (by decide)
  · rcases List.mem_append.mp member with inside | inside
    · exact ok.noNul byte inside
    · exact noNul byte inside

theorem created_name_ok (fs : FileSystem) (name stored : List UInt8) (dir : DirOk fs.currentDir)
    (noNul : ∀ byte ∈ name, byte ≠ 0) (named : createdName fs name = some stored) : NameOk stored := by
  rw [createdName] at named
  split at named
  · cases named
  · obtain ⟨path, built, named⟩ := Option.bind_eq_some_iff.mp named
    obtain ⟨nonempty, clean, _⟩ := full_path_ok fs.currentDir name path dir noNul built
    split at named
    · cases named
    · cases named
      exact stored_name_ok path nonempty clean

theorem content_path_ok (fs : FileSystem) (filename path : List UInt8) (dir : DirOk fs.currentDir)
    (noNul : ∀ byte ∈ filename, byte ≠ 0) (built : contentPath fs filename = some path) :
    path ≠ [] ∧ ∀ byte ∈ path, byte ≠ 0 := by
  rw [contentPath] at built
  split at built
  · rename_i drive
    cases built
    refine ⟨fun empty => ?_, fun byte member => noNul byte (List.mem_of_mem_take member)⟩
    rcases List.take_eq_nil_iff.mp empty with zero | empty
    · exact absurd zero (by decide)
    · rw [empty] at drive
      exact absurd drive (by decide)
  · obtain ⟨nonempty, clean, _⟩ := full_path_ok fs.currentDir filename path dir noNul built
    exact ⟨nonempty, clean⟩

theorem new_name_ok (fs : FileSystem) (command : Command) (stored : List UInt8) (dir : DirOk fs.currentDir)
    (named : newName fs command = some stored) : NameOk stored := by
  cases command with
  | mkdir args => exact created_name_ok fs _ stored dir (token_no_nul args) named
  | touch args => exact created_name_ok fs _ stored dir (token_no_nul args) named
  | nano args memory keys =>
      rw [newName] at named
      split at named
      · cases named
      · obtain ⟨path, built, named⟩ := Option.bind_eq_some_iff.mp named
        obtain ⟨nonempty, clean, _⟩ := full_path_ok fs.currentDir _ path dir (token_no_nul args) built
        split at named
        · cases named
          exact stored_name_ok path nonempty clean
        · cases named
  | copy args =>
      rw [newName] at named
      split at named
      · cases named
      · rename_i possible
        rw [not_or, not_or] at possible
        split at named
        · cases named
          exact stored_name_ok _ possible.2.1 (second_token_no_nul args)
        · cases named
  | wget outputFile body =>
      rw [newName] at named
      split at named
      · cases named
      · obtain ⟨path, built, named⟩ := Option.bind_eq_some_iff.mp named
        have noNul : ∀ byte ∈ (cString outputFile).take 63, byte ≠ 0 :=
          fun byte member => c_string_no_nul outputFile byte (List.mem_of_mem_take member)
        obtain ⟨nonempty, clean⟩ := content_path_ok fs _ path dir noNul built
        split at named
        · cases named
          exact stored_name_ok path nonempty clean
        · cases named
  | _ => cases named

theorem renames_ok (fs : FileSystem) (command : Command) (i : Nat) (stored : List UInt8)
    (moved : renames fs command = some (i, stored)) : NameOk stored := by
  cases command with
  | move args =>
      rw [renames] at moved
      split at moved
      · cases moved
      · rename_i possible
        rw [not_or] at possible
        obtain ⟨found, _, same⟩ := Option.map_eq_some_iff.mp moved
        cases same
        exact stored_name_ok _ possible.2 (second_token_no_nul args)
  | _ => cases moved

theorem find_typed_some (fs : FileSystem) (name : List UInt8) (type : UInt8) (i : Nat)
    (found : findTyped fs name type = some i) :
    ∃ inside : i < fs.fsTable.length, fs.fsTable[i].name = name ∧ fs.fsTable[i].type = type := by
  obtain ⟨inside, holds⟩ := find_index_lt _ _ _ found
  exact ⟨inside, by simpa using holds⟩

theorem enters_found (fs : FileSystem) (command : Command) (path : List UInt8) (into : enters fs command = some path) :
    ∃ args, command = .cd args ∧ path = fs.currentDir ++ token args ∧ token args ≠ [] ∧
      ∃ entry ∈ fs.fsTable, entry.name = path ∧ entry.type = 1 := by
  cases command with
  | cd args =>
      rw [enters] at into
      split at into
      · cases into
      · rename_i possible
        obtain ⟨full, built, into⟩ := Option.bind_eq_some_iff.mp into
        split at into
        · rename_i found
          cases into
          obtain ⟨i, found⟩ := Option.isSome_iff_exists.mp found
          obtain ⟨inside, name, type⟩ := find_typed_some fs path 1 i found
          exact ⟨args, rfl, full_path_some _ _ _ built, fun empty => possible (Or.inl empty), _,
            List.getElem_mem inside, name, type⟩
        · cases into
  | _ => cases into

theorem r_drop_while_rooted (below : List UInt8) :
    rootDir <+: (rootDir ++ below).rdropWhile fun byte => byte ≠ backslash := by
  induction below using List.reverseRecOn with
  | nil => decide
  | append_singleton below byte ih =>
      rw [← List.append_assoc, List.rdropWhile_concat]
      split
      · exact ih
      · rw [List.append_assoc]
        exact List.prefix_append _ _

theorem parent_dir_above (currentDir : List UInt8) : parentDir currentDir <+: currentDir := by
  rw [parentDir]
  split
  · have shorter := List.rdropWhile_prefix (fun byte => byte ≠ backslash) currentDir.dropLast
    exact shorter.trans <| List.dropLast_prefix _
  · exact List.prefix_refl _

theorem parent_dir_rooted (currentDir : List UInt8) (rooted : rootDir <+: currentDir) :
    rootDir <+: parentDir currentDir := by
  rw [parentDir]
  split
  · rename_i above
    obtain ⟨below, rfl⟩ := rooted
    have deeper : below ≠ [] := by
      rintro rfl
      exact absurd above.1 (by decide)
    rw [List.dropLast_append_of_ne_nil deeper]
    exact r_drop_while_rooted below.dropLast
  · exact rooted

theorem dir_ok_above (currentDir shorter : List UInt8) (ok : DirOk currentDir) (before : shorter <+: currentDir)
    (rooted : rootDir <+: shorter) : DirOk shorter :=
  ⟨rooted, Nat.le_trans before.length_le ok.short, fun byte member => ok.noNul byte (before.subset member)⟩

theorem with_backslash_cases (path : List UInt8) : withBackslash path = path ∨ withBackslash path = path ++ [backslash] := by
  rw [withBackslash]
  split
  · exact Or.inl rfl
  · exact Or.inr rfl

theorem with_backslash_ok (path : List UInt8) (rooted : rootDir <+: path) (short : path.length ≤ fsMaxFilename - 1)
    (noNul : ∀ byte ∈ path, byte ≠ 0) : DirOk (withBackslash path) := by
  have small : path.length ≤ 254 := Nat.le_trans short (by decide)
  rcases with_backslash_cases path with same | longer
  · rw [same]
    exact ⟨rooted, by omega, noNul⟩
  · rw [longer]
    refine ⟨rooted.trans (List.prefix_append _ _), by simp; omega, fun byte member => ?_⟩
    rcases List.mem_append.mp member with inside | last
    · exact noNul byte inside
    · rw [List.mem_singleton.mp last]
      decide

theorem modify_entries_ok (table : List FSEntry) (i : Nat) (change : FSEntry → FSEntry)
    (ok : ∀ entry ∈ table, EntryOk entry) (kept : ∀ entry, EntryOk entry → EntryOk (change entry)) :
    ∀ entry ∈ table.modify i change, EntryOk entry := by
  intro entry member
  rcases modify_member _ _ _ _ member with old | ⟨old, inside, rfl⟩
  · exact ok entry old
  · exact kept old (ok old inside)

theorem outcome_fs_ok (fs next : FileSystem) (command : Command) (ok : FsOk fs) (outcome : Outcome fs command next) :
    FsOk next := by
  cases outcome with
  | same next table contents dir accounts count =>
      exact ⟨dir ▸ ok.dir, table ▸ ok.entries, table ▸ ok.count, accounts ok.users, count ok.userCount,
        contents ▸ ok.lengths⟩
  | created stored size type attr contents named room bounded puts =>
      refine ⟨ok.dir, fun entry member => ?_, ?_, ok.users, ok.userCount, puts.lengths ok.lengths⟩
      · rcases List.mem_append.mp member with old | new
        · exact ok.entries entry old
        · rw [List.mem_singleton.mp new]
          refine ⟨new_name_ok fs command stored ok.dir named, ?_⟩
          rcases bounded with bounded | ⟨source, inside, rfl⟩
          · exact bounded
          · exact (ok.entries source inside).size
      · rw [List.length_append]
        exact room
  | sized i size contents inside bounded puts =>
      refine ⟨ok.dir, modify_entries_ok _ i _ ok.entries fun entry old => ⟨old.named, bounded⟩,
        ?_, ok.users, ok.userCount, puts.lengths ok.lengths⟩
      rw [List.length_modify]
      exact ok.count
  | marked i attr =>
      refine ⟨ok.dir, modify_entries_ok _ i _ ok.entries fun entry old => ⟨old.named, old.size⟩, ?_, ok.users,
        ok.userCount, ok.lengths⟩
      rw [List.length_modify]
      exact ok.count
  | renamed i stored moved =>
      refine ⟨ok.dir, modify_entries_ok _ i _ ok.entries fun entry old => ⟨renames_ok fs command i stored moved, old.size⟩,
        ?_, ok.users, ok.userCount, ok.lengths⟩
      rw [renameAt, List.length_modify]
      exact ok.count
  | removed i removal =>
      exact ⟨ok.dir, fun entry member => ok.entries entry (List.mem_of_mem_eraseIdx member),
        Nat.le_trans (List.length_eraseIdx_le _ _) ok.count, ok.users, ok.userCount, ok.lengths⟩
  | left up =>
      exact ⟨dir_ok_above _ _ ok.dir (parent_dir_above _) (parent_dir_rooted _ ok.dir.rooted), ok.entries, ok.count,
        ok.users, ok.userCount, ok.lengths⟩
  | entered path into =>
      obtain ⟨args, _, built, _, entry, member, name, _⟩ := enters_found fs command path into
      have named := (ok.entries entry member).named
      rw [name] at named
      have rooted : rootDir <+: path := built ▸ ok.dir.rooted.trans (List.prefix_append _ _)
      exact ⟨with_backslash_ok path rooted named.short named.noNul, ok.entries, ok.count, ok.users, ok.userCount,
        ok.lengths⟩
  | cleared formatted =>
      exact ⟨ok.dir, fun entry member => absurd member List.not_mem_nil, Nat.zero_le _, ok.users, ok.userCount,
        fun content member => absurd member List.not_mem_nil⟩

theorem outcome_length (fs next : FileSystem) (command : Command) (outcome : Outcome fs command next) :
    next.fsTable.length ≤ fs.fsTable.length + 1 := by
  cases outcome with
  | same next table contents dir accounts count => rw [table]; exact Nat.le_succ _
  | created stored size type attr contents named room bounded puts => rw [List.length_append, List.length_singleton]
  | sized i size contents inside bounded puts => rw [List.length_modify]; exact Nat.le_succ _
  | marked i attr => rw [List.length_modify]; exact Nat.le_succ _
  | renamed i stored moved => rw [renameAt, List.length_modify]; exact Nat.le_succ _
  | removed i removal => exact Nat.le_succ_of_le (List.length_eraseIdx_le _ _)
  | left up => exact Nat.le_succ _
  | entered path into => exact Nat.le_succ _
  | cleared formatted => exact Nat.zero_le _

theorem save_disk_ok (failing : Nat → Bool) (fs : FileSystem) (disk finish : Disk) (complete : Bool) (ok : FsOk fs)
    (before : DiskOk disk) (done : fsSaveToDisk failing fs disk = some (finish, complete)) : DiskOk finish := by
  have written (lba : Nat) : finish lba = disk lba ∨
      ∃ write, SaveWrite fs write ∧ write.lba = lba ∧ finish lba = write.sector := by
    rcases perform_sectors failing 0 disk finish _ complete done lba with same | ⟨write, required, member, here, carried⟩
    · exact Or.inl same
    · exact Or.inr ⟨write, save_actions_write fs write required member, here, carried⟩
  refine ⟨?_, fun i inside => ?_, fun i inside => ?_, fun lba => ?_⟩
  · rcases written fsCurdirLba with same | ⟨write, saved, here, carried⟩
    · rw [same]
      exact before.dir
    · exact Or.inr ⟨fs.currentDir, ok.dir, carried.trans (save_write_dir fs write saved here)⟩
  · rcases written (fsDataStartLba + i) with same | ⟨write, saved, here, carried⟩
    · rw [same]
      exact before.files i inside
    · rw [carried]
      rcases save_write_file fs write saved i inside here with ⟨entry, found, sector⟩ | blank
      · exact Or.inr ⟨entry, ok.entries entry (List.mem_of_getElem? found), sector⟩
      · exact Or.inl (blank.2 ▸ blank_sector_first)
  · rcases written (fsUserStartLba + i) with same | ⟨write, saved, here, carried⟩
    · rw [same]
      exact before.users i inside
    · rw [carried]
      rcases save_write_user fs write saved ok.count i inside here with ⟨user, found, sector⟩ | blank
      · exact Or.inr ⟨user, ok.users user (List.mem_of_getElem? found), sector⟩
      · exact Or.inl (blank.2 ▸ blank_sector_first)
  · rcases written lba with same | ⟨write, saved, here, carried⟩
    · rw [same]
      exact before.sectors lba
    · rw [carried]
      exact save_write_length fs write saved ok.entries ok.users

theorem load_table_member (failing : Nat → Bool) (disk : Disk) (slots : List Nat) (entry : FSEntry)
    (member : entry ∈ loadTable failing disk slots) :
    ∃ i ∈ slots, (disk (fsDataStartLba + i)).getD 0 0 ≠ 0 ∧ entry = decodeEntry (disk (fsDataStartLba + i)) := by
  induction slots with
  | nil => cases member
  | cons i rest ih =>
      rw [loadTable] at member
      split at member
      · obtain ⟨slot, inside, found⟩ := ih member
        exact ⟨slot, List.mem_cons_of_mem _ inside, found⟩
      · split at member
        · cases member
        · rename_i occupied
          rcases List.mem_cons.mp member with first | later
          · exact ⟨i, List.mem_cons_self, occupied, first⟩
          · obtain ⟨slot, inside, found⟩ := ih later
            exact ⟨slot, List.mem_cons_of_mem _ inside, found⟩

theorem load_table_length (failing : Nat → Bool) (disk : Disk) (slots : List Nat) :
    (loadTable failing disk slots).length ≤ slots.length := by
  induction slots with
  | nil => exact Nat.le_refl 0
  | cons i rest ih =>
      rw [loadTable]
      split
      · exact Nat.le_succ_of_le ih
      · split
        · exact Nat.zero_le _
        · exact Nat.succ_le_succ ih

structure Holds (disk : Disk) (table : List FSEntry) : Prop where
  filled : ∀ i entry, i < 64 → table[i]? = some entry →
    (disk (fsDataStartLba + i)).getD 0 0 ≠ 0 ∧ decodeEntry (disk (fsDataStartLba + i)) = entry
  spare : ∀ i, table.length ≤ i → i < 64 → (disk (fsDataStartLba + i)).getD 0 0 = 0

theorem load_table_drop (failing : Nat → Bool) (disk : Disk) (table : List FSEntry) (held : Holds disk table)
    (readable : ∀ i < 64, failing (fsDataStartLba + i) = false) (fits : table.length ≤ 64) (a m : Nat) (last : a + m = 64) :
    loadTable failing disk (List.range' a m) = table.drop a := by
  induction m generalizing a with
  | zero => exact (List.drop_eq_nil_of_le (by omega)).symm
  | succ m ih =>
      have later := ih (a + 1) (by omega)
      rw [List.range'_succ, loadTable, readable a (by omega), if_neg Bool.false_ne_true]
      by_cases inside : a < table.length
      · have found : table[a]? = some table[a] := List.getElem?_eq_getElem inside
        obtain ⟨occupied, decoded⟩ := held.filled a _ (by omega) found
        rw [if_neg occupied, decoded, later, List.drop_eq_getElem_cons inside]
      · have beyond := Nat.le_of_not_lt inside
        rw [if_pos (held.spare a beyond (by omega)), List.drop_eq_nil_of_le beyond]

theorem load_table_held (failing : Nat → Bool) (disk : Disk) (table : List FSEntry) (held : Holds disk table)
    (readable : ∀ i < 64, failing (fsDataStartLba + i) = false) (fits : table.length ≤ 64) :
    loadTable failing disk (List.range 64) = table := by
  rw [List.range_eq_range', load_table_drop failing disk table held readable fits 0 64 rfl, List.drop_zero]

theorem table_saved_holds (fs : FileSystem) (disk : Disk) (entries : ∀ entry ∈ fs.fsTable, EntryOk entry)
    (written : TableSaved fs disk) : Holds disk fs.fsTable := by
  refine ⟨fun i entry inside found => ?_, fun i spare inside => ?_⟩
  · have ok := entries entry (List.mem_of_getElem? found)
    rw [written.filled i entry inside found]
    exact ⟨entry_sector_first entry ok, decode_entry_sector entry ok⟩
  · rw [written.spare i spare inside]
    exact blank_sector_first

theorem load_users_member (failing : Nat → Bool) (disk : Disk) (slots : List Nat) (user : UserEntry)
    (member : user ∈ loadUsers failing disk slots) :
    ∃ i ∈ slots, (disk (fsUserStartLba + i)).getD 0 0 ≠ 0 ∧ ∃ behind, user = decodeUser (disk (fsUserStartLba + i)) behind := by
  induction slots with
  | nil => cases member
  | cons i rest ih =>
      rw [loadUsers] at member
      split at member
      · obtain ⟨slot, inside, found⟩ := ih member
        exact ⟨slot, List.mem_cons_of_mem _ inside, found⟩
      · rename_i occupied
        rw [skipsUser, not_or] at occupied
        rcases List.mem_cons.mp member with first | later
        · exact ⟨i, List.mem_cons_self, occupied.2, _, first⟩
        · obtain ⟨slot, inside, found⟩ := ih later
          exact ⟨slot, List.mem_cons_of_mem _ inside, found⟩

theorem load_users_length (failing : Nat → Bool) (disk : Disk) (slots : List Nat) :
    (loadUsers failing disk slots).length ≤ slots.length := by
  induction slots with
  | nil => exact Nat.le_refl 0
  | cons i rest ih =>
      rw [loadUsers]
      split
      · exact Nat.le_succ_of_le ih
      · exact Nat.succ_le_succ ih

theorem root_dir_ok : DirOk rootDir := ⟨List.prefix_refl _, by decide +kernel, by decide +kernel⟩

theorem root_user_ok : UserOk rootUser := ⟨by decide +kernel, by decide +kernel, by decide +kernel, by decide +kernel⟩

theorem load_dir_ok (disk : Disk) (ok : DiskOk disk) : DirOk (loadDir (disk fsCurdirLba) rootDir) := by
  rcases ok.dir with blank | ⟨dir, dirOk, saved⟩
  · rw [loadDir, blank, if_neg fun drive => absurd drive.1 (by decide)]
    exact root_dir_ok
  · rw [saved, load_dir_sector dir dirOk]
    exact dirOk

theorem load_data_length (failing : Nat → Bool) (disk : Disk) (fileIdx size : Nat) (data : List UInt8) (sectors : List Nat)
    (fits : data.length ≤ maxFileSize) : (loadData failing disk fileIdx size data sectors).length ≤ maxFileSize := by
  induction sectors generalizing data with
  | nil => exact fits
  | cons s rest ih =>
      rw [loadData]
      split
      · exact ih data fits
      · exact ih _ (List.length_take_le _ _)

theorem load_content_length (failing : Nat → Bool) (disk : Disk) (entry : FSEntry) (i : Nat) (content : FileContent)
    (loaded : loadContent failing disk entry i = some content) : content.data.length = maxFileSize := by
  rw [loadContent] at loaded
  split at loaded
  · cases loaded
    exact padded_length _ _ (load_data_length failing disk i entry.size [] _ (Nat.zero_le _))
  · cases loaded

theorem init_fs_ok (failing : Nat → Bool) (disk : Disk) (ok : DiskOk disk) : FsOk (fsInitCommands failing disk) := by
  refine ⟨?_, fun entry member => ?_, ?_, fun user member => ?_, ?_, fun content member => ?_⟩
  · rw [init_dir]
    split
    · exact root_dir_ok
    · exact load_dir_ok disk ok
  · obtain ⟨i, range, occupied, decoded⟩ := load_table_member failing disk _ entry member
    rcases ok.files i (List.mem_range.mp range) with blank | ⟨stored, storedOk, sector⟩
    · exact absurd blank occupied
    · rw [decoded, sector, decode_entry_sector stored storedOk]
      exact storedOk
  · exact Nat.le_trans (load_table_length failing disk _) (by decide)
  · rw [init_users] at member
    split at member
    · rw [List.mem_singleton.mp member]
      exact root_user_ok
    · obtain ⟨i, range, occupied, behind, decoded⟩ := load_users_member failing disk _ user member
      rcases ok.users i (List.mem_range.mp range) with blank | ⟨stored, storedOk, sector⟩
      · exact absurd blank occupied
      · rw [decoded, sector, decode_user_sector stored storedOk]
        exact storedOk
  · rw [init_users]
    split
    · decide
    · exact Nat.le_trans (load_users_length failing disk _) (by decide)
  · obtain ⟨slot, _, loaded⟩ := List.mem_filterMap.mp (List.mem_of_mem_take member)
    exact load_content_length failing disk slot.1 slot.2 content loaded

theorem booted_well_formed (machine : Machine) (boot : Booted machine) : WellFormed machine := by
  obtain ⟨fresh, same⟩ := boot
  have disk : DiskOk machine.disk :=
    ⟨Or.inl fresh.dir, fun i inside => Or.inl (fresh.files i inside), fun i inside => Or.inl (fresh.users i inside),
      fresh.sectors⟩
  exact ⟨same ▸ init_fs_ok never machine.disk disk, disk⟩

theorem well_formed_step (machine next : Machine) (op : FsOp) (ok : WellFormed machine) (taken : FsStep machine op next) :
    WellFormed next := by
  cases op with
  | command command failing =>
      have fs := outcome_fs_ok _ _ command ok.fs (step_outcome machine next command failing taken)
      obtain ⟨update, _, _, kept | ⟨complete, written⟩⟩ := step_command machine next command failing taken
      · exact ⟨fs, kept.2 ▸ ok.disk⟩
      · exact ⟨fs, save_disk_ok failing next.fs machine.disk next.disk complete fs ok.disk written⟩
  | reboot failing =>
      rw [step_reboot machine next failing taken]
      exact ⟨init_fs_ok failing machine.disk ok.disk, ok.disk⟩

theorem well_formed_run (guard : Machine → FsOp → Prop) (machine : Machine) (run : Run Booted FsStep guard machine) :
    WellFormed machine :=
  run_invariant WellFormed booted_well_formed
    (fun state next op ok _ taken => well_formed_step state next op ok taken) machine run

end RoDos.Fs
