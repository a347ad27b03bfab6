import RoDos.Fs.Codec

set_option autoImplicit false

namespace RoDos.Fs

open Base

theorem perform_sectors (failing : Nat → Bool) (n : Nat) (disk finish : Disk) (actions : List DiskAction) (complete : Bool)
    (done : perform failing n disk actions = some (finish, complete)) (lba : Nat) :
    finish lba = disk lba ∨
      ∃ write required, .write write required ∈ actions ∧ write.lba = lba ∧ finish lba = write.sector := by
  induction actions generalizing n disk with
  | nil =>
      cases done
      exact Or.inl rfl
  | cons action rest ih =>
      cases action with
      | outOfBounds => cases done
      | write write required =>
          rw [perform] at done
          split at done
          · split at done
            · cases done
              exact Or.inl rfl
            · rcases ih _ _ done with same | ⟨found, needed, member, here, carried⟩
              · exact Or.inl same
              · exact Or.inr ⟨found, needed, List.mem_cons_of_mem _ member, here, carried⟩
          · rcases ih _ _ done with same | ⟨found, needed, member, here, carried⟩
            · by_cases here : lba = write.lba
              · refine Or.inr ⟨write, required, List.mem_cons_self, here.symm, ?_⟩
                rw [same, writeSector, if_pos here]
              · rw [writeSector, if_neg here] at same
                exact Or.inl same
            · exact Or.inr ⟨found, needed, List.mem_cons_of_mem _ member, here, carried⟩

def writesOf (actions : List DiskAction) : List Write :=
  actions.filterMap fun action =>
    match action with
    | .write write _ => some write
    | .outOfBounds => none

theorem writes_of_member (actions : List DiskAction) (write : Write) :
    write ∈ writesOf actions ↔ ∃ required, .write write required ∈ actions := by
  constructor
  · intro member
    obtain ⟨action, inside, same⟩ := List.mem_filterMap.mp member
    cases action with
    | outOfBounds => cases same
    | write found required =>
        cases same
        exact ⟨required, inside⟩
  · intro found
    obtain ⟨required, inside⟩ := found
    exact List.mem_filterMap.mpr ⟨_, inside, rfl⟩

theorem writes_of_append (front back : List DiskAction) : writesOf (front ++ back) = writesOf front ++ writesOf back :=
  List.filterMap_append

theorem perform_written (failing : Nat → Bool) (n : Nat) (disk : Disk) (front back : List DiskAction)
    (inside : .outOfBounds ∉ front) (succeed : ∀ k, n ≤ k → k < n + front.length → failing k = false) :
    perform failing n disk (front ++ back) =
      perform failing (n + front.length) (writeAll disk (writesOf front)) back := by
  induction front generalizing n disk with
  | nil => rfl
  | cons action rest ih =>
      cases action with
      | outOfBounds => exact absurd List.mem_cons_self inside
      | write write required =>
          have first := succeed n (Nat.le_refl n) (by simp)
          have later := ih (n + 1) (writeSector disk write) (fun member => inside (List.mem_cons_of_mem _ member))
            fun k after before => succeed k (Nat.le_of_succ_le after) (by rw [List.length_cons]; omega)
          rw [List.cons_append, perform, first, if_neg Bool.false_ne_true, later, List.length_cons, Nat.add_assoc n 1,
            Nat.add_comm 1]
          rfl

theorem save_slots_write (start limit : Nat) (sectors : List (List UInt8)) (write : Write) (required : Bool)
    (member : .write write required ∈ saveSlots start limit sectors) :
    ∃ i, write.lba = start + i ∧
      (sectors[i]? = some write.sector ∨ (sectors.length ≤ i ∧ i < limit ∧ write.sector = blankSector)) := by
  rcases List.mem_append.mp member with filled | cleared
  · obtain ⟨slot, slotIn, same⟩ := List.mem_map.mp filled
    cases same
    exact ⟨slot.2, rfl, Or.inl (List.mem_zipIdx_iff_getElem?.mp slotIn)⟩
  · obtain ⟨i, range, same⟩ := List.mem_map.mp cleared
    cases same
    rw [List.mem_range'_1] at range
    exact ⟨i, rfl, Or.inr ⟨range.1, by omega, rfl⟩⟩

theorem save_slots_filled (start limit : Nat) (sectors : List (List UInt8)) (i : Nat) (sector : List UInt8)
    (here : sectors[i]? = some sector) : .write ⟨start + i, sector⟩ true ∈ saveSlots start limit sectors :=
  List.mem_append_left _ (List.mem_map.mpr ⟨(sector, i), List.mem_zipIdx_iff_getElem?.mpr here, rfl⟩)

theorem save_slots_cleared (start limit : Nat) (sectors : List (List UInt8)) (i : Nat) (spare : sectors.length ≤ i)
    (inside : i < limit) : .write ⟨start + i, blankSector⟩ false ∈ saveSlots start limit sectors := by
  refine List.mem_append_right _ (List.mem_map.mpr ⟨i, ?_, rfl⟩)
  rw [List.mem_range'_1]
  omega

theorem save_slots_inside (start limit : Nat) (sectors : List (List UInt8)) :
    .outOfBounds ∉ saveSlots start limit sectors := by
  intro member
  cases List.mem_append.mp member with
  | inl filled =>
      obtain ⟨slot, _, same⟩ := List.mem_map.mp filled
      cases same
  | inr cleared =>
      obtain ⟨i, _, same⟩ := List.mem_map.mp cleared
      cases same

theorem save_slots_length (start limit : Nat) (sectors : List (List UInt8)) :
    (saveSlots start limit sectors).length = max sectors.length limit := by
  rw [saveSlots, List.length_append, List.length_map, List.length_zipIdx, List.length_map, List.length_range']
  omega

theorem content_sector_length (content : FileContent) (s : Nat) : (contentSector content s).length = sectorSize :=
  padded_length _ _ (Nat.le_trans (List.length_take_le _ _) (Nat.min_le_left _ _))

theorem blank_sector_length : blankSector.length = sectorSize := List.length_replicate

theorem blank_sector_first : blankSector.getD 0 0 = 0 := by decide +kernel

theorem sectors_needed_le (size s : Nat) : sectorsNeeded size ≤ s ↔ 1 ≤ s ∧ size ≤ s * 512 := by
  rw [sectorsNeeded]
  omega

theorem content_sector_blank (content : FileContent) (s : Nat) (behind : sectorsNeeded content.size ≤ s) :
    contentSector content s = blankSector := by
  have nothing : content.size - s * 512 = 0 := Nat.sub_eq_zero_of_le ((sectors_needed_le _ _).mp behind).2
  rw [contentSector, nothing, Nat.min_zero, List.take_zero]
  rfl

theorem save_content_write (content : FileContent) (write : Write) (required : Bool)
    (member : .write write required ∈ saveContent content) :
    ∃ s < 16, write = ⟨contentLba content.fileIdx s, contentSector content s⟩ := by
  rcases List.mem_append.mp member with filled | cleared
  · obtain ⟨s, range, same⟩ := List.mem_map.mp filled
    rw [saveContentSector] at same
    split at same
    · cases same
    · cases same
      exact ⟨s, Nat.lt_of_lt_of_le (List.mem_range.mp range) (Nat.min_le_left _ _), rfl⟩
  · obtain ⟨s, range, same⟩ := List.mem_map.mp cleared
    cases same
    rw [List.mem_range'_1] at range
    exact ⟨s, by omega, by rw [content_sector_blank content s range.1]⟩

theorem save_content_sector_inside (content : FileContent) (s : Nat) (small : content.size ≤ maxFileSize) :
    saveContentSector content s = .write ⟨contentLba content.fileIdx s, contentSector content s⟩ true ∨
      sectorsNeeded content.size ≤ s := by
  by_cases behind : sectorsNeeded content.size ≤ s
  · exact Or.inr behind
  · refine Or.inl (if_neg ?_)
    rw [sectors_needed_le] at behind
    rw [maxFileSize] at small ⊢
    omega

theorem save_content_action (content : FileContent) (small : content.size ≤ maxFileSize) (s : Nat) (inside : s < 16) :
    ∃ required, .write ⟨contentLba content.fileIdx s, contentSector content s⟩ required ∈ saveContent content := by
  rcases save_content_sector_inside content s small with write | behind
  · by_cases needed : s < sectorsNeeded content.size
    · refine ⟨true, List.mem_append_left _ (List.mem_map.mpr ⟨s, ?_, write⟩)⟩
      exact List.mem_range.mpr (Nat.lt_min.mpr ⟨inside, needed⟩)
    · have behind : sectorsNeeded content.size ≤ s := Nat.le_of_not_lt needed
      refine ⟨false, List.mem_append_right _ (List.mem_map.mpr ⟨s, ?_, by rw [content_sector_blank content s behind]⟩)⟩
      rw [List.mem_range'_1]
      omega
  · refine ⟨false, List.mem_append_right _ (List.mem_map.mpr ⟨s, ?_, by rw [content_sector_blank content s behind]⟩)⟩
    rw [List.mem_range'_1]
    omega

inductive SaveWrite (fs : FileSystem) : Write → Prop where
  | dir : SaveWrite fs ⟨fsCurdirLba, dirSector fs.currentDir⟩
  | entry (i : Nat) (entry : FSEntry) (here : fs.fsTable[i]? = some entry) :
      SaveWrite fs ⟨fsDataStartLba + i, entrySector entry⟩
  | spareEntry (i : Nat) (spare : fs.fsTable.length ≤ i) (inside : i < 64) :
      SaveWrite fs ⟨fsDataStartLba + i, blankSector⟩
  | user (i : Nat) (user : UserEntry) (here : fs.userTable[i]? = some user) :
      SaveWrite fs ⟨fsUserStartLba + i, userSector user⟩
  | spareUser (i : Nat) (spare : fs.userTable.length ≤ i) (inside : i < 5) :
      SaveWrite fs ⟨fsUserStartLba + i, blankSector⟩
  | content (content : FileContent) (s : Nat) (member : content ∈ fs.fileContents) (inside : s < 16) :
      SaveWrite fs ⟨contentLba content.fileIdx s, contentSector content s⟩

theorem save_actions_write (fs : FileSystem) (write : Write) (required : Bool)
    (member : .write write required ∈ saveActions fs) : SaveWrite fs write := by
  rcases List.mem_cons.mp member with dir | member
  · cases dir
    exact .dir
  obtain ⟨lba, sector⟩ := write
  rcases List.mem_append.mp member with files | member
  · obtain ⟨i, here, filled | cleared⟩ := save_slots_write _ _ _ _ _ files
    · rw [List.getElem?_map] at filled
      obtain ⟨entry, found, same⟩ := Option.map_eq_some_iff.mp filled
      cases here
      cases same
      exact .entry i entry found
    · cases here
      cases cleared.2.2
      exact .spareEntry i (by simpa using cleared.1) cleared.2.1
  rcases List.mem_append.mp member with users | contents
  · obtain ⟨i, here, filled | cleared⟩ := save_slots_write _ _ _ _ _ users
    · rw [List.getElem?_map] at filled
      obtain ⟨user, found, same⟩ := Option.map_eq_some_iff.mp filled
      cases here
      cases same
      exact .user i user found
    · cases here
      cases cleared.2.2
      exact .spareUser i (by simpa using cleared.1) cleared.2.1
  · obtain ⟨content, inside, saved⟩ := List.mem_flatMap.mp contents
    obtain ⟨s, small, same⟩ := save_content_write content _ required saved
    rw [same]
    exact .content content s inside small

theorem save_write_action (fs : FileSystem) (write : Write) (saved : SaveWrite fs write)
    (small : ∀ content ∈ fs.fileContents, content.size ≤ maxFileSize) :
    ∃ required, .write write required ∈ saveActions fs := by
  cases saved with
  | dir => exact ⟨true, List.mem_cons_self⟩
  | entry i entry here =>
      refine ⟨true, List.mem_cons_of_mem _ (List.mem_append_left _ (save_slots_filled _ _ _ i _ ?_))⟩
      rw [List.getElem?_map, here, Option.map_some]
  | spareEntry i spare inside =>
      refine ⟨false, List.mem_cons_of_mem _ (List.mem_append_left _ (save_slots_cleared _ _ _ i ?_ inside))⟩
      rw [List.length_map]
      exact spare
  | user i user here =>
      refine ⟨true, List.mem_cons_of_mem _ (List.mem_append_right _ (List.mem_append_left _ ?_))⟩
      apply save_slots_filled _ _ _ i
      rw [List.getElem?_map, here, Option.map_some]
  | spareUser i spare inside =>
      refine ⟨false, List.mem_cons_of_mem _ (List.mem_append_right _ (List.mem_append_left _ ?_))⟩
      refine save_slots_cleared _ _ _ i ?_ inside
      rw [List.length_map]
      exact spare
  | content content s member inside =>
      obtain ⟨required, action⟩ := save_content_action content (small content member) s inside
      refine ⟨required, List.mem_cons_of_mem _ (List.mem_append_right _ (List.mem_append_right _ ?_))⟩
      exact List.mem_flatMap.mpr ⟨content, member, action⟩

section
variable (fs : FileSystem) (write : Write) (saved : SaveWrite fs write)

include saved in
theorem save_write_dir (here : write.lba = fsCurdirLba) : write.sector = dirSector fs.currentDir := by
  cases saved with
  | dir => rfl
  | entry i entry found => simp only [fsCurdirLba, fsDataStartLba] at here; omega
  | spareEntry i spare inside => simp only [fsCurdirLba, fsDataStartLba] at here; omega
  | user i user found => simp only [fsCurdirLba, fsUserStartLba, fsDataStartLba] at here; omega
  | spareUser i spare inside => simp only [fsCurdirLba, fsUserStartLba, fsDataStartLba] at here; omega
  | content content s member inside => simp only [fsCurdirLba, contentLba, fsContentStartLba] at here; omega

include saved in
theorem save_write_file (i : Nat) (inside : i < 64) (here : write.lba = fsDataStartLba + i) :
    (∃ entry, fs.fsTable[i]? = some entry ∧ write.sector = entrySector entry) ∨
      (fs.fsTable.length ≤ i ∧ write.sector = blankSector) := by
  cases saved with
  | dir => simp only [fsCurdirLba, fsDataStartLba] at here; omega
  | entry j entry found =>
      cases Nat.add_left_cancel here
      exact Or.inl ⟨entry, found, rfl⟩
  | spareEntry j spare inside =>
      cases Nat.add_left_cancel here
      exact Or.inr ⟨spare, rfl⟩
  | user j user found => simp only [fsUserStartLba, fsDataStartLba] at here; omega
  | spareUser j spare inside => simp only [fsUserStartLba, fsDataStartLba] at here; omega
  | content content s member inside => simp only [fsDataStartLba, contentLba, fsContentStartLba] at here; omega

include saved in
theorem save_write_user (count : fs.fsTable.length ≤ fsMaxFiles) (i : Nat) (inside : i < 5)
    (here : write.lba = fsUserStartLba + i) :
    (∃ user, fs.userTable[i]? = some user ∧ write.sector = userSector user) ∨
      (fs.userTable.length ≤ i ∧ write.sector = blankSector) := by
  cases saved with
  | dir => simp only [fsCurdirLba, fsUserStartLba, fsDataStartLba] at here; omega
  | entry j entry found =>
      obtain ⟨before, _⟩ := List.getElem?_eq_some_iff.mp found
      simp only [fsUserStartLba, fsDataStartLba, fsMaxFiles] at here count
      omega
  | spareEntry j spare inside => simp only [fsUserStartLba, fsDataStartLba] at here; omega
  | user j user found =>
      cases Nat.add_left_cancel here
      exact Or.inl ⟨user, found, rfl⟩
  | spareUser j spare inside =>
      cases Nat.add_left_cancel here
      exact Or.inr ⟨spare, rfl⟩
  | content content s member inside =>
      simp only [fsUserStartLba, fsDataStartLba, contentLba, fsContentStartLba] at here
      omega

include saved in
theorem save_write_length (entries : ∀ entry ∈ fs.fsTable, EntryOk entry) (users : ∀ user ∈ fs.userTable, UserOk user) :
    write.sector.length = sectorSize := by
  cases saved with
  | dir => exact dir_sector_length _
  | entry i entry found => exact entry_sector_length entry (entries entry (List.mem_of_getElem? found))
  | spareEntry i spare inside => exact blank_sector_length
  | user i user found => exact user_sector_length user (users user (List.mem_of_getElem? found))
  | spareUser i spare inside => exact blank_sector_length
  | content content s member inside => exact content_sector_length content s
end

structure TableSaved (fs : FileSystem) (disk : Disk) : Prop where
  dir : disk fsCurdirLba = dirSector fs.currentDir
  filled : ∀ i entry, i < 64 → fs.fsTable[i]? = some entry → disk (fsDataStartLba + i) = entrySector entry
  spare : ∀ i, fs.fsTable.length ≤ i → i < 64 → disk (fsDataStartLba + i) = blankSector

def tableWrites (fs : FileSystem) : Nat := max 64 fs.fsTable.length

theorem table_slots_saved (fs : FileSystem) (disk : Disk) (dir : disk fsCurdirLba = dirSector fs.currentDir) :
    TableSaved fs (writeAll disk (writesOf (saveSlots fsDataStartLba 64 (fs.fsTable.map entrySector)))) := by
  have slot (write : Write)
      (member : write ∈ writesOf (saveSlots fsDataStartLba 64 (fs.fsTable.map entrySector))) :
      ∃ i, write.lba = fsDataStartLba + i ∧ ((∃ entry, fs.fsTable[i]? = some entry ∧ write.sector = entrySector entry) ∨
        (fs.fsTable.length ≤ i ∧ write.sector = blankSector)) := by
    obtain ⟨required, action⟩ := (writes_of_member _ write).mp member
    obtain ⟨i, here, filled | cleared⟩ := save_slots_write _ _ _ _ _ action
    · rw [List.getElem?_map] at filled
      obtain ⟨entry, found, same⟩ := Option.map_eq_some_iff.mp filled
      exact ⟨i, here, Or.inl ⟨entry, found, same.symm⟩⟩
    · exact ⟨i, here, Or.inr ⟨by simpa using cleared.1, cleared.2.2⟩⟩
  refine ⟨?_, fun i entry inside found => ?_, fun i spare inside => ?_⟩
  · refine (write_all_elsewhere _ _ _ fun write member here => ?_).trans dir
    obtain ⟨i, position, _⟩ := slot write member
    rw [here, fsCurdirLba, fsDataStartLba] at position
    omega
  · apply write_all_here
    · intro write member here
      obtain ⟨j, position, filled | cleared⟩ := slot write member
      · cases Nat.add_left_cancel (here.symm.trans position)
        obtain ⟨other, same, sector⟩ := filled
        cases found.symm.trans same
        exact sector
      · cases Nat.add_left_cancel (here.symm.trans position)
        obtain ⟨before, _⟩ := List.getElem?_eq_some_iff.mp found
        exact absurd before (Nat.not_lt.mpr cleared.1)
    · refine ⟨_, (writes_of_member _ _).mpr ⟨true, save_slots_filled _ _ _ i (entrySector entry) ?_⟩, rfl⟩
      rw [List.getElem?_map, found, Option.map_some]
  · apply write_all_here
    · intro write member here
      obtain ⟨j, position, filled | cleared⟩ := slot write member
      · cases Nat.add_left_cancel (here.symm.trans position)
        obtain ⟨other, found, _⟩ := filled
        obtain ⟨before, _⟩ := List.getElem?_eq_some_iff.mp found
        exact absurd before (Nat.not_lt.mpr spare)
      · exact cleared.2
    · refine ⟨_, (writes_of_member _ _).mpr ⟨false, save_slots_cleared _ _ _ i ?_ inside⟩, rfl⟩
      rw [List.length_map]
      exact spare

theorem save_table_written (failing : Nat → Bool) (fs : FileSystem) (disk finish : Disk) (complete : Bool)
    (succeed : ∀ n, n ≤ tableWrites fs → failing n = false)
    (done : fsSaveToDisk failing fs disk = some (finish, complete)) : TableSaved fs finish := by
  have length := save_slots_length fsDataStartLba 64 (fs.fsTable.map entrySector)
  rw [List.length_map] at length
  rw [fsSaveToDisk, saveActions, perform, succeed 0 (Nat.zero_le _), if_neg Bool.false_ne_true,
    perform_written _ _ _ _ _ (save_slots_inside _ _ _) fun k after before =>
      succeed k (by rw [length] at before; rw [tableWrites]; omega)] at done
  have tables := table_slots_saved fs (writeSector disk ⟨fsCurdirLba, dirSector fs.currentDir⟩) (if_pos rfl)
  -- What follows goes to the users and the contents.
  have later (lba : Nat) (below : lba < fsUserStartLba) : finish lba = writeAll
      (writeSector disk ⟨fsCurdirLba, dirSector fs.currentDir⟩)
      (writesOf (saveSlots fsDataStartLba 64 (fs.fsTable.map entrySector))) lba := by
    rcases perform_sectors _ _ _ _ _ _ done lba with same | ⟨write, required, member, here, _⟩
    · exact same
    · rcases List.mem_append.mp member with users | contents
      · obtain ⟨i, position, _⟩ := save_slots_write _ _ _ _ _ users
        omega
      · obtain ⟨content, _, saved⟩ := List.mem_flatMap.mp contents
        obtain ⟨s, _, same⟩ := save_content_write content write required saved
        rw [same] at here
        simp only [contentLba, fsContentStartLba, fsUserStartLba, fsDataStartLba] at here below
        omega
  refine ⟨?_, fun i entry inside found => ?_, fun i spare inside => ?_⟩
  · rw [later _ (by decide)]
    exact tables.dir
  · rw [later _ (by rw [fsUserStartLba]; omega)]
    exact tables.filled i entry inside found
  · rw [later _ (by rw [fsUserStartLba]; omega)]
    exact tables.spare i spare inside

-- A failing write of the directory ends the save before anything is written.
theorem save_table (failing : Nat → Bool) (fs : FileSystem) (disk finish : Disk) (complete : Bool)
    (succeed : ∀ n, 0 < n → n ≤ tableWrites fs → failing n = false)
    (done : fsSaveToDisk failing fs disk = some (finish, complete)) : finish = disk ∨ TableSaved fs finish := by
  by_cases stopped : failing 0 = true
  · rw [fsSaveToDisk, saveActions, perform, if_pos stopped, if_pos rfl] at done
    cases done
    exact Or.inl rfl
  · refine Or.inr (save_table_written failing fs disk finish complete (fun n small => ?_) done)
    cases n with
    | zero => exact Bool.not_eq_true _ ▸ stopped
    | succ n => exact succeed _ (Nat.succ_pos n) small

end RoDos.Fs
