import RoDos.Fs.WellFormed

set_option autoImplicit false

namespace RoDos.Fs

open Base

structure Restored (fs next : FileSystem) : Prop where
  table : next.fsTable = fs.fsTable
  users : next.userTable = fs.userTable
  dir : next.currentDir = fs.currentDir
  contents : ∀ i entry, fs.fsTable[i]? = some entry → entry.type = 0 → contentOf next i = contentOf fs i

def Restores (machine : Machine) : Prop :=
  ∃ disk, fsSaveToDisk never machine.fs machine.disk = some (disk, true) ∧
    Restored machine.fs (fsInitCommands never disk)

-- CAT, NANO and COPY take the first record of a position, and the last one is the last to be saved.
def firstRecord (fs : FileSystem) (fileIdx : Nat) : Option FileContent :=
  fs.fileContents.find? fun content => content.fileIdx = fileIdx

def lastRecord (fs : FileSystem) (fileIdx : Nat) : Option FileContent :=
  fs.fileContents.reverse.find? fun content => content.fileIdx = fileIdx

def image (content : FileContent) : List UInt8 := paddedTo maxFileSize (content.data.take content.size)

def ContentKept (fs : FileSystem) (i : Nat) (entry : FSEntry) : Prop :=
  (entry.size = 0 ∧ contentOf fs i = some []) ∨
    ∃ first last, firstRecord fs i = some first ∧ lastRecord fs i = some last ∧ 0 < entry.size ∧
      first.size = entry.size ∧ first.data.take entry.size = (image last).take entry.size

structure Restorable (fs : FileSystem) : Prop where
  files : fs.fsTable.length ≤ 64
  someUser : 1 ≤ fs.userTable.length
  users : fs.userTable.length ≤ 5
  records : ∀ content ∈ fs.fileContents, content.size ≤ maxFileSize
  contents : ∀ i entry, fs.fsTable[i]? = some entry → entry.type = 0 → ContentKept fs i entry

theorem perform_never (n : Nat) (disk : Disk) (actions : List DiskAction) (inside : .outOfBounds ∉ actions) :
    perform never n disk actions = some (writeAll disk (writesOf actions), true) := by
  have done := perform_written never n disk actions [] inside fun _ _ _ => rfl
  rw [List.append_nil] at done
  exact done

theorem perform_inside (failing : Nat → Bool) (n : Nat) (disk finish : Disk) (actions : List DiskAction)
    (done : perform failing n disk actions = some (finish, true)) : .outOfBounds ∉ actions := by
  induction actions generalizing n disk with
  | nil => exact List.not_mem_nil
  | cons action rest ih =>
      cases action with
      | outOfBounds => cases done
      | write write required =>
          have further : ∃ reached, perform failing (n + 1) reached rest = some (finish, true) := by
            rw [perform] at done
            split at done
            · split at done
              · cases done
              · exact ⟨_, done⟩
            · exact ⟨_, done⟩
          obtain ⟨reached, later⟩ := further
          intro member
          cases List.mem_cons.mp member with
          | inl same => cases same
          | inr inside => exact ih _ _ later inside

-- A record that claims more than it can hold is read beyond its end.
theorem save_content_inside (content : FileContent) :
    .outOfBounds ∉ saveContent content ↔ content.size ≤ maxFileSize := by
  constructor
  · intro inside
    refine Nat.le_of_not_lt fun large => inside (List.mem_append_left _ (List.mem_map.mpr ⟨8, ?_, ?_⟩))
    · rw [maxFileSize] at large
      rw [List.mem_range, sectorsNeeded]
      omega
    · rw [maxFileSize] at large
      rw [saveContentSector, maxFileSize, if_pos (by omega)]
  · intro small member
    cases List.mem_append.mp member with
    | inl filled =>
        obtain ⟨s, range, same⟩ := List.mem_map.mp filled
        have needed := Nat.lt_of_lt_of_le (List.mem_range.mp range) (Nat.min_le_right _ _)
        cases save_content_sector_inside content s small with
        | inl write => exact absurd (write.symm.trans same) (by simp)
        | inr behind => exact absurd needed (Nat.not_lt.mpr behind)
    | inr cleared =>
        obtain ⟨s, _, same⟩ := List.mem_map.mp cleared
        cases same

theorem save_actions_inside (fs : FileSystem) :
    .outOfBounds ∉ saveActions fs ↔ ∀ content ∈ fs.fileContents, content.size ≤ maxFileSize := by
  constructor
  · intro inside content member
    apply (save_content_inside content).mp
    intro outside
    apply inside
    refine List.mem_cons_of_mem _ (List.mem_append_right _ (List.mem_append_right _ ?_))
    exact List.mem_flatMap.mpr ⟨content, member, outside⟩
  · intro small member
    cases List.mem_cons.mp member with
    | inl dir => cases dir
    | inr member =>
        cases List.mem_append.mp member with
        | inl files => exact save_slots_inside _ _ _ files
        | inr member =>
            cases List.mem_append.mp member with
            | inl users => exact save_slots_inside _ _ _ users
            | inr contents =>
                obtain ⟨content, inside, outside⟩ := List.mem_flatMap.mp contents
                exact (save_content_inside content).mpr (small content inside) outside

def savedDisk (fs : FileSystem) (disk : Disk) : Disk := writeAll disk (writesOf (saveActions fs))

theorem save_never (fs : FileSystem) (disk finish : Disk) :
    fsSaveToDisk never fs disk = some (finish, true) ↔
      (∀ content ∈ fs.fileContents, content.size ≤ maxFileSize) ∧ finish = savedDisk fs disk := by
  constructor
  · intro done
    have inside := perform_inside never 0 disk finish _ done
    have whole := perform_never 0 disk _ inside
    rw [fsSaveToDisk, whole, Option.some.injEq, Prod.mk.injEq] at done
    exact ⟨(save_actions_inside fs).mp inside, done.1.symm⟩
  · intro saved
    rw [saved.2]
    exact perform_never 0 disk _ ((save_actions_inside fs).mpr saved.1)

section
variable {α : Type} (table : List α) (rowSector : α → List UInt8) (i : Nat) (sector : List UInt8)
  (slot : (∃ row, table[i]? = some row ∧ sector = rowSector row) ∨ (table.length ≤ i ∧ sector = blankSector))
include slot

theorem slot_row (row : α) (found : table[i]? = some row) : sector = rowSector row := by
  cases slot with
  | inl filled =>
      obtain ⟨other, same, sector⟩ := filled
      cases found.symm.trans same
      exact sector
  | inr spare =>
      obtain ⟨before, _⟩ := List.getElem?_eq_some_iff.mp found
      exact absurd before (Nat.not_lt.mpr spare.1)

theorem slot_spare (spare : table.length ≤ i) : sector = blankSector := by
  cases slot with
  | inl filled =>
      obtain ⟨other, found, _⟩ := filled
      obtain ⟨before, _⟩ := List.getElem?_eq_some_iff.mp found
      exact absurd before (Nat.not_lt.mpr spare)
  | inr blank => exact blank.2
end

section
variable (fs : FileSystem) (disk : Disk) (ok : FsOk fs) (small : ∀ content ∈ fs.fileContents, content.size ≤ maxFileSize)

include small in
theorem saved_sector (lba : Nat) (sector : List UInt8) (saved : SaveWrite fs ⟨lba, sector⟩)
    (agreed : ∀ write, SaveWrite fs write → write.lba = lba → write.sector = sector) :
    savedDisk fs disk lba = sector := by
  apply write_all_here
  · intro write member here
    obtain ⟨required, action⟩ := (writes_of_member _ write).mp member
    exact agreed write (save_actions_write fs write required action) here
  · exact ⟨_, (writes_of_member _ _).mpr (save_write_action fs _ saved small), rfl⟩

include small

theorem saved_dir : savedDisk fs disk fsCurdirLba = dirSector fs.currentDir :=
  saved_sector fs disk small _ _ .dir fun write saved here => save_write_dir fs write saved here

theorem saved_table : TableSaved fs (savedDisk fs disk) := by
  refine ⟨saved_dir fs disk small, fun i entry inside found => ?_, fun i spare inside => ?_⟩
  · refine saved_sector fs disk small _ _ (.entry i entry found) fun write saved here => ?_
    exact slot_row fs.fsTable entrySector i _ (save_write_file fs write saved i inside here) entry found
  · refine saved_sector fs disk small _ _ (.spareEntry i spare inside) fun write saved here => ?_
    exact slot_spare fs.fsTable entrySector i _ (save_write_file fs write saved i inside here) spare

include ok

theorem saved_user (i : Nat) (user : UserEntry) (inside : i < 5) (found : fs.userTable[i]? = some user) :
    savedDisk fs disk (fsUserStartLba + i) = userSector user := by
  refine saved_sector fs disk small _ _ (.user i user found) fun write saved here => ?_
  exact slot_row fs.userTable userSector i _ (save_write_user fs write saved ok.count i inside here) user found

theorem saved_spare_user (i : Nat) (spare : fs.userTable.length ≤ i) (inside : i < 5) :
    savedDisk fs disk (fsUserStartLba + i) = blankSector := by
  refine saved_sector fs disk small _ _ (.spareUser i spare inside) fun write saved here => ?_
  exact slot_spare fs.userTable userSector i _ (save_write_user fs write saved ok.count i inside here) spare
end

theorem tables_below (fs : FileSystem) (ok : FsOk fs) (write : Write)
    (member : write ∈ writesOf (.write ⟨fsCurdirLba, dirSector fs.currentDir⟩ true ::
      (saveSlots fsDataStartLba 64 (fs.fsTable.map entrySector) ++
        saveSlots fsUserStartLba 5 (fs.userTable.map userSector)))) : write.lba < fsContentStartLba := by
  have count := ok.count
  have userCount := ok.userCount
  have slot (start limit : Nat) (sectors : List (List UInt8)) (required : Bool)
      (inside : .write write required ∈ saveSlots start limit sectors) :
      write.lba < start + max sectors.length limit := by
    obtain ⟨i, here, position⟩ := save_slots_write start limit sectors write required inside
    cases position with
    | inl filled =>
        obtain ⟨before, _⟩ := List.getElem?_eq_some_iff.mp filled
        omega
    | inr cleared => omega
  simp only [fsContentStartLba, fsMaxFiles, fsMaxUsers] at *
  obtain ⟨required, action⟩ := (writes_of_member _ write).mp member
  cases List.mem_cons.mp action with
  | inl dir =>
      cases dir
      show fsCurdirLba < 700
      decide
  | inr action =>
      cases List.mem_append.mp action with
      | inl files =>
          have below := slot _ _ _ _ files
          rw [List.length_map, fsDataStartLba] at below
          omega
      | inr users =>
          have below := slot _ _ _ _ users
          rw [List.length_map, fsUserStartLba, fsDataStartLba] at below
          omega

theorem content_lba_injective (k j s r : Nat) (inside : s < 16) (within : r < 16) (same : contentLba k s = contentLba j r) :
    k = j ∧ s = r := by
  simp only [contentLba] at same
  omega

theorem saved_contents (contents : List FileContent) (disk : Disk)
    (small : ∀ content ∈ contents, content.size ≤ maxFileSize) (k s : Nat) (inside : s < 16) :
    writeAll disk (writesOf (contents.flatMap saveContent)) (contentLba k s) =
      match contents.reverse.find? fun content => content.fileIdx = k with
      | some content => contentSector content s
      | none => disk (contentLba k s) := by
  induction contents using List.reverseRecOn with
  | nil => rfl
  | append_singleton contents content ih =>
      have earlier := ih fun other member => small other (List.mem_append_left _ member)
      rw [List.flatMap_append, List.flatMap_singleton, writes_of_append, write_all_append, List.reverse_append,
        List.reverse_singleton, List.singleton_append, List.find?_cons]
      by_cases owner : content.fileIdx = k
      · rw [decide_eq_true owner]
        apply write_all_here
        · intro write member here
          obtain ⟨required, action⟩ := (writes_of_member _ write).mp member
          obtain ⟨r, within, same⟩ := save_content_write content write required action
          rw [same] at here ⊢
          rw [(content_lba_injective _ _ _ _ within inside here).2]
        · have action := save_content_action content (small content (by simp)) s inside
          exact ⟨_, (writes_of_member _ _).mpr action, by rw [owner]⟩
      · rw [decide_eq_false owner]
        refine (write_all_elsewhere _ _ _ fun write member here => ?_).trans earlier
        obtain ⟨required, action⟩ := (writes_of_member _ write).mp member
        obtain ⟨r, within, same⟩ := save_content_write content write required action
        rw [same] at here
        exact owner (content_lba_injective _ _ _ _ within inside here).1

theorem saved_content (fs : FileSystem) (disk : Disk) (ok : FsOk fs)
    (small : ∀ content ∈ fs.fileContents, content.size ≤ maxFileSize) (k s : Nat) (inside : s < 16) :
    savedDisk fs disk (contentLba k s) =
      match lastRecord fs k with
      | some content => contentSector content s
      | none => disk (contentLba k s) := by
  have parts : saveActions fs = (.write ⟨fsCurdirLba, dirSector fs.currentDir⟩ true ::
      (saveSlots fsDataStartLba 64 (fs.fsTable.map entrySector) ++
        saveSlots fsUserStartLba 5 (fs.userTable.map userSector))) ++ fs.fileContents.flatMap saveContent := by
    rw [saveActions, List.cons_append, List.append_assoc]
  rw [savedDisk, parts, writes_of_append, write_all_append, saved_contents fs.fileContents _ small k s inside, lastRecord]
  split
  · rfl
  · apply write_all_elsewhere
    intro write member here
    have below := tables_below fs ok write member
    rw [here, contentLba, Nat.add_assoc] at below
    omega

theorem load_users_saved (disk : Disk) (users : List UserEntry) (ok : ∀ user ∈ users, UserOk user) (a m : Nat)
    (fits : users.length ≤ m)
    (filled : ∀ i user, users[i]? = some user → disk (fsUserStartLba + (a + i)) = userSector user)
    (spare : ∀ i < m, users.length ≤ i → disk (fsUserStartLba + (a + i)) = blankSector) :
    loadUsers never disk (List.range' a m) = users := by
  induction m generalizing users a with
  | zero => exact (List.length_eq_zero_iff.mp (Nat.le_zero.mp fits)).symm
  | succ m ih =>
      rw [List.range'_succ, loadUsers]
      cases users with
      | nil =>
          have empty := spare 0 (Nat.succ_pos m) (Nat.le_refl _)
          rw [Nat.add_zero] at empty
          have skipped : skipsUser never disk a := Or.inr (empty ▸ blank_sector_first)
          rw [if_pos skipped]
          refine ih [] ok (a + 1) (Nat.zero_le _) (fun i user found => by cases found) fun i inside _ => ?_
          rw [Nat.add_assoc a 1 i, Nat.add_comm 1 i]
          exact spare (i + 1) (Nat.succ_lt_succ inside) (Nat.zero_le _)
      | cons user rest =>
          have first := filled 0 user rfl
          rw [Nat.add_zero] at first
          have userOk := ok user List.mem_cons_self
          have occupied : ¬ skipsUser never disk a := by
            rw [skipsUser, first, never, not_or]
            exact ⟨Bool.false_ne_true, user_sector_first user userOk⟩
          rw [if_neg occupied, first, decode_user_sector user userOk]
          congr 1
          refine ih rest (fun other member => ok other (List.mem_cons_of_mem _ member)) (a + 1)
            (Nat.le_of_succ_le_succ fits) (fun i other found => ?_) fun i inside behind => ?_
          · rw [Nat.add_assoc a 1 i, Nat.add_comm 1 i]
            exact filled (i + 1) other found
          · rw [Nat.add_assoc a 1 i, Nat.add_comm 1 i]
            exact spare (i + 1) (Nat.succ_lt_succ inside) (Nat.succ_le_succ behind)

theorem load_data_append (failing : Nat → Bool) (disk : Disk) (fileIdx size : Nat) (data : List UInt8)
    (front back : List Nat) :
    loadData failing disk fileIdx size data (front ++ back) =
      loadData failing disk fileIdx size (loadData failing disk fileIdx size data front) back := by
  induction front generalizing data with
  | nil => rfl
  | cons s rest ih =>
      rw [List.cons_append, loadData, loadData]
      split
      · exact ih data
      · exact ih _

theorem load_data_image (disk : Disk) (fileIdx size m : Nat) (bytes : List UInt8) (length : bytes.length = maxFileSize)
    (sectors : m ≤ 8)
    (saved : ∀ s < m, disk (contentLba fileIdx s) = (bytes.drop (s * 512)).take 512) :
    loadData never disk fileIdx size [] (List.range m) = bytes.take (min size (m * 512)) := by
  induction m with
  | zero => simp [loadData]
  | succ m ih =>
      have earlier := ih (Nat.le_of_succ_le sectors) fun s inside => saved s (Nat.lt_succ_of_lt inside)
      have capped (count : Nat) (few : count ≤ 8) : min maxFileSize (min size (count * 512)) = min size (count * 512) := by
        rw [maxFileSize]
        omega
      rw [maxFileSize] at length
      have taken : (bytes.take (min size (m * 512))).length = min size (m * 512) := by
        rw [List.length_take]
        omega
      rw [List.range_succ, load_data_append, earlier, loadData, never, if_neg Bool.false_ne_true, loadData,
        saved m (Nat.lt_succ_self m), taken, List.take_take]
      by_cases whole : size ≤ m * 512
      · have further : min size ((m + 1) * 512) = min size (m * 512) := by omega
        have nothing : size - min size (m * 512) = 0 := by omega
        rw [nothing, Nat.min_zero, Nat.zero_min, List.take_zero, List.append_nil, List.take_take,
          capped m (Nat.le_of_succ_le sectors), further]
      · rw [Nat.min_eq_right (by omega : m * 512 ≤ size)]
        have joined : bytes.take (m * 512) ++ (bytes.drop (m * 512)).take (min (min 512 (size - m * 512)) 512) =
            bytes.take (min size ((m + 1) * 512)) := by
          rw [← List.take_add]
          congr 1
          omega
        rw [joined, List.take_take, capped (m + 1) sectors]

theorem image_sector (content : FileContent) (length : content.data.length = maxFileSize)
    (small : content.size ≤ maxFileSize) (s : Nat) (inside : s < 8) :
    contentSector content s = ((image content).drop (s * 512)).take 512 := by
  rw [maxFileSize] at small length
  have stored : (content.data.take content.size).length = content.size := by
    rw [List.length_take]
    omega
  rw [image, contentSector, paddedTo, paddedTo, stored, List.drop_append, List.drop_take, List.take_append,
    List.take_take, stored, List.drop_replicate, List.take_replicate, sectorSize, maxFileSize]
  congr 2
  have room : s * 512 + 512 ≤ 4096 := by omega
  generalize s * 512 = start at room
  simp only [List.length_take, List.length_drop, length]
  rcases Nat.le_total content.size start with behind | before
  · rw [Nat.sub_eq_zero_of_le behind]
    omega
  · rw [Nat.sub_eq_zero_of_le before]
    omega

theorem load_content_owner (failing : Nat → Bool) (disk : Disk) (entry : FSEntry) (i : Nat) (content : FileContent)
    (loaded : loadContent failing disk entry i = some content) : content.fileIdx = i := by
  rw [loadContent] at loaded
  split at loaded
  · cases loaded
    rfl
  · cases loaded

theorem loaded_find (failing : Nat → Bool) (disk : Disk) (table : List FSEntry) (base i : Nat) :
    (((table.zipIdx base).filterMap fun slot => loadContent failing disk slot.1 slot.2).find?
        fun content => content.fileIdx = base + i) =
      (table[i]?).bind fun entry => loadContent failing disk entry (base + i) := by
  induction table generalizing base i with
  | nil => rfl
  | cons entry rest ih =>
      have behind : ∀ content ∈ (rest.zipIdx (base + 1)).filterMap fun slot => loadContent failing disk slot.1 slot.2,
          base < content.fileIdx := by
        intro content member
        obtain ⟨slot, inside, loaded⟩ := List.mem_filterMap.mp member
        rw [load_content_owner _ _ _ _ _ loaded]
        exact List.le_snd_of_mem_zipIdx inside
      rw [List.zipIdx_cons, List.filterMap_cons]
      cases i with
      | zero =>
          rw [Nat.add_zero, List.getElem?_cons_zero, Option.bind_some]
          cases loaded : loadContent failing disk entry base with
          | none =>
              refine List.find?_eq_none.mpr fun content member => ?_
              have later := behind content member
              simp
              omega
          | some content =>
              have owner := load_content_owner _ _ _ _ _ loaded
              exact List.find?_cons_of_pos (by simpa using owner)
      | succ i =>
          have later := ih (base + 1) i
          rw [Nat.add_right_comm base 1 i] at later
          rw [List.getElem?_cons_succ, ← Nat.add_assoc, ← later]
          cases loaded : loadContent failing disk entry base with
          | none => rfl
          | some content =>
              have owner := load_content_owner _ _ _ _ _ loaded
              refine List.find?_cons_of_neg ?_
              simp only [decide_eq_true_eq]
              omega

theorem load_contents_find (failing : Nat → Bool) (disk : Disk) (table : List FSEntry) (i : Nat) (entry : FSEntry)
    (fits : table.length ≤ 64) (found : table[i]? = some entry) :
    ((loadContents failing disk table).find? fun content => content.fileIdx = i) = loadContent failing disk entry i := by
  have whole := loaded_find failing disk table 0 i
  rw [Nat.zero_add, found, Option.bind_some] at whole
  have few : (table.zipIdx.filterMap fun slot => loadContent failing disk slot.1 slot.2).length ≤ maxContents := by
    apply Nat.le_trans (List.length_filterMap_le _ _)
    rw [List.length_zipIdx]
    exact fits
  rw [loadContents, List.take_of_length_le few, whole]

theorem init_content (disk : Disk) (i : Nat) (entry : FSEntry) (fits : (fsInitCommands never disk).fsTable.length ≤ 64)
    (found : (fsInitCommands never disk).fsTable[i]? = some entry) :
    contentOf (fsInitCommands never disk) i =
      match loadContent never disk entry i with
      | some content => contentBytes content
      | none => some [] := by
  have whole : ((fsInitCommands never disk).fileContents.find? fun content => content.fileIdx = i) =
      loadContent never disk entry i := load_contents_find never disk _ i entry fits found
  cases loaded : loadContent never disk entry i with
  | none =>
      rw [loaded] at whole
      rw [contentOf, whole]
  | some content =>
      rw [loaded] at whole
      rw [contentOf, whole]

theorem sectors_needed_small (size : Nat) (small : size ≤ maxFileSize) :
    min 16 (sectorsNeeded size) ≤ 8 ∧ size ≤ min 16 (sectorsNeeded size) * 512 := by
  rw [maxFileSize] at small
  rw [sectorsNeeded]
  omega

section
variable (fs : FileSystem) (disk : Disk) (ok : FsOk fs) (small : ∀ content ∈ fs.fileContents, content.size ≤ maxFileSize)
include ok small

theorem saved_data (k size : Nat) (last : FileContent) (found : lastRecord fs k = some last) (fits : size ≤ maxFileSize) :
    loadData never (savedDisk fs disk) k size [] (List.range (min 16 (sectorsNeeded size))) = (image last).take size := by
  obtain ⟨few, enough⟩ := sectors_needed_small size fits
  have member : last ∈ fs.fileContents := List.mem_reverse.mp (List.mem_of_find?_eq_some found)
  have stored : (last.data.take last.size).length ≤ maxFileSize :=
    Nat.le_trans (List.length_take_le _ _) (small last member)
  have loaded := load_data_image (savedDisk fs disk) k size _ (image last) (padded_length _ _ stored) few
    fun s inside => by
      rw [saved_content fs disk ok small k s (by omega), found]
      exact image_sector last (ok.lengths last member) (small last member) s (by omega)
  rw [loaded, Nat.min_eq_left enough]

theorem content_found (i : Nat) (record : FileContent) (first : firstRecord fs i = some record) :
    contentOf fs i = some (record.data.take record.size) ∧ (record.data.take record.size).length = record.size := by
  have inside : record ∈ fs.fileContents := List.mem_of_find?_eq_some first
  have fits := small record inside
  constructor
  · rw [contentOf, ← firstRecord, first]
    exact if_pos fits
  · rw [List.length_take, ok.lengths record inside]
    exact Nat.min_eq_left fits

omit ok small in
theorem last_found (i : Nat) (record : FileContent) (first : firstRecord fs i = some record) :
    ∃ last, lastRecord fs i = some last := by
  have inside : record ∈ fs.fileContents := List.mem_of_find?_eq_some first
  cases last : lastRecord fs i with
  | some other => exact ⟨other, rfl⟩
  | none =>
      have absent := List.find?_eq_none.mp last record (List.mem_reverse.mpr inside)
      exact absurd (List.find?_some first) absent

omit ok in
theorem image_take_length (i size : Nat) (last : FileContent) (found : lastRecord fs i = some last)
    (fits : size ≤ maxFileSize) : ((image last).take size).length = size := by
  have member : last ∈ fs.fileContents := List.mem_reverse.mp (List.mem_of_find?_eq_some found)
  have stored := Nat.le_trans (List.length_take_le last.size last.data) (small last member)
  rw [List.length_take, image, padded_length _ _ stored]
  exact Nat.min_eq_left fits

theorem content_loaded (i : Nat) (entry : FSEntry)
    (loadedTable : (fsInitCommands never (savedDisk fs disk)).fsTable = fs.fsTable) (fits : fs.fsTable.length ≤ 64)
    (found : fs.fsTable[i]? = some entry) (file : entry.type = 0) (positive : 0 < entry.size) :
    ∃ data : List UInt8, data.length = maxFileSize ∧
      contentOf (fsInitCommands never (savedDisk fs disk)) i =
        (if entry.size ≤ maxFileSize then some (data.take entry.size) else none) ∧
      ∀ last, lastRecord fs i = some last → entry.size ≤ maxFileSize →
        data.take entry.size = (image last).take entry.size := by
  rw [← loadedTable] at fits found
  have loaded := init_content (savedDisk fs disk) i entry fits found
  rw [loadContent, if_pos ⟨positive, file⟩] at loaded
  refine ⟨_, padded_length _ _ (load_data_length never _ i entry.size [] _ (Nat.zero_le _)), loaded,
    fun last record size => ?_⟩
  have whole := image_take_length fs small i entry.size last record size
  rw [saved_data fs disk ok small i entry.size last record size, paddedTo,
    List.take_append_of_le_length (Nat.le_of_eq whole.symm), List.take_take, Nat.min_self]

omit ok small in
theorem empty_file_restored (i : Nat) (entry : FSEntry)
    (loadedTable : (fsInitCommands never (savedDisk fs disk)).fsTable = fs.fsTable) (fits : fs.fsTable.length ≤ 64)
    (found : fs.fsTable[i]? = some entry) (empty : entry.size = 0) :
    contentOf (fsInitCommands never (savedDisk fs disk)) i = contentOf fs i ↔ ContentKept fs i entry := by
  rw [← loadedTable] at fits found
  have loaded := init_content (savedDisk fs disk) i entry fits found
  have absent : loadContent never (savedDisk fs disk) entry i = none := by
    rw [loadContent, if_neg fun both => absurd both.1 (by omega)]
  rw [loaded, absent]
  constructor
  · intro same
    exact Or.inl ⟨empty, same.symm⟩
  · intro kept
    cases kept with
    | inl nothing => exact nothing.2.symm
    | inr held =>
        obtain ⟨_, _, _, _, positive, _⟩ := held
        omega

theorem content_restored (i : Nat) (entry : FSEntry)
    (loadedTable : (fsInitCommands never (savedDisk fs disk)).fsTable = fs.fsTable) (fits : fs.fsTable.length ≤ 64)
    (found : fs.fsTable[i]? = some entry) (file : entry.type = 0) :
    contentOf (fsInitCommands never (savedDisk fs disk)) i = contentOf fs i ↔ ContentKept fs i entry := by
  by_cases empty : entry.size = 0
  · exact empty_file_restored fs disk i entry loadedTable fits found empty
  have positive : 0 < entry.size := Nat.pos_of_ne_zero empty
  obtain ⟨data, length, loaded, saved⟩ := content_loaded fs disk ok small i entry loadedTable fits found file positive
  rw [loaded]
  cases first : firstRecord fs i with
  | none =>
      have before : contentOf fs i = some [] := by rw [contentOf, ← firstRecord, first]
      rw [before]
      constructor
      · intro same
        split at same
        · have sizes := congrArg List.length (Option.some.inj same)
          rw [List.length_take, length, List.length_nil] at sizes
          omega
        · cases same
      · intro kept
        cases kept with
        | inl nothing => exact absurd nothing.1 empty
        | inr held =>
            obtain ⟨other, _, same, _⟩ := held
            rw [first] at same
            cases same
  | some record =>
      obtain ⟨before, size⟩ := content_found fs ok small i record first
      obtain ⟨other, last⟩ := last_found fs i record first
      rw [before]
      constructor
      · intro same
        split at same
        · rename_i bounded
          rw [Option.some.injEq, saved other last bounded] at same
          have sizes := congrArg List.length same
          rw [image_take_length fs small i entry.size other last bounded, size] at sizes
          exact Or.inr ⟨record, other, first, last, positive, sizes.symm, by rw [same, sizes]⟩
        · cases same
      · intro kept
        cases kept with
        | inl nothing => exact absurd nothing.1 empty
        | inr held =>
            obtain ⟨f, l, firstFound, lastFound, _, sizes, same⟩ := held
            cases first.symm.trans firstFound
            cases last.symm.trans lastFound
            have bounded : entry.size ≤ maxFileSize := sizes ▸ small record (List.mem_of_find?_eq_some first)
            rw [if_pos bounded, saved other last bounded, ← same, sizes]

theorem table_restored (fits : fs.fsTable.length ≤ 64) :
    (fsInitCommands never (savedDisk fs disk)).fsTable = fs.fsTable := by
  rw [init_table]
  exact load_table_held never _ _ (table_saved_holds fs _ ok.entries (saved_table fs disk small)) (fun _ _ => rfl) fits

theorem users_restored (someUser : 1 ≤ fs.userTable.length) (fits : fs.userTable.length ≤ 5) :
    (fsInitCommands never (savedDisk fs disk)).userTable = fs.userTable := by
  have loaded : loadUsers never (savedDisk fs disk) (List.range 5) = fs.userTable := by
    rw [List.range_eq_range']
    refine load_users_saved _ _ ok.users 0 5 fits (fun i user found => ?_) fun i inside spare => ?_
    · obtain ⟨before, _⟩ := List.getElem?_eq_some_iff.mp found
      rw [Nat.zero_add]
      exact saved_user fs disk ok small i user (Nat.lt_of_lt_of_le before fits) found
    · rw [Nat.zero_add]
      exact saved_spare_user fs disk ok small i spare inside
  have present : fs.userTable ≠ [] := List.ne_nil_of_length_pos someUser
  rw [init_users, loaded, if_neg present]
end

theorem init_users_bounds (failing : Nat → Bool) (disk : Disk) :
    1 ≤ (fsInitCommands failing disk).userTable.length ∧ (fsInitCommands failing disk).userTable.length ≤ 5 := by
  have few := load_users_length failing disk (List.range 5)
  rw [init_users]
  split
  · decide
  · rename_i present
    exact ⟨List.length_pos_of_ne_nil present, few⟩

theorem restart_restores (machine : Machine) (run : Run Booted FsStep (fun _ _ => True) machine) :
    Restores machine ↔ Restorable machine.fs := by
  have ok := (well_formed_run _ machine run).fs
  constructor
  · intro restores
    obtain ⟨disk, saved, restored⟩ := restores
    obtain ⟨small, rfl⟩ := (save_never machine.fs machine.disk disk).mp saved
    have bounds := init_users_bounds never (savedDisk machine.fs machine.disk)
    have files : machine.fs.fsTable.length ≤ 64 := by
      rw [← restored.table, init_table]
      exact load_table_length never _ (List.range 64)
    rw [restored.users] at bounds
    refine ⟨files, bounds.1, bounds.2, small, fun i entry found file => ?_⟩
    apply (content_restored machine.fs machine.disk ok small i entry restored.table files found file).mp
    exact restored.contents i entry found file
  · intro restorable
    have small := restorable.records
    have table := table_restored machine.fs machine.disk ok small restorable.files
    refine ⟨_, (save_never machine.fs machine.disk _).mpr ⟨small, rfl⟩, table,
      users_restored machine.fs machine.disk ok small restorable.someUser restorable.users, ?_, fun i entry found file => ?_⟩
    · rw [init_dir, never, if_neg Bool.false_ne_true, saved_dir machine.fs machine.disk small]
      exact load_dir_sector _ ok.dir
    · exact (content_restored machine.fs machine.disk ok small i entry table restorable.files found file).mpr
        (restorable.contents i entry found file)

theorem kept_alone (fs : FileSystem) (i : Nat) (entry : FSEntry) (record : FileContent)
    (first : firstRecord fs i = some record) (last : lastRecord fs i = some record) (positive : 0 < entry.size)
    (sizes : record.size = entry.size) (stored : record.size ≤ record.data.length) : ContentKept fs i entry := by
  refine Or.inr ⟨record, record, first, last, positive, sizes, ?_⟩
  have whole : (record.data.take entry.size).length = entry.size := by
    rw [List.length_take]
    omega
  rw [image, sizes, paddedTo, List.take_append_of_le_length (Nat.le_of_eq whole.symm), List.take_take, Nat.min_self]

theorem restart_restores_typed : ∃ machine : Machine, machine.fs.fsTable = [⟨ascii "C:\\A", 1, 0, 0x20⟩] ∧ Restores machine := by
  have evaluated : (runOps firstBoot [plain (.nano (ascii "A") true (typed 120))]).any (fun machine =>
      machine.fs.fsTable = [⟨ascii "C:\\A", 1, 0, 0x20⟩] ∧ machine.fs.userTable.length = 1 ∧
        machine.fs.fileContents.map (fun content => (content.fileIdx, content.size)) = [(0, 1)]) = true := by
    decide +kernel
  obtain ⟨machine, done, reached⟩ := (Option.any_eq_true _ _).mp evaluated
  obtain ⟨table, users, contents⟩ := of_decide_eq_true reached
  have run := run_ops_run firstBoot machine _ (.start _ first_boot_booted) done
  obtain ⟨record, alone, owned⟩ := List.map_eq_singleton_iff.mp contents
  obtain ⟨owner, size⟩ := Prod.mk.inj owned
  have length := (well_formed_run _ machine run).fs.lengths record (by rw [alone]; exact List.mem_singleton_self _)
  have found (i : Nat) (first : i = 0) : firstRecord machine.fs i = some record ∧ lastRecord machine.fs i = some record := by
    rw [firstRecord, lastRecord, alone]
    exact ⟨List.find?_cons_of_pos (by simp [owner, first]), List.find?_cons_of_pos (by simp [owner, first])⟩
  refine ⟨machine, table, (restart_restores machine run).mpr
    ⟨by rw [table]; decide, by omega, by omega, fun content member => ?_, fun i entry here file => ?_⟩⟩
  · rw [alone, List.mem_singleton] at member
    rw [member, size]
    decide
  · rw [table] at here
    cases i with
    | zero =>
        cases here
        exact kept_alone _ _ _ record (found 0 rfl).1 (found 0 rfl).2 (by decide) size (by rw [size, length]; decide)
    | succ i => cases here

theorem restart_not_always_restores :
    ¬ ∀ machine, Run Booted FsStep (fun _ _ => True) machine → Restores machine := by
  intro claimed
  have evaluated : (runOps firstBoot [plain (.useradd (ascii "a")), plain (.useradd (ascii "b")),
      plain (.useradd (ascii "c")), plain (.useradd (ascii "d")), plain (.useradd (ascii "e"))]).any (fun machine =>
        machine.fs.userTable.length = 6) = true := by decide +kernel
  obtain ⟨machine, done, reached⟩ := (Option.any_eq_true _ _).mp evaluated
  have six : machine.fs.userTable.length = 6 := of_decide_eq_true reached
  obtain ⟨disk, _, restored⟩ := claimed machine (run_ops_run firstBoot machine _ (.start _ first_boot_booted) done)
  have few := (init_users_bounds never disk).2
  rw [restored.users, six] at few
  exact absurd few (by decide)

end RoDos.Fs
