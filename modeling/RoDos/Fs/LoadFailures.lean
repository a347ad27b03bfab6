import RoDos.Fs.SaveFailures

set_option autoImplicit false

namespace RoDos.Fs

open Base

-- Whatever could not be read, the result is 0.
def fsLoadFromDisk (failing : Nat → Bool) (disk : Disk) (fs : FileSystem) : FileSystem × Int :=
  let table := loadTable failing disk (List.range 64)
  ({ fs with
      currentDir := if failing fsCurdirLba then fs.currentDir else loadDir (disk fsCurdirLba) fs.currentDir
      fsTable := table
      userTable := loadUsers failing disk (List.range 5)
      fileContents := loadContents failing disk table }, 0)

def blankFs : FileSystem := ⟨rootDir, [], [], [], ascii "root"⟩

theorem init_loads (failing : Nat → Bool) (disk : Disk) : fsInitCommands failing disk =
    { (fsLoadFromDisk failing disk blankFs).1 with
      userTable := if (fsLoadFromDisk failing disk blankFs).1.userTable = [] then [rootUser]
        else (fsLoadFromDisk failing disk blankFs).1.userTable } := rfl

def loadedSlots (failing : Nat → Bool) (disk : Disk) : List Nat → List Nat
  | [] => []
  | i :: rest =>
      if failing (fsDataStartLba + i) then loadedSlots failing disk rest
      else if (disk (fsDataStartLba + i)).getD 0 0 = 0 then []
      else i :: loadedSlots failing disk rest

def slotEntry (disk : Disk) (i : Nat) : FSEntry := decodeEntry (disk (fsDataStartLba + i))

abbrev hasContent (entry : FSEntry) : Prop := 0 < entry.size ∧ entry.type = 0

def ownData (disk : Disk) (i : Nat) : List UInt8 :=
  paddedTo maxFileSize
    (loadData never disk i (slotEntry disk i).size [] (List.range (min 16 (sectorsNeeded (slotEntry disk i).size))))

def fileData (fs : FileSystem) (p : Nat) : Option (List UInt8) := (firstRecord fs p).map FileContent.data

def LoadsOwn (failing : Nat → Bool) (disk : Disk) (fs : FileSystem) : Prop :=
  (fsLoadFromDisk failing disk fs).2 ≠ 0 ∨
    ∀ p i, (loadedSlots failing disk (List.range 64))[p]? = some i →
      fileData (fsLoadFromDisk failing disk fs).1 p = if hasContent (slotEntry disk i) then some (ownData disk i) else none

def SlotReached (failing : Nat → Bool) (disk : Disk) (a i : Nat) : Prop :=
  failing (fsDataStartLba + i) = false ∧ (disk (fsDataStartLba + i)).getD 0 0 ≠ 0 ∧
    ∀ j, a ≤ j → j < i → failing (fsDataStartLba + j) = true ∨ (disk (fsDataStartLba + j)).getD 0 0 ≠ 0

-- No slot in front of a loaded file with content is unreadable, and no sector of its content.
def ReadsContents (failing : Nat → Bool) (disk : Disk) : Prop :=
  ∀ i < 64, SlotReached failing disk 0 i → hasContent (slotEntry disk i) →
    (∀ j < i, failing (fsDataStartLba + j) = false) ∧
      ∀ s, s * 512 < min (slotEntry disk i).size maxFileSize → failing (contentLba i s) = false

section
variable (failing : Nat → Bool) (disk : Disk)

theorem load_table_slots (slots : List Nat) :
    loadTable failing disk slots = (loadedSlots failing disk slots).map (slotEntry disk) := by
  induction slots with
  | nil => rfl
  | cons i rest ih =>
      rw [loadTable, loadedSlots]
      split
      · exact ih
      · split
        · rfl
        · rw [ih]
          rfl

-- Each unreadable slot in front moves an entry one position down.
theorem loaded_slot (m a p i : Nat) (found : (loadedSlots failing disk (List.range' a m))[p]? = some i) :
    a + p ≤ i ∧ i < a + m ∧ SlotReached failing disk a i ∧
      (i = a + p ↔ ∀ j, a ≤ j → j < i → failing (fsDataStartLba + j) = false) := by
  induction m generalizing a p with
  | zero => cases found
  | succ m ih =>
      rw [List.range'_succ, loadedSlots] at found
      by_cases lost : failing (fsDataStartLba + a) = true
      · rw [if_pos lost] at found
        obtain ⟨behind, inside, ⟨readable, occupied, before⟩, _⟩ := ih (a + 1) p found
        refine ⟨by omega, by omega, ⟨readable, occupied, fun j from' below => ?_⟩, ?_⟩
        · by_cases first : j = a
          · exact Or.inl (first ▸ lost)
          · exact before j (by omega) below
        · refine iff_of_false (by omega) fun all => ?_
          rw [all a (Nat.le_refl a) (by omega)] at lost
          cases lost
      · rw [if_neg lost] at found
        have readable : failing (fsDataStartLba + a) = false := Bool.not_eq_true _ ▸ lost
        by_cases empty : (disk (fsDataStartLba + a)).getD 0 0 = 0
        · rw [if_pos empty] at found
          cases found
        · rw [if_neg empty] at found
          cases p with
          | zero =>
              cases found
              exact ⟨Nat.le_refl _, by omega, ⟨readable, empty, fun j from' below => by omega⟩,
                iff_of_true rfl fun j from' below => by omega⟩
          | succ p =>
              rw [List.getElem?_cons_succ] at found
              obtain ⟨behind, inside, ⟨own, occupied, before⟩, position⟩ := ih (a + 1) p found
              refine ⟨by omega, by omega, ⟨own, occupied, fun j from' below => ?_⟩, ?_⟩
              · by_cases first : j = a
                · exact Or.inr (first ▸ empty)
                · exact before j (by omega) below
              · have shifted : i = a + (p + 1) ↔ i = a + 1 + p := by omega
                rw [shifted, position]
                refine ⟨fun all j from' below => ?_, fun all j from' below => all j (by omega) below⟩
                by_cases first : j = a
                · exact first ▸ readable
                · exact all j (by omega) below

theorem slot_loaded (m a i : Nat) (from' : a ≤ i) (inside : i < a + m) (reached : SlotReached failing disk a i) :
    ∃ p : Nat, (loadedSlots failing disk (List.range' a m))[p]? = some i := by
  induction m generalizing a with
  | zero => omega
  | succ m ih =>
      obtain ⟨readable, occupied, before⟩ := reached
      rw [List.range'_succ, loadedSlots]
      by_cases first : a = i
      · rw [first, if_neg (by rw [readable]; exact Bool.false_ne_true), if_neg occupied]
        exact ⟨0, rfl⟩
      · have further : SlotReached failing disk (a + 1) i :=
          ⟨readable, occupied, fun j later below => before j (by omega) below⟩
        obtain ⟨p, found⟩ := ih (a + 1) (by omega) (by omega) further
        by_cases lost : failing (fsDataStartLba + a) = true
        · rw [if_pos lost]
          exact ⟨p, found⟩
        · have empty := (before a (Nat.le_refl a) (by omega)).resolve_left lost
          rw [if_neg lost, if_neg empty]
          exact ⟨p + 1, found⟩

theorem file_data_loaded (fs : FileSystem) (p i : Nat)
    (found : (loadedSlots failing disk (List.range 64))[p]? = some i) : fileData (fsLoadFromDisk failing disk fs).1 p =
      if hasContent (slotEntry disk i) then
        some (paddedTo maxFileSize (loadData failing disk p (slotEntry disk i).size []
          (List.range (min 16 (sectorsNeeded (slotEntry disk i).size)))))
      else none := by
  have table := load_table_slots failing disk (List.range 64)
  have entry : (loadTable failing disk (List.range 64))[p]? = some (slotEntry disk i) := by
    rw [table, List.getElem?_map, found, Option.map_some]
  have fits := load_table_length failing disk (List.range 64)
  have record : firstRecord (fsLoadFromDisk failing disk fs).1 p = loadContent failing disk (slotEntry disk i) p :=
    load_contents_find failing disk _ p _ fits entry
  rw [fileData, record, loadContent]
  by_cases content : hasContent (slotEntry disk i)
  · rw [if_pos content, if_pos content, Option.map_some]
  · rw [if_neg content, if_neg content, Option.map_none]

theorem loads_own_iff (fs : FileSystem) : LoadsOwn failing disk fs ↔
    ∀ p i, (loadedSlots failing disk (List.range 64))[p]? = some i → hasContent (slotEntry disk i) →
      paddedTo maxFileSize (loadData failing disk p (slotEntry disk i).size []
        (List.range (min 16 (sectorsNeeded (slotEntry disk i).size)))) = ownData disk i := by
  have success : ¬ (fsLoadFromDisk failing disk fs).2 ≠ 0 := fun error => error rfl
  rw [LoadsOwn, or_iff_right success]
  refine forall_congr' fun p => forall_congr' fun i => forall_congr' fun found => ?_
  rw [file_data_loaded failing disk fs p i found]
  by_cases content : hasContent (slotEntry disk i)
  · rw [if_pos content, if_pos content, Option.some.injEq, imp_iff_right content]
  · rw [if_neg content, if_neg content]
    exact iff_of_true rfl fun own => absurd own content

section
variable (sectors : ∀ lba, (disk lba).length = sectorSize) (i size : Nat)
include sectors

theorem load_data_never_length (m : Nat) :
    (loadData never disk i size [] (List.range m)).length = min (min size maxFileSize) (m * 512) := by
  induction m with
  | zero => simp [loadData]
  | succ m ih =>
      rw [List.range_succ, load_data_append, loadData, never, if_neg Bool.false_ne_true, loadData]
      simp only [List.length_take, List.length_append, ih, sectors, sectorSize, maxFileSize]
      omega

theorem load_data_readable (m : Nat)
    (readable : ∀ s < m, s * 512 < min size maxFileSize → failing (contentLba i s) = false) :
    loadData failing disk i size [] (List.range m) = loadData never disk i size [] (List.range m) := by
  induction m with
  | zero => rfl
  | succ m ih =>
      have earlier := ih fun s inside needed => readable s (Nat.lt_succ_of_lt inside) needed
      have length := load_data_never_length disk sectors i size m
      rw [List.range_succ, load_data_append, load_data_append, earlier, loadData, loadData, loadData, loadData]
      by_cases needed : m * 512 < min size maxFileSize
      · rw [readable m (Nat.lt_succ_self m) needed]
        rfl
      · split
        · rw [never, if_neg Bool.false_ne_true]
          generalize loadData never disk i size [] (List.range m) = data at length
          dsimp only
          rw [loadData]
          rw [maxFileSize] at length needed ⊢
          by_cases fits : size ≤ 4096
          · have nothing : size - data.length = 0 := by omega
            rw [nothing, Nat.min_zero, List.take_zero, List.append_nil, List.take_of_length_le (by omega)]
          · exact (List.take_left' (by omega)).symm
        · rfl
end

theorem reads_contents_own (sectors : ∀ lba, (disk lba).length = sectorSize) (fs : FileSystem)
    (reads : ReadsContents failing disk) : LoadsOwn failing disk fs := by
  rw [loads_own_iff]
  intro p i found content
  rw [List.range_eq_range'] at found
  obtain ⟨_, inside, reached, position⟩ := loaded_slot failing disk 64 0 p i found
  obtain ⟨front, own⟩ := reads i (by omega) reached content
  have same : i = p := by
    have shifted := position.mpr fun j _ below => front j below
    omega
  rw [← same, load_data_readable failing disk sectors i _ _ fun s _ needed => own s needed, ownData]
end

def markedData (place : Nat) : List UInt8 := List.replicate place 0 ++ 1 :: List.replicate (maxFileSize - 1 - place) 0

def markedFs (fs : FileSystem) (i size place : Nat) : FileSystem :=
  { fs with fileContents := [⟨i, min size maxFileSize, markedData place⟩] }

theorem marked_length (place : Nat) (inside : place < maxFileSize) : (markedData place).length = maxFileSize := by
  simp only [markedData, List.length_append, List.length_replicate, List.length_cons]
  omega

theorem marked_get (place index : Nat) (nonzero : (markedData place).getD index 0 ≠ 0) : index = place := by
  rw [markedData, List.getD_eq_getElem?_getD, List.getElem?_append, List.length_replicate] at nonzero
  by_cases before : index < place
  · rw [if_pos before, List.getElem?_replicate, if_pos before] at nonzero
    exact absurd rfl nonzero
  · rw [if_neg before] at nonzero
    cases difference : index - place with
    | zero => omega
    | succ rest =>
        rw [difference, List.getElem?_cons_succ, List.getElem?_replicate] at nonzero
        split at nonzero
        · exact absurd rfl nonzero
        · exact absurd rfl nonzero

def Zeros (bytes : List UInt8) : Prop := ∀ byte ∈ bytes, byte = 0

theorem zeros_padded (length : Nat) (bytes : List UInt8) (zeros : Zeros bytes) : Zeros (paddedTo length bytes) := by
  intro byte member
  cases List.mem_append.mp member with
  | inl own => exact zeros byte own
  | inr padding => exact (List.mem_replicate.mp padding).2

theorem marked_sector_zeros (i size place s : Nat) (other : s ≠ place / 512) :
    Zeros (contentSector ⟨i, min size maxFileSize, markedData place⟩ s) := by
  refine zeros_padded _ _ fun byte member => ?_
  obtain ⟨index, here, same⟩ := List.mem_iff_getElem.mp member
  have within : index < 512 ∧ s * 512 + index < (markedData place).length := by
    simp only [List.length_take, List.length_drop] at here
    omega
  rw [List.getElem_take, List.getElem_drop] at same
  by_cases zero : byte = 0
  · exact zero
  · have nonzero : (markedData place).getD (s * 512 + index) 0 ≠ 0 := by
      rw [List.getD_eq_getElem _ _ within.2, same]
      exact zero
    have found := marked_get place _ nonzero
    omega

theorem load_data_zeros (failing : Nat → Bool) (disk : Disk) (i size : Nat) (data : List UInt8) (slots : List Nat)
    (blank : ∀ s ∈ slots, failing (contentLba i s) = true ∨ Zeros (disk (contentLba i s))) (zeros : Zeros data) :
    Zeros (loadData failing disk i size data slots) := by
  induction slots generalizing data with
  | nil => exact zeros
  | cons s rest ih =>
      have later := fun data => ih data fun next member => blank next (List.mem_cons_of_mem _ member)
      rw [loadData]
      split
      · exact later data zeros
      · rename_i readable
        refine later _ fun byte member => ?_
        cases List.mem_append.mp (List.mem_of_mem_take member) with
        | inl own => exact zeros byte own
        | inr read => exact (blank s List.mem_cons_self).resolve_left readable byte (List.mem_of_mem_take read)

theorem take_get (bytes : List UInt8) (count i : Nat) (inside : i < count) : (bytes.take count).getD i 0 = bytes.getD i 0 := by
  rw [List.getD_eq_getElem?_getD, List.getElem?_take_of_lt inside, ← List.getD_eq_getElem?_getD]

theorem loaded_slots_congr (failing : Nat → Bool) (one other : Disk) (slots : List Nat)
    (same : ∀ i ∈ slots, one (fsDataStartLba + i) = other (fsDataStartLba + i)) :
    loadedSlots failing one slots = loadedSlots failing other slots := by
  induction slots with
  | nil => rfl
  | cons i rest ih =>
      rw [loadedSlots, loadedSlots, same i List.mem_cons_self, ih fun j member => same j (List.mem_cons_of_mem _ member)]

theorem saved_slots_same (fs other : FileSystem) (before after : Disk)
    (small : ∀ content ∈ fs.fileContents, content.size ≤ maxFileSize)
    (otherSmall : ∀ content ∈ other.fileContents, content.size ≤ maxFileSize) (table : other.fsTable = fs.fsTable)
    (i : Nat) (inside : i < 64) :
    savedDisk fs before (fsDataStartLba + i) = savedDisk other after (fsDataStartLba + i) := by
  have one := saved_table fs before small
  have two := saved_table other after otherSmall
  by_cases present : i < fs.fsTable.length
  · have found := List.getElem?_eq_getElem present
    have otherFound : other.fsTable[i]? = some fs.fsTable[i] := by rw [table, found]
    rw [one.filled i _ inside found, two.filled i _ inside otherFound]
  · have spare := Nat.le_of_not_lt present
    rw [one.spare i spare inside, two.spare i (table ▸ spare) inside]

section
variable (failing : Nat → Bool) (fs : FileSystem) (before : Disk) (ok : FsOk fs) (i size place : Nat)
  (below : place < min size maxFileSize)

def markedDisk : Disk := savedDisk (markedFs fs i size place) blankDisk

theorem marked_small : ∀ content ∈ (markedFs fs i size place).fileContents, content.size ≤ maxFileSize := by
  intro content member
  rw [List.mem_singleton.mp member]
  exact Nat.min_le_right _ _

include ok below in
theorem marked_ok : FsOk (markedFs fs i size place) := by
  refine ⟨ok.dir, ok.entries, ok.count, ok.users, ok.userCount, fun content member => ?_⟩
  rw [List.mem_singleton.mp member]
  exact marked_length place (Nat.lt_of_lt_of_le below (Nat.min_le_right _ _))

theorem marked_record (k : Nat) : lastRecord (markedFs fs i size place) k =
    if k = i then some ⟨i, min size maxFileSize, markedData place⟩ else none := by
  by_cases own : k = i
  · rw [if_pos own, own]
    exact List.find?_cons_of_pos (decide_eq_true rfl)
  · rw [if_neg own]
    exact List.find?_eq_none.mpr fun content member => by
      rw [List.mem_singleton.mp (List.mem_reverse.mp member)]
      simpa using fun same => own same.symm

include ok below in
theorem marked_own : (paddedTo maxFileSize (loadData never (markedDisk fs i size place) i size []
    (List.range (min 16 (sectorsNeeded size))))).getD place 0 = 1 := by
  have found : lastRecord (markedFs fs i size place) i = some ⟨i, min size maxFileSize, markedData place⟩ := by
    rw [marked_record, if_pos rfl]
  have capacity : place < maxFileSize := Nat.lt_of_lt_of_le below (Nat.min_le_right _ _)
  have wanted : place < size := Nat.lt_of_lt_of_le below (Nat.min_le_left _ _)
  rw [markedDisk, saved_data_whole _ _ (marked_ok fs ok i size place below) (marked_small fs i size place) i size _ found]
  have held : place < ((markedData place).take (min size maxFileSize)).length := by
    rw [List.length_take, marked_length place capacity]
    omega
  have whole : (image ⟨i, min size maxFileSize, markedData place⟩).length = maxFileSize :=
    padded_length _ _ (Nat.le_trans (List.length_take_le _ _) (Nat.min_le_right _ _))
  have front : place < ((image ⟨i, min size maxFileSize, markedData place⟩).take size).length := by
    rw [List.length_take, whole]
    omega
  have mark : (markedData place).getD place 0 = 1 := by
    rw [markedData, List.getD_eq_getElem?_getD, List.getElem?_append_right (by simp)]
    simp
  rw [paddedTo, List.getD_append _ _ _ _ front, take_get _ _ _ wanted, image, paddedTo, List.getD_append _ _ _ _ held,
    take_get _ _ _ below, mark]

include ok below in
theorem marked_read (p : Nat) (lost : p ≠ i ∨ failing (contentLba i (place / 512)) = true) :
    Zeros (loadData failing (markedDisk fs i size place) p size [] (List.range (min 16 (sectorsNeeded size)))) := by
  refine load_data_zeros _ _ _ _ _ _ (fun s member => ?_) (by intro byte; simp)
  have few : s < 16 := Nat.lt_of_lt_of_le (List.mem_range.mp member) (Nat.min_le_left _ _)
  rw [markedDisk, saved_content _ _ (marked_ok fs ok i size place below) (marked_small fs i size place) p s few,
    marked_record]
  by_cases own : p = i
  · by_cases marked : s = place / 512
    · rw [own, marked]
      exact Or.inl (lost.resolve_left fun other => other own)
    · rw [if_pos own]
      exact Or.inr (marked_sector_zeros i size place s marked)
  · rw [if_neg own]
    exact Or.inr fun byte blank => (List.mem_replicate.mp blank).2

include ok below in
theorem marked_wrong (small : ∀ content ∈ fs.fileContents, content.size ≤ maxFileSize) (inside : i < 64)
    (reached : SlotReached failing (savedDisk fs before) 0 i) (content : hasContent (slotEntry (savedDisk fs before) i))
    (length : (slotEntry (savedDisk fs before) i).size = size)
    (lost : (∃ j < i, failing (fsDataStartLba + j) = true) ∨ failing (contentLba i (place / 512)) = true)
    (current : FileSystem) : ¬ LoadsOwn failing (markedDisk fs i size place) current := by
  have same (j : Nat) (slot : j < 64) :
      savedDisk fs before (fsDataStartLba + j) = markedDisk fs i size place (fsDataStartLba + j) :=
    saved_slots_same fs (markedFs fs i size place) before blankDisk small (marked_small fs i size place) rfl j slot
  have entry : slotEntry (markedDisk fs i size place) i = slotEntry (savedDisk fs before) i := by
    rw [slotEntry, slotEntry, same i inside]
  rw [loads_own_iff]
  intro loads
  obtain ⟨p, found⟩ := slot_loaded failing (savedDisk fs before) 64 0 i (Nat.zero_le i) (by omega) reached
  obtain ⟨_, _, _, position⟩ := loaded_slot failing (savedDisk fs before) 64 0 p i found
  rw [← List.range_eq_range', loaded_slots_congr failing _ (markedDisk fs i size place) _ fun j member =>
    same j (List.mem_range.mp member)] at found
  have own := loads p i found (entry ▸ content)
  have moved : p ≠ i ∨ failing (contentLba i (place / 512)) = true := by
    refine lost.imp_left fun skipped here => ?_
    obtain ⟨j, front, unreadable⟩ := skipped
    have readable := position.mp (by omega) j (Nat.zero_le j) front
    rw [unreadable] at readable
    cases readable
  rw [ownData, entry, length] at own
  have mark := marked_own fs ok i size place below
  have zeros := zeros_padded maxFileSize _ (marked_read failing fs ok i size place below p moved)
  rw [← own, List.getD_eq_getElem?_getD] at mark
  cases byte : (paddedTo maxFileSize (loadData failing (markedDisk fs i size place) p size []
      (List.range (min 16 (sectorsNeeded size)))))[place]? with
  | none =>
      rw [byte] at mark
      exact absurd mark (by decide)
  | some value =>
      rw [byte, zeros value (List.mem_of_getElem? byte)] at mark
      exact absurd mark (by decide)
end

def WrongWithOther (failing : Nat → Bool) (fs : FileSystem) : Prop :=
  ∃ other otherDisk, FsOk other ∧ other.fsTable = fs.fsTable ∧ other.userTable = fs.userTable ∧
    fsSaveToDisk never other blankDisk = some (otherDisk, true) ∧ ∀ current, ¬ LoadsOwn failing otherDisk current

theorem unread_contents_wrong (failing : Nat → Bool) (fs : FileSystem) (before disk : Disk) (ok : FsOk fs)
    (done : fsSaveToDisk never fs before = some (disk, true)) (unread : ¬ ReadsContents failing disk) :
    WrongWithOther failing fs := by
  obtain ⟨small, same⟩ := (save_never fs before disk).mp done
  rw [same] at unread
  simp only [ReadsContents, not_forall, exists_prop] at unread
  obtain ⟨i, inside, reached, content, wrong⟩ := unread
  obtain ⟨place, below, lost⟩ : ∃ place < min (slotEntry (savedDisk fs before) i).size maxFileSize,
      (∃ j < i, failing (fsDataStartLba + j) = true) ∨ failing (contentLba i (place / 512)) = true := by
    by_cases front : ∀ j < i, failing (fsDataStartLba + j) = false
    · rw [not_and] at wrong
      have sector := wrong front
      simp only [not_forall, Bool.not_eq_false, exists_prop] at sector
      obtain ⟨s, needed, unreadable⟩ := sector
      refine ⟨s * 512, needed, Or.inr ?_⟩
      rw [Nat.mul_div_cancel s (by decide)]
      exact unreadable
    · simp only [not_forall, Bool.not_eq_false, exists_prop] at front
      exact ⟨0, Nat.lt_min.mpr ⟨content.1, by decide⟩, Or.inl front⟩
  generalize length : (slotEntry (savedDisk fs before) i).size = size at below
  exact ⟨markedFs fs i size place, markedDisk fs i size place, marked_ok fs ok i size place below, rfl, rfl,
    (save_never _ _ _).mpr ⟨marked_small fs i size place, rfl⟩,
    fun current => marked_wrong failing fs before ok i size place below small inside reached content length lost current⟩

theorem saved_sectors (writing : Nat → Bool) (fs : FileSystem) (before disk : Disk) (complete : Bool) (ok : FsOk fs)
    (sectors : ∀ lba, (before lba).length = sectorSize) (done : fsSaveToDisk writing fs before = some (disk, complete))
    (lba : Nat) : (disk lba).length = sectorSize := by
  rcases perform_sectors writing 0 before disk _ complete done lba with same | ⟨write, required, member, _, carried⟩
  · rw [same]
    exact sectors lba
  · rw [carried]
    exact save_write_length fs write (save_actions_write fs write required member) ok.entries ok.users

theorem loads_own_content (failing writing : Nat → Bool) (fs : FileSystem) (before disk : Disk) (complete : Bool)
    (ok : FsOk fs) (sectors : ∀ lba, (before lba).length = sectorSize)
    (done : fsSaveToDisk writing fs before = some (disk, complete)) :
    (ReadsContents failing disk → ∀ current, LoadsOwn failing disk current) ∧
      (writing = never → complete = true → ¬ ReadsContents failing disk → WrongWithOther failing fs) := by
  refine ⟨fun reads current => ?_, fun quiet whole unread => ?_⟩
  · exact reads_contents_own failing disk (saved_sectors writing fs before disk complete ok sectors done) current reads
  · rw [quiet, whole] at done
    exact unread_contents_wrong failing fs before disk ok done unread

def threeOf (byte : UInt8) : List UInt8 := List.replicate 3 byte ++ List.replicate 4093 0

def twoFiles : FileSystem :=
  ⟨rootDir, [⟨ascii "C:\\A", 3, 0, 0x20⟩, ⟨ascii "C:\\B", 3, 0, 0x20⟩], [rootUser], [⟨0, 3, threeOf 65⟩, ⟨1, 3, threeOf 66⟩],
    ascii "root"⟩

theorem two_files_ok : FsOk twoFiles where
  dir := ⟨List.prefix_refl _, by decide, by decide +kernel⟩
  entries := by
    intro entry member
    rcases List.mem_pair.mp member with rfl | rfl
    · exact ⟨⟨by decide, by decide, by decide +kernel⟩, by decide⟩
    · exact ⟨⟨by decide, by decide, by decide +kernel⟩, by decide⟩
  count := by decide
  users := by
    intro user member
    rw [List.mem_singleton.mp member]
    exact root_user_ok
  userCount := by decide
  lengths := by decide +kernel

theorem two_files_saved : fsSaveToDisk never twoFiles blankDisk = some (savedDisk twoFiles blankDisk, true) :=
  (save_never _ _ _).mpr ⟨by decide, rfl⟩

theorem loads_own_content_spare :
    LoadsOwn (fun lba => lba = contentLba 1 1) (savedDisk twoFiles blankDisk) blankFs := by
  refine (loads_own_content _ never twoFiles blankDisk _ true two_files_ok (fun _ => blank_sector_length)
    two_files_saved).1 (fun i inside reached _ => ⟨fun j below => ?_, fun s needed => ?_⟩) blankFs
  · exact decide_eq_false fun same => by
      simp only [contentLba, fsDataStartLba, fsContentStartLba] at same
      omega
  · have sizes : ∀ i < 64, (slotEntry (savedDisk twoFiles blankDisk) i).size ≤ 3 := by decide +kernel
    have small := sizes i inside
    exact decide_eq_false fun same => by
      simp only [contentLba] at same
      omega

theorem loads_not_own_content : ¬ ∀ failing writing fs before disk complete, FsOk fs →
    fsSaveToDisk writing fs before = some (disk, complete) → ∀ current, LoadsOwn failing disk current := by
  intro claimed
  have loads := claimed (fun lba => lba = fsDataStartLba) never twoFiles blankDisk _ true two_files_ok two_files_saved blankFs
  have position : (loadedSlots (fun lba => lba = fsDataStartLba) (savedDisk twoFiles blankDisk) (List.range 64))[0]? =
      some 1 := by decide +kernel
  have own := (loads.resolve_left fun error => error rfl) 0 1 position
  have other : (fileData (fsLoadFromDisk (fun lba => lba = fsDataStartLba) (savedDisk twoFiles blankDisk) blankFs).1 0).map
      (fun data => data.getD 0 0) = some 65 := by decide +kernel
  have stored : hasContent (slotEntry (savedDisk twoFiles blankDisk) 1) ∧
      (ownData (savedDisk twoFiles blankDisk) 1).getD 0 0 = 66 := by decide +kernel
  rw [own, if_pos stored.1, Option.map_some, stored.2] at other
  exact absurd other (by decide)

end RoDos.Fs
