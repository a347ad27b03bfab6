import RoDos.Fs.Copying

set_option autoImplicit false

namespace RoDos.Fs

open Base

def IsFile (fs : FileSystem) (i : Nat) : Prop := (fs.fsTable[i]?).map FSEntry.type = some 0

structure SaveMade (fs next : FileSystem) (path data : List UInt8) (i : Nat) : Prop where
  found : findEntry next path = some i
  file : IsFile next i
  size : sizeAt next i = min data.length maxFileSize
  recorded : recordedSize next i = min data.length maxFileSize
  content : contentOf next i = some (data.take maxFileSize)
  others : OthersKept fs next i

def SaveKept (fs : FileSystem) (filename data : List UInt8) : Prop :=
  ∃ path result, contentPath fs filename = some path ∧ saveFileContent fs filename data = some result ∧
    ((result.2 = 0 ∧ ∃ i, SaveMade fs result.1 path data i) ∨ (result.2 = -1 ∧ result.1 = fs))

def Storable (fs : FileSystem) (i : Nat) : Prop := findContent fs i ≠ none ∨ HasRoom fs

-- With a record the data has to fit it, and the path of a new file the name array; without one the
-- size in the table has to be the new one already. A directory of the name takes the save as a file does.
def SaveClean (fs : FileSystem) (path data : List UInt8) : Prop :=
  match findEntry fs path with
  | some i => (IsFile fs i ∧ Storable fs i ∧ data.length ≤ maxFileSize) ∨ (¬ Storable fs i ∧ sizeAt fs i = data.length)
  | none => fsMaxFiles ≤ fs.fsTable.length ∨
      (Storable fs fs.fsTable.length ∧ data.length ≤ maxFileSize ∧ path.length < fsMaxFilename)

theorem put_content_storable (fs : FileSystem) (i size : Nat) (data : List UInt8 → List UInt8) :
    (∃ next, putContent fs i data size = some next) ↔ Storable fs i := by
  rw [← Option.isSome_iff_exists, put_content_room, Bool.or_eq_true, Option.isSome_iff_ne_none, decide_eq_true_iff]
  rfl

theorem is_file_set_size (fs : FileSystem) (i size : Nat) : IsFile (setSize fs i size) i ↔ IsFile fs i := by
  rw [IsFile, IsFile, setSize, List.getElem?_modify_eq]
  cases fs.fsTable[i]? <;> rfl

theorem is_file_added (fs : FileSystem) (entry : FSEntry) (file : entry.type = 0) :
    IsFile (addEntry fs entry) fs.fsTable.length := by
  rw [IsFile, addEntry, List.getElem?_append_right (Nat.le_refl _), Nat.sub_self]
  exact congrArg some file

def keptData (data old : List UInt8) : List UInt8 :=
  data.take maxFileSize ++ old.drop (data.take maxFileSize).length

theorem kept_data (data : List UInt8) :
    (fun old => data.take maxFileSize ++ old.drop (data.take maxFileSize).length) = keptData data := rfl

theorem kept_data_take (data old : List UInt8) :
    (keptData data old).take (data.take maxFileSize).length = data.take maxFileSize := List.take_left' rfl

section
variable (fs : FileSystem) (filename data path : List UInt8) (built : contentPath fs filename = some path)
include built

theorem save_old (i : Nat) (found : findEntry fs path = some i) : saveFileContent fs filename data =
    some ((putContent (setSize fs i data.length) i (keptData data) (data.take maxFileSize).length).elim
      (setSize fs i data.length, -1) fun written => (written, 0)) := by
  simp only [saveFileContent, built, Option.bind_some, found, reduceCtorEq, false_and, if_false, Option.getD_some]
  rw [kept_data]
  cases putContent (setSize fs i data.length) i (keptData data) _ <;> rfl

theorem save_new (absent : findEntry fs path = none) (space : fs.fsTable.length < fsMaxFiles) :
    saveFileContent fs filename data =
      some ((putContent (addEntry fs ⟨storedName path, data.length, 0, 0⟩) fs.fsTable.length (keptData data)
        (data.take maxFileSize).length).elim
        (addEntry fs ⟨storedName path, data.length, 0, 0⟩, -1) fun written => (written, 0)) := by
  simp only [saveFileContent, built, Option.bind_some, absent, true_and, if_neg (Nat.not_le.mpr space), if_true,
    Option.getD_none, set_size_added]
  rw [kept_data]
  cases putContent (addEntry fs ⟨storedName path, data.length, 0, 0⟩) fs.fsTable.length (keptData data) _ <;> rfl

theorem save_kept_result (result : FileSystem × Int) (saves : saveFileContent fs filename data = some result) :
    SaveKept fs filename data ↔
      (result.2 = 0 ∧ ∃ i, SaveMade fs result.1 path data i) ∨ (result.2 = -1 ∧ result.1 = fs) := by
  constructor
  · rintro ⟨other, done, same, stored, kept⟩
    cases built.symm.trans same
    cases saves.symm.trans stored
    exact kept
  · exact fun kept => ⟨path, result, built, saves, kept⟩
end

theorem save_made_iff (fs opened written : FileSystem) (path data : List UInt8) (i : Nat)
    (put : putContent opened i (keptData data) (data.take maxFileSize).length = some written)
    (size : sizeAt opened i = data.length) (others : ∀ other, other < fs.fsTable.length → other ≠ i →
      opened.fsTable[other]? = fs.fsTable[other]?) (contents : opened.fileContents = fs.fileContents)
    (only : ∀ k, findEntry opened path = some k → k = i) :
    (∃ k, SaveMade fs written path data k) ↔
      findEntry opened path = some i ∧ IsFile opened i ∧ data.length ≤ maxFileSize := by
  obtain ⟨table, _, records⟩ := put_content_record _ _ _ _ _ put
  obtain ⟨content, recorded⟩ := put_content_written _ _ _ _ _ (data.take maxFileSize) (List.length_take_le _ _)
    (kept_data_take data) put
  have found : findEntry written path = findEntry opened path := by rw [findEntry, table, findEntry]
  have sized : sizeAt written i = data.length := by rw [← size, sizeAt, table, sizeAt]
  have typed : IsFile written i ↔ IsFile opened i := by rw [IsFile, table, IsFile]
  rw [List.length_take, Nat.min_comm] at recorded
  constructor
  · rintro ⟨k, made⟩
    have there := found.symm.trans made.found
    cases only k there
    have whole := sized.symm.trans made.size
    exact ⟨there, typed.mp made.file, by omega⟩
  · rintro ⟨there, file, fits⟩
    refine ⟨i, found.trans there, typed.mpr file, sized.trans (Nat.min_eq_left fits).symm, recorded, content, fun other old different => ?_⟩
    rw [table]
    refine ⟨others other old different, content_of_same _ _ _ ((records other different).trans ?_)⟩
    rw [recordOf, contents, recordOf]

section
variable (fs : FileSystem) (filename data path : List UInt8) (built : contentPath fs filename = some path)
include built

theorem save_old_iff (i : Nat) (found : findEntry fs path = some i) : SaveKept fs filename data ↔
    (IsFile fs i ∧ Storable fs i ∧ data.length ≤ maxFileSize) ∨ (¬ Storable fs i ∧ sizeAt fs i = data.length) := by
  have inside := find_entry_lt fs path i found
  have room := put_content_storable (setSize fs i data.length) i (data.take maxFileSize).length (keptData data)
  rw [save_kept_result fs filename data path built _ (save_old fs filename data path built i found)]
  cases put : putContent (setSize fs i data.length) i (keptData data) (data.take maxFileSize).length with
  | none =>
      have full : ¬ Storable fs i := fun storable => by
        obtain ⟨next, made⟩ := room.mpr storable
        rw [put] at made
        cases made
      simp [full, set_size_same fs i data.length inside]
  | some written =>
      have storable : Storable fs i := room.mp ⟨written, put⟩
      have there : findEntry (setSize fs i data.length) path = some i := by rw [find_entry_set_size, found]
      have made := save_made_iff fs _ written path data i put (size_at_set_size fs i data.length inside)
        (fun other _ different => set_size_other fs i data.length other different) rfl
        (fun k same => (Option.some.inj (there.symm.trans same)).symm)
      simp [storable, made, there, is_file_set_size]

theorem save_new_iff (absent : findEntry fs path = none) (space : fs.fsTable.length < fsMaxFiles) :
    SaveKept fs filename data ↔
      Storable fs fs.fsTable.length ∧ data.length ≤ maxFileSize ∧ path.length < fsMaxFilename := by
  have room := put_content_storable (addEntry fs ⟨storedName path, data.length, 0, 0⟩) fs.fsTable.length
    (data.take maxFileSize).length (keptData data)
  rw [save_kept_result fs filename data path built _ (save_new fs filename data path built absent space)]
  cases put : putContent (addEntry fs ⟨storedName path, data.length, 0, 0⟩) fs.fsTable.length (keptData data)
      (data.take maxFileSize).length with
  | none =>
      have full : ¬ Storable fs fs.fsTable.length := fun storable => by
        obtain ⟨next, made⟩ := room.mpr storable
        rw [put] at made
        cases made
      have changed : addEntry fs ⟨storedName path, data.length, 0, 0⟩ ≠ fs := fun same => by
        have longer := congrArg (fun state => state.fsTable.length) same
        rw [addEntry, List.length_append] at longer
        exact absurd longer (by simp)
      simp [full, changed]
  | some written =>
      have storable : Storable fs fs.fsTable.length := room.mp ⟨written, put⟩
      have last : findEntry (addEntry fs ⟨storedName path, data.length, 0, 0⟩) path = some fs.fsTable.length ↔
          path.length < fsMaxFilename := by
        rw [find_entry_last, and_iff_right absent, storedName, List.take_eq_self_iff, fsMaxFilename]
        omega
      have made := save_made_iff fs _ written path data fs.fsTable.length put (size_at_add_new fs _)
        (fun other old _ => List.getElem?_append_left old) rfl
        (fun k found => find_entry_add_new fs _ path k absent found)
      have file : IsFile (addEntry fs ⟨storedName path, data.length, 0, 0⟩) fs.fsTable.length := is_file_added fs _ rfl
      simp [storable, made, last, file, and_comm]
end

end RoDos.Fs
