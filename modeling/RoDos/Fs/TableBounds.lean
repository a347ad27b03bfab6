import RoDos.Fs.LoadFailures
import RoDos.Fs.Stores

set_option autoImplicit false

namespace RoDos.Fs

open Base

structure TablesFit (fs : FileSystem) : Prop where
  files : fs.fsTable.length ≤ fsMaxFiles
  users : fs.userTable.length ≤ fsMaxUsers
  contents : fs.fileContents.length ≤ maxContents

def InTables (writes : List TableWrite) : Prop := ∀ write ∈ writes, write.InTable

structure StaysInside (fs : FileSystem) (op : TableOp) : Prop where
  writes : InTables (opStores fs op)
  counts : ∀ tables : Tables, tables.Holds fs → ∀ front, front <+: opStores fs op → (tables.storeAll front).Fits

def duplicated (fs : FileSystem) (args : List UInt8) : Option FileContent :=
  if token args = [] ∨ secondToken args = [] ∨ fsMaxFiles ≤ fs.fsTable.length ∨ maxContents ≤ fs.fileContents.length then
    none
  else (findTyped fs (token args) 0).bind fun i => fs.fileContents.find? fun content => content.fileIdx = i

def CopyFits (fs : FileSystem) : TableOp → Prop
  | .command (.copy args) => ∀ content, duplicated fs args = some content → content.size ≤ maxFileSize
  | _ => True

theorem in_tables_append (front back : List TableWrite) :
    InTables (front ++ back) ↔ InTables front ∧ InTables back := List.forall_mem_append

theorem in_tables_cons (write : TableWrite) (rest : List TableWrite) :
    InTables (write :: rest) ↔ write.InTable ∧ InTables rest := List.forall_mem_cons

theorem in_tables_nil : InTables [] := fun _ member => nomatch member

theorem in_tables_files (writes : List (CellWrite FSEntry)) (inside : ∀ write ∈ writes, write.InCells fsMaxFiles) :
    InTables (writes.map .fsTable) := by
  intro write member
  obtain ⟨cell, cellIn, rfl⟩ := List.mem_map.mp member
  exact inside cell cellIn

theorem in_tables_users (writes : List (CellWrite UserEntry)) (inside : ∀ write ∈ writes, write.InCells fsMaxUsers) :
    InTables (writes.map .userTable) := by
  intro write member
  obtain ⟨cell, cellIn, rfl⟩ := List.mem_map.mp member
  exact inside cell cellIn

theorem data_writes_inside (record length : Nat) (inside : record < maxContents) :
    InTables (dataWrites record length) ↔ length ≤ maxFileSize := by
  constructor
  · intro all
    by_contra long
    have last := all (.data record maxFileSize) (List.mem_map.mpr ⟨_, List.mem_range.mpr (by omega), rfl⟩)
    exact absurd last.2 (Nat.lt_irrefl _)
  · intro short write member
    obtain ⟨place, before, rfl⟩ := List.mem_map.mp member
    exact ⟨inside, Nat.lt_of_lt_of_le (List.mem_range.mp before) short⟩

theorem store_keeps_fits (tables : Tables) (write : TableWrite) (fits : tables.Fits) (inside : write.InTable) :
    (tables.store write).Fits := by
  cases write with
  | fsTable cell => exact ⟨store_fits _ _ cell fits.files inside, fits.users, fits.contents⟩
  | userTable cell => exact ⟨fits.files, store_fits _ _ cell fits.users inside, fits.contents⟩
  | fileContents cell => exact ⟨fits.files, fits.users, store_fits _ _ cell fits.contents inside⟩
  | data record place => exact fits

theorem stores_keep_fits (tables : Tables) (writes : List TableWrite) (fits : tables.Fits) (inside : InTables writes) :
    (tables.storeAll writes).Fits := by
  induction writes generalizing tables with
  | nil => exact fits
  | cons write rest ih =>
      obtain ⟨first, later⟩ := (in_tables_cons write rest).mp inside
      exact ih _ (store_keeps_fits tables write fits first) later

section
variable (fs : FileSystem) (fit : TablesFit fs)

theorem add_inside (entry : FSEntry) (room : fs.fsTable.length < fsMaxFiles) : InTables (addWrites fs entry) :=
  in_tables_files _ (append_in_cells _ _ room entry)

theorem create_named_inside (type attr : UInt8) (args : List UInt8) : InTables (createNamedWrites type attr fs args) := by
  simp only [createNamedWrites]
  split
  · exact in_tables_nil
  split
  · exact in_tables_nil
  rename_i room
  cases fullPath fs.currentDir (token args) with
  | none => exact in_tables_nil
  | some path =>
      rw [Option.elim_some]
      split
      · exact in_tables_nil
      · exact add_inside fs _ (Nat.lt_of_not_le room)

include fit in
theorem remove_found_inside (found : Option Nat) (inside : ∀ i, found = some i → i < fs.fsTable.length) :
    InTables (removeFoundWrites fs found) := by
  cases found with
  | none => exact in_tables_nil
  | some i => exact in_tables_files _ (remove_in_cells _ _ fit.files i (inside i rfl))

include fit in
theorem rmdir_inside (args : List UInt8) : InTables (rmdirWrites fs args) := by
  simp only [rmdirWrites]
  split
  · exact in_tables_nil
  · exact remove_found_inside fs fit _ fun i found => (find_index_lt _ _ _ found).1

include fit in
theorem del_inside (args : List UInt8) : InTables (delWrites fs args) := by
  simp only [delWrites]
  split
  · exact in_tables_nil
  · cases fullPath fs.currentDir (token args) with
    | none => exact in_tables_nil
    | some path => exact remove_found_inside fs fit _ fun i found => (find_index_lt _ _ _ found).1

theorem slot_inside (fileIdx : Nat) (claim record : Nat → List TableWrite) (writes : List TableWrite)
    (fits : fs.fileContents.length ≤ maxContents) (claims : ∀ c < maxContents, InTables (claim c))
    (records : ∀ c < maxContents, InTables (record c)) (slot : slotWrites fs fileIdx claim record = some writes) :
    InTables writes := by
  simp only [slotWrites] at slot
  cases found : findContent fs fileIdx with
  | some c =>
      simp only [found, Option.some.injEq] at slot
      rw [← slot]
      exact records c (Nat.lt_of_lt_of_le (find_index_lt _ _ _ found).1 fits)
  | none =>
      simp only [found] at slot
      split at slot
      · cases slot
      · rename_i room
        have inside := Nat.lt_of_not_le room
        rw [← Option.some.inj slot, List.cons_append, in_tables_cons, in_tables_append]
        exact ⟨⟨by omega, by omega⟩, claims _ inside, records _ inside⟩

theorem nano_record_inside (fileIdx size c : Nat) (inside : c < maxContents) (short : size ≤ maxFileSize) :
    InTables (nanoRecordWrites fileIdx size c) := by
  rw [nanoRecordWrites, in_tables_append, in_tables_cons]
  exact ⟨(data_writes_inside c _ inside).mpr (Nat.le_refl _), inside, (data_writes_inside c _ inside).mpr short⟩
theorem open_inside (found : Option Nat) (path : List UInt8)
    (room : ¬ (found = none ∧ fsMaxFiles ≤ fs.fsTable.length)) : InTables (openWrites fs found path) := by
  rw [openWrites]
  split
  · rename_i fresh
    exact add_inside fs _ (Nat.lt_of_not_le fun full => room ⟨fresh, full⟩)
  · exact in_tables_nil

include fit in
theorem undo_inside (found : Option Nat) : InTables (undoWrites fs found) := by
  have files := fit.files
  rw [undoWrites]
  split
  · rw [in_tables_cons]
    exact ⟨⟨by omega, by omega⟩, in_tables_nil⟩
  · exact in_tables_nil

theorem size_inside (i size : Nat) (inside : i < fsMaxFiles) : (sizeWrite i size).InTable := inside

include fit in
theorem found_inside (found : Option Nat) (room : ¬ (found = none ∧ fsMaxFiles ≤ fs.fsTable.length))
    (inside : ∀ i, found = some i → i < fs.fsTable.length) : found.getD fs.fsTable.length < fsMaxFiles := by
  cases found with
  | none => exact Nat.lt_of_not_le fun full => room ⟨rfl, full⟩
  | some i => exact Nat.lt_of_lt_of_le (inside i rfl) fit.files

include fit in
theorem nano_inside (args : List UInt8) (memory : Bool) (keys : List UInt16) : InTables (nanoWrites fs args memory keys) := by
  simp only [nanoWrites]
  split
  · exact in_tables_nil
  cases fullPath fs.currentDir (token args) with
  | none => exact in_tables_nil
  | some path =>
      rw [Option.elim_some]
      have place (i : Nat) (found : findTyped fs path 0 = some i) : i < fs.fsTable.length := (find_index_lt _ _ _ found).1
      generalize findTyped fs path 0 = found at place ⊢
      by_cases room : found = none ∧ fsMaxFiles ≤ fs.fsTable.length
      · rw [if_pos room]
        exact in_tables_nil
      rw [if_neg room]
      have created := open_inside fs found path room
      have undone := (in_tables_append _ _).mpr ⟨created, undo_inside fs fit found⟩
      split
      · exact undone
      cases typed : nanoEdit (nanoLoad fs (found.getD fs.fsTable.length)) keys with
      | none => exact created
      | some edited =>
          have short := nano_edit_length _ keys edited (nano_load_length fs _) typed
          rw [Option.elim_some]
          split
          · exact undone
          split
          · exact undone
          · rename_i record slot
            have recorded := slot_inside fs _ _ _ record fit.contents (fun _ _ => in_tables_nil)
              (fun c inside => nano_record_inside _ _ c inside (Nat.le_trans short (Nat.sub_le _ _))) slot
            rw [in_tables_append, in_tables_append, in_tables_cons]
            exact ⟨created, recorded, size_inside _ _ (found_inside fs fit found room place), in_tables_nil⟩

include fit in
theorem save_file_content_inside (filename data : List UInt8) : InTables (saveFileContentWrites fs filename data) := by
  simp only [saveFileContentWrites]
  cases contentPath fs filename with
  | none => exact in_tables_nil
  | some path =>
      rw [Option.elim_some]
      have place (i : Nat) (found : findEntry fs path = some i) : i < fs.fsTable.length := (find_index_lt _ _ _ found).1
      generalize findEntry fs path = found at place ⊢
      by_cases room : found = none ∧ fsMaxFiles ≤ fs.fsTable.length
      · rw [if_pos room]
        exact in_tables_nil
      rw [if_neg room, in_tables_append, in_tables_cons]
      refine ⟨?_, size_inside _ _ (found_inside fs fit found room place), ?_⟩
      · split
        · rename_i fresh
          have inside : fs.fsTable.length < fsMaxFiles := Nat.lt_of_not_le fun full => room ⟨fresh, full⟩
          rw [in_tables_cons, in_tables_cons]
          exact ⟨⟨by omega, by omega⟩, inside, in_tables_nil⟩
        · exact in_tables_nil
      · cases slot : slotWrites fs (found.getD fs.fsTable.length) _ _ with
        | none => exact in_tables_nil
        | some writes =>
            refine slot_inside fs _ _ _ writes fit.contents (fun c inside => ?_) (fun c inside => ?_) slot
            · rw [in_tables_cons]
              exact ⟨inside, in_tables_nil⟩
            · rw [in_tables_append, in_tables_cons]
              exact ⟨(data_writes_inside c _ inside).mpr (Nat.min_le_right _ _), inside, in_tables_nil⟩

theorem copy_content_inside (src dst : Nat) :
    InTables (copyContentWrites fs src dst) ↔ fs.fileContents.length < maxContents →
      ∀ content, (fs.fileContents.find? fun content => content.fileIdx = src) = some content →
        content.size ≤ maxFileSize := by
  simp only [copyContentWrites]
  cases found : fs.fileContents.find? fun content => content.fileIdx = src with
  | none => exact iff_of_true in_tables_nil (by simp)
  | some content =>
      dsimp only
      by_cases room : fs.fileContents.length < maxContents
      · rw [if_pos room, in_tables_cons, in_tables_append, in_tables_cons, data_writes_inside _ _ room,
          imp_iff_right room]
        constructor
        · intro inside other same
          exact Option.some.inj same ▸ inside.2.1
        · intro small
          exact ⟨room, small content rfl, ⟨by omega, by omega⟩, in_tables_nil⟩
      · rw [if_neg room]
        exact iff_of_true in_tables_nil fun inside => absurd inside room

theorem copy_inside (args : List UInt8) :
    InTables (copyWrites fs args) ↔ ∀ content, duplicated fs args = some content → content.size ≤ maxFileSize := by
  simp only [copyWrites, duplicated]
  by_cases empty : token args = [] ∨ secondToken args = []
  · rw [if_pos empty, if_pos (by tauto)]
    exact iff_of_true in_tables_nil (by simp)
  rw [if_neg empty]
  cases found : findTyped fs (token args) 0 with
  | none =>
      simp only [Option.bind_none, ite_self]
      exact iff_of_true in_tables_nil (by simp)
  | some i =>
      dsimp only
      by_cases full : fsMaxFiles ≤ fs.fsTable.length
      · rw [if_pos full, if_pos (by tauto)]
        exact iff_of_true in_tables_nil (by simp)
      rw [if_neg full, in_tables_append, copy_content_inside, Option.bind_some]
      have added := add_inside fs
        ⟨storedName (secondToken args), (fs.fsTable.getD i ⟨[], 0, 0, 0⟩).size, 0, (fs.fsTable.getD i ⟨[], 0, 0, 0⟩).attr⟩
        (Nat.lt_of_not_le full)
      by_cases room : fs.fileContents.length < maxContents
      · rw [if_neg (by rw [not_or, not_or, not_or]; rw [not_or] at empty; exact ⟨empty.1, empty.2, full, by omega⟩)]
        exact ⟨fun inside => inside.2 room, fun small => ⟨added, fun _ => small⟩⟩
      · rw [if_pos (Or.inr (Or.inr (Or.inr (Nat.le_of_not_lt room))))]
        exact iff_of_true ⟨added, fun inside => absurd inside room⟩ (by simp)

include fit in
theorem change_inside (i : Nat) (f : FSEntry → FSEntry) (inside : i < fs.fsTable.length) :
    InTables [.fsTable (.change i f)] := by
  rw [in_tables_cons]
  exact ⟨Nat.lt_of_lt_of_le inside fit.files, in_tables_nil⟩

include fit in
theorem move_inside (args : List UInt8) : InTables (moveWrites fs args) := by
  simp only [moveWrites]
  split
  · exact in_tables_nil
  split
  · rename_i i found
    exact change_inside fs fit i _ (find_index_lt _ _ _ found).1
  · exact in_tables_nil

include fit in
theorem chmod_inside (args : List UInt8) : InTables (chmodWrites fs args) := by
  simp only [chmodWrites]
  split
  · exact in_tables_nil
  split
  · rename_i i found
    exact change_inside fs fit i _ (find_index_lt _ _ _ found).1
  · exact in_tables_nil

theorem format_inside (k : UInt16) : InTables (formatWrites k) := by
  rw [formatWrites]
  split
  · rw [in_tables_cons, in_tables_cons]
    exact ⟨⟨Int.le_refl 0, by omega⟩, ⟨Int.le_refl 0, by omega⟩, in_tables_nil⟩
  · exact in_tables_nil

theorem useradd_inside (args : List UInt8) : InTables (useraddWrites fs args) := by
  simp only [useraddWrites]
  split
  · exact in_tables_nil
  split
  · exact in_tables_nil
  rename_i room
  split
  · exact in_tables_nil
  · exact in_tables_users _ (append_in_cells _ _ (Nat.lt_of_not_le room) _)

include fit in
theorem userdel_inside (args : List UInt8) : InTables (userdelWrites fs args) := by
  simp only [userdelWrites]
  split
  · exact in_tables_nil
  split
  · rename_i i found
    exact in_tables_users _ (remove_in_cells _ _ fit.users i (find_index_lt _ _ _ found).1)
  · exact in_tables_nil

include fit in
theorem passwd_inside (args : List UInt8) (keys : List UInt16) : InTables (passwdWrites fs args keys) := by
  simp only [passwdWrites]
  split
  · exact in_tables_nil
  · rename_i i found
    cases readPassword [] keys with
    | none => exact in_tables_nil
    | some pwd =>
        rw [Option.elim_some, in_tables_cons]
        exact ⟨Nat.lt_of_lt_of_le (find_index_lt _ _ _ found).1 fit.users, in_tables_nil⟩

include fit in
theorem wget_inside (outputFile body : List UInt8) : InTables (wgetWrites fs outputFile body) := by
  simp only [wgetWrites]
  split
  · exact in_tables_nil
  · exact save_file_content_inside fs fit _ _

theorem reset_inside : InTables resetWrites := by
  rw [resetWrites, in_tables_cons, in_tables_cons, in_tables_cons]
  refine ⟨⟨Int.le_refl 0, by omega⟩, ⟨Int.le_refl 0, by omega⟩, ⟨Int.le_refl 0, by omega⟩, fun write member => ?_⟩
  obtain ⟨c, before, stored⟩ := List.mem_flatMap.mp member
  have inside := List.mem_range.mp before
  have all : InTables (.fileContents (.change c fun _ => ⟨0, 0⟩) :: dataWrites c maxFileSize) :=
    (in_tables_cons _ _).mpr ⟨inside, (data_writes_inside c _ inside).mpr (Nat.le_refl _)⟩
  exact all write stored

theorem records_inside (failing : Nat → Bool) (disk : Disk) (contents : List FileContent) (c : Nat)
    (room : c + contents.length ≤ maxContents) : InTables (recordsWrites failing disk c contents) := by
  induction contents generalizing c with
  | nil => exact in_tables_nil
  | cons content rest ih =>
      rw [List.length_cons] at room
      have inside : c < maxContents := by omega
      have read := load_data_length failing disk content.fileIdx content.size [] (List.range (sectorsRead content.size))
        (Nat.zero_le _)
      rw [recordsWrites, in_tables_append, in_tables_cons, in_tables_append, in_tables_cons]
      exact ⟨⟨inside, (data_writes_inside c _ inside).mpr (Nat.le_refl _), (data_writes_inside c _ inside).mpr read⟩,
        ⟨by omega, by omega⟩, ih (c + 1) (by omega)⟩

theorem boot_inside (failing : Nat → Bool) (disk : Disk) : InTables (bootWrites failing disk) := by
  have files := load_table_length failing disk (List.range 64)
  have users := load_users_length failing disk (List.range 5)
  have contents : (loadContents failing disk (loadTable failing disk (List.range 64))).length ≤ maxContents :=
    List.length_take_le _ _
  rw [List.length_range] at files users
  simp only [bootWrites]
  rw [in_tables_append, in_tables_append, in_tables_append, in_tables_append, in_tables_cons, in_tables_cons, in_tables_cons]
  refine ⟨⟨⟨⟨reset_inside, ⟨Int.le_refl 0, by omega⟩, in_tables_files _ (fill_in_cells _ _ _ ?_)⟩,
    ⟨Int.le_refl 0, by omega⟩, in_tables_users _ (fill_in_cells _ _ _ ?_)⟩,
    ⟨Int.le_refl 0, by omega⟩, records_inside _ _ _ _ ?_⟩, ?_⟩
  · rw [fsMaxFiles]
    omega
  · rw [fsMaxUsers]
    omega
  · rw [Nat.zero_add]
    exact contents
  · split
    · exact in_tables_users _ (append_in_cells _ _ (by decide) _)
    · exact in_tables_nil

include fit in
theorem op_inside (op : TableOp) : InTables (opStores fs op) ↔ CopyFits fs op := by
  cases op with
  | boot failing disk => exact iff_of_true (boot_inside failing disk) trivial
  | command command =>
      cases command with
      | copy args => exact copy_inside fs args
      | mkdir args => exact iff_of_true (create_named_inside fs _ _ args) trivial
      | rmdir args => exact iff_of_true (rmdir_inside fs fit args) trivial
      | touch args => exact iff_of_true (create_named_inside fs _ _ args) trivial
      | del args => exact iff_of_true (del_inside fs fit args) trivial
      | nano args memory keys => exact iff_of_true (nano_inside fs fit args memory keys) trivial
      | move args => exact iff_of_true (move_inside fs fit args) trivial
      | chmod args => exact iff_of_true (chmod_inside fs fit args) trivial
      | format k => exact iff_of_true (format_inside k) trivial
      | useradd args => exact iff_of_true (useradd_inside fs args) trivial
      | userdel args => exact iff_of_true (userdel_inside fs fit args) trivial
      | passwd args keys => exact iff_of_true (passwd_inside fs fit args keys) trivial
      | wget outputFile body => exact iff_of_true (wget_inside fs fit outputFile body) trivial
      | cd args => exact iff_of_true in_tables_nil trivial
      | cat args => exact iff_of_true in_tables_nil trivial
      | login args => exact iff_of_true in_tables_nil trivial
      | logout => exact iff_of_true in_tables_nil trivial

theorem holding_fits (tables : Tables) (held : tables.Holds fs) : tables.Fits ↔ TablesFit fs := by
  have files := held.files.1
  have users := held.users.1
  have contents := held.contents.1
  rw [List.length_map] at contents
  constructor
  · intro fits
    have filesFit := fits.files.2
    have usersFit := fits.users.2
    have contentsFit := fits.contents.2
    exact ⟨by omega, by omega, by omega⟩
  · intro small
    refine ⟨holds_fits _ _ _ held.files small.files, holds_fits _ _ _ held.users small.users,
      holds_fits _ _ _ held.contents ?_⟩
    rw [List.length_map]
    exact small.contents

def tablesOf : Tables :=
  ⟨Counted.ofList fs.fsTable ⟨[], 0, 0, 0⟩, Counted.ofList fs.userTable ⟨[], []⟩,
    Counted.ofList (fs.fileContents.map recordHead) ⟨0, 0⟩⟩

theorem tables_of_holds : (tablesOf fs).Holds fs := ⟨of_list_holds _ _, of_list_holds _ _, of_list_holds _ _⟩

include fit in
theorem stays_inside_iff (op : TableOp) : StaysInside fs op ↔ CopyFits fs op := by
  rw [← op_inside fs fit op]
  constructor
  · exact fun stays => stays.writes
  · intro inside
    refine ⟨inside, fun tables held front part => stores_keep_fits tables front ((holding_fits fs tables held).mpr fit) ?_⟩
    exact fun write member => inside write (part.subset member)

theorem name_arrays_fit : TablesFit (nameArrays fs) ↔ TablesFit fs := by
  constructor
  all_goals
    intro small
    exact ⟨by simpa only [nameArrays, List.length_map] using small.files,
      by simpa only [nameArrays, List.length_map] using small.users, small.contents⟩

-- The arrays that the stores of a step leave are the tables of the next state.
include fit in
theorem tables_fit_kept (next : FileSystem) (op : TableOp) (copies : CopyFits fs op) (taken : TableStep fs op next) :
    TablesFit next := by
  obtain ⟨stored, step, arrays⟩ := taken
  have held := tables_of_holds fs
  have follows := op_follows (tablesOf fs) fs stored held op step
  have inside := (op_inside fs fit op).mpr copies
  have fits := (holding_fits fs _ held).mpr fit
  have kept := (holding_fits stored _ follows).mp (stores_keep_fits _ _ fits inside)
  rw [← name_arrays_fit, arrays, name_arrays_fit]
  exact kept
end

theorem tables_stay_inside (fs : FileSystem) (run : Run (· = blankFs) TableStep CopyFits fs) :
    TablesFit fs ∧ ∀ op, StaysInside fs op ↔ CopyFits fs op := by
  have fit := run_invariant TablesFit (fun fs (start : fs = blankFs) => start ▸ ⟨by decide, by decide, by decide⟩)
    (fun fs next op fit copies taken => tables_fit_kept fs fit next op copies taken) fs run
  exact ⟨fit, stays_inside_iff fs fit⟩

def oneEntry (size : Nat) : Disk := fun lba =>
  if lba = fsDataStartLba then entrySector ⟨ascii "C:\\A", size, 0, 0x20⟩ else blankSector

def copyAB : TableOp := .command (.copy (ascii "C:\\A B"))

theorem one_entry_booted (guard : FileSystem → TableOp → Prop) (size : Nat)
    (admitted : guard blankFs (.boot never (oneEntry size))) :
    Run (· = blankFs) TableStep guard (fsInitCommands never (oneEntry size)) :=
  .step blankFs _ (.boot never (oneEntry size)) (.start blankFs rfl) admitted ⟨_, rfl, rfl⟩

theorem tables_stay_inside_full : TablesFit (fsInitCommands never (oneEntry 4096)) ∧
    StaysInside (fsInitCommands never (oneEntry 4096)) copyAB := by
  have bounds := tables_stay_inside _ (one_entry_booted CopyFits 4096 trivial)
  refine ⟨bounds.1, (bounds.2 copyAB).mpr fun content found => ?_⟩
  have size : (duplicated (fsInitCommands never (oneEntry 4096)) (ascii "C:\\A B")).all (·.size ≤ maxFileSize) = true := by
    decide +kernel
  rw [found] at size
  exact of_decide_eq_true size

-- The size of the entry on the disk is the size of the record, whatever a record can hold.
theorem tables_do_not_stay_inside : ¬ ∀ fs, Run (· = blankFs) TableStep (fun _ _ => True) fs →
    TablesFit fs ∧ ∀ op, StaysInside fs op := by
  intro claimed
  obtain ⟨fit, inside⟩ := claimed _ (one_entry_booted (fun _ _ => True) 1000000 trivial)
  have copies := (stays_inside_iff _ fit copyAB).mp (inside copyAB)
  have large : (duplicated (fsInitCommands never (oneEntry 1000000)) (ascii "C:\\A B")).any (maxFileSize < ·.size) = true := by
    decide +kernel
  obtain ⟨content, found, size⟩ := (Option.any_eq_true _ _).mp large
  exact absurd (copies content found) (Nat.not_le_of_lt (of_decide_eq_true size))

end RoDos.Fs
