import RoDos.Fs.Outcome
import RoDos.Fs.Tables

set_option autoImplicit false

namespace RoDos.Fs

open Base

section
variable (tables : Tables)

theorem tables_store_append (front back : List TableWrite) :
    tables.storeAll (front ++ back) = (tables.storeAll front).storeAll back := List.foldl_append

theorem tables_store_cons (write : TableWrite) (rest : List TableWrite) :
    tables.storeAll (write :: rest) = (tables.store write).storeAll rest := rfl

theorem store_files (writes : List (CellWrite FSEntry)) :
    tables.storeAll (writes.map .fsTable) = { tables with fsTable := tables.fsTable.storeAll writes } := by
  induction writes generalizing tables with
  | nil => rfl
  | cons write rest ih => exact ih (tables.store (.fsTable write))

theorem store_users (writes : List (CellWrite UserEntry)) :
    tables.storeAll (writes.map .userTable) = { tables with userTable := tables.userTable.storeAll writes } := by
  induction writes generalizing tables with
  | nil => rfl
  | cons write rest ih => exact ih (tables.store (.userTable write))

theorem store_data (record length : Nat) : tables.storeAll (dataWrites record length) = tables := by
  rw [dataWrites]
  induction List.range length with
  | nil => rfl
  | cons place rest ih => exact ih
end

theorem heads_modify (contents : List FileContent) (c : Nat) (resized : RecordHead → RecordHead)
    (f : FileContent → FileContent)
    (same : ∀ content, contents[c]? = some content → resized (recordHead content) = recordHead (f content)) :
    (contents.map recordHead).modify c resized = (contents.modify c f).map recordHead := by
  refine List.ext_getElem? fun i => ?_
  rw [List.getElem?_modify, List.getElem?_map, List.getElem?_map, List.getElem?_modify]
  cases found : contents[i]? with
  | none => rfl
  | some content =>
      by_cases here : c = i
      · simp only [if_pos here, Option.map_some, Option.map_eq_map, same content (here ▸ found)]
      · simp only [if_neg here, Option.map_some, Option.map_eq_map]

theorem nano_record_stores (fileIdx size c : Nat) (start : Tables) :
    start.storeAll (nanoRecordWrites fileIdx size c) =
      { start with fileContents := start.fileContents.store (.change c fun _ => ⟨fileIdx, size⟩) } := by
  rw [nanoRecordWrites, tables_store_append, store_data, tables_store_cons, store_data]
  rfl

theorem save_record_stores (kept c : Nat) (start : Tables) :
    start.storeAll (dataWrites c kept ++ [.fileContents (.change c fun head => { head with size := kept })]) =
      { start with fileContents := start.fileContents.store (.change c fun head => { head with size := kept }) } := by
  rw [tables_store_append, store_data]
  rfl

theorem save_claim_stores (idx kept c : Nat) (start : Tables) :
    start.storeAll ([.fileContents (.change c fun head => { head with fileIdx := idx })] ++
        (dataWrites c kept ++ [.fileContents (.change c fun head => { head with size := kept })])) =
      { start with fileContents := start.fileContents.store (.change c fun _ => ⟨idx, kept⟩) } := by
  rw [tables_store_append, save_record_stores]
  simp only [Tables.storeAll, List.foldl_cons, List.foldl_nil, Tables.store, Counted.store, Function.update_self,
    Function.update_idem]

-- Each command's stores turn arrays that hold its tables into arrays that hold what it leaves.
section
variable (tables : Tables) (fs : FileSystem) (held : tables.Holds fs) (update : Update)
include held

theorem unsaved_follows (code : Int) (done : unsaved fs code = some update) : (tables.storeAll []).Holds update.fs := by
  cases done
  exact held

theorem add_follows (entry : FSEntry) : (tables.storeAll (addWrites fs entry)).Holds (addEntry fs entry) := by
  rw [addWrites, store_files]
  exact ⟨append_holds _ _ held.files entry, held.users, held.contents⟩

theorem size_follows (i size : Nat) : (tables.store (sizeWrite i size)).Holds (setSize fs i size) :=
  ⟨change_holds _ _ held.files i _, held.users, held.contents⟩

theorem create_named_follows (type attr : UInt8) (present : Int) (args : List UInt8)
    (done : createNamed type attr present fs args = some update) :
    (tables.storeAll (createNamedWrites type attr fs args)).Holds update.fs := by
  simp only [createNamed, createNamedWrites] at done ⊢
  by_cases empty : token args = []
  · rw [if_pos empty] at done ⊢
    exact unsaved_follows tables fs held update _ done
  rw [if_neg empty] at done ⊢
  by_cases full : fsMaxFiles ≤ fs.fsTable.length
  · rw [if_pos full] at done ⊢
    exact unsaved_follows tables fs held update _ done
  rw [if_neg full] at done ⊢
  obtain ⟨path, built, done⟩ := Option.bind_eq_some_iff.mp done
  rw [built, Option.elim_some]
  by_cases used : (findEntry fs path).isSome = true
  · rw [if_pos used] at done ⊢
    exact unsaved_follows tables fs held update _ done
  · rw [if_neg used] at done ⊢
    rw [saved_fs _ _ done]
    exact add_follows tables fs held _

theorem remove_found_follows (found : Option Nat) (inside : ∀ i, found = some i → i < fs.fsTable.length)
    (done : removeFound fs found = some update) : (tables.storeAll (removeFoundWrites fs found)).Holds update.fs := by
  cases found with
  | none => exact unsaved_follows tables fs held update _ done
  | some i =>
      rw [saved_fs (removeAt fs i) update done, removeFoundWrites, store_files]
      exact ⟨remove_holds _ _ held.files i (inside i rfl), held.users, held.contents⟩

theorem rmdir_follows (args : List UInt8) (done : cmdRmdir fs args = some update) :
    (tables.storeAll (rmdirWrites fs args)).Holds update.fs := by
  simp only [cmdRmdir, rmdirWrites] at done ⊢
  by_cases empty : token args = []
  · rw [if_pos empty] at done ⊢
    exact unsaved_follows tables fs held update _ done
  · rw [if_neg empty] at done ⊢
    exact remove_found_follows tables fs held update _ (fun i found => (find_index_lt _ _ _ found).1) done

theorem del_follows (args : List UInt8) (done : cmdDel fs args = some update) :
    (tables.storeAll (delWrites fs args)).Holds update.fs := by
  simp only [cmdDel, delWrites] at done ⊢
  by_cases empty : token args = []
  · rw [if_pos empty] at done ⊢
    exact unsaved_follows tables fs held update _ done
  · rw [if_neg empty] at done ⊢
    obtain ⟨path, built, done⟩ := Option.bind_eq_some_iff.mp done
    rw [built, Option.elim_some]
    exact remove_found_follows tables fs held update _ (fun i found => (find_index_lt _ _ _ found).1) done

theorem copy_content_follows (src dst : Nat) (written : FileSystem) (copied : copyContent fs src dst = some written) :
    (tables.storeAll (copyContentWrites fs src dst)).Holds written := by
  simp only [copyContent, copyContentWrites] at copied ⊢
  cases found : fs.fileContents.find? fun content => content.fileIdx = src with
  | none =>
      simp only [found, Option.some.injEq] at copied ⊢
      rw [← copied]
      exact held
  | some content =>
      simp only [found] at copied ⊢
      by_cases room : fs.fileContents.length < maxContents
      · rw [if_pos room] at copied ⊢
        obtain ⟨bytes, _, rfl⟩ := Option.map_eq_some_iff.mp copied
        rw [tables_store_cons, tables_store_append, store_data]
        refine ⟨held.files, held.users, ?_⟩
        have appended := append_holds _ _ held.contents (RecordHead.mk dst content.size)
        rw [List.length_map] at appended
        rw [List.map_append]
        exact appended
      · rw [if_neg room] at copied ⊢
        rw [← Option.some.inj copied]
        exact held

theorem copy_follows (args : List UInt8) (done : cmdCopy fs args = some update) :
    (tables.storeAll (copyWrites fs args)).Holds update.fs := by
  simp only [cmdCopy, copyWrites] at done ⊢
  by_cases empty : token args = [] ∨ secondToken args = []
  · rw [if_pos empty] at done ⊢
    exact unsaved_follows tables fs held update _ done
  rw [if_neg empty] at done ⊢
  cases found : findTyped fs (token args) 0 with
  | none =>
      simp only [found] at done ⊢
      exact unsaved_follows tables fs held update _ done
  | some i =>
      simp only [found] at done ⊢
      by_cases full : fsMaxFiles ≤ fs.fsTable.length
      · rw [if_pos full] at done ⊢
        exact unsaved_follows tables fs held update _ done
      · rw [if_neg full] at done ⊢
        obtain ⟨written, copied, done⟩ := Option.bind_eq_some_iff.mp done
        rw [saved_fs written update done, tables_store_append]
        exact copy_content_follows _ _ (add_follows tables fs held _) i _ written copied

theorem move_follows (args : List UInt8) (done : cmdMove fs args = some update) :
    (tables.storeAll (moveWrites fs args)).Holds update.fs := by
  simp only [cmdMove, moveWrites] at done ⊢
  by_cases empty : token args = [] ∨ secondToken args = []
  · rw [if_pos empty] at done ⊢
    exact unsaved_follows tables fs held update _ done
  rw [if_neg empty] at done ⊢
  cases found : findEntry fs (token args) with
  | none =>
      simp only [found] at done ⊢
      exact unsaved_follows tables fs held update _ done
  | some i =>
      simp only [found] at done ⊢
      rw [saved_fs _ update done]
      exact ⟨change_holds _ _ held.files i _, held.users, held.contents⟩

theorem chmod_follows (args : List UInt8) (done : cmdChmod fs args = some update) :
    (tables.storeAll (chmodWrites fs args)).Holds update.fs := by
  simp only [cmdChmod, chmodWrites] at done ⊢
  split at done
  · rename_i empty
    rw [if_pos empty]
    exact unsaved_follows tables fs held update _ done
  · rename_i given
    rw [if_neg given]
    cases found : findEntry fs (getToken (getToken (cString args) 16).2 64).1 with
    | none =>
        simp only [found] at done ⊢
        exact unsaved_follows tables fs held update _ done
    | some i =>
        simp only [found] at done ⊢
        rw [saved_fs _ update done]
        exact ⟨change_holds _ _ held.files i _, held.users, held.contents⟩

theorem format_follows (k : UInt16) (done : cmdFormat fs k = some update) :
    (tables.storeAll (formatWrites k)).Holds update.fs := by
  simp only [cmdFormat, formatWrites] at done ⊢
  by_cases confirmed : k.toUInt8 = 89 ∨ k.toUInt8 = 121
  · rw [if_pos confirmed] at done ⊢
    rw [saved_fs _ update done]
    exact ⟨holds_empty _ rfl, held.users, holds_empty _ rfl⟩
  · rw [if_neg confirmed] at done ⊢
    exact unsaved_follows tables fs held update _ done

theorem useradd_follows (args : List UInt8) (done : cmdUseradd fs args = some update) :
    (tables.storeAll (useraddWrites fs args)).Holds update.fs := by
  simp only [cmdUseradd, useraddWrites] at done ⊢
  by_cases empty : userToken args = []
  · rw [if_pos empty] at done ⊢
    exact unsaved_follows tables fs held update _ done
  rw [if_neg empty] at done ⊢
  by_cases full : fsMaxUsers ≤ fs.userTable.length
  · rw [if_pos full] at done ⊢
    exact unsaved_follows tables fs held update _ done
  rw [if_neg full] at done ⊢
  by_cases used : (findUser fs (userToken args)).isSome = true
  · rw [if_pos used] at done ⊢
    exact unsaved_follows tables fs held update _ done
  · rw [if_neg used] at done ⊢
    rw [saved_fs _ update done, store_users]
    exact ⟨held.files, append_holds _ _ held.users _, held.contents⟩

theorem userdel_follows (args : List UInt8) (done : cmdUserdel fs args = some update) :
    (tables.storeAll (userdelWrites fs args)).Holds update.fs := by
  simp only [cmdUserdel, userdelWrites] at done ⊢
  by_cases empty : userToken args = []
  · rw [if_pos empty] at done ⊢
    exact unsaved_follows tables fs held update _ done
  rw [if_neg empty] at done ⊢
  cases found : findUser fs (userToken args) with
  | none =>
      simp only [found] at done ⊢
      exact unsaved_follows tables fs held update _ done
  | some i =>
      simp only [found] at done ⊢
      rw [saved_fs _ update done, store_users]
      exact ⟨held.files, remove_holds _ _ held.users i (find_index_lt _ _ _ found).1, held.contents⟩

theorem passwd_follows (args : List UInt8) (keys : List UInt16) (done : cmdPasswd fs args keys = some update) :
    (tables.storeAll (passwdWrites fs args keys)).Holds update.fs := by
  simp only [cmdPasswd, passwdWrites] at done ⊢
  cases found : findUser fs (if userToken args = [] then fs.currentUser else userToken args) with
  | none =>
      simp only [found] at done ⊢
      exact unsaved_follows tables fs held update _ done
  | some i =>
      simp only [found] at done ⊢
      obtain ⟨pwd, read, done⟩ := Option.bind_eq_some_iff.mp done
      rw [read, Option.elim_some, saved_fs _ update done]
      exact ⟨held.files, change_holds _ _ held.users i _, held.contents⟩

theorem put_content_follows (fileIdx size : Nat) (data : List UInt8 → List UInt8)
    (claim record : Nat → List TableWrite) (resized : RecordHead → RecordHead)
    (sized : ∀ head, head.fileIdx = fileIdx → resized head = ⟨fileIdx, size⟩)
    (overwrites : ∀ c (start : Tables), start.storeAll (record c) =
      { start with fileContents := start.fileContents.store (.change c resized) })
    (claims : ∀ c (start : Tables), start.storeAll (claim c ++ record c) =
      { start with fileContents := start.fileContents.store (.change c fun _ => ⟨fileIdx, size⟩) }) :
    (slotWrites fs fileIdx claim record = none ∧ putContent fs fileIdx data size = none) ∨
      ∃ writes next, slotWrites fs fileIdx claim record = some writes ∧
        putContent fs fileIdx data size = some next ∧ (tables.storeAll writes).Holds next := by
  simp only [slotWrites, putContent]
  cases found : findContent fs fileIdx with
  | some c =>
      obtain ⟨inside, owner⟩ := find_index_lt _ _ _ found
      refine Or.inr ⟨_, _, rfl, rfl, ?_⟩
      rw [overwrites]
      refine ⟨held.files, held.users, ?_⟩
      rw [← heads_modify _ c resized _ fun content here => ?_]
      · exact change_holds _ _ held.contents c resized
      · have same : fs.fileContents.get ⟨c, inside⟩ = content :=
          Option.some.inj ((List.getElem?_eq_getElem inside).symm.trans here)
        rw [same] at owner
        exact sized _ (of_decide_eq_true owner)
  | none =>
      dsimp only
      by_cases full : maxContents ≤ fs.fileContents.length
      · rw [if_pos full, if_pos full]
        exact Or.inl ⟨rfl, rfl⟩
      · rw [if_neg full, if_neg full]
        refine Or.inr ⟨_, _, rfl, rfl, ?_⟩
        rw [List.cons_append, tables_store_cons, claims]
        have appended := append_holds _ _ held.contents (RecordHead.mk fileIdx size)
        rw [List.length_map] at appended
        refine ⟨held.files, held.users, ?_⟩
        rw [List.map_append]
        exact appended

theorem open_follows (found : Option Nat) (path : List UInt8) :
    (tables.storeAll (openWrites fs found path)).Holds
      (if found = none then addEntry fs ⟨storedName path, 0, 0, 0x20⟩ else fs) := by
  rw [openWrites]
  by_cases fresh : found = none
  · rw [if_pos fresh, if_pos fresh]
    exact add_follows tables fs held _
  · rw [if_neg fresh, if_neg fresh]
    exact held

theorem undo_follows (found : Option Nat) (path : List UInt8) :
    (tables.storeAll (openWrites fs found path ++ undoWrites fs found)).Holds fs := by
  rw [openWrites, undoWrites]
  by_cases fresh : found = none
  · rw [if_pos fresh, if_pos fresh, addWrites, tables_store_append, store_files]
    exact ⟨take_back_holds _ _ held.files _, held.users, held.contents⟩
  · rw [if_neg fresh, if_neg fresh]
    exact held

theorem nano_follows (args : List UInt8) (memory : Bool) (keys : List UInt16)
    (done : cmdNano fs args memory keys = some update) :
    (tables.storeAll (nanoWrites fs args memory keys)).Holds update.fs := by
  simp only [cmdNano, nanoWrites] at done ⊢
  by_cases empty : token args = []
  · rw [if_pos empty] at done ⊢
    exact unsaved_follows tables fs held update _ done
  rw [if_neg empty] at done ⊢
  obtain ⟨path, built, done⟩ := Option.bind_eq_some_iff.mp done
  rw [built, Option.elim_some]
  generalize findTyped fs path 0 = found at done ⊢
  have opened := open_follows tables fs held found path
  have undone := undo_follows tables fs held found path
  by_cases full : found = none ∧ fsMaxFiles ≤ fs.fsTable.length
  · rw [if_pos full] at done ⊢
    exact unsaved_follows tables fs held update _ done
  rw [if_neg full] at done ⊢
  by_cases memoryFull : memory = false
  · rw [if_pos memoryFull] at done ⊢
    cases done
    exact undone
  rw [if_neg memoryFull] at done ⊢
  obtain ⟨edited, typed, done⟩ := Option.bind_eq_some_iff.mp done
  rw [typed, Option.elim_some]
  by_cases dropped : edited.1 = true ∨ edited.2 = []
  · rw [if_pos dropped] at done ⊢
    cases done
    exact undone
  rw [if_neg dropped] at done ⊢
  have slots : slotWrites (if found = none then addEntry fs ⟨storedName path, 0, 0, 0x20⟩ else fs) = slotWrites fs := by
    split
    · rfl
    · rfl
  have records := nano_record_stores (found.getD fs.fsTable.length) edited.2.length
  rcases put_content_follows _ _ opened (found.getD fs.fsTable.length) edited.2.length
      (fun _ => paddedTo maxFileSize edited.2) (fun _ => [])
      (nanoRecordWrites (found.getD fs.fsTable.length) edited.2.length) (fun _ => ⟨_, _⟩) (fun _ _ => rfl)
      records (fun c start => by rw [List.nil_append, records]) with
      ⟨noSlot, noRoom⟩ | ⟨writes, written, slot, put, follows⟩
  · rw [slots] at noSlot
    simp only [noSlot, noRoom] at done ⊢
    cases done
    exact undone
  · rw [slots] at slot
    simp only [slot, put] at done ⊢
    cases done
    rw [tables_store_append, tables_store_append]
    exact size_follows _ _ follows _ _

theorem claim_follows (found : Option Nat) (path : List UInt8) :
    (tables.storeAll (if found = none then
      [.fsTable (.count (fs.fsTable.length + 1)), .fsTable (.change fs.fsTable.length fun _ => ⟨storedName path, 0, 0, 0⟩)]
      else [])).Holds (if found = none then addEntry fs ⟨storedName path, 0, 0, 0⟩ else fs) := by
  by_cases fresh : found = none
  · rw [if_pos fresh, if_pos fresh]
    exact ⟨append_holds _ _ held.files _, held.users, held.contents⟩
  · rw [if_neg fresh, if_neg fresh]
    exact held

theorem save_file_content_follows (filename data : List UInt8) (result : FileSystem × Int)
    (done : saveFileContent fs filename data = some result) :
    (tables.storeAll (saveFileContentWrites fs filename data)).Holds result.1 := by
  simp only [saveFileContent, saveFileContentWrites] at done ⊢
  obtain ⟨path, built, done⟩ := Option.bind_eq_some_iff.mp done
  rw [built, Option.elim_some]
  generalize findEntry fs path = found at done ⊢
  by_cases full : found = none ∧ fsMaxFiles ≤ fs.fsTable.length
  · rw [if_pos full] at done ⊢
    rw [← Option.some.inj done]
    exact held
  rw [if_neg full] at done ⊢
  have claimed := claim_follows tables fs held found path
  rw [tables_store_append, tables_store_cons]
  generalize found.getD fs.fsTable.length = idx at done ⊢
  have sized := size_follows _ _ claimed idx data.length
  have slots : slotWrites (setSize (if found = none then addEntry fs ⟨storedName path, 0, 0, 0⟩ else fs) idx data.length) =
      slotWrites fs := by
    split
    · rfl
    · rfl
  have kept : (data.take maxFileSize).length = min data.length maxFileSize := by rw [List.length_take, Nat.min_comm]
  rw [kept] at done
  rcases put_content_follows _ _ sized idx (min data.length maxFileSize) _ _ _ _ (fun head own => by rw [← own])
      (save_record_stores _) (save_claim_stores idx _) with ⟨noSlot, noRoom⟩ | ⟨writes, written, slot, put, follows⟩
  · rw [slots] at noSlot
    rw [noRoom] at done
    rw [noSlot, ← Option.some.inj done]
    exact sized
  · rw [slots] at slot
    rw [put] at done
    rw [slot, ← Option.some.inj done]
    exact follows

theorem wget_follows (outputFile body : List UInt8) (done : cmdWgetSave fs outputFile body = some update) :
    (tables.storeAll (wgetWrites fs outputFile body)).Holds update.fs := by
  simp only [cmdWgetSave, wgetWrites] at done ⊢
  split at done
  · cases done
  · rename_i given
    rw [if_neg given]
    obtain ⟨result, stored, done⟩ := Option.bind_eq_some_iff.mp done
    have follows := save_file_content_follows tables fs held _ _ result stored
    split at done
    · rw [saved_fs _ update done]
      exact follows
    · cases done
      exact follows

end

theorem records_follow (failing : Nat → Bool) (disk : Disk) (contents : List FileContent) (tables : Tables)
    (items : List RecordHead) (held : tables.fileContents.Holds items) :
    ∃ records : Counted RecordHead, records.Holds (items ++ contents.map recordHead) ∧
      tables.storeAll (recordsWrites failing disk items.length contents) = { tables with fileContents := records } := by
  induction contents generalizing tables items with
  | nil => exact ⟨tables.fileContents, by rw [List.map_nil, List.append_nil]; exact held, rfl⟩
  | cons content rest ih =>
      have first := append_holds _ _ held (recordHead content)
      obtain ⟨records, follows, stored⟩ :=
        ih { tables with fileContents := tables.fileContents.storeAll (appendWrites items.length (recordHead content)) } _ first
      rw [List.length_append, List.length_singleton] at stored
      rw [List.append_assoc, List.singleton_append] at follows
      refine ⟨records, follows, ?_⟩
      rw [recordsWrites, tables_store_append, tables_store_cons, tables_store_cons, tables_store_append, store_data,
        store_data]
      exact stored

theorem load_files_follow (table : List FSEntry) (tables : Tables) : ∃ files : Counted FSEntry, files.Holds table ∧
    tables.storeAll (.fsTable (.count 0) :: (fillWrites 0 table).map .fsTable) = { tables with fsTable := files } := by
  rw [tables_store_cons, store_files]
  exact ⟨_, fill_holds _ _ (holds_empty (tables.fsTable.store (.count 0)) rfl) table, rfl⟩

theorem load_users_follow (users : List UserEntry) (tables : Tables) : ∃ loaded : Counted UserEntry, loaded.Holds users ∧
    tables.storeAll (.userTable (.count 0) :: (fillWrites 0 users).map .userTable) =
      { tables with userTable := loaded } := by
  rw [tables_store_cons, store_users]
  exact ⟨_, fill_holds _ _ (holds_empty (tables.userTable.store (.count 0)) rfl) users, rfl⟩

theorem load_records_follow (failing : Nat → Bool) (disk : Disk) (contents : List FileContent) (tables : Tables) :
    ∃ records : Counted RecordHead, records.Holds (contents.map recordHead) ∧
      tables.storeAll (.fileContents (.count 0) :: recordsWrites failing disk 0 contents) =
        { tables with fileContents := records } :=
  records_follow failing disk contents (tables.store (.fileContents (.count 0))) [] (holds_empty _ rfl)

theorem loads_follow (failing : Nat → Bool) (disk : Disk) (table : List FSEntry) (users : List UserEntry)
    (contents : List FileContent) (tables : Tables) :
    ∃ next : Tables, next.fsTable.Holds table ∧ next.userTable.Holds users ∧
      next.fileContents.Holds (contents.map recordHead) ∧
      ((tables.storeAll (.fsTable (.count 0) :: (fillWrites 0 table).map .fsTable)).storeAll
        (.userTable (.count 0) :: (fillWrites 0 users).map .userTable)).storeAll
          (.fileContents (.count 0) :: recordsWrites failing disk 0 contents) = next := by
  obtain ⟨files, filesHeld, stored⟩ := load_files_follow table tables
  rw [stored]
  obtain ⟨loaded, usersHeld, stored⟩ := load_users_follow users { tables with fsTable := files }
  rw [stored]
  obtain ⟨records, recordsHeld, stored⟩ :=
    load_records_follow failing disk contents { tables with fsTable := files, userTable := loaded }
  exact ⟨_, filesHeld, usersHeld, recordsHeld, stored⟩

theorem boot_follows (failing : Nat → Bool) (disk : Disk) (tables : Tables) :
    (tables.storeAll (bootWrites failing disk)).Holds (fsInitCommands failing disk) := by
  simp only [bootWrites]
  rw [tables_store_append, tables_store_append, tables_store_append, tables_store_append]
  obtain ⟨next, files, users, records, stored⟩ := loads_follow failing disk (loadTable failing disk (List.range 64))
    (loadUsers failing disk (List.range 5)) (loadContents failing disk (loadTable failing disk (List.range 64)))
    (tables.storeAll resetWrites)
  rw [stored]
  by_cases absent : loadUsers failing disk (List.range 5) = []
  · rw [absent] at users
    rw [if_pos absent, store_users]
    refine ⟨files, ?_, records⟩
    rw [init_users, if_pos absent]
    exact append_holds _ _ users rootUser
  · rw [if_neg absent]
    refine ⟨files, ?_, records⟩
    rw [init_users, if_neg absent]
    exact users

theorem cd_follows (tables : Tables) (fs : FileSystem) (held : tables.Holds fs) (args : List UInt8) (update : Update)
    (done : cmdCd fs args = some update) : tables.Holds update.fs := by
  simp only [cmdCd] at done
  split at done
  · cases done
    exact held
  split at done
  · cases done
    exact ⟨held.files, held.users, held.contents⟩
  · obtain ⟨path, _, done⟩ := Option.bind_eq_some_iff.mp done
    split at done
    · cases done
      exact ⟨held.files, held.users, held.contents⟩
    · cases done
      exact held

theorem login_follows (tables : Tables) (fs : FileSystem) (held : tables.Holds fs) (args : List UInt8) (update : Update)
    (done : cmdLogin fs args = some update) : tables.Holds update.fs := by
  simp only [cmdLogin] at done
  split at done
  · cases done
    exact held
  · split at done
    · cases done
      exact ⟨held.files, held.users, held.contents⟩
    · cases done
      exact held

theorem command_follows (tables : Tables) (fs next : FileSystem) (held : tables.Holds fs) (command : Command)
    (taken : tableEffect fs command = some next) : (tables.storeAll (commandWrites fs command)).Holds next := by
  by_cases shows : ∃ args, command = .cat args
  · obtain ⟨args, rfl⟩ := shows
    cases taken
    exact held
  have ran : (runCommand fs command).map Update.fs = some next := by
    cases command with
    | cat args => exact absurd ⟨args, rfl⟩ shows
    | _ => exact taken
  obtain ⟨update, done, rfl⟩ := Option.map_eq_some_iff.mp ran
  cases command with
  | mkdir args => exact create_named_follows tables fs held update _ _ _ args done
  | rmdir args => exact rmdir_follows tables fs held update args done
  | touch args => exact create_named_follows tables fs held update _ _ _ args done
  | del args => exact del_follows tables fs held update args done
  | cd args => exact cd_follows tables fs held args update done
  | cat args => exact absurd ⟨args, rfl⟩ shows
  | nano args memory keys => exact nano_follows tables fs held update args memory keys done
  | copy args => exact copy_follows tables fs held update args done
  | move args => exact move_follows tables fs held update args done
  | chmod args => exact chmod_follows tables fs held update args done
  | format k => exact format_follows tables fs held update k done
  | useradd args => exact useradd_follows tables fs held update args done
  | userdel args => exact userdel_follows tables fs held update args done
  | passwd args keys => exact passwd_follows tables fs held update args keys done
  | login args => exact login_follows tables fs held args update done
  | logout =>
      cases done
      exact ⟨held.files, held.users, held.contents⟩
  | wget outputFile body => exact wget_follows tables fs held update outputFile body done

theorem op_follows (tables : Tables) (fs next : FileSystem) (held : tables.Holds fs) (op : TableOp)
    (taken : tableStep fs op = some next) : (tables.storeAll (opStores fs op)).Holds next := by
  cases op with
  | boot failing disk =>
      cases taken
      exact boot_follows failing disk tables
  | command command => exact command_follows tables fs next held command taken

end RoDos.Fs
