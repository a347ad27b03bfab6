import RoDos.Fs.Disk

set_option autoImplicit false

namespace RoDos.Fs

open Base

def createdName (fs : FileSystem) (name : List UInt8) : Option (List UInt8) :=
  if name = [] ∨ fsMaxFiles ≤ fs.fsTable.length then none
  else (fullPath fs.currentDir name).bind fun path =>
    if (findEntry fs path).isSome then none else some (storedName path)

-- NANO keeps a new entry only if the editing ends with ESC on a text, and the text finds a record.
def nanoKeeps (fs : FileSystem) (fileIdx : Nat) (memory : Bool) (keys : List UInt16) : Bool :=
  memory &&
    ((nanoEdit (nanoLoad fs fileIdx) keys).any fun edited => edited.1 = false ∧ edited.2 ≠ []) &&
      ((findContent fs fileIdx).isSome || decide (fs.fileContents.length < maxContents))

def newName (fs : FileSystem) : Command → Option (List UInt8)
  | .mkdir args => createdName fs (token args)
  | .touch args => createdName fs (token args)
  | .nano args memory keys =>
      if token args = [] ∨ fsMaxFiles ≤ fs.fsTable.length then none
      else (fullPath fs.currentDir (token args)).bind fun path =>
        if findTyped fs path 0 = none ∧ nanoKeeps fs fs.fsTable.length memory keys = true then some (storedName path)
        else none
  | .copy args =>
      if token args = [] ∨ secondToken args = [] ∨ fsMaxFiles ≤ fs.fsTable.length then none
      else if (findTyped fs (token args) 0).isSome then some (storedName (secondToken args)) else none
  | .wget outputFile _ =>
      if fsMaxFiles ≤ fs.fsTable.length then none
      else (contentPath fs ((cString outputFile).take 63)).bind fun path =>
        if findEntry fs path = none then some (storedName path) else none
  | _ => none

def renames (fs : FileSystem) : Command → Option (Nat × List UInt8)
  | .move args =>
      if token args = [] ∨ secondToken args = [] then none
      else (findEntry fs (token args)).map fun i => (i, storedName (secondToken args))
  | _ => none

def removes (fs : FileSystem) : Command → Option Nat
  | .rmdir args => if token args = [] then none else findTyped fs (token args) 1
  | .del args =>
      if token args = [] then none else (fullPath fs.currentDir (token args)).bind fun path => findTyped fs path 0
  | _ => none

def formats : Command → Bool
  | .format k => k.toUInt8 = 89 ∨ k.toUInt8 = 121
  | _ => false

def enters (fs : FileSystem) : Command → Option (List UInt8)
  | .cd args =>
      if token args = [] ∨ token args = ascii ".." then none
      else (fullPath fs.currentDir (token args)).bind fun path =>
        if (findTyped fs path 1).isSome then some path else none
  | _ => none

structure UserOk (user : UserEntry) : Prop where
  nonempty : user.username ≠ []
  short : user.username.length ≤ 31
  noNul : ∀ byte ∈ user.username, byte ≠ 0
  hash : user.passwordHash.length = 32

structure Puts (fs : FileSystem) (fileIdx : Nat) (contents : List FileContent) : Prop where
  others : ∀ position, position ≠ fileIdx →
    (contents.find? fun content => content.fileIdx = position) =
      fs.fileContents.find? fun content => content.fileIdx = position
  lengths : (∀ content ∈ fs.fileContents, content.data.length = maxFileSize) →
    ∀ content ∈ contents, content.data.length = maxFileSize

inductive Outcome (fs : FileSystem) (command : Command) : FileSystem → Prop where
  | same (next : FileSystem) (table : next.fsTable = fs.fsTable) (contents : next.fileContents = fs.fileContents)
      (dir : next.currentDir = fs.currentDir)
      (accounts : (∀ user ∈ fs.userTable, UserOk user) → ∀ user ∈ next.userTable, UserOk user)
      (count : fs.userTable.length ≤ fsMaxUsers → next.userTable.length ≤ fsMaxUsers) : Outcome fs command next
  | created (stored : List UInt8) (size : Nat) (type attr : UInt8) (contents : List FileContent)
      (named : newName fs command = some stored) (room : fs.fsTable.length < fsMaxFiles)
      (bounded : size ≤ 1048576 ∨ ∃ entry ∈ fs.fsTable, entry.size = size) (puts : Puts fs fs.fsTable.length contents) :
      Outcome fs command
        { fs with fsTable := fs.fsTable ++ [⟨stored, size, type, attr⟩], fileContents := contents }
  | sized (i size : Nat) (contents : List FileContent) (inside : i < fs.fsTable.length) (bounded : size ≤ 1048576)
      (puts : Puts fs i contents) :
      Outcome fs command
        { fs with fsTable := fs.fsTable.modify i fun entry => { entry with size := size }, fileContents := contents }
  | marked (i : Nat) (attr : UInt8) :
      Outcome fs command { fs with fsTable := fs.fsTable.modify i fun entry => { entry with attr := attr } }
  | renamed (i : Nat) (stored : List UInt8) (moved : renames fs command = some (i, stored)) :
      Outcome fs command (renameAt fs i stored)
  | removed (i : Nat) (removal : removes fs command = some i) : Outcome fs command (removeAt fs i)
  | left (up : ∃ args, command = .cd args) : Outcome fs command { fs with currentDir := parentDir fs.currentDir }
  | entered (path : List UInt8) (into : enters fs command = some path) :
      Outcome fs command { fs with currentDir := withBackslash path }
  | cleared (formatted : formats command = true) : Outcome fs command { fs with fsTable := [], fileContents := [] }

theorem outcome_refl (fs : FileSystem) (command : Command) : Outcome fs command fs :=
  .same fs rfl rfl rfl id id

theorem outcome_unsaved (fs : FileSystem) (command : Command) (code : Int) (update : Update)
    (done : unsaved fs code = some update) : Outcome fs command update.fs := by
  cases done
  exact outcome_refl fs command

theorem saved_fs (fs : FileSystem) (update : Update) (done : saved fs = some update) : update.fs = fs := by
  cases done
  rfl

theorem find_index_lt {α : Type} (p : α → Bool) (xs : List α) (i : Nat) (found : xs.findIdx? p = some i) :
    ∃ inside : i < xs.length, p (xs.get ⟨i, inside⟩) = true := by
  obtain ⟨inside, holds, _⟩ := List.findIdx?_eq_some_iff_getElem.mp found
  exact ⟨inside, holds⟩

theorem puts_refl (fs : FileSystem) (fileIdx : Nat) : Puts fs fileIdx fs.fileContents :=
  ⟨fun _ _ => rfl, fun lengths => lengths⟩

theorem puts_append (fs : FileSystem) (content : FileContent) (length : content.data.length = maxFileSize) :
    Puts fs content.fileIdx (fs.fileContents ++ [content]) := by
  refine ⟨fun position different => ?_, fun lengths other member => ?_⟩
  · rw [List.find?_append]
    simp [Ne.symm different]
  · rcases List.mem_append.mp member with old | new
    · exact lengths other old
    · rw [List.mem_singleton.mp new]
      exact length

theorem modify_member {α : Type} (xs : List α) (i : Nat) (f : α → α) (x : α) (member : x ∈ xs.modify i f) :
    x ∈ xs ∨ ∃ y ∈ xs, x = f y := by
  obtain ⟨k, inside, same⟩ := List.mem_iff_getElem.mp member
  rw [List.length_modify] at inside
  rw [List.getElem_modify] at same
  by_cases here : i = k
  · rw [if_pos here] at same
    exact Or.inr ⟨xs[k], List.getElem_mem inside, same.symm⟩
  · rw [if_neg here] at same
    exact Or.inl (same ▸ List.getElem_mem inside)

theorem map_modify_same {α β : Type} (g : α → β) (xs : List α) (i : Nat) (f : α → α) (same : ∀ x, g (f x) = g x) :
    (xs.modify i f).map g = xs.map g := by
  refine List.ext_getElem? fun k => ?_
  rw [List.getElem?_map, List.getElem?_modify, List.getElem?_map]
  cases xs[k]? with
  | none => rfl
  | some x =>
      by_cases here : i = k
      · simp only [if_pos here, Option.map_eq_map, Option.map_some, same]
      · simp only [if_neg here, Option.map_eq_map, Option.map_some]

theorem map_modify_fixed {α β : Type} (g : α → β) (xs : List α) (i : Nat) (f : α → α) (y : β) (fixed : ∀ x, g (f x) = y) :
    (xs.modify i f).map g = (xs.map g).set i y := by
  refine List.ext_getElem? fun k => ?_
  rw [List.getElem?_map, List.getElem?_modify, List.getElem?_set, List.length_map, List.getElem?_map]
  by_cases here : i = k
  · subst here
    by_cases inside : i < xs.length
    · simp [inside, fixed]
    · simp [inside]
  · simp [here]

theorem find_modify {α : Type} (p : α → Bool) (xs : List α) (i : Nat) (inside : i < xs.length) (f : α → α)
    (before : p xs[i] = false) (after : p (f xs[i]) = false) : (xs.modify i f).find? p = xs.find? p := by
  induction xs generalizing i with
  | nil => simp at inside
  | cons x rest ih =>
      cases i with
      | zero =>
          simp only [List.getElem_cons_zero] at before after
          simp [before, after]
      | succ i =>
          simp only [List.getElem_cons_succ] at before after
          simp only [List.modify_succ_cons, List.find?_cons]
          rw [ih i (Nat.lt_of_succ_lt_succ inside) before after]

theorem padded_length (length : Nat) (bytes : List UInt8) (fits : bytes.length ≤ length) :
    (paddedTo length bytes).length = length := by
  rw [paddedTo, List.length_append, List.length_replicate]
  omega

inductive ContentPut (fs : FileSystem) (fileIdx size : Nat) (data : List UInt8 → List UInt8) (next : FileSystem) : Prop where
  | filled (c : Nat) (found : findContent fs fileIdx = some c) (inside : c < fs.fileContents.length)
      (owned : fs.fileContents[c].fileIdx = fileIdx)
      (same : next = { fs with
        fileContents := fs.fileContents.modify c fun content => ⟨fileIdx, size, data content.data⟩ })
  | appended (absent : findContent fs fileIdx = none)
      (same : next = { fs with
        fileContents := fs.fileContents ++ [⟨fileIdx, size, data (List.replicate maxFileSize 0)⟩] })

theorem put_content_cases (fs next : FileSystem) (fileIdx size : Nat) (data : List UInt8 → List UInt8)
    (put : putContent fs fileIdx data size = some next) : ContentPut fs fileIdx size data next := by
  rw [putContent] at put
  cases found : findContent fs fileIdx with
  | some c =>
      simp only [found, Option.some.injEq] at put
      obtain ⟨inside, owner⟩ := find_index_lt _ _ _ found
      exact .filled c found inside (of_decide_eq_true owner) put.symm
  | none =>
      simp only [found] at put
      by_cases full : maxContents ≤ fs.fileContents.length
      · rw [if_pos full] at put
        cases put
      · rw [if_neg full] at put
        exact .appended found (Option.some.inj put).symm

theorem content_put_others (fs next : FileSystem) (fileIdx size : Nat) (data : List UInt8 → List UInt8)
    (put : ContentPut fs fileIdx size data next) (other : Nat) (different : other ≠ fileIdx) :
    (next.fileContents.find? fun content => content.fileIdx = other) =
      fs.fileContents.find? fun content => content.fileIdx = other := by
  cases put with
  | filled c found inside owned same =>
      rw [same]
      exact find_modify _ _ c inside _ (by simp [owned, Ne.symm different]) (by simp [Ne.symm different])
  | appended absent same =>
      rw [same, List.find?_append]
      simp [Ne.symm different]

theorem put_content_puts (fs next : FileSystem) (fileIdx size : Nat) (data : List UInt8 → List UInt8)
    (length : ∀ old, old.length = maxFileSize → (data old).length = maxFileSize)
    (put : putContent fs fileIdx data size = some next) :
    ∃ contents, next = { fs with fileContents := contents } ∧ Puts fs fileIdx contents := by
  have cases' := put_content_cases fs next fileIdx size data put
  have others := content_put_others fs next fileIdx size data cases'
  cases cases' with
  | filled c found inside owned same =>
      rw [same] at others
      refine ⟨_, same, others, fun lengths content member => ?_⟩
      rcases modify_member _ _ _ _ member with old | ⟨old, oldIn, rfl⟩
      · exact lengths content old
      · exact length old.data (lengths old oldIn)
  | appended absent same => exact ⟨_, same, puts_append fs ⟨fileIdx, size, _⟩ (length _ List.length_replicate)⟩

theorem put_content_room (fs : FileSystem) (fileIdx size : Nat) (data : List UInt8 → List UInt8) :
    (putContent fs fileIdx data size).isSome =
      ((findContent fs fileIdx).isSome || decide (fs.fileContents.length < maxContents)) := by
  rw [putContent]
  cases found : findContent fs fileIdx with
  | some c => simp
  | none =>
      by_cases full : maxContents ≤ fs.fileContents.length
      · simp [full]
      · simp [full, Nat.lt_of_not_le full]

theorem nano_load_length (fs : FileSystem) (fileIdx : Nat) : (nanoLoad fs fileIdx).length ≤ maxFileSize - 1 := by
  rw [nanoLoad]
  split
  · exact Nat.le_trans (List.length_take_le _ _) (Nat.min_le_right _ _)
  · exact Nat.zero_le _

theorem nano_edit_length (text : List UInt8) (keys : List UInt16) (edited : Bool × List UInt8)
    (fits : text.length ≤ maxFileSize - 1) (typed : nanoEdit text keys = some edited) :
    edited.2.length ≤ maxFileSize - 1 := by
  induction keys generalizing text with
  | nil => simp [nanoEdit] at typed
  | cons k keys ih =>
      simp only [nanoEdit] at typed
      repeat' split at typed
      · cases typed
        exact fits
      · cases typed
        exact fits
      · exact ih [] (Nat.zero_le _) typed
      · exact ih text.dropLast (Nat.le_trans (List.dropLast_sublist _).length_le fits) typed
      · rename_i room
        exact ih _ (by rw [List.length_append]; exact room) typed
      · exact ih _ fits typed
      · rename_i room
        exact ih _ (by rw [List.length_append]; exact room) typed
      · exact ih _ fits typed
      · exact ih text fits typed

theorem modify_last {α : Type} (xs : List α) (x : α) (f : α → α) : (xs ++ [x]).modify xs.length f = xs ++ [f x] := by
  induction xs with
  | nil => rfl
  | cons y rest ih => simp [ih]

section
variable (fs : FileSystem) (update : Update)

theorem create_named_outcome (type attr : UInt8) (present : Int) (args : List UInt8) (command : Command)
    (named : newName fs command = createdName fs (token args))
    (done : createNamed type attr present fs args = some update) : Outcome fs command update.fs := by
  simp only [createNamed] at done
  by_cases empty : token args = []
  · rw [if_pos empty] at done
    exact outcome_unsaved fs _ _ _ done
  rw [if_neg empty] at done
  by_cases full : fsMaxFiles ≤ fs.fsTable.length
  · rw [if_pos full] at done
    exact outcome_unsaved fs _ _ _ done
  rw [if_neg full] at done
  obtain ⟨path, built, done⟩ := Option.bind_eq_some_iff.mp done
  by_cases used : (findEntry fs path).isSome = true
  · rw [if_pos used] at done
    exact outcome_unsaved fs _ _ _ done
  · rw [if_neg used] at done
    rw [saved_fs _ _ done]
    refine .created (storedName path) 0 type attr fs.fileContents ?_ (Nat.lt_of_not_le full) (Or.inl (Nat.zero_le _))
      (puts_refl fs _)
    have possible : ¬ (token args = [] ∨ fsMaxFiles ≤ fs.fsTable.length) := fun bad => bad.elim empty full
    rw [named, createdName, if_neg possible, built, Option.bind_some, if_neg used]

theorem remove_found_outcome (found : Option Nat) (command : Command)
    (removal : ∀ i, found = some i → removes fs command = some i)
    (done : removeFound fs found = some update) : Outcome fs command update.fs := by
  cases found with
  | none =>
      exact outcome_unsaved fs _ _ _ done
  | some i =>
      have done : saved (removeAt fs i) = some update := done
      rw [saved_fs _ _ done]
      exact .removed i (removal i rfl)

theorem cmd_rmdir_outcome (args : List UInt8) (done : cmdRmdir fs args = some update) :
    Outcome fs (.rmdir args) update.fs := by
  simp only [cmdRmdir] at done
  by_cases empty : token args = []
  · rw [if_pos empty] at done
    exact outcome_unsaved fs _ _ _ done
  · rw [if_neg empty] at done
    exact remove_found_outcome fs update _ _ (fun i found => by rw [removes, if_neg empty, found]) done

theorem cmd_del_outcome (args : List UInt8) (done : cmdDel fs args = some update) :
    Outcome fs (.del args) update.fs := by
  simp only [cmdDel] at done
  by_cases empty : token args = []
  · rw [if_pos empty] at done
    exact outcome_unsaved fs _ _ _ done
  · rw [if_neg empty] at done
    obtain ⟨path, built, done⟩ := Option.bind_eq_some_iff.mp done
    exact remove_found_outcome fs update _ _
      (fun i found => by rw [removes, if_neg empty, built, Option.bind_some, found]) done

theorem cmd_cd_outcome (args : List UInt8) (done : cmdCd fs args = some update) : Outcome fs (.cd args) update.fs := by
  simp only [cmdCd] at done
  by_cases empty : token args = []
  · rw [if_pos empty] at done
    exact outcome_unsaved fs _ _ _ done
  rw [if_neg empty] at done
  by_cases up : token args = ascii ".."
  · rw [if_pos up] at done
    rw [saved_fs _ _ done]
    exact .left ⟨args, rfl⟩
  rw [if_neg up] at done
  obtain ⟨path, built, done⟩ := Option.bind_eq_some_iff.mp done
  by_cases found : (findTyped fs path 1).isSome = true
  · rw [if_pos found] at done
    rw [saved_fs _ _ done]
    have named : ¬ (token args = [] ∨ token args = ascii "..") := fun bad => bad.elim empty up
    exact .entered path (by rw [enters, if_neg named, built, Option.bind_some, if_pos found])
  · rw [if_neg found] at done
    exact outcome_unsaved fs _ _ _ done

theorem set_size_added (entry : FSEntry) (size : Nat) :
    setSize (addEntry fs entry) fs.fsTable.length size = addEntry fs { entry with size := size } := by
  simp only [setSize, addEntry, modify_last]

theorem padded_to_full (bytes : List UInt8) (short : bytes.length ≤ maxFileSize - 1) (old : List UInt8)
    (_ : old.length = maxFileSize) : (paddedTo maxFileSize bytes).length = maxFileSize :=
  padded_length _ _ (Nat.le_trans short (Nat.sub_le _ _))

theorem nano_saves_old (command : Command) (i : Nat) (path bytes : List UInt8) (found : findTyped fs path 0 = some i)
    (short : bytes.length ≤ maxFileSize - 1) (written : FileSystem)
    (put : putContent fs i (fun _ => paddedTo maxFileSize bytes) bytes.length = some written) :
    Outcome fs command (setSize written i bytes.length) := by
  obtain ⟨contents, rfl, puts⟩ := put_content_puts fs written i _ _ (padded_to_full bytes short) put
  exact .sized i bytes.length contents (find_index_lt _ _ _ found).1 (Nat.le_trans short (by decide)) puts

theorem nano_saves_new (command : Command) (path bytes : List UInt8) (short : bytes.length ≤ maxFileSize - 1)
    (spare : fs.fsTable.length < fsMaxFiles) (written : FileSystem)
    (put : putContent (addEntry fs ⟨storedName path, 0, 0, 0x20⟩) fs.fsTable.length
      (fun _ => paddedTo maxFileSize bytes) bytes.length = some written)
    (named : newName fs command = some (storedName path)) :
    Outcome fs command (setSize written fs.fsTable.length bytes.length) := by
  obtain ⟨contents, rfl, puts⟩ := put_content_puts _ written _ _ _ (padded_to_full bytes short) put
  have added := set_size_added { fs with fileContents := contents } ⟨storedName path, 0, 0, 0x20⟩ bytes.length
  dsimp only [addEntry] at added ⊢
  rw [added]
  exact .created (storedName path) bytes.length 0 0x20 contents named spare (Or.inl (Nat.le_trans short (by decide)))
    ⟨puts.others, puts.lengths⟩

inductive NanoLeaves (args : List UInt8) (memory : Bool) (keys : List UInt16) : FileSystem → Prop where
  | same : NanoLeaves args memory keys fs
  | saved (path : List UInt8) (edited : Bool × List UInt8) (written : FileSystem) (given : token args ≠ [])
      (built : fullPath fs.currentDir (token args) = some path)
      (space : ¬ (findTyped fs path 0 = none ∧ fsMaxFiles ≤ fs.fsTable.length)) (free : memory = true)
      (typed : nanoEdit (nanoLoad fs ((findTyped fs path 0).getD fs.fsTable.length)) keys = some edited)
      (kept : edited.1 = false ∧ edited.2 ≠ [])
      (put : putContent (if findTyped fs path 0 = none then addEntry fs ⟨storedName path, 0, 0, 0x20⟩ else fs)
        ((findTyped fs path 0).getD fs.fsTable.length) (fun _ => paddedTo maxFileSize edited.2) edited.2.length = some written) :
      NanoLeaves args memory keys (setSize written ((findTyped fs path 0).getD fs.fsTable.length) edited.2.length)

theorem cmd_nano_leaves (args : List UInt8) (memory : Bool) (keys : List UInt16)
    (done : cmdNano fs args memory keys = some update) : NanoLeaves fs args memory keys update.fs := by
  have unchanged (code : Int) (done : unsaved fs code = some update) : NanoLeaves fs args memory keys update.fs := by
    cases done
    exact .same
  simp only [cmdNano] at done
  by_cases empty : token args = []
  · rw [if_pos empty] at done
    exact unchanged _ done
  rw [if_neg empty] at done
  obtain ⟨path, built, done⟩ := Option.bind_eq_some_iff.mp done
  by_cases full : findTyped fs path 0 = none ∧ fsMaxFiles ≤ fs.fsTable.length
  · rw [if_pos full] at done
    exact unchanged _ done
  rw [if_neg full] at done
  by_cases lacking : memory = false
  · rw [if_pos lacking] at done
    exact unchanged _ done
  rw [if_neg lacking] at done
  obtain ⟨edited, typed, done⟩ := Option.bind_eq_some_iff.mp done
  by_cases dropped : edited.1 = true ∨ edited.2 = []
  · rw [if_pos dropped] at done
    exact unchanged _ done
  rw [if_neg dropped] at done
  rw [not_or, Bool.not_eq_true] at dropped
  cases put : putContent (if findTyped fs path 0 = none then addEntry fs ⟨storedName path, 0, 0, 0x20⟩ else fs)
      ((findTyped fs path 0).getD fs.fsTable.length) (fun _ => paddedTo maxFileSize edited.2) edited.2.length with
  | none =>
      rw [put] at done
      exact unchanged _ done
  | some written =>
      rw [put] at done
      cases done
      exact .saved path edited written empty built full (Bool.not_eq_false _ ▸ lacking) typed dropped put

theorem cmd_nano_outcome (args : List UInt8) (memory : Bool) (keys : List UInt16)
    (done : cmdNano fs args memory keys = some update) : Outcome fs (.nano args memory keys) update.fs := by
  have leaves := cmd_nano_leaves fs update args memory keys done
  generalize update.fs = next at leaves ⊢
  cases leaves with
  | same => exact outcome_refl fs _
  | saved path edited written given built space free typed kept put =>
      have short := nano_edit_length _ _ _ (nano_load_length fs _) typed
      cases found : findTyped fs path 0 with
      | some i =>
          simp only [found, Option.getD_some, reduceCtorEq, if_false] at put
          exact nano_saves_old fs _ i path edited.2 found short written put
      | none =>
          simp only [found, Option.getD_none, if_true] at put typed
          have room := put_content_room (addEntry fs ⟨storedName path, 0, 0, 0x20⟩) fs.fsTable.length edited.2.length
            fun _ => paddedTo maxFileSize edited.2
          rw [put] at room
          have spare : ¬ fsMaxFiles ≤ fs.fsTable.length := fun none => space ⟨found, none⟩
          have keeps : nanoKeeps fs fs.fsTable.length memory keys = true := by
            simp only [nanoKeeps, typed, Option.any_some, kept, Bool.and_eq_true]
            exact ⟨⟨free, by simp [kept.2]⟩, room.symm⟩
          have named : newName fs (.nano args memory keys) = some (storedName path) := by
            have possible : ¬ (token args = [] ∨ fsMaxFiles ≤ fs.fsTable.length) := fun bad => bad.elim given spare
            rw [newName, if_neg possible, built, Option.bind_some, if_pos ⟨found, keeps⟩]
          exact nano_saves_new fs _ path edited.2 short (Nat.lt_of_not_le spare) written put named

theorem cmd_copy_outcome (args : List UInt8) (done : cmdCopy fs args = some update) :
    Outcome fs (.copy args) update.fs := by
  simp only [cmdCopy] at done
  by_cases empty : token args = [] ∨ secondToken args = []
  · rw [if_pos empty] at done
    exact outcome_unsaved fs _ _ _ done
  rw [if_neg empty] at done
  cases found : findTyped fs (token args) 0 with
  | none =>
      simp only [found] at done
      exact outcome_unsaved fs _ _ _ done
  | some i =>
      simp only [found] at done
      by_cases full : fsMaxFiles ≤ fs.fsTable.length
      · rw [if_pos full] at done
        exact outcome_unsaved fs _ _ _ done
      rw [if_neg full] at done
      obtain ⟨copied, copy, done⟩ := Option.bind_eq_some_iff.mp done
      obtain ⟨inside, _⟩ := find_index_lt _ _ _ found
      have source : fs.fsTable.getD i ⟨[], 0, 0, 0⟩ ∈ fs.fsTable := by
        rw [List.getD_eq_getElem?_getD, List.getElem?_eq_getElem inside]
        exact List.getElem_mem inside
      have named : newName fs (.copy args) = some (storedName (secondToken args)) := by
        have possible : ¬ (token args = [] ∨ secondToken args = [] ∨ fsMaxFiles ≤ fs.fsTable.length) := by tauto
        rw [newName, if_neg possible, found]
        rfl
      rw [saved_fs _ _ done]
      generalize fs.fsTable.getD i ⟨[], 0, 0, 0⟩ = entry at copy source
      have created (contents : List FileContent) (puts : Puts fs fs.fsTable.length contents) :=
        Outcome.created (storedName (secondToken args)) entry.size 0 entry.attr contents named
          (Nat.lt_of_not_le full) (Or.inr ⟨entry, source, rfl⟩) puts
      rw [copyContent] at copy
      split at copy
      · cases copy
        exact created fs.fileContents (puts_refl fs _)
      · split at copy
        · obtain ⟨bytes, shown, same⟩ := Option.map_eq_some_iff.mp copy
          have short : bytes.length ≤ maxFileSize := by
            rename_i content _ _
            rw [contentBytes] at shown
            split at shown
            · rename_i fits
              cases shown
              exact Nat.le_trans (List.length_take_le _ _) fits
            · cases shown
          rw [← same]
          exact created _ (puts_append fs ⟨fs.fsTable.length, _, _⟩ (padded_length _ _ short))
        · cases copy
          exact created fs.fileContents (puts_refl fs _)

theorem cmd_move_outcome (args : List UInt8) (done : cmdMove fs args = some update) :
    Outcome fs (.move args) update.fs := by
  simp only [cmdMove] at done
  by_cases empty : token args = [] ∨ secondToken args = []
  · rw [if_pos empty] at done
    exact outcome_unsaved fs _ _ _ done
  rw [if_neg empty] at done
  cases found : findEntry fs (token args) with
  | none =>
      simp only [found] at done
      exact outcome_unsaved fs _ _ _ done
  | some i =>
      simp only [found] at done
      rw [saved_fs _ _ done]
      exact .renamed i (storedName (secondToken args)) (by rw [renames, if_neg empty, found]; rfl)

theorem cmd_chmod_outcome (args : List UInt8) (done : cmdChmod fs args = some update) :
    Outcome fs (.chmod args) update.fs := by
  simp only [cmdChmod] at done
  split at done
  · exact outcome_unsaved fs _ _ _ done
  · split at done
    · rw [saved_fs _ _ done]
      exact .marked _ _
    · exact outcome_unsaved fs _ _ _ done

theorem cmd_format_outcome (k : UInt16) (done : cmdFormat fs k = some update) : Outcome fs (.format k) update.fs := by
  simp only [cmdFormat] at done
  split at done
  · rename_i confirmed
    rw [saved_fs _ _ done]
    exact .cleared (by simpa [formats] using confirmed)
  · exact outcome_unsaved fs _ _ _ done

theorem user_token_short (args : List UInt8) :
    (userToken args).length ≤ 31 ∧ ∀ byte ∈ userToken args, byte ≠ 0 :=
  ⟨get_token_length _ _, fun byte member => c_string_no_nul args byte (get_token_subset _ _ byte member).1⟩

theorem password_hash_length (s : List UInt8) : (passwordHash s).length = 32 := by simp [passwordHash]

theorem cmd_useradd_outcome (args : List UInt8) (done : cmdUseradd fs args = some update) :
    Outcome fs (.useradd args) update.fs := by
  simp only [cmdUseradd] at done
  by_cases empty : userToken args = []
  · rw [if_pos empty] at done
    exact outcome_unsaved fs _ _ _ done
  rw [if_neg empty] at done
  by_cases full : fsMaxUsers ≤ fs.userTable.length
  · rw [if_pos full] at done
    exact outcome_unsaved fs _ _ _ done
  rw [if_neg full] at done
  split at done
  · exact outcome_unsaved fs _ _ _ done
  · rw [saved_fs _ _ done]
    refine .same _ rfl rfl rfl (fun valid user member => ?_) (fun _ => ?_)
    · rcases List.mem_append.mp member with old | new
      · exact valid user old
      · rw [List.mem_singleton.mp new]
        exact ⟨empty, (user_token_short args).1, (user_token_short args).2, password_hash_length _⟩
    · rw [List.length_append]
      exact Nat.lt_of_not_le full

theorem cmd_userdel_outcome (args : List UInt8) (done : cmdUserdel fs args = some update) :
    Outcome fs (.userdel args) update.fs := by
  simp only [cmdUserdel] at done
  split at done
  · exact outcome_unsaved fs _ _ _ done
  · split at done
    · rw [saved_fs _ _ done]
      exact .same _ rfl rfl rfl (fun valid user member => valid user (List.mem_of_mem_eraseIdx member))
        (fun count => Nat.le_trans (List.length_eraseIdx_le _ _) count)
    · exact outcome_unsaved fs _ _ _ done

theorem cmd_passwd_outcome (args : List UInt8) (keys : List UInt16) (done : cmdPasswd fs args keys = some update) :
    Outcome fs (.passwd args keys) update.fs := by
  simp only [cmdPasswd] at done
  split at done
  · exact outcome_unsaved fs _ _ _ done
  · obtain ⟨pwd, _, done⟩ := Option.bind_eq_some_iff.mp done
    rw [saved_fs _ _ done]
    refine .same _ rfl rfl rfl (fun valid user member => ?_) (fun count => by simpa using count)
    rcases modify_member _ _ _ _ member with old | ⟨old, oldIn, rfl⟩
    · exact valid user old
    · have fine := valid old oldIn
      exact ⟨fine.nonempty, fine.short, fine.noNul, password_hash_length pwd⟩

theorem cmd_login_outcome (args : List UInt8) (done : cmdLogin fs args = some update) :
    Outcome fs (.login args) update.fs := by
  simp only [cmdLogin] at done
  split at done
  · exact outcome_unsaved fs _ _ _ done
  · split at done
    · cases done
      exact .same _ rfl rfl rfl id id
    · exact outcome_unsaved fs _ _ _ done

theorem kept_length (data old : List UInt8) (length : old.length = maxFileSize) :
    (data.take maxFileSize ++ old.drop (data.take maxFileSize).length).length = maxFileSize := by
  have short := List.length_take_le maxFileSize data
  rw [List.length_append, List.length_drop, length]
  omega

theorem save_file_content_outcome (filename data : List UInt8) (command : Command) (result : FileSystem × Int)
    (large : data.length ≤ 1048576)
    (named : newName fs command = if fsMaxFiles ≤ fs.fsTable.length then none
      else (contentPath fs filename).bind fun path => if findEntry fs path = none then some (storedName path) else none)
    (done : saveFileContent fs filename data = some result) : Outcome fs command result.1 := by
  rw [saveFileContent] at done
  obtain ⟨path, built, done⟩ := Option.bind_eq_some_iff.mp done
  by_cases full : findEntry fs path = none ∧ fsMaxFiles ≤ fs.fsTable.length
  · simp only [if_pos full] at done
    cases done
    exact outcome_refl fs command
  simp only [if_neg full] at done
  cases found : findEntry fs path with
  | some i =>
      obtain ⟨inside, _⟩ := find_index_lt _ _ _ found
      simp only [found, Option.getD_some, reduceCtorEq, if_false] at done
      cases put : putContent (setSize fs i data.length) i
          (fun old => data.take maxFileSize ++ old.drop (data.take maxFileSize).length) (data.take maxFileSize).length with
      | none =>
          simp only [put, Option.some.injEq] at done
          rw [← done]
          exact .sized i data.length fs.fileContents inside large (puts_refl fs i)
      | some written =>
          simp only [put, Option.some.injEq] at done
          obtain ⟨contents, rfl, puts⟩ := put_content_puts _ written i _ _ (kept_length data) put
          rw [← done]
          exact .sized i data.length contents inside large ⟨puts.others, puts.lengths⟩
  | none =>
      have spare : ¬ fsMaxFiles ≤ fs.fsTable.length := fun none => full ⟨found, none⟩
      have stored : newName fs command = some (storedName path) := by
        rw [named, if_neg spare, built, Option.bind_some, if_pos found]
      have created (contents : List FileContent) (puts : Puts fs fs.fsTable.length contents) :=
        Outcome.created (storedName path) data.length 0 0 contents stored (Nat.lt_of_not_le spare) (Or.inl large) puts
      simp only [found, Option.getD_none, if_true, set_size_added] at done
      cases put : putContent (addEntry fs ⟨storedName path, data.length, 0, 0⟩) fs.fsTable.length
          (fun old => data.take maxFileSize ++ old.drop (data.take maxFileSize).length) (data.take maxFileSize).length with
      | none =>
          simp only [put, Option.some.injEq] at done
          rw [← done]
          exact created fs.fileContents (puts_refl fs _)
      | some written =>
          simp only [put, Option.some.injEq] at done
          obtain ⟨contents, rfl, puts⟩ := put_content_puts _ written _ _ _ (kept_length data) put
          rw [← done]
          exact created contents ⟨puts.others, puts.lengths⟩

theorem cmd_wget_outcome (outputFile body : List UInt8) (done : cmdWgetSave fs outputFile body = some update) :
    Outcome fs (.wget outputFile body) update.fs := by
  simp only [cmdWgetSave] at done
  split at done
  · cases done
  · rename_i given
    rw [not_or] at given
    obtain ⟨result, stored, done⟩ := Option.bind_eq_some_iff.mp done
    have reached : update.fs = result.1 := by
      split at done <;> cases done <;> rfl
    rw [reached]
    exact save_file_content_outcome fs _ body _ result (by omega) rfl stored

theorem run_command_outcome (command : Command) (done : runCommand fs command = some update) :
    Outcome fs command update.fs := by
  cases command with
  | mkdir args => exact create_named_outcome fs update _ _ _ args _ rfl done
  | rmdir args => exact cmd_rmdir_outcome fs update args done
  | touch args => exact create_named_outcome fs update _ _ _ args _ rfl done
  | del args => exact cmd_del_outcome fs update args done
  | cd args => exact cmd_cd_outcome fs update args done
  | cat args =>
      obtain ⟨shown, _, done⟩ := Option.bind_eq_some_iff.mp done
      exact outcome_unsaved fs _ _ _ done
  | nano args memory keys => exact cmd_nano_outcome fs update args memory keys done
  | copy args => exact cmd_copy_outcome fs update args done
  | move args => exact cmd_move_outcome fs update args done
  | chmod args => exact cmd_chmod_outcome fs update args done
  | format k => exact cmd_format_outcome fs update k done
  | useradd args => exact cmd_useradd_outcome fs update args done
  | userdel args => exact cmd_userdel_outcome fs update args done
  | passwd args keys => exact cmd_passwd_outcome fs update args keys done
  | login args => exact cmd_login_outcome fs update args done
  | logout =>
      cases done
      exact .same _ rfl rfl rfl id id
  | wget outputFile body => exact cmd_wget_outcome fs update outputFile body done
end

end RoDos.Fs
