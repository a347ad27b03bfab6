import Mathlib.Data.List.TakeDrop
import RoDos.Fs.Removal
import RoDos.Fs.WellFormed

set_option autoImplicit false

namespace RoDos.Fs

open Base

inductive AttribOutput where
  | table (lines : List (UInt8 × List UInt8))
  | attributes (attr : UInt8)
  | notFound
deriving DecidableEq, Repr

-- ATTRIB shows and never sets.
def cmdAttrib (fs : FileSystem) (args : List UInt8) : AttribOutput :=
  let name := token args
  if name = [] then .table (fs.fsTable.map fun entry => (entry.attr, entry.name))
  else
    match findEntry fs name with
    | some i => .attributes (fs.fsTable.getD i ⟨[], 0, 0, 0⟩).attr
    | none => .notFound

inductive NameUse where
  | cat
  | nano
  | del
  | copy
  | move
  | chmod
  | attrib
  | cd
  | rmdir
deriving DecidableEq, Repr

def pathTyped (fs : FileSystem) (name : List UInt8) (type : UInt8) : Option Nat :=
  (fullPath fs.currentDir name).bind fun path => findTyped fs path type

def lookup (fs : FileSystem) (name : List UInt8) : NameUse → Option Nat
  | .cat | .nano | .del => pathTyped fs name 0
  | .copy => findTyped fs name 0
  | .move | .chmod | .attrib => findEntry fs name
  | .cd => if name = ascii ".." then none else pathTyped fs name 1
  | .rmdir => findTyped fs name 1

def fileUses : List NameUse := [.cat, .nano, .del, .copy, .move, .chmod, .attrib]

def directoryUses : List NameUse := [.cd, .rmdir]

section
variable (fs : FileSystem) (args : List UInt8) (named : token args ≠ [])
include named

section
variable (path : List UInt8) (built : fullPath fs.currentDir (token args) = some path)
include built

theorem cat_by_lookup : cmdCat fs args =
    (lookup fs (token args) .cat).elim (some ([], -1)) fun i =>
      if (fs.fsTable.getD i ⟨[], 0, 0, 0⟩).size = 0 then some ([], 0)
      else (contentOf fs i).map fun shown => (shown, 0) := by
  simp only [cmdCat, lookup, pathTyped, if_neg named, built, Option.bind_some]
  cases findTyped fs path 0 <;> rfl

theorem nano_by_lookup (i : Nat) (found : lookup fs (token args) .nano = some i) (keys : List UInt16) :
    cmdNano fs args true keys = (nanoEdit (nanoLoad fs i) keys).bind fun edited =>
      if edited.1 = true ∨ edited.2 = [] then unsaved fs 0
      else
        (putContent fs i (fun _ => paddedTo maxFileSize edited.2) edited.2.length).elim (unsaved fs (-1)) fun written =>
          some ⟨setSize written i edited.2.length, true, 0, -1⟩ := by
  simp only [lookup, pathTyped, built, Option.bind_some] at found
  simp only [cmdNano, named, built, found, Option.bind_some, Option.getD_some, if_false, reduceCtorEq, false_and,
    Bool.true_eq_false]
  refine Option.bind_congr fun edited _ => ?_
  cases putContent fs i (fun _ => paddedTo maxFileSize edited.2) edited.2.length <;> rfl

theorem del_by_lookup : cmdDel fs args = removeFound fs (lookup fs (token args) .del) := by
  simp only [cmdDel, lookup, pathTyped, if_neg named, built, Option.bind_some]

theorem cd_by_lookup (below : token args ≠ ascii "..") : cmdCd fs args =
    if (lookup fs (token args) .cd).isSome then saved { fs with currentDir := withBackslash path } else unsaved fs (-1) := by
  simp only [cmdCd, lookup, pathTyped, if_neg named, if_neg below, built, Option.bind_some]
end

theorem rmdir_by_lookup : cmdRmdir fs args = removeFound fs (lookup fs (token args) .rmdir) := by
  simp only [cmdRmdir, lookup, if_neg named]

theorem attrib_by_lookup : cmdAttrib fs args =
    match lookup fs (token args) .attrib with
    | some i => .attributes (fs.fsTable.getD i ⟨[], 0, 0, 0⟩).attr
    | none => .notFound := by
  simp only [cmdAttrib, lookup, if_neg named]

theorem copy_by_lookup (target : secondToken args ≠ []) : cmdCopy fs args =
    (lookup fs (token args) .copy).elim (unsaved fs (-1)) fun i =>
      if fsMaxFiles ≤ fs.fsTable.length then unsaved fs (-1)
      else
        let source := fs.fsTable.getD i ⟨[], 0, 0, 0⟩
        (copyContent (addEntry fs ⟨storedName (secondToken args), source.size, 0, source.attr⟩) i
          fs.fsTable.length).bind saved := by
  simp only [cmdCopy, lookup, named, target, or_self, if_false]
  cases findTyped fs (token args) 0 <;> rfl

theorem move_by_lookup (target : secondToken args ≠ []) : cmdMove fs args =
    (lookup fs (token args) .move).elim (unsaved fs (-1)) fun i =>
      saved (renameAt fs i (storedName (secondToken args))) := by
  simp only [cmdMove, lookup, named, target, or_self, if_false]
  cases findEntry fs (token args) <;> rfl
end

theorem chmod_by_lookup (fs : FileSystem) (args : List UInt8) (moded : (getToken (cString args) 16).1 ≠ [])
    (named : (getToken (getToken (cString args) 16).2 64).1 ≠ []) : cmdChmod fs args =
    (lookup fs (getToken (getToken (cString args) 16).2 64).1 .chmod).elim (unsaved fs (-1)) fun i =>
      saved { fs with
        fsTable := fs.fsTable.modify i fun entry =>
          { entry with attr := (strToInt (getToken (cString args) 16).1).toUInt8 } } := by
  simp only [cmdChmod, lookup, moded, named, or_self, if_false]
  cases findEntry fs (getToken (getToken (cString args) 16).2 64).1 <;> rfl

def PathKept (fs : FileSystem) (name : List UInt8) : Prop := fs.currentDir.length + name.length ≤ fsMaxFilename - 1

-- The name as it is typed is what is stored for its path.
def NameStored (fs : FileSystem) (name : List UInt8) : Prop := storedName (fs.currentDir ++ name) = name

instance (fs : FileSystem) (name : List UInt8) : Decidable (PathKept fs name) := inferInstanceAs (Decidable (_ ≤ _))

instance (fs : FileSystem) (name : List UInt8) : Decidable (NameStored fs name) := inferInstanceAs (Decidable (_ = _))

structure FileLookups (fs next : FileSystem) (args : List UInt8) : Prop where
  byPath : ∀ use ∈ [NameUse.cat, .nano, .del],
    (lookup next (token args) use = some fs.fsTable.length ↔ PathKept fs (token args))
  byFileName : lookup next (token args) .copy = some fs.fsTable.length ↔
    NameStored fs (token args) ∧ findTyped fs (token args) 0 = none
  byName : ∀ use ∈ [NameUse.move, .chmod, .attrib],
    (lookup next (token args) use = some fs.fsTable.length ↔
      NameStored fs (token args) ∧ findEntry fs (token args) = none)
  undone : (cmdDel next args).map (fun update => update.fs.fsTable) = some fs.fsTable ↔ PathKept fs (token args)
  missed : ¬ ∀ use ∈ fileUses, lookup next (token args) use = some fs.fsTable.length

structure DirectoryLookups (fs next : FileSystem) (args : List UInt8) : Prop where
  byPath : lookup next (token args) .cd = some fs.fsTable.length ↔
    PathKept fs (token args) ∧ token args ≠ ascii ".."
  byName : lookup next (token args) .rmdir = some fs.fsTable.length ↔
    NameStored fs (token args) ∧ findTyped fs (token args) 1 = none
  undone : lookup next (token args) .rmdir = some fs.fsTable.length →
    (cmdRmdir next args).map (fun update => update.fs.fsTable) = some fs.fsTable
  missed : ¬ ∀ use ∈ directoryUses, lookup next (token args) use = some fs.fsTable.length

theorem find_last {α : Type} (p : α → Bool) (xs : List α) (x : α) :
    (xs ++ [x]).findIdx? p = some xs.length ↔ xs.findIdx? p = none ∧ p x = true := by
  rw [List.findIdx?_append]
  cases found : xs.findIdx? p with
  | some i =>
      obtain ⟨inside, _⟩ := find_index_lt p xs i found
      simp only [Option.some_or, Option.some.injEq, reduceCtorEq, false_and, iff_false]
      omega
  | none =>
      by_cases holds : p x = true <;> simp [holds]

theorem find_entry_last (fs : FileSystem) (entry : FSEntry) (name : List UInt8) :
    findEntry (addEntry fs entry) name = some fs.fsTable.length ↔ findEntry fs name = none ∧ entry.name = name := by
  rw [findEntry, addEntry, find_last, decide_eq_true_eq]
  rfl

theorem find_typed_last (fs : FileSystem) (entry : FSEntry) (name : List UInt8) (type : UInt8) :
    findTyped (addEntry fs entry) name type = some fs.fsTable.length ↔
      findTyped fs name type = none ∧ entry.name = name ∧ entry.type = type := by
  rw [findTyped, addEntry, find_last, decide_eq_true_eq]
  rfl

theorem find_typed_absent (fs : FileSystem) (name : List UInt8) (type : UInt8) (absent : findEntry fs name = none) :
    findTyped fs name type = none := by
  rw [findEntry, List.findIdx?_eq_none_iff] at absent
  rw [findTyped, List.findIdx?_eq_none_iff]
  intro entry member
  have different := absent entry member
  simp only [decide_eq_false_iff_not] at different ⊢
  exact fun same => different same.1

theorem stored_whole (fs : FileSystem) (name : List UInt8) :
    storedName (fs.currentDir ++ name) = fs.currentDir ++ name ↔ PathKept fs name := by
  rw [storedName, PathKept, List.take_eq_self_iff, List.length_append]

theorem create_named_made (fs : FileSystem) (type attr : UInt8) (present : Int) (args : List UInt8) (update : Update)
    (made : createNamed type attr present fs args = some update) (saves : update.saves = true) :
    token args ≠ [] ∧ fullPath fs.currentDir (token args) = some (fs.currentDir ++ token args) ∧
      findEntry fs (fs.currentDir ++ token args) = none ∧
      update.fs = addEntry fs ⟨storedName (fs.currentDir ++ token args), 0, type, attr⟩ := by
  have noSave (code : Int) (done : unsaved fs code = some update) : False := by
    cases done
    cases saves
  simp only [createNamed] at made
  by_cases empty : token args = []
  · rw [if_pos empty] at made
    exact (noSave _ made).elim
  rw [if_neg empty] at made
  by_cases full : fsMaxFiles ≤ fs.fsTable.length
  · rw [if_pos full] at made
    exact (noSave _ made).elim
  rw [if_neg full] at made
  obtain ⟨path, built, made⟩ := Option.bind_eq_some_iff.mp made
  by_cases taken : (findEntry fs path).isSome = true
  · rw [if_pos taken] at made
    exact (noSave _ made).elim
  rw [if_neg taken] at made
  have whole := full_path_some fs.currentDir (token args) path built
  subst whole
  exact ⟨empty, built, by simpa using taken, saved_fs _ _ made⟩

theorem name_not_whole (fs : FileSystem) (name : List UInt8) (dir : fs.currentDir ≠ []) (kept : PathKept fs name) :
    ¬ NameStored fs name := by
  intro same
  rw [NameStored, (stored_whole fs name).mpr kept] at same
  have lengths := congrArg List.length same
  rw [List.length_append] at lengths
  exact dir (List.length_eq_zero_iff.mp (by omega))

theorem erase_last (fs : FileSystem) (entry : FSEntry) :
    (removeAt (addEntry fs entry) fs.fsTable.length).fsTable = fs.fsTable := by
  rw [removeAt, addEntry, List.eraseIdx_append_of_length_le (Nat.le_refl _), Nat.sub_self]
  exact List.append_nil _

section
variable (fs : FileSystem) (name : List UInt8) (type attr : UInt8)
  (built : fullPath fs.currentDir name = some (fs.currentDir ++ name))
  (absent : findEntry fs (fs.currentDir ++ name) = none)
include built absent

theorem path_lookup : pathTyped (addEntry fs ⟨storedName (fs.currentDir ++ name), 0, type, attr⟩) name type =
    some fs.fsTable.length ↔ PathKept fs name := by
  have same : (addEntry fs ⟨storedName (fs.currentDir ++ name), 0, type, attr⟩).currentDir = fs.currentDir := rfl
  rw [pathTyped, same, built, Option.bind_some, find_typed_last, ← stored_whole]
  exact ⟨fun found => found.2.1, fun kept => ⟨find_typed_absent fs _ type absent, kept, rfl⟩⟩

theorem path_lookup_none (cut : ¬ PathKept fs name) :
    pathTyped (addEntry fs ⟨storedName (fs.currentDir ++ name), 0, type, attr⟩) name type = none := by
  have same : (addEntry fs ⟨storedName (fs.currentDir ++ name), 0, type, attr⟩).currentDir = fs.currentDir := rfl
  have before := find_typed_absent fs (fs.currentDir ++ name) type absent
  rw [findTyped] at before
  rw [← stored_whole] at cut
  rw [pathTyped, same, built, Option.bind_some, findTyped, addEntry, List.findIdx?_append, before]
  simp [cut]
end

theorem file_lookups (fs : FileSystem) (args : List UInt8) (update : Update) (dir : fs.currentDir ≠ [])
    (made : cmdTouch fs args = some update) (saves : update.saves = true) : FileLookups fs update.fs args := by
  obtain ⟨named, built, absent, same⟩ := create_named_made fs 0 0x20 0 args update made saves
  have here : pathTyped update.fs (token args) 0 = some fs.fsTable.length ↔ PathKept fs (token args) := by
    rw [same]
    exact path_lookup fs (token args) 0 0x20 built absent
  have entryHere : findEntry update.fs (token args) = some fs.fsTable.length ↔
      NameStored fs (token args) ∧ findEntry fs (token args) = none := by
    rw [same, find_entry_last, and_comm]
    rfl
  have builtAfter : fullPath update.fs.currentDir (token args) = some (fs.currentDir ++ token args) := by
    rw [same]
    exact built
  refine ⟨fun use inside => ?_, ?_, fun use inside => ?_, ?_, fun all => ?_⟩
  · simp only [List.mem_cons, List.not_mem_nil, or_false] at inside
    rcases inside with rfl | rfl | rfl <;> exact here
  · rw [lookup, same, find_typed_last]
    exact ⟨fun found => ⟨found.2.1, found.1⟩, fun stored => ⟨stored.2, stored.1, rfl⟩⟩
  · simp only [List.mem_cons, List.not_mem_nil, or_false] at inside
    rcases inside with rfl | rfl | rfl <;> exact entryHere
  · rw [del_by_lookup update.fs args named _ builtAfter, lookup]
    by_cases kept : PathKept fs (token args)
    · rw [here.mpr kept, same]
      exact iff_of_true (congrArg some (erase_last fs _)) kept
    · refine iff_of_false ?_ kept
      rw [same, path_lookup_none fs (token args) 0 0x20 built absent kept]
      intro undone
      have lengths := congrArg List.length (Option.some.inj undone)
      simp [addEntry] at lengths
  · have kept := here.mp (all .cat (by decide))
    exact name_not_whole fs (token args) dir kept (entryHere.mp (all .move (by decide))).1

theorem directory_lookups (fs : FileSystem) (args : List UInt8) (update : Update) (dir : fs.currentDir ≠ [])
    (made : cmdMkdir fs args = some update) (saves : update.saves = true) : DirectoryLookups fs update.fs args := by
  obtain ⟨named, built, absent, same⟩ := create_named_made fs 1 0x10 (-1) args update made saves
  have entered : lookup update.fs (token args) .cd = some fs.fsTable.length ↔
      PathKept fs (token args) ∧ token args ≠ ascii ".." := by
    rw [lookup, same]
    by_cases up : token args = ascii ".."
    · rw [if_pos up]
      exact iff_of_false (by simp) fun kept => kept.2 up
    · rw [if_neg up, path_lookup fs (token args) 1 0x10 built absent]
      exact ⟨fun kept => ⟨kept, up⟩, fun kept => kept.1⟩
  have removed : lookup update.fs (token args) .rmdir = some fs.fsTable.length ↔
      NameStored fs (token args) ∧ findTyped fs (token args) 1 = none := by
    rw [lookup, same, find_typed_last]
    exact ⟨fun found => ⟨found.2.1, found.1⟩, fun stored => ⟨stored.2, stored.1, rfl⟩⟩
  refine ⟨entered, removed, fun found => ?_, fun all => ?_⟩
  · rw [rmdir_by_lookup update.fs args named, found, same]
    exact congrArg some (erase_last fs _)
  · have kept := (entered.mp (all .cd (by decide))).1
    exact name_not_whole fs (token args) dir kept (removed.mp (all .rmdir (by decide))).1

theorem current_dir_nonempty (machine : Machine) (run : Run Booted FsStep (fun _ _ => True) machine) :
    machine.fs.currentDir ≠ [] := by
  have rooted := (well_formed_run _ machine run).fs.dir.rooted
  intro empty
  rw [empty, List.prefix_nil] at rooted
  exact absurd rooted (by decide)

theorem created_entry_missed (machine : Machine) (run : Run Booted FsStep (fun _ _ => True) machine)
    (args : List UInt8) (update : Update) (saves : update.saves = true) :
    (cmdTouch machine.fs args = some update → FileLookups machine.fs update.fs args) ∧
      (cmdMkdir machine.fs args = some update → DirectoryLookups machine.fs update.fs args) :=
  have dir := current_dir_nonempty machine run
  ⟨fun made => file_lookups machine.fs args update dir made saves,
    fun made => directory_lookups machine.fs args update dir made saves⟩

theorem created_entry_missed_letter : ∃ update : Update, cmdTouch firstBoot.fs (ascii "A") = some update ∧
    lookup update.fs (ascii "A") .cat = some 0 ∧ ¬ lookup update.fs (ascii "A") .copy = some 0 := by
  have evaluated : (cmdTouch firstBoot.fs (ascii "A")).any (fun update =>
      update.saves = true ∧ firstBoot.fs.fsTable.length = 0) = true := by decide +kernel
  obtain ⟨update, made, reached⟩ := (Option.any_eq_true _ _).mp evaluated
  obtain ⟨saves, empty⟩ := of_decide_eq_true reached
  have lookups := (created_entry_missed firstBoot (.start _ first_boot_booted) (ascii "A") update saves).1 made
  have name : token (ascii "A") = ascii "A" := by decide
  have byPath := lookups.byPath .cat (by decide)
  have byName := lookups.byFileName
  rw [name, empty] at byPath byName
  refine ⟨update, made, byPath.mpr (by decide +kernel), fun found => ?_⟩
  exact absurd (byName.mp found).1 (by decide +kernel)

theorem created_entry_not_always_found : ¬ ∀ machine, Run Booted FsStep (fun _ _ => True) machine →
    ∀ args update, cmdTouch machine.fs args = some update → update.saves = true →
      ∀ use ∈ fileUses, lookup update.fs (token args) use = some machine.fs.fsTable.length := by
  intro claimed
  have evaluated : (cmdTouch firstBoot.fs (ascii "A")).any (fun update =>
      update.saves = true ∧ lookup update.fs (ascii "A") .copy = none) = true := by decide +kernel
  obtain ⟨update, made, reached⟩ := (Option.any_eq_true _ _).mp evaluated
  obtain ⟨saves, missed⟩ := of_decide_eq_true reached
  have found := claimed firstBoot (.start _ first_boot_booted) (ascii "A") update made saves .copy (by decide)
  have name : token (ascii "A") = ascii "A" := by decide
  rw [name, missed] at found
  cases found

end RoDos.Fs
