import Mathlib.Data.List.InsertIdx
import Mathlib.Data.List.Nodup
import RoDos.Fs.WellFormed

set_option autoImplicit false

namespace RoDos.Fs

open Base

def sizes (fs : FileSystem) : List Nat := fs.fsTable.map FSEntry.size

structure SizesAgree (fs : FileSystem) : Prop where
  small : ∀ content ∈ fs.fileContents, content.size ≤ maxFileSize
  recorded : ∀ content ∈ fs.fileContents, (sizes fs)[content.fileIdx]? = some content.size
  shown : ∀ position, contentOf fs position ≠ none
  copied : ∀ src dst, copyContent fs src dst ≠ none
  saved : .outOfBounds ∉ saveActions fs

-- A long body is written nowhere only if its name is new and the table is full.
def Rejected (fs : FileSystem) (filename : List UInt8) : Prop :=
  fsMaxFiles ≤ fs.fsTable.length ∧ ∀ path, contentPath fs filename = some path → findEntry fs path = none

def SizesGuarded (machine : Machine) : FsOp → Prop
  | .command (.wget outputFile body) _ =>
      body.length ≤ maxFileSize ∨ Rejected machine.fs ((cString outputFile).take 63)
  | .command command _ =>
      ∀ i, removes machine.fs command = some i → ∀ content ∈ machine.fs.fileContents, i ≤ content.fileIdx →
        (sizes machine.fs)[content.fileIdx + 1]? = some content.size
  | .reboot _ => True

structure SizesOk (fs : FileSystem) : Prop where
  small : ∀ size ∈ sizes fs, size ≤ maxFileSize
  recorded : ∀ content ∈ fs.fileContents, (sizes fs)[content.fileIdx]? = some content.size
  owners : (fs.fileContents.map FileContent.fileIdx).Nodup

theorem sizes_ok_agree (fs : FileSystem) (ok : SizesOk fs) : SizesAgree fs := by
  have small (content : FileContent) (member : content ∈ fs.fileContents) : content.size ≤ maxFileSize :=
    ok.small _ (List.mem_of_getElem? (ok.recorded content member))
  refine ⟨small, ok.recorded, fun position => ?_, fun src dst => ?_, fun stray => ?_⟩
  · rw [contentOf]
    cases found : fs.fileContents.find? fun content => content.fileIdx = position with
    | none => simp
    | some content => simp [contentBytes, small content (List.mem_of_find?_eq_some found)]
  · rw [copyContent]
    cases found : fs.fileContents.find? fun content => content.fileIdx = src with
    | none => simp
    | some content =>
        by_cases room : fs.fileContents.length < maxContents <;>
          simp [room, contentBytes, small content (List.mem_of_find?_eq_some found)]
  · rcases List.mem_cons.mp stray with dir | stray
    · cases dir
    rcases List.mem_append.mp stray with files | stray
    · exact save_slots_inside _ _ _ files
    rcases List.mem_append.mp stray with users | contents
    · exact save_slots_inside _ _ _ users
    obtain ⟨content, member, stray⟩ := List.mem_flatMap.mp contents
    rcases List.mem_append.mp stray with filled | cleared
    · obtain ⟨s, range, same⟩ := List.mem_map.mp filled
      rcases save_content_sector_inside content s (small content member) with write | behind
      · rw [write] at same
        cases same
      · have inside := List.mem_range.mp range
        omega
    · obtain ⟨s, _, same⟩ := List.mem_map.mp cleared
      cases same

structure Sized (before after : List Nat) (i size : Nat) : Prop where
  here : after[i]? = some size
  others : ∀ (k n : Nat), k ≠ i → before[k]? = some n → after[k]? = some n
  bounded : ∀ n ∈ after, n ∈ before ∨ n = size

structure Resized (before after : List FileContent) (i size : Nat) : Prop where
  records : ∀ content ∈ after, (content ∈ before ∧ content.fileIdx ≠ i) ∨ (content.fileIdx = i ∧ content.size = size)
  owners : (after.map FileContent.fileIdx).Nodup

theorem sized_set (before : List Nat) (i size : Nat) (inside : i < before.length) :
    Sized before (before.set i size) i size := by
  refine ⟨by rw [List.getElem?_set_self inside], fun k n different found => ?_, fun n member => ?_⟩
  · rw [List.getElem?_set_ne (Ne.symm different)]
    exact found
  · exact List.mem_or_eq_of_mem_set member

theorem sized_append (before : List Nat) (size : Nat) : Sized before (before ++ [size]) before.length size := by
  refine ⟨by simp, fun k n _ found => ?_, fun n member => ?_⟩
  · obtain ⟨inside, _⟩ := List.getElem?_eq_some_iff.mp found
    rw [List.getElem?_append_left inside]
    exact found
  · exact (List.mem_append.mp member).imp_right List.mem_singleton.mp

section
variable (fs next : FileSystem) (ok : SizesOk fs)
include ok

theorem sizes_ok_changed (i size : Nat) (fits : size ≤ maxFileSize) (sized : Sized (sizes fs) (sizes next) i size)
    (resized : Resized fs.fileContents next.fileContents i size) : SizesOk next := by
  refine ⟨fun n member => ?_, fun content member => ?_, resized.owners⟩
  · rcases sized.bounded n member with old | new
    · exact ok.small n old
    · exact new ▸ fits
  · rcases resized.records content member with ⟨old, other⟩ | ⟨owner, same⟩
    · exact sized.others _ _ other (ok.recorded content old)
    · rw [owner, same]
      exact sized.here

theorem sizes_ok_same (contents : next.fileContents = fs.fileContents) (table : sizes next = sizes fs) : SizesOk next :=
  ⟨table ▸ ok.small, by rw [contents, table]; exact ok.recorded, contents ▸ ok.owners⟩

omit ok in
theorem resized_unowned (fs : FileSystem) (owners : (fs.fileContents.map FileContent.fileIdx).Nodup) (i size : Nat)
    (unowned : ∀ content ∈ fs.fileContents, content.fileIdx ≠ i) : Resized fs.fileContents fs.fileContents i size :=
  ⟨fun content member => Or.inl ⟨member, unowned content member⟩, owners⟩

theorem spare_unowned (content : FileContent) (member : content ∈ fs.fileContents) :
    content.fileIdx ≠ fs.fsTable.length := by
  obtain ⟨inside, _⟩ := List.getElem?_eq_some_iff.mp (ok.recorded content member)
  rw [sizes, List.length_map] at inside
  omega
end

theorem resized_append (before : List FileContent) (content : FileContent)
    (owners : (before.map FileContent.fileIdx).Nodup) (unowned : ∀ other ∈ before, other.fileIdx ≠ content.fileIdx) :
    Resized before (before ++ [content]) content.fileIdx content.size := by
  refine ⟨fun other member => ?_, ?_⟩
  · rcases List.mem_append.mp member with old | new
    · exact Or.inl ⟨old, unowned other old⟩
    · rw [List.mem_singleton.mp new]
      exact Or.inr ⟨rfl, rfl⟩
  · rw [List.map_append, List.map_singleton]
    refine List.nodup_append.mpr ⟨owners, List.nodup_singleton _, fun a inFront b inBack => ?_⟩
    obtain ⟨other, member, rfl⟩ := List.mem_map.mp inFront
    rw [List.mem_singleton.mp inBack]
    exact unowned other member

theorem owners_modify (contents : List FileContent) (c fileIdx size : Nat) (data : List UInt8 → List UInt8)
    (owner : contents[c]?.map FileContent.fileIdx = some fileIdx) :
    (contents.modify c fun content => ⟨fileIdx, size, data content.data⟩).map FileContent.fileIdx =
      contents.map FileContent.fileIdx := by
  refine List.ext_getElem? fun k => ?_
  rw [List.getElem?_map, List.getElem?_map, List.getElem?_modify]
  by_cases here : c = k
  · subst here
    obtain ⟨content, found, same⟩ := Option.map_eq_some_iff.mp owner
    simp [found, same]
  · cases contents[k]? <;> simp [here]

theorem put_content_resized (fs next : FileSystem) (fileIdx size : Nat) (data : List UInt8 → List UInt8)
    (owners : (fs.fileContents.map FileContent.fileIdx).Nodup) (put : putContent fs fileIdx data size = some next) :
    next.fsTable = fs.fsTable ∧ Resized fs.fileContents next.fileContents fileIdx size := by
  cases put_content_cases fs next fileIdx size data put with
  | appended absent same =>
      rw [findContent, List.findIdx?_eq_none_iff] at absent
      rw [same]
      exact ⟨rfl, resized_append fs.fileContents ⟨fileIdx, size, _⟩ owners fun other member => by
        simpa using absent other member⟩
  | filled c found inside owned same =>
      rw [same]
      refine ⟨rfl, fun content member => ?_, ?_⟩
      · obtain ⟨k, inside', kept⟩ := List.mem_iff_getElem.mp member
        rw [List.length_modify] at inside'
        rw [List.getElem_modify] at kept
        by_cases here : c = k
        · rw [if_pos here] at kept
          exact Or.inr ⟨by rw [← kept], by rw [← kept]⟩
        · rw [if_neg here] at kept
          refine Or.inl ⟨kept ▸ List.getElem_mem inside', fun claimed => here ?_⟩
          rw [← kept] at claimed
          have first : (fs.fileContents.map FileContent.fileIdx)[k]? = some fileIdx := by
            rw [List.getElem?_map, List.getElem?_eq_getElem inside', Option.map_some, claimed]
          have second : (fs.fileContents.map FileContent.fileIdx)[c]? = some fileIdx := by
            rw [List.getElem?_map, List.getElem?_eq_getElem inside, Option.map_some, owned]
          exact (List.getElem?_inj (by rw [List.length_map]; exact inside) owners).mp (second.trans first.symm)
      · rw [owners_modify _ c fileIdx size data (by rw [List.getElem?_eq_getElem inside]; simp [owned])]
        exact owners

theorem sizes_add_entry (fs : FileSystem) (entry : FSEntry) : sizes (addEntry fs entry) = sizes fs ++ [entry.size] := by
  rw [sizes, addEntry, List.map_append]
  rfl

theorem sizes_set_size (fs : FileSystem) (i size : Nat) : sizes (setSize fs i size) = (sizes fs).set i size :=
  map_modify_fixed _ fs.fsTable i _ size fun _ => rfl

theorem sizes_remove_at (fs : FileSystem) (i : Nat) : sizes (removeAt fs i) = (sizes fs).eraseIdx i :=
  (List.eraseIdx_map _ _ _).symm

theorem sizes_length (fs : FileSystem) : (sizes fs).length = fs.fsTable.length := List.length_map _

theorem set_size_sized (fs : FileSystem) (i size : Nat) (inside : i < fs.fsTable.length) :
    Sized (sizes fs) (sizes (setSize fs i size)) i size := by
  rw [sizes_set_size]
  exact sized_set (sizes fs) i size (by rw [sizes_length]; exact inside)

section
variable (fs : FileSystem) (update : Update) (ok : SizesOk fs)
include ok

theorem sizes_unsaved (code : Int) (done : unsaved fs code = some update) : SizesOk update.fs := by
  cases done
  exact ok

theorem create_sizes (type attr : UInt8) (present : Int) (args : List UInt8)
    (done : createNamed type attr present fs args = some update) : SizesOk update.fs := by
  simp only [createNamed] at done
  by_cases empty : token args = []
  · rw [if_pos empty] at done
    exact sizes_unsaved fs update ok _ done
  rw [if_neg empty] at done
  by_cases full : fsMaxFiles ≤ fs.fsTable.length
  · rw [if_pos full] at done
    exact sizes_unsaved fs update ok _ done
  rw [if_neg full] at done
  obtain ⟨path, _, done⟩ := Option.bind_eq_some_iff.mp done
  by_cases found : (findEntry fs path).isSome = true
  · rw [if_pos found] at done
    exact sizes_unsaved fs update ok _ done
  rw [if_neg found] at done
  rw [saved_fs _ _ done]
  refine sizes_ok_changed fs _ ok fs.fsTable.length 0 (Nat.zero_le _) ?_
    (resized_unowned fs ok.owners _ _ (spare_unowned fs ok))
  rw [sizes_add_entry, ← sizes_length]
  exact sized_append (sizes fs) 0

theorem put_sizes (i size : Nat) (data : List UInt8 → List UInt8) (written : FileSystem)
    (fits : size ≤ maxFileSize) (inside : i < fs.fsTable.length)
    (put : putContent fs i data size = some written) : SizesOk (setSize written i size) := by
  obtain ⟨table, resized⟩ := put_content_resized fs written i size data ok.owners put
  refine sizes_ok_changed fs (setSize written i size) ok i size fits ?_ resized
  have same : sizes written = sizes fs := by rw [sizes, table, sizes]
  rw [← same]
  exact set_size_sized written i size (table ▸ inside)
end

theorem sizes_opened (fs : FileSystem) (ok : SizesOk fs) (entry : FSEntry) (small : entry.size ≤ maxFileSize) :
    SizesOk (addEntry fs entry) := by
  refine sizes_ok_changed fs (addEntry fs entry) ok fs.fsTable.length entry.size small ?_
    (resized_unowned fs ok.owners _ _ (spare_unowned fs ok))
  rw [sizes_add_entry, ← sizes_length]
  exact sized_append (sizes fs) entry.size

theorem opened_sizes (fs : FileSystem) (ok : SizesOk fs) (found : Option Nat) (entry : FSEntry)
    (inside : ∀ i, found = some i → i < fs.fsTable.length) (small : entry.size ≤ maxFileSize) :
    SizesOk (if found = none then addEntry fs entry else fs) ∧
      found.getD fs.fsTable.length < (if found = none then addEntry fs entry else fs).fsTable.length := by
  cases found with
  | some i => exact ⟨ok, inside i rfl⟩
  | none =>
      refine ⟨sizes_opened fs ok entry small, ?_⟩
      show fs.fsTable.length < (fs.fsTable ++ [entry]).length
      rw [List.length_append]
      exact Nat.lt_succ_self _

theorem unput_sizes (fs : FileSystem) (ok : SizesOk fs) (i size : Nat) (data : List UInt8 → List UInt8)
    (fits : size ≤ maxFileSize) (inside : i < fs.fsTable.length) (put : putContent (setSize fs i size) i data size = none) :
    SizesOk (setSize fs i size) := by
  refine sizes_ok_changed fs (setSize fs i size) ok i size fits (set_size_sized fs i size inside)
    (resized_unowned fs ok.owners i _ fun content member owner => ?_)
  have present := put_content_room (setSize fs i size) i size data
  rw [put] at present
  have missing : findContent (setSize fs i size) i = none := by simpa using (Bool.or_eq_false_iff.mp present.symm).1
  have absent : findContent fs i = none := missing
  rw [findContent, List.findIdx?_eq_none_iff] at absent
  exact absurd owner (by simpa using absent content member)

theorem sized_put_sizes (fs written : FileSystem) (ok : SizesOk fs) (i size : Nat) (data : List UInt8 → List UInt8)
    (fits : size ≤ maxFileSize) (inside : i < fs.fsTable.length)
    (put : putContent (setSize fs i size) i data size = some written) : SizesOk written := by
  obtain ⟨same, resized⟩ := put_content_resized (setSize fs i size) written i size data ok.owners put
  refine sizes_ok_changed fs written ok i size fits ?_ resized
  have kept : sizes written = sizes (setSize fs i size) := by rw [sizes, same, sizes]
  rw [kept]
  exact set_size_sized fs i size inside

section
variable (fs : FileSystem) (update : Update) (ok : SizesOk fs)
include ok

theorem nano_sizes (args : List UInt8) (memory : Bool) (keys : List UInt16)
    (done : cmdNano fs args memory keys = some update) : SizesOk update.fs := by
  have leaves := cmd_nano_leaves fs update args memory keys done
  generalize update.fs = next at leaves ⊢
  cases leaves with
  | same => exact ok
  | saved path edited written given built space free typed kept put =>
      have short := nano_edit_length _ _ _ (nano_load_length fs _) typed
      have fits : edited.2.length ≤ maxFileSize := Nat.le_trans short (Nat.sub_le _ _)
      obtain ⟨openedOk, inside⟩ := opened_sizes fs ok (findTyped fs path 0) ⟨storedName path, 0, 0, 0x20⟩
        (fun i found => (find_index_lt _ _ _ found).1) (Nat.zero_le _)
      exact put_sizes _ openedOk _ _ _ written fits inside put

theorem copy_sizes (args : List UInt8) (done : cmdCopy fs args = some update) : SizesOk update.fs := by
  simp only [cmdCopy] at done
  by_cases empty : token args = [] ∨ secondToken args = []
  · rw [if_pos empty] at done
    exact sizes_unsaved fs update ok _ done
  rw [if_neg empty] at done
  cases found : findTyped fs (token args) 0 with
  | none =>
      simp only [found] at done
      exact sizes_unsaved fs update ok _ done
  | some i =>
      simp only [found] at done
      by_cases full : fsMaxFiles ≤ fs.fsTable.length
      · rw [if_pos full] at done
        exact sizes_unsaved fs update ok _ done
      rw [if_neg full] at done
      obtain ⟨copied, copy, done⟩ := Option.bind_eq_some_iff.mp done
      rw [saved_fs _ _ done]
      obtain ⟨inside, _⟩ := find_index_lt _ _ _ found
      have source : (sizes fs)[i]? = some (fs.fsTable.getD i ⟨[], 0, 0, 0⟩).size := by
        rw [sizes, List.getElem?_map, List.getElem?_eq_getElem inside, List.getD_eq_getElem?_getD,
          List.getElem?_eq_getElem inside]
        rfl
      have small := ok.small _ (List.mem_of_getElem? source)
      have opened := sizes_opened fs ok ⟨storedName (secondToken args), (fs.fsTable.getD i ⟨[], 0, 0, 0⟩).size, 0,
        (fs.fsTable.getD i ⟨[], 0, 0, 0⟩).attr⟩ small
      rw [copyContent] at copy
      cases record : (addEntry fs ⟨storedName (secondToken args), (fs.fsTable.getD i ⟨[], 0, 0, 0⟩).size, 0,
          (fs.fsTable.getD i ⟨[], 0, 0, 0⟩).attr⟩).fileContents.find? fun content => content.fileIdx = i with
      | none =>
          rw [record, Option.some.injEq] at copy
          exact copy ▸ opened
      | some content =>
          simp only [record] at copy
          by_cases room : fs.fileContents.length < maxContents
          · rw [addEntry, if_pos room] at copy
            obtain ⟨bytes, _, same⟩ := Option.map_eq_some_iff.mp copy
            have member : content ∈ fs.fileContents := List.mem_of_find?_eq_some record
            have owner : content.fileIdx = i := by simpa using List.find?_some record
            have length := ok.recorded content member
            rw [owner, source, Option.some.injEq] at length
            refine sizes_ok_changed fs copied ok fs.fsTable.length content.size (length ▸ small) ?_ ?_
            · have table : sizes copied = sizes fs ++ [content.size] := by
                rw [← same, ← length, sizes, List.map_append]
                rfl
              rw [table, ← sizes_length]
              exact sized_append (sizes fs) content.size
            · rw [← same]
              exact resized_append fs.fileContents ⟨fs.fsTable.length, content.size, _⟩ ok.owners (spare_unowned fs ok)
          · rw [addEntry, if_neg room, Option.some.injEq] at copy
            exact copy ▸ opened

theorem wget_sizes (outputFile body : List UInt8)
    (guarded : body.length ≤ maxFileSize ∨ Rejected fs ((cString outputFile).take 63))
    (done : cmdWgetSave fs outputFile body = some update) : SizesOk update.fs := by
  simp only [cmdWgetSave] at done
  split at done
  · cases done
  obtain ⟨result, made, done⟩ := Option.bind_eq_some_iff.mp done
  have same : update.fs = result.1 := by
    split at done
    · exact saved_fs _ _ done
    · cases done
      rfl
  rw [same]
  obtain ⟨path, built, made⟩ := Option.bind_eq_some_iff.mp made
  by_cases full : findEntry fs path = none ∧ fsMaxFiles ≤ fs.fsTable.length
  · rw [if_pos full] at made
    cases made
    exact ok
  rw [if_neg full] at made
  have fits : body.length ≤ maxFileSize := guarded.resolve_right fun rejected =>
    full ⟨rejected.2 path built, rejected.1⟩
  have kept : (body.take maxFileSize).length = body.length := by rw [List.length_take, Nat.min_eq_right fits]
  simp only [kept] at made
  obtain ⟨openedOk, inside⟩ := opened_sizes fs ok (findEntry fs path) ⟨storedName path, 0, 0, 0⟩
    (fun i found => (find_index_lt _ _ _ found).1) (Nat.zero_le _)
  generalize (if findEntry fs path = none then addEntry fs ⟨storedName path, 0, 0, 0⟩ else fs) = opened
    at openedOk inside made
  generalize (findEntry fs path).getD fs.fsTable.length = i at inside made
  cases put : putContent (setSize opened i body.length) i (fun old => body.take maxFileSize ++ old.drop body.length)
      body.length with
  | none =>
      rw [put] at made
      cases made
      exact unput_sizes opened openedOk i body.length _ fits inside put
  | some written =>
      rw [put] at made
      cases made
      exact sized_put_sizes opened written openedOk i body.length _ fits inside put
end

structure Quiet (fs next : FileSystem) : Prop where
  contents : next.fileContents = fs.fileContents
  table : sizes next = sizes fs

section
variable (fs : FileSystem) (update : Update) (args : List UInt8)

theorem cd_quiet (done : cmdCd fs args = some update) : Quiet fs update.fs := by
  simp only [cmdCd] at done
  split at done
  · cases done
    exact ⟨rfl, rfl⟩
  split at done
  · cases done
    exact ⟨rfl, rfl⟩
  obtain ⟨path, _, done⟩ := Option.bind_eq_some_iff.mp done
  split at done <;> (cases done; exact ⟨rfl, rfl⟩)

theorem move_quiet (done : cmdMove fs args = some update) : Quiet fs update.fs := by
  simp only [cmdMove] at done
  split at done
  · cases done
    exact ⟨rfl, rfl⟩
  split at done
  · rename_i i found
    cases done
    exact ⟨rfl, map_modify_same _ fs.fsTable i _ fun _ => rfl⟩
  · cases done
    exact ⟨rfl, rfl⟩

theorem chmod_quiet (done : cmdChmod fs args = some update) : Quiet fs update.fs := by
  simp only [cmdChmod] at done
  split at done
  · cases done
    exact ⟨rfl, rfl⟩
  split at done
  · rename_i i found
    cases done
    exact ⟨rfl, map_modify_same _ fs.fsTable i _ fun _ => rfl⟩
  · cases done
    exact ⟨rfl, rfl⟩

theorem useradd_quiet (done : cmdUseradd fs args = some update) : Quiet fs update.fs := by
  simp only [cmdUseradd] at done
  split at done
  · cases done
    exact ⟨rfl, rfl⟩
  split at done
  · cases done
    exact ⟨rfl, rfl⟩
  split at done <;> (cases done; exact ⟨rfl, rfl⟩)

theorem userdel_quiet (done : cmdUserdel fs args = some update) : Quiet fs update.fs := by
  simp only [cmdUserdel] at done
  split at done
  · cases done
    exact ⟨rfl, rfl⟩
  split at done <;> (cases done; exact ⟨rfl, rfl⟩)

theorem passwd_quiet (keys : List UInt16) (done : cmdPasswd fs args keys = some update) : Quiet fs update.fs := by
  simp only [cmdPasswd] at done
  split at done
  · cases done
    exact ⟨rfl, rfl⟩
  · obtain ⟨pwd, _, done⟩ := Option.bind_eq_some_iff.mp done
    cases done
    exact ⟨rfl, rfl⟩

theorem login_quiet (done : cmdLogin fs args = some update) : Quiet fs update.fs := by
  simp only [cmdLogin] at done
  split at done
  · cases done
    exact ⟨rfl, rfl⟩
  split at done <;> (cases done; exact ⟨rfl, rfl⟩)
end

section
variable (fs : FileSystem) (update : Update) (ok : SizesOk fs)
include ok

theorem quiet_sizes (next : FileSystem) (quiet : Quiet fs next) : SizesOk next :=
  sizes_ok_same fs next ok quiet.contents quiet.table

theorem removed_sizes (i : Nat)
    (guarded : ∀ content ∈ fs.fileContents, i ≤ content.fileIdx →
      (sizes fs)[content.fileIdx + 1]? = some content.size) : SizesOk (removeAt fs i) := by
  have table : sizes (removeAt fs i) = (sizes fs).eraseIdx i := sizes_remove_at fs i
  refine ⟨fun size member => ok.small size ?_, fun content member => ?_, ok.owners⟩
  · rw [table] at member
    exact List.mem_of_mem_eraseIdx member
  · rw [table, List.getElem?_eraseIdx]
    by_cases before : content.fileIdx < i
    · rw [if_pos before]
      exact ok.recorded content member
    · rw [if_neg before]
      exact guarded content member (Nat.le_of_not_lt before)

theorem remove_found_sizes (found : Option Nat)
    (guarded : ∀ i, found = some i → ∀ content ∈ fs.fileContents, i ≤ content.fileIdx →
      (sizes fs)[content.fileIdx + 1]? = some content.size)
    (done : removeFound fs found = some update) : SizesOk update.fs := by
  cases found with
  | none =>
      cases done
      exact ok
  | some i =>
      cases done
      exact removed_sizes fs ok i (guarded i rfl)

theorem rmdir_sizes (args : List UInt8)
    (guarded : ∀ i, removes fs (.rmdir args) = some i → ∀ content ∈ fs.fileContents, i ≤ content.fileIdx →
      (sizes fs)[content.fileIdx + 1]? = some content.size)
    (done : cmdRmdir fs args = some update) : SizesOk update.fs := by
  simp only [cmdRmdir] at done
  simp only [removes] at guarded
  by_cases empty : token args = []
  · rw [if_pos empty] at done
    exact sizes_unsaved fs update ok _ done
  · simp only [if_neg empty] at done guarded
    exact remove_found_sizes fs update ok _ guarded done

theorem del_sizes (args : List UInt8)
    (guarded : ∀ i, removes fs (.del args) = some i → ∀ content ∈ fs.fileContents, i ≤ content.fileIdx →
      (sizes fs)[content.fileIdx + 1]? = some content.size)
    (done : cmdDel fs args = some update) : SizesOk update.fs := by
  simp only [cmdDel] at done
  simp only [removes] at guarded
  by_cases empty : token args = []
  · rw [if_pos empty] at done
    exact sizes_unsaved fs update ok _ done
  · simp only [if_neg empty] at done guarded
    obtain ⟨path, built, done⟩ := Option.bind_eq_some_iff.mp done
    simp only [built, Option.bind_some] at guarded
    exact remove_found_sizes fs update ok _ guarded done

theorem format_sizes (k : UInt16) (done : cmdFormat fs k = some update) : SizesOk update.fs := by
  simp only [cmdFormat] at done
  split at done
  · cases done
    exact ⟨fun size member => absurd member List.not_mem_nil, fun content member => absurd member List.not_mem_nil,
      List.nodup_nil⟩
  · exact sizes_unsaved fs update ok _ done
end

theorem run_command_sizes (fs : FileSystem) (disk : Disk) (update : Update) (command : Command) (failing : Nat → Bool)
    (ok : SizesOk fs) (guarded : SizesGuarded ⟨fs, disk⟩ (.command command failing))
    (done : runCommand fs command = some update) : SizesOk update.fs := by
  cases command with
  | mkdir args => exact create_sizes fs update ok _ _ _ args done
  | rmdir args => exact rmdir_sizes fs update ok args guarded done
  | touch args => exact create_sizes fs update ok _ _ _ args done
  | del args => exact del_sizes fs update ok args guarded done
  | cd args => exact quiet_sizes fs ok update.fs (cd_quiet fs update args done)
  | cat args =>
      obtain ⟨shown, _, done⟩ := Option.bind_eq_some_iff.mp done
      exact sizes_unsaved fs update ok _ done
  | nano args memory keys => exact nano_sizes fs update ok args memory keys done
  | copy args => exact copy_sizes fs update ok args done
  | move args => exact quiet_sizes fs ok update.fs (move_quiet fs update args done)
  | chmod args => exact quiet_sizes fs ok update.fs (chmod_quiet fs update args done)
  | format k => exact format_sizes fs update ok k done
  | useradd args => exact quiet_sizes fs ok update.fs (useradd_quiet fs update args done)
  | userdel args => exact quiet_sizes fs ok update.fs (userdel_quiet fs update args done)
  | passwd args keys => exact quiet_sizes fs ok update.fs (passwd_quiet fs update args keys done)
  | login args => exact quiet_sizes fs ok update.fs (login_quiet fs update args done)
  | logout =>
      cases done
      exact quiet_sizes fs ok _ ⟨rfl, rfl⟩
  | wget outputFile body => exact wget_sizes fs update ok outputFile body guarded done

def SizesStored (disk : Disk) : Prop :=
  ∀ i < 64, (disk (fsDataStartLba + i)).getD 0 0 = 0 ∨ (decodeEntry (disk (fsDataStartLba + i))).size ≤ maxFileSize

theorem sizes_stored_save (failing : Nat → Bool) (fs : FileSystem) (disk finish : Disk) (complete : Bool)
    (wellFormed : FsOk fs) (ok : SizesOk fs) (before : SizesStored disk)
    (done : fsSaveToDisk failing fs disk = some (finish, complete)) : SizesStored finish := by
  intro i inside
  rcases perform_sectors failing 0 disk finish _ complete done (fsDataStartLba + i) with same |
    ⟨write, required, member, here, carried⟩
  · rw [same]
    exact before i inside
  · rw [carried]
    rcases save_write_file fs write (save_actions_write fs write required member) i inside here with
      ⟨entry, found, sector⟩ | blank
    · have listed := List.mem_of_getElem? found
      rw [sector, decode_entry_sector entry (wellFormed.entries entry listed)]
      exact Or.inr (ok.small _ (List.mem_map_of_mem listed))
    · exact Or.inl (blank.2 ▸ blank_sector_first)

theorem filter_map_sublist {α β γ : Type} (xs : List α) (f : α → Option β) (g : β → γ) (h : α → γ)
    (same : ∀ x y, f x = some y → g y = h x) : ((xs.filterMap f).map g).Sublist (xs.map h) := by
  induction xs with
  | nil => exact List.Sublist.refl _
  | cons x rest ih =>
      cases found : f x with
      | none =>
          rw [List.filterMap_cons_none found, List.map_cons]
          exact ih.cons _
      | some y =>
          rw [List.filterMap_cons_some found, List.map_cons, List.map_cons, same x y found]
          exact ih.cons_cons _

theorem load_content_some (failing : Nat → Bool) (disk : Disk) (entry : FSEntry) (i : Nat) (content : FileContent)
    (loaded : loadContent failing disk entry i = some content) :
    content.fileIdx = i ∧ content.size = entry.size := by
  rw [loadContent] at loaded
  split at loaded
  · cases loaded
    exact ⟨rfl, rfl⟩
  · cases loaded

theorem init_sizes (failing : Nat → Bool) (disk : Disk) (stored : SizesStored disk) :
    SizesOk (fsInitCommands failing disk) := by
  refine ⟨fun size member => ?_, fun content member => ?_, ?_⟩
  · obtain ⟨entry, listed, rfl⟩ := List.mem_map.mp member
    obtain ⟨i, range, occupied, decoded⟩ := load_table_member failing disk _ entry listed
    rw [decoded]
    exact (stored i (List.mem_range.mp range)).resolve_left occupied
  · obtain ⟨slot, slotIn, loaded⟩ := List.mem_filterMap.mp (List.mem_of_mem_take member)
    obtain ⟨owner, size⟩ := load_content_some failing disk slot.1 slot.2 content loaded
    have here : (fsInitCommands failing disk).fsTable[slot.2]? = some slot.1 := List.mem_zipIdx_iff_getElem?.mp slotIn
    rw [sizes, List.getElem?_map, owner, size, here, Option.map_some]
  · have owners : ((loadContents failing disk (loadTable failing disk (List.range 64))).map
        FileContent.fileIdx).Sublist ((loadTable failing disk (List.range 64)).zipIdx.map Prod.snd) :=
      ((List.take_sublist _ _).map _).trans (filter_map_sublist _ _ _ _ fun slot content loaded =>
        (load_content_some failing disk slot.1 slot.2 content loaded).1)
    apply owners.nodup
    rw [List.zipIdx_map_snd]
    exact List.nodup_range'

structure SizesKept (machine : Machine) : Prop where
  wellFormed : WellFormed machine
  sizes : SizesOk machine.fs
  stored : SizesStored machine.disk

theorem booted_sizes (machine : Machine) (boot : Booted machine) : SizesKept machine := by
  have stored : SizesStored machine.disk := fun i inside => Or.inl (boot.1.files i inside)
  refine ⟨booted_well_formed machine boot, ?_, stored⟩
  rw [boot.2]
  exact init_sizes never machine.disk stored

theorem sizes_step (machine next : Machine) (op : FsOp) (kept : SizesKept machine) (guarded : SizesGuarded machine op)
    (taken : FsStep machine op next) : SizesKept next := by
  have wellFormed := well_formed_step machine next op kept.wellFormed taken
  cases op with
  | command command failing =>
      obtain ⟨update, ran, same, outcome⟩ := step_command machine next command failing taken
      have sizes : SizesOk next.fs := by
        rw [same]
        exact run_command_sizes machine.fs machine.disk update command failing kept.sizes guarded ran
      rcases outcome with unsaved | ⟨complete, written⟩
      · exact ⟨wellFormed, sizes, unsaved.2 ▸ kept.stored⟩
      · exact ⟨wellFormed, sizes,
          sizes_stored_save failing next.fs machine.disk next.disk complete wellFormed.fs sizes kept.stored written⟩
  | reboot failing =>
      rw [step_reboot machine next failing taken] at wellFormed ⊢
      exact ⟨wellFormed, init_sizes failing machine.disk kept.stored, kept.stored⟩

theorem sizes_stay_agreed (machine : Machine) (run : Run Booted FsStep SizesGuarded machine) :
    SizesAgree machine.fs :=
  sizes_ok_agree machine.fs (run_invariant SizesKept booted_sizes sizes_step machine run).sizes

theorem sizes_stay_agreed_letter : ∃ machine : Machine, machine.fs.fileContents.map FileContent.size = [1] ∧
    SizesAgree machine.fs := by
  have evaluated : (stepOp firstBoot (plain (.nano (ascii "A") true (typed 120)))).any (fun one =>
      one.1.fs.fileContents.map FileContent.size = [1]) = true := by decide +kernel
  obtain ⟨one, first, reached⟩ := (Option.any_eq_true _ _).mp evaluated
  have unmoved : SizesGuarded firstBoot (plain (.nano (ascii "A") true (typed 120))) := by
    intro i removed
    cases removed
  exact ⟨one.1, of_decide_eq_true reached, sizes_stay_agreed one.1
    (.step firstBoot one.1 _ (.start _ first_boot_booted) unmoved ⟨one.2, first⟩)⟩

-- A download one byte longer than a record: after the restart CAT would read behind the record.
theorem sizes_not_always_agreed : ¬ ∀ machine, Run Booted FsStep (fun _ _ => True) machine → SizesAgree machine.fs := by
  intro claimed
  have evaluated : (runOps firstBoot [plain (.wget (ascii "A") (List.replicate 4097 0)), .reboot never]).any
      (fun machine => contentOf machine.fs 0 = none) = true := by decide +kernel
  obtain ⟨machine, done, reached⟩ := (Option.any_eq_true _ _).mp evaluated
  have run := run_ops_run firstBoot machine _ (.start _ first_boot_booted) done
  exact (claimed machine run).shown 0 (of_decide_eq_true reached)

end RoDos.Fs
