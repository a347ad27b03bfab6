import RoDos.Fs.Lookup

set_option autoImplicit false

namespace RoDos.Fs

def recordOf (fs : FileSystem) (position : Nat) : Option FileContent :=
  fs.fileContents.find? fun content => content.fileIdx = position

def recordedSize (fs : FileSystem) (position : Nat) : Nat := ((recordOf fs position).map FileContent.size).getD 0

def sizeAt (fs : FileSystem) (position : Nat) : Nat := (fs.fsTable.getD position ⟨[], 0, 0, 0⟩).size

def shownWith (fs : FileSystem) (size position : Nat) : Option (List UInt8) :=
  if size = 0 then some [] else contentOf fs position

def catPath (fs : FileSystem) (path : List UInt8) : Option (List UInt8 × Int) :=
  match findTyped fs path 0 with
  | none => some ([], -1)
  | some i => (shownWith fs (sizeAt fs i) i).map fun shown => (shown, 0)

def OthersKept (fs next : FileSystem) (position : Nat) : Prop :=
  ∀ other, other < fs.fsTable.length → other ≠ position →
    next.fsTable[other]? = fs.fsTable[other]? ∧ contentOf next other = contentOf fs other

theorem cmd_cat_path (fs : FileSystem) (args : List UInt8) (named : token args ≠ []) :
    cmdCat fs args = (fullPath fs.currentDir (token args)).bind (catPath fs) := by
  simp only [cmdCat, if_neg named]
  refine Option.bind_congr fun path _ => ?_
  rw [catPath]
  cases findTyped fs path 0 with
  | none => rfl
  | some i =>
      show (if sizeAt fs i = 0 then some ([], 0) else (contentOf fs i).map fun shown => (shown, 0)) =
        (if sizeAt fs i = 0 then some [] else contentOf fs i).map fun shown => (shown, 0)
      by_cases empty : sizeAt fs i = 0
      · rw [if_pos empty, if_pos empty]
        rfl
      · rw [if_neg empty, if_neg empty]

theorem content_of_record (fs : FileSystem) (position : Nat) :
    contentOf fs position = (recordOf fs position).elim (some []) contentBytes := by
  rw [contentOf, recordOf]
  cases fs.fileContents.find? fun content => content.fileIdx = position <;> rfl

theorem content_of_same (fs next : FileSystem) (position : Nat) (same : recordOf next position = recordOf fs position) :
    contentOf next position = contentOf fs position := content_of_congr fs next position same

theorem recorded_size_same (fs next : FileSystem) (position : Nat) (same : recordOf next position = recordOf fs position) :
    recordedSize next position = recordedSize fs position := by rw [recordedSize, same, recordedSize]

theorem content_bytes_some (content : FileContent) : (contentBytes content).isSome ↔ content.size ≤ maxFileSize := by
  rw [contentBytes]
  split <;> simp [*]

theorem record_of_append (fs : FileSystem) (content : FileContent) (position : Nat) :
    recordOf { fs with fileContents := fs.fileContents ++ [content] } position =
      (recordOf fs position).or (if content.fileIdx = position then some content else none) := by
  rw [recordOf, List.find?_append, recordOf, List.find?_singleton]
  simp only [decide_eq_true_eq]

theorem find_content_record (fs : FileSystem) (position : Nat) :
    findContent fs position = none ↔ recordOf fs position = none := by
  rw [findContent, recordOf, List.findIdx?_eq_none_iff, List.find?_eq_none]
  simp

theorem size_at_add_old (fs : FileSystem) (entry : FSEntry) (position : Nat) (old : position < fs.fsTable.length) :
    sizeAt (addEntry fs entry) position = sizeAt fs position := by
  rw [sizeAt, addEntry, List.getD_append _ _ _ _ old, sizeAt]

theorem size_at_add_new (fs : FileSystem) (entry : FSEntry) :
    sizeAt (addEntry fs entry) fs.fsTable.length = entry.size := by
  rw [sizeAt, addEntry, List.getD_append_right _ _ _ _ (Nat.le_refl _), Nat.sub_self]
  rfl

theorem find_typed_add_old (fs : FileSystem) (entry : FSEntry) (name : List UInt8) (type : UInt8) (i : Nat)
    (found : findTyped fs name type = some i) : findTyped (addEntry fs entry) name type = some i := by
  rw [findTyped, addEntry, List.findIdx?_append]
  rw [findTyped] at found
  rw [found]
  rfl

theorem find_append_new {α : Type} (p : α → Bool) (xs : List α) (x : α) (k : Nat) (absent : xs.findIdx? p = none)
    (found : (xs ++ [x]).findIdx? p = some k) : k = xs.length := by
  have behind := (find_index_lt _ _ _ found).1
  rw [List.length_append, List.length_singleton] at behind
  rw [List.findIdx?_append, absent, Option.none_or] at found
  obtain ⟨index, _, same⟩ := Option.map_eq_some_iff.mp found
  omega

theorem find_typed_add_new (fs : FileSystem) (entry : FSEntry) (name : List UInt8) (type : UInt8) (k : Nat)
    (absent : findTyped fs name type = none) (found : findTyped (addEntry fs entry) name type = some k) :
    k = fs.fsTable.length := by
  rw [findTyped, addEntry] at found
  exact find_append_new _ _ _ k absent found

theorem find_entry_add_new (fs : FileSystem) (entry : FSEntry) (name : List UInt8) (k : Nat)
    (absent : findEntry fs name = none) (found : findEntry (addEntry fs entry) name = some k) : k = fs.fsTable.length := by
  rw [findEntry, addEntry] at found
  exact find_append_new _ _ _ k absent found

theorem find_typed_lt (fs : FileSystem) (name : List UInt8) (type : UInt8) (i : Nat)
    (found : findTyped fs name type = some i) : i < fs.fsTable.length := (find_index_lt _ _ _ found).1

theorem find_entry_lt (fs : FileSystem) (name : List UInt8) (i : Nat) (found : findEntry fs name = some i) :
    i < fs.fsTable.length := (find_index_lt _ _ _ found).1

theorem find_modify_found {α : Type} (p : α → Bool) (xs : List α) (c : Nat) (f : α → α) (found : xs.findIdx? p = some c)
    (after : ∀ x, p (f x) = true) : ∃ x, (xs.modify c f).find? p = some (f x) := by
  induction xs generalizing c with
  | nil => cases found
  | cons x rest ih =>
      rw [List.findIdx?_cons] at found
      cases first : p x with
      | true =>
          rw [first] at found
          cases found
          exact ⟨x, by rw [List.modify_zero_cons, List.find?_cons, after]⟩
      | false =>
          rw [first] at found
          obtain ⟨k, behind, same⟩ := Option.map_eq_some_iff.mp found
          obtain ⟨y, further⟩ := ih k behind
          refine ⟨y, ?_⟩
          rw [← same, List.modify_succ_cons, List.find?_cons, first]
          exact further

theorem find_index_modify {α : Type} (p : α → Bool) (xs : List α) (i : Nat) (f : α → α) (same : ∀ x, p (f x) = p x) :
    (xs.modify i f).findIdx? p = xs.findIdx? p := by
  induction xs generalizing i with
  | nil => rw [List.modify_nil]
  | cons x rest ih =>
      cases i with
      | zero => rw [List.modify_zero_cons, List.findIdx?_cons, same, List.findIdx?_cons]
      | succ i => rw [List.modify_succ_cons, List.findIdx?_cons, ih i, List.findIdx?_cons]

theorem put_content_record (fs next : FileSystem) (fileIdx size : Nat) (data : List UInt8 → List UInt8)
    (put : putContent fs fileIdx data size = some next) :
    next.fsTable = fs.fsTable ∧ (∃ old, recordOf next fileIdx = some ⟨fileIdx, size, data old⟩) ∧
      ∀ other, other ≠ fileIdx → recordOf next other = recordOf fs other := by
  have cases' := put_content_cases fs next fileIdx size data put
  have others := content_put_others fs next fileIdx size data cases'
  cases cases' with
  | filled c found inside owned same =>
      obtain ⟨old, changed⟩ := find_modify_found _ fs.fileContents c
        (fun content => ⟨fileIdx, size, data content.data⟩) found (fun _ => decide_eq_true rfl)
      exact ⟨by rw [same], ⟨old.data, by rw [same]; exact changed⟩, others⟩
  | appended absent same =>
      refine ⟨by rw [same], ⟨List.replicate maxFileSize 0, ?_⟩, others⟩
      rw [same, record_of_append, (find_content_record fs fileIdx).mp absent, if_pos rfl]
      rfl

theorem put_content_written (fs next : FileSystem) (fileIdx size : Nat) (data : List UInt8 → List UInt8)
    (text : List UInt8) (small : size ≤ maxFileSize) (bytes : ∀ old, (data old).take size = text)
    (put : putContent fs fileIdx data size = some next) :
    contentOf next fileIdx = some text ∧ recordedSize next fileIdx = size := by
  obtain ⟨_, ⟨old, record⟩, _⟩ := put_content_record fs next fileIdx size data put
  rw [content_of_record, recordedSize, record]
  refine ⟨?_, rfl⟩
  show contentBytes ⟨fileIdx, size, data old⟩ = some text
  rw [contentBytes, if_pos small, bytes]

section
variable (fs : FileSystem) (i size : Nat)

theorem find_typed_set_size (name : List UInt8) (type : UInt8) :
    findTyped (setSize fs i size) name type = findTyped fs name type := find_index_modify _ _ _ _ fun _ => rfl

theorem find_entry_set_size (name : List UInt8) : findEntry (setSize fs i size) name = findEntry fs name :=
  find_index_modify _ _ _ _ fun _ => rfl

theorem set_size_other (other : Nat) (different : other ≠ i) :
    (setSize fs i size).fsTable[other]? = fs.fsTable[other]? :=
  List.getElem?_modify_ne _ _ (Ne.symm different)

variable (inside : i < fs.fsTable.length)
include inside

theorem size_at_set_size : sizeAt (setSize fs i size) i = size := by
  rw [sizeAt, setSize, List.getD_eq_getElem?_getD, List.getElem?_modify_eq, List.getElem?_eq_getElem inside]
  rfl

theorem set_size_same : setSize fs i size = fs ↔ sizeAt fs i = size := by
  constructor
  · intro same
    rw [← same]
    exact size_at_set_size fs i size inside
  · intro same
    have table : (fs.fsTable.modify i fun entry => { entry with size := size }) = fs.fsTable := by
      rw [List.modify_eq_set_getElem?, List.getElem?_eq_getElem inside]
      have here : sizeAt fs i = fs.fsTable[i].size := by rw [sizeAt, List.getD_eq_getElem _ _ inside]
      have whole : { fs.fsTable[i] with size := size } = fs.fsTable[i] := by rw [← same, here]
      show fs.fsTable.set i { fs.fsTable[i] with size := size } = fs.fsTable
      rw [whole, List.set_getElem_self]
    rw [setSize, table]
end

end RoDos.Fs
