import RoDos.Fs.Storing

set_option autoImplicit false

namespace RoDos.Fs

open Base

def escape : UInt8 := 27
def ctrlC : UInt8 := 3

def appendKey (text : List UInt8) (byte : UInt8) : List UInt8 :=
  if text.length < maxFileSize - 1 then text ++ [byte] else text

def editKey (text : List UInt8) (key : UInt8) : List UInt8 :=
  if key = 11 then []
  else if key = 8 then text.dropLast
  else if 32 ≤ key ∧ key ≤ 126 then appendKey text key
  else if key = 13 ∨ key = 10 then appendKey text 10
  else text

def leaves (key : UInt8) : Bool := key = escape ∨ key = ctrlC

def keyCodes (keys : List UInt16) : List UInt8 := keys.map UInt16.toUInt8

def leavingKey (keys : List UInt16) : Option UInt8 := (keyCodes keys).find? leaves

def editedText (start : List UInt8) (keys : List UInt16) : List UInt8 :=
  ((keyCodes keys).takeWhile fun key => !leaves key).foldl editKey start

def currentContent (fs : FileSystem) : Option Nat → Option (List UInt8)
  | some i => shownWith fs (sizeAt fs i) i
  | none => some []

structure NanoSaved (fs next : FileSystem) (path text : List UInt8) (i : Nat) : Prop where
  found : findTyped next path 0 = some i
  size : sizeAt next i = text.length
  recorded : recordedSize next i = text.length
  content : contentOf next i = some text
  others : OthersKept fs next i

def Saves (fs : FileSystem) (i : Nat) (start : List UInt8) (keys : List UInt16) : Prop :=
  leavingKey keys = some escape ∧ editedText start keys ≠ [] ∧ Storable fs i

structure EditKept (fs : FileSystem) (args : List UInt8) (keys : List UInt16) (path : List UInt8) (start : List UInt8) : Prop where
  current : currentContent fs (findTyped fs path 0) = some start
  loaded : nanoLoad fs ((findTyped fs path 0).getD fs.fsTable.length) = start
  ends : leavingKey keys ≠ none → ∃ update, cmdNano fs args true keys = some update ∧
    (Saves fs ((findTyped fs path 0).getD fs.fsTable.length) start keys →
      ∃ i, NanoSaved fs update.fs path (editedText start keys) i) ∧
    (¬ Saves fs ((findTyped fs path 0).getD fs.fsTable.length) start keys → update.fs = fs)

def Unchanged (fs : FileSystem) (result : Option Update) : Prop := ∃ update, result = some update ∧ update.fs = fs

def TableFull (fs : FileSystem) (path : List UInt8) : Prop :=
  findTyped fs path 0 = none ∧ fsMaxFiles ≤ fs.fsTable.length

def NanoKept (fs : FileSystem) (args : List UInt8) (memory : Bool) (keys : List UInt16) : Prop :=
  (token args = [] → Unchanged fs (cmdNano fs args memory keys)) ∧
    (token args ≠ [] → ∃ path, fullPath fs.currentDir (token args) = some path ∧
      (TableFull fs path ∨ memory = false → Unchanged fs (cmdNano fs args memory keys)) ∧
      (¬ TableFull fs path → memory = true → ∃ start, EditKept fs args keys path start))

-- The record of an existing file is empty if its size is 0, and leaves a byte free in the buffer; no
-- record claims the position of a new file, and its path fits the name array if something is saved.
def StartsClean (fs : FileSystem) (path : List UInt8) (keys : List UInt16) : Prop :=
  match findTyped fs path 0 with
  | some i => (sizeAt fs i = 0 → recordedSize fs i = 0) ∧ recordedSize fs i < maxFileSize
  | none => recordedSize fs fs.fsTable.length = 0 ∧ (Saves fs fs.fsTable.length [] keys → path.length < fsMaxFilename)

theorem nano_edit_folds (text : List UInt8) (keys : List UInt16) : nanoEdit text keys =
    (leavingKey keys).map fun key => (decide (key = ctrlC), editedText text keys) := by
  induction keys generalizing text with
  | nil => rfl
  | cons k keys ih =>
      have codes : keyCodes (k :: keys) = k.toUInt8 :: keyCodes keys := rfl
      rw [leavingKey, editedText, codes, nanoEdit]
      generalize k.toUInt8 = key
      by_cases out : key = 27
      · subst out
        rfl
      by_cases cancel : key = 3
      · subst cancel
        rfl
      have stays : leaves key = false := decide_eq_false (not_or.mpr ⟨out, cancel⟩)
      simp only [if_neg out, if_neg cancel, List.find?_cons, stays, List.takeWhile_cons, Bool.not_false, if_true,
        List.foldl_cons, editKey, appendKey]
      split_ifs <;> exact ih _

theorem edited_text_length (start : List UInt8) (keys : List UInt16) (fits : start.length ≤ maxFileSize - 1) :
    (editedText start keys).length ≤ maxFileSize - 1 := by
  rw [editedText]
  generalize (keyCodes keys).takeWhile (fun key => !leaves key) = typed
  induction typed generalizing start with
  | nil => exact fits
  | cons key rest ih =>
      refine ih (editKey start key) ?_
      rw [editKey, appendKey, appendKey]
      have cut := (List.dropLast_sublist start).length_le
      split_ifs <;> first
        | exact Nat.zero_le _
        | (rw [List.length_append, List.length_singleton]; omega)
        | omega

-- The loaded bytes are the content shown exactly when the record is empty or leaves the last byte free.
theorem loaded_current (fs : FileSystem) (path : List UInt8)
    (whole : ∀ content ∈ fs.fileContents, content.data.length = maxFileSize) :
    currentContent fs (findTyped fs path 0) = some (nanoLoad fs ((findTyped fs path 0).getD fs.fsTable.length)) ↔
      match findTyped fs path 0 with
      | some i => (sizeAt fs i = 0 → recordedSize fs i = 0) ∧ recordedSize fs i < maxFileSize
      | none => recordedSize fs fs.fsTable.length = 0 := by
  have loads (i : Nat) : nanoLoad fs i =
      (recordOf fs i).elim [] fun content => content.data.take (min content.size (maxFileSize - 1)) := by
    rw [nanoLoad, recordOf]
    cases fs.fileContents.find? fun content => content.fileIdx = i <;> rfl
  have nothing (i : Nat) : [] = nanoLoad fs i ↔ recordedSize fs i = 0 := by
    rw [loads, recordedSize]
    cases found : recordOf fs i with
    | none => exact iff_of_true rfl rfl
    | some content =>
        have length := whole content (List.mem_of_find?_eq_some found)
        show [] = content.data.take (min content.size (maxFileSize - 1)) ↔ content.size = 0
        rw [eq_comm, ← List.length_eq_zero_iff, List.length_take, length, maxFileSize]
        omega
  cases findTyped fs path 0 with
  | none => exact Option.some_inj.trans (nothing _)
  | some i =>
      show shownWith fs (sizeAt fs i) i = some (nanoLoad fs i) ↔
        (sizeAt fs i = 0 → recordedSize fs i = 0) ∧ recordedSize fs i < maxFileSize
      rw [shownWith]
      by_cases empty : sizeAt fs i = 0
      · rw [if_pos empty, Option.some_inj, nothing i]
        refine ⟨fun zero => ⟨fun _ => zero, ?_⟩, fun both => both.1 empty⟩
        rw [zero]
        decide
      · rw [if_neg empty, content_of_record, loads, and_iff_right (fun zero => absurd zero empty), recordedSize]
        cases found : recordOf fs i with
        | none => exact iff_of_true rfl (by decide)
        | some content =>
            have length := whole content (List.mem_of_find?_eq_some found)
            show contentBytes content = some (content.data.take (min content.size (maxFileSize - 1))) ↔
              content.size < maxFileSize
            rw [contentBytes]
            constructor
            · intro same
              split at same
              · have lengths := congrArg List.length (Option.some.inj same)
                rw [List.length_take, List.length_take, length] at lengths
                rw [maxFileSize] at *
                omega
              · cases same
            · intro small
              rw [if_pos (Nat.le_of_lt small), Nat.min_eq_left (Nat.le_sub_one_of_lt small)]

def opened (fs : FileSystem) (path : List UInt8) : FileSystem :=
  if findTyped fs path 0 = none then addEntry fs ⟨storedName path, 0, 0, 0x20⟩ else fs

def position (fs : FileSystem) (path : List UInt8) : Nat := (findTyped fs path 0).getD fs.fsTable.length

section
variable (fs : FileSystem) (path : List UInt8)

theorem opened_contents : (opened fs path).fileContents = fs.fileContents := by
  rw [opened]
  split <;> rfl

theorem opened_inside : position fs path < (opened fs path).fsTable.length := by
  rw [position, opened]
  cases found : findTyped fs path 0 with
  | none =>
      rw [if_pos rfl, addEntry, List.length_append]
      exact Nat.lt_succ_self _
  | some i => exact find_typed_lt fs path 0 i found

theorem opened_others (other : Nat) (old : other < fs.fsTable.length) :
    (opened fs path).fsTable[other]? = fs.fsTable[other]? := by
  rw [opened]
  split
  · exact List.getElem?_append_left old
  · rfl

theorem opened_only (k : Nat) (found : findTyped (opened fs path) path 0 = some k) : k = position fs path := by
  rw [opened] at found
  cases there : findTyped fs path 0 with
  | none =>
      rw [if_pos there] at found
      rw [position, there]
      exact find_typed_add_new fs _ path 0 k there found
  | some i =>
      rw [if_neg (by rw [there]; nofun), there] at found
      rw [position, there]
      exact (Option.some.inj found).symm

theorem opened_found : findTyped (opened fs path) path 0 = some (position fs path) ↔
    (findTyped fs path 0 = none → path.length < fsMaxFilename) := by
  rw [opened, position]
  cases there : findTyped fs path 0 with
  | none =>
      rw [if_pos rfl, Option.getD_none, find_typed_last, and_iff_right there, storedName, List.take_eq_self_iff,
        and_iff_left rfl, fsMaxFilename]
      exact ⟨fun short _ => Nat.lt_succ_of_le short, fun short => Nat.le_of_lt_succ (short rfl)⟩
  | some i => exact iff_of_true there (by simp)

theorem nano_saved_iff (written : FileSystem) (text : List UInt8) (short : text.length ≤ maxFileSize - 1)
    (put : putContent (opened fs path) (position fs path) (fun _ => paddedTo maxFileSize text) text.length = some written) :
    (∃ k, NanoSaved fs (setSize written (position fs path) text.length) path text k) ↔
      findTyped (opened fs path) path 0 = some (position fs path) := by
  obtain ⟨table, _, records⟩ := put_content_record _ _ _ _ _ put
  obtain ⟨content, recorded⟩ := put_content_written _ _ _ _ _ text (Nat.le_trans short (Nat.sub_le _ _))
    (fun _ => List.take_left' rfl) put
  have found : findTyped (setSize written (position fs path) text.length) path 0 = findTyped (opened fs path) path 0 := by
    rw [find_typed_set_size, findTyped, table, findTyped]
  have inside : position fs path < written.fsTable.length := by
    rw [table]
    exact opened_inside fs path
  constructor
  · rintro ⟨k, made⟩
    have there := found.symm.trans made.found
    cases opened_only fs path k there
    exact there
  · intro there
    refine ⟨position fs path, found.trans there, size_at_set_size _ _ _ inside, recorded, content,
      fun other old different => ⟨?_, ?_⟩⟩
    · rw [set_size_other _ _ _ _ different, table]
      exact opened_others fs path other old
    · refine content_of_same fs _ other ((records other different).trans ?_)
      rw [recordOf, opened_contents, recordOf]
end

theorem put_opened (fs : FileSystem) (path : List UInt8) (size : Nat) (data : List UInt8 → List UInt8) :
    (∃ next, putContent (opened fs path) (position fs path) data size = some next) ↔ Storable fs (position fs path) := by
  rw [put_content_storable, Storable, Storable, findContent, HasRoom, opened_contents, findContent, HasRoom]

theorem leaving_key (keys : List UInt16) (last : UInt8) (left : leavingKey keys = some last) :
    last = escape ∨ last = ctrlC := by
  have ends : leaves last = true := List.find?_some left
  exact of_decide_eq_true ends

section
variable (fs : FileSystem) (args : List UInt8) (keys : List UInt16) (path : List UInt8) (named : token args ≠ [])
  (built : fullPath fs.currentDir (token args) = some path)
include named built

theorem nano_refused (memory : Bool) (refused : TableFull fs path ∨ memory = false) :
    cmdNano fs args memory keys = unsaved fs (-1) := by
  simp only [cmdNano, named, built, if_false, Option.bind_some]
  by_cases full : TableFull fs path
  · exact if_pos full
  · rcases refused with full' | none'
    · exact absurd full' full
    · exact (if_neg full).trans (if_pos none')

theorem nano_edits (space : ¬ TableFull fs path) : cmdNano fs args true keys =
    (leavingKey keys).bind fun last =>
      if last = ctrlC ∨ editedText (nanoLoad fs (position fs path)) keys = [] then unsaved fs 0
      else
        (putContent (opened fs path) (position fs path)
          (fun _ => paddedTo maxFileSize (editedText (nanoLoad fs (position fs path)) keys))
          (editedText (nanoLoad fs (position fs path)) keys).length).elim (unsaved fs (-1)) fun written =>
            some ⟨setSize written (position fs path) (editedText (nanoLoad fs (position fs path)) keys).length, true, 0, -1⟩ := by
  simp only [cmdNano, named, built, if_false, Option.bind_some, Bool.true_eq_false]
  refine (if_neg space).trans ?_
  have opens : (if findTyped fs path 0 = none then addEntry fs ⟨storedName path, 0, 0, 0x20⟩ else fs) = opened fs path := rfl
  have place : (findTyped fs path 0).getD fs.fsTable.length = position fs path := rfl
  rw [opens, place, nano_edit_folds]
  cases leavingKey keys with
  | none => rfl
  | some last =>
      simp only [Option.map_some, Option.bind_some, decide_eq_true_eq]
      split
      · rfl
      · cases putContent (opened fs path) (position fs path) _ _ <;> rfl

theorem nano_saves (space : ¬ TableFull fs path) (text : List UInt8)
    (edited : editedText (nanoLoad fs (position fs path)) keys = text) (left : leavingKey keys = some escape)
    (nonempty : text ≠ []) (storable : Storable fs (position fs path)) : ∃ written,
      putContent (opened fs path) (position fs path) (fun _ => paddedTo maxFileSize text) text.length = some written ∧
        cmdNano fs args true keys = some ⟨setSize written (position fs path) text.length, true, 0, -1⟩ := by
  obtain ⟨written, put⟩ := (put_opened fs path text.length (fun _ => paddedTo maxFileSize text)).mpr storable
  refine ⟨written, put, ?_⟩
  rw [nano_edits fs args keys path named built space, left, edited, Option.bind_some,
    if_neg (not_or.mpr ⟨by decide, nonempty⟩), put]
  rfl

theorem nano_drops (space : ¬ TableFull fs path) (left : leavingKey keys ≠ none)
    (drops : ¬ Saves fs (position fs path) (nanoLoad fs (position fs path)) keys) :
    Unchanged fs (cmdNano fs args true keys) := by
  obtain ⟨last, same⟩ := Option.ne_none_iff_exists'.mp left
  rw [nano_edits fs args keys path named built space, same, Option.bind_some]
  by_cases cancelled : last = ctrlC ∨ editedText (nanoLoad fs (position fs path)) keys = []
  · rw [if_pos cancelled]
    exact ⟨_, rfl, rfl⟩
  · rw [if_neg cancelled]
    rw [not_or] at cancelled
    have escaped : last = escape := (leaving_key keys last same).resolve_right cancelled.1
    have full : ¬ Storable fs (position fs path) := fun storable =>
      drops ⟨same.trans (congrArg some escaped), cancelled.2, storable⟩
    rw [← put_opened fs path, not_exists] at full
    rw [Option.eq_none_iff_forall_ne_some.mpr full]
    exact ⟨_, rfl, rfl⟩

theorem edit_kept_iff (space : ¬ TableFull fs path) (start : List UInt8) : EditKept fs args keys path start ↔
    currentContent fs (findTyped fs path 0) = some start ∧ nanoLoad fs (position fs path) = start ∧
      (Saves fs (position fs path) start keys → findTyped (opened fs path) path 0 = some (position fs path)) := by
  have saved (loaded : nanoLoad fs (position fs path) = start) (saves : Saves fs (position fs path) start keys) :
      ∃ update, cmdNano fs args true keys = some update ∧
        ((∃ i, NanoSaved fs update.fs path (editedText start keys) i) ↔
          findTyped (opened fs path) path 0 = some (position fs path)) := by
    have short : (editedText start keys).length ≤ maxFileSize - 1 :=
      edited_text_length start keys (by rw [← loaded]; exact nano_load_length fs _)
    obtain ⟨written, put, done⟩ := nano_saves fs args keys path named built space (editedText start keys)
      (by rw [loaded]) saves.1 saves.2.1 saves.2.2
    exact ⟨_, done, nano_saved_iff fs path written (editedText start keys) short put⟩
  constructor
  · rintro ⟨current, loaded, ends⟩
    refine ⟨current, loaded, fun saves => ?_⟩
    obtain ⟨update, done, kept, _⟩ := ends (by rw [saves.1]; nofun)
    obtain ⟨other, made, iff⟩ := saved loaded saves
    cases done.symm.trans made
    exact iff.mp (kept saves)
  · rintro ⟨current, loaded, found⟩
    refine ⟨current, loaded, fun left => ?_⟩
    by_cases saves : Saves fs (position fs path) start keys
    · obtain ⟨update, made, iff⟩ := saved loaded saves
      exact ⟨update, made, fun _ => iff.mpr (found saves), fun drops => absurd saves drops⟩
    · obtain ⟨update, done, same⟩ := nano_drops fs args keys path named built space left (by rw [loaded]; exact saves)
      exact ⟨update, done, fun kept => absurd kept saves, fun _ => same⟩
end

theorem starts_clean_iff (fs : FileSystem) (path : List UInt8) (keys : List UInt16)
    (whole : ∀ content ∈ fs.fileContents, content.data.length = maxFileSize) : StartsClean fs path keys ↔
    ∃ start, currentContent fs (findTyped fs path 0) = some start ∧ nanoLoad fs (position fs path) = start ∧
      (Saves fs (position fs path) start keys → findTyped (opened fs path) path 0 = some (position fs path)) := by
  have loads := loaded_current fs path whole
  rw [opened_found, StartsClean]
  cases found : findTyped fs path 0 with
  | some i =>
      rw [found] at loads
      refine Iff.trans loads.symm ⟨fun current => ⟨_, current, ?_, fun _ => nofun⟩, ?_⟩
      · rw [position, found]
      · rintro ⟨start, current, loaded, _⟩
        rw [position, found] at loaded
        exact current.trans (congrArg some loaded.symm)
  | none =>
      rw [found] at loads
      have place : position fs path = fs.fsTable.length := by rw [position, found]; rfl
      rw [place]
      constructor
      · rintro ⟨unclaimed, short⟩
        have empty := Option.some.inj (loads.mpr unclaimed)
        exact ⟨[], rfl, empty.symm, fun saves _ => short saves⟩
      · rintro ⟨start, current, loaded, short⟩
        cases current
        exact ⟨loads.mp (congrArg some loaded.symm), fun saves => short saves rfl⟩

end RoDos.Fs
