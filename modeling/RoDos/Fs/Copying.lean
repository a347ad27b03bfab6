import RoDos.Fs.Contents

set_option autoImplicit false

namespace RoDos.Fs

open Base

def Twins (fs : FileSystem) (size i k : Nat) : Prop :=
  (∃ shown, shownWith fs size i = some shown ∧ shownWith fs size k = some shown) ∧ recordedSize fs i = recordedSize fs k

structure CopyMade (fs next : FileSystem) (src dst : List UInt8) : Prop where
  shown : ∃ shown, catPath next src = some (shown, 0) ∧ catPath next dst = some (shown, 0)
  sizes : ∃ i k, findTyped next src 0 = some i ∧ findTyped next dst 0 = some k ∧ sizeAt next k = sizeAt next i ∧
    recordedSize next k = recordedSize next i
  others : OthersKept fs next fs.fsTable.length

def CopyKept (fs : FileSystem) (args : List UInt8) : Prop :=
  ∃ update, cmdCopy fs args = some update ∧
    ((update.code = 0 ∧ CopyMade fs update.fs (token args) (secondToken args)) ∨ (update.code = -1 ∧ update.fs = fs))

def HasRoom (fs : FileSystem) : Prop := fs.fileContents.length < maxContents

-- The content of the source fits a record if it is copied, and then either a file of the target's name
-- is there already and like the source, or the new name fits the table and what is found for the new
-- position is the copy.
def CopyClean (fs : FileSystem) (dst : List UInt8) (i : Nat) : Prop :=
  (HasRoom fs → recordedSize fs i ≤ maxFileSize) ∧
    match findTyped fs dst 0 with
    | some k => sizeAt fs k = sizeAt fs i ∧ Twins fs (sizeAt fs i) i k
    | none => dst.length < fsMaxFilename ∧
        (Twins fs (sizeAt fs i) i fs.fsTable.length ∨ (HasRoom fs ∧ recordOf fs fs.fsTable.length = none))

def copied (fs : FileSystem) (dst : List UInt8) (i : Nat) : FileSystem :=
  addEntry fs ⟨storedName dst, sizeAt fs i, 0, (fs.fsTable.getD i ⟨[], 0, 0, 0⟩).attr⟩

theorem twins_congr (fs next : FileSystem) (size i k : Nat) (first : recordOf next i = recordOf fs i)
    (second : recordOf next k = recordOf fs k) : Twins next size i k ↔ Twins fs size i k := by
  rw [Twins, Twins, shownWith, shownWith, shownWith, shownWith, content_of_same fs next i first,
    content_of_same fs next k second, recorded_size_same fs next i first, recorded_size_same fs next k second]

section
variable (fs next : FileSystem) (src dst : List UInt8) (i : Nat) (found : findTyped next src 0 = some i)
  (others : OthersKept fs next fs.fsTable.length)
include found others

theorem copy_made_iff : CopyMade fs next src dst ↔ ∃ k, findTyped next dst 0 = some k ∧ sizeAt next k = sizeAt next i ∧
    Twins next (sizeAt next i) i k := by
  have shows (path : List UInt8) (k : Nat) (at' : findTyped next path 0 = some k) (shown : List UInt8) :
      catPath next path = some (shown, 0) ↔ shownWith next (sizeAt next k) k = some shown := by
    simp [catPath, at']
  constructor
  · rintro ⟨⟨shown, first, second⟩, ⟨i', k, same, target, sizes, records⟩, _⟩
    cases found.symm.trans same
    rw [shows src i found] at first
    rw [shows dst k target, sizes] at second
    exact ⟨k, target, sizes, ⟨shown, first, second⟩, records.symm⟩
  · rintro ⟨k, target, sizes, ⟨shown, first, second⟩, records⟩
    refine ⟨⟨shown, (shows src i found shown).mpr first, ?_⟩, ⟨i, k, found, target, sizes, records.symm⟩, others⟩
    rw [shows dst k target, sizes]
    exact second
end

section
variable (fs : FileSystem) (src dst : List UInt8) (i : Nat) (found : findTyped fs src 0 = some i)
include found

theorem copied_clean_iff (contents : List FileContent)
    (kept : ∀ position, position ≠ fs.fsTable.length →
      recordOf { copied fs dst i with fileContents := contents } position = recordOf fs position) :
    CopyMade fs { copied fs dst i with fileContents := contents } src dst ↔
      match findTyped fs dst 0 with
      | some k => sizeAt fs k = sizeAt fs i ∧ Twins fs (sizeAt fs i) i k
      | none => dst.length < fsMaxFilename ∧
          Twins { copied fs dst i with fileContents := contents } (sizeAt fs i) i fs.fsTable.length := by
  have inside := find_typed_lt fs src 0 i found
  have first : findTyped { copied fs dst i with fileContents := contents } src 0 = some i :=
    find_typed_add_old fs _ src 0 i found
  have size : sizeAt { copied fs dst i with fileContents := contents } i = sizeAt fs i := size_at_add_old fs _ i inside
  have others : OthersKept fs { copied fs dst i with fileContents := contents } fs.fsTable.length :=
    fun other old different => ⟨List.getElem?_append_left old, content_of_same _ _ _ (kept other different)⟩
  rw [copy_made_iff fs _ src dst i first others, size]
  cases target : findTyped fs dst 0 with
  | some k =>
      have old := find_typed_lt fs dst 0 k target
      have second : findTyped { copied fs dst i with fileContents := contents } dst 0 = some k :=
        find_typed_add_old fs _ dst 0 k target
      have size : sizeAt { copied fs dst i with fileContents := contents } k = sizeAt fs k := size_at_add_old fs _ k old
      simp only [second, Option.some.injEq, exists_eq_left', size]
      rw [twins_congr fs _ (sizeAt fs i) i k (kept i (Nat.ne_of_lt inside)) (kept k (Nat.ne_of_lt old))]
  | none =>
      have last : findTyped { copied fs dst i with fileContents := contents } dst 0 = some fs.fsTable.length ↔
          dst.length < fsMaxFilename := by
        show findTyped (copied fs dst i) dst 0 = some fs.fsTable.length ↔ _
        rw [copied, find_typed_last]
        simp only [target, true_and, and_true, storedName, List.take_eq_self_iff]
        rw [fsMaxFilename]
        omega
      have size : sizeAt { copied fs dst i with fileContents := contents } fs.fsTable.length = sizeAt fs i :=
        size_at_add_new fs _
      constructor
      · rintro ⟨k, second, _, twins⟩
        have whole : k = fs.fsTable.length := find_typed_add_new fs _ dst 0 k target second
        rw [whole] at second twins
        exact ⟨last.mp second, twins⟩
      · rintro ⟨short, twins⟩
        exact ⟨_, last.mpr short, size, twins⟩
end

theorem twins_unrecorded (fs : FileSystem) (size i k : Nat) (first : recordOf fs i = none) (second : recordOf fs k = none) :
    Twins fs size i k := by
  have nothing (position : Nat) (none' : recordOf fs position = none) : shownWith fs size position = some [] := by
    rw [shownWith, content_of_record, none']
    exact ite_self _
  refine ⟨⟨[], nothing i first, nothing k second⟩, ?_⟩
  rw [recordedSize, first, recordedSize, second]

theorem twins_copied (fs next : FileSystem) (size i n : Nat) (content made : FileContent)
    (recorded : recordOf fs i = some content) (small : content.size ≤ maxFileSize) (sameSize : made.size = content.size)
    (same : contentBytes made = contentBytes content) (first : recordOf next i = recordOf fs i)
    (second : recordOf next n = (recordOf fs n).or (some made)) :
    Twins next size i n ↔ Twins fs size i n ∨ recordOf fs n = none := by
  cases claimed : recordOf fs n with
  | some other =>
      rw [claimed] at second
      rw [twins_congr fs next size i n first (second.trans claimed.symm)]
      exact (or_iff_left nofun).symm
  | none =>
      rw [claimed, Option.none_or] at second
      rw [recorded] at first
      obtain ⟨shown, shows⟩ := Option.isSome_iff_exists.mp ((content_bytes_some content).mpr small)
      refine iff_of_true ⟨?_, ?_⟩ (Or.inr rfl)
      · by_cases empty : size = 0
        · exact ⟨[], by rw [shownWith, if_pos empty], by rw [shownWith, if_pos empty]⟩
        · refine ⟨shown, ?_, ?_⟩
          · rw [shownWith, if_neg empty, content_of_record, first]
            exact shows
          · rw [shownWith, if_neg empty, content_of_record, second]
            exact same.trans shows
      · rw [recordedSize, recordedSize, first, second]
        exact sameSize.symm

theorem copy_record_bytes (n : Nat) (content : FileContent) (small : content.size ≤ maxFileSize)
    (whole : content.data.length = maxFileSize) :
    contentBytes ⟨n, content.size, paddedTo maxFileSize (content.data.take content.size)⟩ = contentBytes content := by
  have bytes : (content.data.take content.size).length = content.size := by
    rw [List.length_take, whole, Nat.min_eq_left small]
  rw [contentBytes, if_pos small, contentBytes, if_pos small, paddedTo]
  exact congrArg some (List.take_left' bytes)

theorem cmd_copy_found (fs : FileSystem) (args : List UInt8) (i : Nat) (source : token args ≠ [])
    (target : secondToken args ≠ []) (found : findTyped fs (token args) 0 = some i)
    (space : fs.fsTable.length < fsMaxFiles) :
    cmdCopy fs args = (copyContent (copied fs (secondToken args) i) i fs.fsTable.length).bind saved := by
  simp only [cmdCopy, source, target, or_self, if_false, found, Nat.not_le.mpr space]
  rfl

theorem copy_kept_made (fs : FileSystem) (args : List UInt8) (made : Option FileSystem)
    (copies : cmdCopy fs args = made.bind saved) :
    CopyKept fs args ↔ ∃ next, made = some next ∧ CopyMade fs next (token args) (secondToken args) := by
  rw [CopyKept, copies]
  cases made with
  | none => simp
  | some next => simp [saved]

section
variable (fs : FileSystem) (args : List UInt8) (i : Nat) (source : token args ≠ []) (target : secondToken args ≠ [])
  (found : findTyped fs (token args) 0 = some i) (space : fs.fsTable.length < fsMaxFiles)
include source target found space

theorem copy_without_record (made : copyContent (copied fs (secondToken args) i) i fs.fsTable.length =
      some (copied fs (secondToken args) i))
    (missing : recordOf fs i = none ∨ ¬ HasRoom fs) : CopyKept fs args ↔ CopyClean fs (secondToken args) i := by
  have copies := cmd_copy_found fs args i source target found space
  rw [made] at copies
  have fits : HasRoom fs → recordedSize fs i ≤ maxFileSize := by
    rcases missing with nothing | full
    · intro _
      rw [recordedSize, nothing]
      exact Nat.zero_le _
    · exact fun room => absurd room full
  rw [copy_kept_made fs args _ copies, CopyClean, and_iff_right fits]
  simp only [Option.some.injEq, exists_eq_left']
  have clean := copied_clean_iff fs (token args) (secondToken args) i found fs.fileContents (fun _ _ => rfl)
  refine Iff.trans clean ?_
  cases findTyped fs (secondToken args) 0 with
  | some k => exact Iff.rfl
  | none =>
      refine and_congr_right fun _ => ?_
      refine Iff.trans (twins_congr fs _ _ _ _ rfl rfl) ⟨Or.inl, fun either => ?_⟩
      rcases either with twins | ⟨room, unclaimed⟩
      · exact twins
      · rcases missing with nothing | full
        · exact twins_unrecorded fs _ _ _ nothing unclaimed
        · exact absurd room full

theorem copy_with_record (content : FileContent) (recorded : recordOf fs i = some content) (room : HasRoom fs)
    (whole : content.data.length = maxFileSize) : CopyKept fs args ↔ CopyClean fs (secondToken args) i := by
  have copies := cmd_copy_found fs args i source target found space
  have size : recordedSize fs i = content.size := by rw [recordedSize, recorded]; rfl
  have making : copyContent (copied fs (secondToken args) i) i fs.fsTable.length =
      (contentBytes content).map fun bytes => { copied fs (secondToken args) i with
        fileContents := fs.fileContents ++ [⟨fs.fsTable.length, content.size, paddedTo maxFileSize bytes⟩] } := by
    have search : ((copied fs (secondToken args) i).fileContents.find? fun record => record.fileIdx = i) = some content :=
      recorded
    have space : (copied fs (secondToken args) i).fileContents.length < maxContents := room
    rw [copyContent, search]
    exact if_pos space
  rw [making] at copies
  rw [copy_kept_made fs args _ copies, CopyClean, size]
  by_cases small : content.size ≤ maxFileSize
  · have bytes : contentBytes content = some (content.data.take content.size) := if_pos small
    rw [bytes, Option.map_some, and_iff_right (fun _ => small)]
    simp only [Option.some.injEq, exists_eq_left']
    have inside := find_typed_lt fs (token args) 0 i found
    have records (position : Nat) := record_of_append (copied fs (secondToken args) i)
      ⟨fs.fsTable.length, content.size, paddedTo maxFileSize (content.data.take content.size)⟩ position
    refine Iff.trans (copied_clean_iff fs (token args) (secondToken args) i found _ fun position different => ?_) ?_
    · refine (records position).trans ?_
      rw [if_neg (Ne.symm different)]
      exact Option.or_none
    cases findTyped fs (secondToken args) 0 with
    | some k => exact Iff.rfl
    | none =>
        refine and_congr_right fun _ => ?_
        refine Iff.trans (twins_copied fs _ (sizeAt fs i) i fs.fsTable.length content
          ⟨fs.fsTable.length, content.size, paddedTo maxFileSize (content.data.take content.size)⟩ recorded small rfl
          (copy_record_bytes fs.fsTable.length content small whole) ?_ ?_) ?_
        · refine (records i).trans ?_
          rw [if_neg (Nat.ne_of_gt inside)]
          exact Option.or_none
        · refine (records fs.fsTable.length).trans ?_
          rw [if_pos rfl]
          rfl
        · exact or_congr_right (and_iff_right room).symm
  · have none' : contentBytes content = none := if_neg small
    rw [none']
    simp [room, small]
end

theorem copy_kept_iff (fs : FileSystem) (args : List UInt8)
    (whole : ∀ content ∈ fs.fileContents, content.data.length = maxFileSize) :
    CopyKept fs args ↔ ∀ i, token args ≠ [] → secondToken args ≠ [] → findTyped fs (token args) 0 = some i →
      fs.fsTable.length < fsMaxFiles → CopyClean fs (secondToken args) i := by
  by_cases possible : token args ≠ [] ∧ secondToken args ≠ [] ∧ (∃ i, findTyped fs (token args) 0 = some i) ∧
      fs.fsTable.length < fsMaxFiles
  · obtain ⟨source, target, ⟨i, found⟩, space⟩ := possible
    have clean : CopyKept fs args ↔ CopyClean fs (secondToken args) i := by
      cases recorded : recordOf fs i with
      | none =>
          refine copy_without_record fs args i source target found space ?_ (Or.inl recorded)
          rw [copyContent, show (copied fs (secondToken args) i).fileContents.find? _ = none from recorded]
      | some content =>
          by_cases room : HasRoom fs
          · exact copy_with_record fs args i source target found space content recorded room
              (whole content (List.mem_of_find?_eq_some recorded))
          · refine copy_without_record fs args i source target found space ?_ (Or.inr room)
            have space : ¬ (copied fs (secondToken args) i).fileContents.length < maxContents := room
            rw [copyContent, show (copied fs (secondToken args) i).fileContents.find? _ = some content from recorded]
            exact if_neg space
    rw [clean]
    exact ⟨fun kept k _ _ same _ => by cases found.symm.trans same; exact kept, fun kept => kept i source target found space⟩
  · have refused : cmdCopy fs args = unsaved fs (-1) := by
      by_cases missing : token args = [] ∨ secondToken args = []
      · simp only [cmdCopy, if_pos missing]
      rw [not_or] at missing
      cases found : findTyped fs (token args) 0 with
      | none => simp only [cmdCopy, missing, or_self, if_false, found]
      | some i =>
          have full : fsMaxFiles ≤ fs.fsTable.length := by
            by_contra space
            exact possible ⟨missing.1, missing.2, ⟨i, found⟩, Nat.lt_of_not_le space⟩
          simp only [cmdCopy, missing, or_self, if_false, found, if_pos full]
    refine iff_of_true ⟨_, refused, Or.inr ⟨rfl, rfl⟩⟩ fun i source target found space => ?_
    exact absurd ⟨source, target, ⟨i, found⟩, space⟩ possible

def greeting : FileContent := ⟨0, 2, paddedTo maxFileSize (ascii "hi")⟩

def sourceOnly : FileSystem := ⟨rootDir, [⟨ascii "C:\\A", 2, 0, 0x20⟩], [rootUser], [greeting], ascii "root"⟩

def targetThere : FileSystem := addEntry sourceOnly ⟨ascii "C:\\B", 0, 0, 0x20⟩

def copyArgs : List UInt8 := ascii "C:\\A C:\\B"

theorem greeting_whole (content : FileContent) (member : content ∈ [greeting]) : content.data.length = maxFileSize := by
  rw [List.mem_singleton.mp member]
  exact padded_length maxFileSize (ascii "hi") (by decide)

theorem copy_kept_new : CopyKept sourceOnly copyArgs := by
  refine (copy_kept_iff sourceOnly copyArgs greeting_whole).mpr fun i _ _ found _ => ?_
  have source : findTyped sourceOnly (token copyArgs) 0 = some 0 := by decide +kernel
  have target : findTyped sourceOnly (secondToken copyArgs) 0 = none := by decide +kernel
  have short : (secondToken copyArgs).length < fsMaxFilename := by decide +kernel
  cases source.symm.trans found
  rw [CopyClean, target]
  have room : 1 < maxContents := by decide
  exact ⟨fun _ => (by decide : 2 ≤ maxFileSize), short, Or.inr ⟨room, rfl⟩⟩

theorem copy_not_kept : ¬ ∀ fs args, (∀ content ∈ fs.fileContents, content.data.length = maxFileSize) → CopyKept fs args := by
  intro claimed
  have source : findTyped targetThere (token copyArgs) 0 = some 0 := by decide +kernel
  have target : findTyped targetThere (secondToken copyArgs) 0 = some 1 := by decide +kernel
  have room : 1 < maxContents := by decide
  have clean := (copy_with_record targetThere copyArgs 0 (by decide +kernel) (by decide +kernel) source (by decide) greeting rfl
    room (greeting_whole greeting (List.mem_singleton_self _))).mp (claimed targetThere copyArgs greeting_whole)
  rw [CopyClean, target] at clean
  exact absurd clean.2.1 (by decide)

end RoDos.Fs
