import RoDos.Fat.Listing

set_option autoImplicit false

namespace RoDos.Fat

open Base

def entryCluster (drive : Drive) (fs : FileSystem) (slot : Nat × Nat) : Nat := loadHalf (seen drive fs slot) 26

def entrySize (drive : Drive) (fs : FileSystem) (slot : Nat × Nat) : Nat := loadWord (seen drive fs slot) 28

def relocated (index : Nat) : Nat × Nat := (index / 2 ^ 4, index % 2 ^ 4 * 32)

def handleOf (drive : Drive) (fs : FileSystem) (slot : Nat × Nat) (reserved : Nat) : Handle :=
  ⟨entryCluster drive fs slot, entrySize drive fs slot, entrySize drive fs slot, 0, fs.clusterBufferPtr, 0, 1, reserved⟩

inductive Opened (drive : Drive) (fs : FileSystem) : FileSystem × Nat × Option Nat → Prop where
  | refused (after : FileSystem) (code : Nat) (same : Reread fs after) (error : code ≠ 0)
      (why : rootLookUp drive fs = .missing ∨ freeHandle fs = none) : Opened drive fs (after, code, none)
  | filled (after : FileSystem) (ebx : Fin 16) (handle : Handle) (searched : rootLookUp drive fs ≠ .missing)
      (free : freeHandle fs = some ebx) (reads : after.reads = readsEnd drive fs + 1)
      (rest : after = { fs with mem := after.mem, handles := after.handles, reads := after.reads })
      (handles : after.handles = Function.update fs.handles ebx handle)
      (used : handle.flags = 1)
      (entry : ∀ index, rootLookUp drive fs = .found index → drive.fails (readsEnd drive fs) = false →
        handle = handleOf drive fs (relocated index) (fs.handles ebx).reserved) : Opened drive fs (after, 0, some ebx.val)

section
variable (drive : Drive) (fs : FileSystem) (regs : Registers) (mounted : Mounted fs)

theorem free_handle_free (ebx : Fin 16) (free : freeHandle fs = some ebx) : (fs.handles ebx).flags % 2 = 0 := by
  have found := List.find?_some free
  exact of_decide_eq_true found

include mounted in
theorem root_look_up_few (index : Nat) (found : rootLookUp drive fs = .found index) : index < 2 ^ 30 :=
  index_of_few drive fs mounted _ index (look_up_found _ _ _ _ _ _ _ _ found)

include mounted in
theorem code_of_missing_iff : codeOf 0 (rootLookUp drive fs) = minusOne ↔ rootLookUp drive fs = .missing := by
  cases looked : rootLookUp drive fs with
  | found index =>
      have few := root_look_up_few drive fs mounted index looked
      refine iff_of_false ?_ (by simp)
      rw [codeOf, add32_of_lt _ _ (by omega), minusOne]
      omega
  | missing => exact iff_of_true rfl rfl
  | failed => exact iff_of_false (by decide) (by simp)

theorem handle_read (read : FileSystem) (again : Reread fs read) (index : Nat)
    (mem : read.mem = sectorRead drive fs (index / 2 ^ 4)) (reserved : Nat) :
    let esi := add32 read.fsTempBufPtr (index % 2 ^ 4 * 32)
    (⟨loadHalf read.mem (add32 esi 26), loadWord read.mem (add32 esi 28), loadWord read.mem (add32 esi 28), 0,
      read.clusterBufferPtr, 0, 1, reserved⟩ : Handle) = handleOf drive fs (relocated index) reserved := by
  have buffer : read.fsTempBufPtr = fs.fsTempBufPtr := by rw [again.rest]
  have cluster : read.clusterBufferPtr = fs.clusterBufferPtr := by rw [again.rest]
  have at' (i : Nat) : add32 (add32 fs.fsTempBufPtr (index % 2 ^ 4 * 32)) i % 2 ^ 32 =
      (fs.fsTempBufPtr + (relocated index).2 + i) % 2 ^ 32 := by
    simp only [add32, relocated]
    omega
  have room (i : Nat) (few : i < 32) : (relocated index).2 + i + 4 < 2 ^ 32 := by
    rw [relocated]
    dsimp only
    omega
  dsimp only
  rw [buffer, cluster, mem]
  have half := slot_half_read drive fs (relocated index) 26 _ (at' 26) (room 26 (by decide))
  have size := slot_word_read drive fs (relocated index) 28 _ (at' 28) (room 28 (by decide))
  rw [handleOf, entryCluster, entrySize, ← half, ← size]
  rfl

structure EntryRead (eax : Nat) (read : FileSystem) : Prop where
  again : Reread fs read
  counted : read.reads = readsEnd drive fs + 1
  entry : ∀ index, rootLookUp drive fs = .found index → drive.fails (readsEnd drive fs) = false →
    eax = index ∧ read.mem = sectorRead drive fs (index / 2 ^ 4)

include mounted

theorem entry_read (found : FileSystem) (reread : Reread fs found) (reads : found.reads = readsEnd drive fs) (eax : Nat)
    (code : eax = codeOf 0 (rootLookUp drive fs)) :
    EntryRead drive fs eax
      (readSectorLba drive found (add32 (eax / 2 ^ 4) found.fsFirstRootLba) found.fsTempBufPtr).1 := by
  have tempBuf : found.fsTempBufPtr = fs.fsTempBufPtr := by rw [reread.rest]
  have lba : add32 (eax / 2 ^ 4) found.fsFirstRootLba = add32 fs.fsFirstRootLba (eax / 2 ^ 4) := by
    rw [reread.rest, add32, add32, Nat.add_comm]
  rw [tempBuf, lba]
  refine ⟨reread_read drive fs found reread _, ?_, fun index looked succeed => ?_⟩
  · rw [read_sector_counts, reads]
  · have few := root_look_up_few drive fs mounted index looked
    have sum : add32 0 index = 0 + index := add32_of_lt 0 index (by omega)
    rw [looked, codeOf, sum, Nat.zero_add] at code
    rw [← reads] at succeed
    obtain ⟨read, reading, held, -⟩ := sector_searched drive fs found reread (index / 2 ^ 4) succeed
    rw [code, reading]
    exact ⟨rfl, held.mem⟩

theorem fs_open_opened : Opened drive fs (fsOpen drive fs regs) := by
  have searched := find_file_searched drive fs regs mounted
  have missing := code_of_missing_iff drive fs mounted
  rw [← searched.eax] at missing
  have second := entry_read drive fs mounted _ searched.reread searched.reads _ searched.eax
  have table : (fsFindFile drive fs regs).1.handles = fs.handles := by rw [searched.reread.rest]
  have same : freeHandle (fsFindFile drive fs regs).1 = freeHandle fs := by rw [freeHandle, freeHandle, table]
  have reread := searched.reread
  rw [fsOpen]
  dsimp only
  generalize fsFindFile drive fs regs = called at missing second same reread ⊢
  by_cases none' : called.2.eax = minusOne
  · rw [if_pos none']
    exact .refused called.1 minusOne reread (by decide) (Or.inl (missing.mp none'))
  rw [if_neg none', same]
  cases free : freeHandle fs with
  | none => exact .refused called.1 minusTwo reread (by decide) (Or.inr free)
  | some ebx =>
      dsimp only
      generalize (readSectorLba drive called.1 (add32 (called.2.eax / 2 ^ 4) called.1.fsFirstRootLba)
        called.1.fsTempBufPtr).1 = read at second ⊢
      have kept : read.handles = fs.handles := by rw [second.again.rest]
      refine .filled _ ebx _ (fun missed => none' (missing.mpr missed)) free second.counted (by rw [second.again.rest])
        (by rw [kept]) rfl fun index looked succeed => ?_
      obtain ⟨eax, mem⟩ := second.entry index looked succeed
      rw [eax]
      exact handle_read drive fs read second.again index mem _
end

def matching (drive : Drive) (fs : FileSystem) (regs : Registers) : Option (Nat × Nat) :=
  (liveSlots drive fs).find? (named drive fs (bytesAt fs.mem regs.eax))

structure Filled (drive : Drive) (fs : FileSystem) (slot : Nat × Nat) (handle : Handle) : Prop where
  used : handle.flags % 2 = 1
  firstCluster : handle.firstCluster = entryCluster drive fs slot
  fileSize : handle.fileSize = entrySize drive fs slot
  currentCluster : handle.currentCluster = handle.firstCluster
  position : handle.position = 0

structure OpensRight (drive : Drive) (fs : FileSystem) (regs : Registers) (result : FileSystem × Nat × Option Nat) : Prop where
  opened : result.2.1 = 0 → ∃ ebx slot, result.2.2 = some (Fin.val ebx) ∧ (fs.handles ebx).flags % 2 = 0 ∧
    matching drive fs regs = some slot ∧ Filled drive fs slot (result.1.handles ebx) ∧
      ∀ other, other ≠ ebx → result.1.handles other = fs.handles other
  refused : (matching drive fs regs = none ∨ (∃ k, fs.reads ≤ k ∧ k < result.1.reads ∧ drive.fails k = true) ∨
      ∀ ebx, (fs.handles ebx).flags % 2 ≠ 0) →
    result.2.1 ≠ 0 ∧ result.1.handles = fs.handles ∧ result.2.2 = none

-- No handle is free, or nothing is found, or everything goes well and the size is the first cluster.
def OpenGoesWell (drive : Drive) (fs : FileSystem) (regs : Registers) : Prop :=
  freeHandle fs = none ∨ rootLookUp drive fs = .missing ∨
    ∃ index slot, rootLookUp drive fs = .found index ∧ drive.fails (readsEnd drive fs) = false ∧
      matching drive fs regs = some slot ∧ entryCluster drive fs (relocated index) = entryCluster drive fs slot ∧
        entrySize drive fs (relocated index) = entrySize drive fs slot ∧ entrySize drive fs slot = entryCluster drive fs slot

section
variable (drive : Drive) (fs : FileSystem) (regs : Registers) (result : FileSystem × Nat × Option Nat)
  (opened : Opened drive fs result)

include opened

theorem opens_right_goes_well (right : OpensRight drive fs regs result) : OpenGoesWell drive fs regs := by
  cases opened with
  | refused after code same error why => exact why.symm.imp_right Or.inl
  | filled after ebx handle searched free reads rest handles used entry =>
      obtain ⟨other, slot, out, -, matched, filled, -⟩ := right.opened rfl
      have same : ebx = other := Fin.ext (Option.some.inj out)
      have succeed : ¬ ∃ k, fs.reads ≤ k ∧ k < after.reads ∧ drive.fails k = true :=
        fun failed => (right.refused (Or.inr (Or.inl failed))).1 rfl
      dsimp only at filled
      rw [handles, same, Function.update_self] at filled
      refine Or.inr (Or.inr ?_)
      cases looked : rootLookUp drive fs with
      | missing => exact absurd looked searched
      | failed =>
          obtain ⟨k, low, high, failed⟩ := (root_look_up_failed_iff drive fs).mp looked
          exact absurd ⟨k, low, by omega, failed⟩ succeed
      | found index =>
          have last : drive.fails (readsEnd drive fs) = false := by
            rw [Bool.eq_false_iff]
            exact fun failed => succeed ⟨readsEnd drive fs, Nat.le_add_right _ _, by omega, failed⟩
          rw [entry index looked last] at filled
          exact ⟨index, slot, rfl, last, matched, filled.firstCluster, filled.fileSize,
            filled.fileSize.symm.trans (filled.currentCluster.trans filled.firstCluster)⟩

theorem goes_well_opens_right (well : OpenGoesWell drive fs regs) : OpensRight drive fs regs result := by
  cases opened with
  | refused after code same error why =>
      refine ⟨fun zero => absurd zero error, fun _ => ⟨error, ?_, rfl⟩⟩
      dsimp only
      rw [same.rest]
  | filled after ebx handle searched free reads rest handles used entry =>
      obtain none' | missing | ⟨index, slot, looked, last, matched, cluster, size, same⟩ := well
      · exact absurd (none'.symm.trans free) (by simp)
      · exact absurd missing searched
      have content := entry index looked last
      refine ⟨fun _ => ⟨ebx, slot, rfl, free_handle_free fs ebx free, matched, ?_, fun other different => ?_⟩, fun bad => ?_⟩
      · dsimp only
        rw [handles, Function.update_self, content]
        exact ⟨rfl, cluster, size, size.trans (same.trans cluster.symm), rfl⟩
      · dsimp only
        rw [handles, Function.update_of_ne different]
      · exfalso
        obtain missing | ⟨k, low, high, failed⟩ | full := bad
        · exact absurd (missing.symm.trans matched) (by simp)
        · dsimp only at high
          rcases Nat.lt_or_ge k (readsEnd drive fs) with before | after'
          · have failing := (root_look_up_failed_iff drive fs).mpr ⟨k, low, before, failed⟩
            exact absurd (looked.symm.trans failing) (by simp)
          · have here : k = readsEnd drive fs := by omega
            exact absurd (here ▸ failed) (by rw [last]; simp)
        · exact full ebx (free_handle_free fs ebx free)
end

theorem fs_open_iff (drive : Drive) (fs : FileSystem) (regs : Registers) (mounted : Mounted fs) :
    OpensRight drive fs regs (fsOpen drive fs regs) ↔ OpenGoesWell drive fs regs :=
  have opened := fs_open_opened drive fs regs mounted
  ⟨opens_right_goes_well drive fs regs _ opened, goes_well_opens_right drive fs regs _ opened⟩

def zeroFiles : Drive := ⟨fun _ i => if i < 11 then 65 else 0, fun _ => false, fun _ => 0⟩

theorem fs_open_zero : OpensRight zeroFiles (smallVolume fun _ => 65) fileName (fsOpen zeroFiles (smallVolume fun _ => 65) fileName) :=
  (fs_open_iff zeroFiles (smallVolume fun _ => 65) fileName (small_volume_mounted _)).mpr
    (Or.inr (Or.inr ⟨0, (0, 0), by decide +kernel, rfl, by decide +kernel, rfl, rfl, rfl⟩))

def deadDrive : Drive := ⟨fun _ _ => 0, fun _ => true, fun _ => 0⟩

-- The -2 of the search is taken for an index, and the status of the second read is lost.
theorem fs_open_unread : ¬ ∀ drive fs regs, Mounted fs → OpensRight drive fs regs (fsOpen drive fs regs) := by
  intro claimed
  have right := claimed deadDrive (smallVolume lowZeros) fileName (small_volume_mounted _)
  have refused := right.refused (Or.inr (Or.inl ⟨0, Nat.le_refl 0, by decide +kernel, rfl⟩))
  exact absurd refused.1 (by decide +kernel)

end RoDos.Fat
