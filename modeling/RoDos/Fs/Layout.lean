import RoDos.Fs.Removal
import RoDos.Fs.Saving

set_option autoImplicit false

namespace RoDos.Fs

open Base

-- The sector that the host prepares for read_file_from_host.
def hostLba : Nat := 1000

def readFileFromHost (failing : Nat → Bool) (disk : Disk) (maxSize : Nat) : Option (List UInt8) :=
  if maxSize = 0 ∨ failing hostLba then none else some ((disk hostLba).take (min maxSize sectorSize))

inductive Area where
  | directory
  | table
  | users
  | content (fileIdx : Nat)
deriving DecidableEq, Repr

-- The sectors that a loop over a table and the clearing loop behind it call disk_write_lba with.
def slotCalls (start limit count : Nat) : List Nat :=
  (List.range count ++ List.range' count (limit - count)).map fun i => start + i

def contentCalls (content : FileContent) : List Nat :=
  (List.range (min 16 (sectorsNeeded content.size)) ++
    List.range' (sectorsNeeded content.size) (16 - sectorsNeeded content.size)).map (contentLba content.fileIdx)

def areaSectors (fs : FileSystem) : Area → List Nat
  | .directory => [fsCurdirLba]
  | .table => slotCalls fsDataStartLba 64 fs.fsTable.length
  | .users => slotCalls fsUserStartLba 5 fs.userTable.length
  | .content fileIdx => (fs.fileContents.filter fun content => content.fileIdx = fileIdx).flatMap contentCalls

structure LayoutApart (fs : FileSystem) : Prop where
  covers : ∀ write required, .write write required ∈ saveActions fs → ∃ area, write.lba ∈ areaSectors fs area
  apart : ∀ a b, a ≠ b → List.Disjoint (areaSectors fs a) (areaSectors fs b)
  host : ∀ area, hostLba ∉ areaSectors fs area

theorem slot_calls_member (start limit count lba : Nat) :
    lba ∈ slotCalls start limit count ↔ ∃ i < max count limit, lba = start + i := by
  simp only [slotCalls, List.mem_map, List.mem_append, List.mem_range, List.mem_range'_1]
  constructor
  · rintro ⟨i, range, rfl⟩
    exact ⟨i, by omega, rfl⟩
  · rintro ⟨i, range, rfl⟩
    exact ⟨i, by omega, rfl⟩

theorem content_calls_member (content : FileContent) (lba : Nat) :
    lba ∈ contentCalls content ↔ ∃ s < 16, lba = contentLba content.fileIdx s := by
  simp only [contentCalls, List.mem_map, List.mem_append, List.mem_range, List.mem_range'_1]
  constructor
  · rintro ⟨s, range, rfl⟩
    exact ⟨s, by omega, rfl⟩
  · rintro ⟨s, range, rfl⟩
    exact ⟨s, by omega, rfl⟩

theorem content_area_member (fs : FileSystem) (fileIdx lba : Nat) :
    lba ∈ areaSectors fs (.content fileIdx) ↔
      ∃ content ∈ fs.fileContents, content.fileIdx = fileIdx ∧ ∃ s < 16, lba = contentLba fileIdx s := by
  simp only [areaSectors, List.mem_flatMap, List.mem_filter, decide_eq_true_eq, content_calls_member]
  constructor
  · rintro ⟨content, ⟨member, rfl⟩, written⟩
    exact ⟨content, member, rfl, written⟩
  · rintro ⟨content, member, rfl, written⟩
    exact ⟨content, ⟨member, rfl⟩, written⟩

theorem save_write_area (fs : FileSystem) (write : Write) (saved : SaveWrite fs write) :
    ∃ area, write.lba ∈ areaSectors fs area := by
  cases saved with
  | dir => exact ⟨.directory, List.mem_singleton.mpr rfl⟩
  | entry i entry here =>
      obtain ⟨inside, _⟩ := List.getElem?_eq_some_iff.mp here
      exact ⟨.table, (slot_calls_member _ _ _ _).mpr ⟨i, by omega, rfl⟩⟩
  | spareEntry i spare inside => exact ⟨.table, (slot_calls_member _ _ _ _).mpr ⟨i, by omega, rfl⟩⟩
  | user i user here =>
      obtain ⟨inside, _⟩ := List.getElem?_eq_some_iff.mp here
      exact ⟨.users, (slot_calls_member _ _ _ _).mpr ⟨i, by omega, rfl⟩⟩
  | spareUser i spare inside => exact ⟨.users, (slot_calls_member _ _ _ _).mpr ⟨i, by omega, rfl⟩⟩
  | content content s member inside =>
      exact ⟨.content content.fileIdx, (content_area_member _ _ _).mpr ⟨content, member, rfl, s, inside, rfl⟩⟩

theorem area_save_write (fs : FileSystem) (small : ∀ content ∈ fs.fileContents, content.size ≤ maxFileSize)
    (area : Area) (lba : Nat) (member : lba ∈ areaSectors fs area) :
    ∃ write required, .write write required ∈ saveActions fs ∧ write.lba = lba := by
  have saved : ∃ sector, SaveWrite fs ⟨lba, sector⟩ := by
    cases area with
    | directory =>
        rw [List.mem_singleton.mp member]
        exact ⟨_, .dir⟩
    | table =>
        obtain ⟨i, inside, rfl⟩ := (slot_calls_member _ _ _ _).mp member
        by_cases filled : i < fs.fsTable.length
        · exact ⟨_, .entry i _ (List.getElem?_eq_getElem filled)⟩
        · exact ⟨_, .spareEntry i (by omega) (by omega)⟩
    | users =>
        obtain ⟨i, inside, rfl⟩ := (slot_calls_member _ _ _ _).mp member
        by_cases filled : i < fs.userTable.length
        · exact ⟨_, .user i _ (List.getElem?_eq_getElem filled)⟩
        · exact ⟨_, .spareUser i (by omega) (by omega)⟩
    | content fileIdx =>
        obtain ⟨content, inside, rfl, s, low, rfl⟩ := (content_area_member _ _ _).mp member
        exact ⟨_, .content content s inside low⟩
  obtain ⟨sector, saved⟩ := saved
  obtain ⟨required, action⟩ := save_write_action fs ⟨lba, sector⟩ saved small
  exact ⟨_, required, action, rfl⟩

def areaStart : Area → Nat
  | .directory => 499
  | .table => 500
  | .users => 628
  | .content fileIdx => 700 + fileIdx * 16

def areaEnd : Area → Nat
  | .directory => 500
  | .table => 628
  | .users => 660
  | .content fileIdx => 716 + fileIdx * 16

section
variable (fs : FileSystem) (files : fs.fsTable.length ≤ fsMaxFiles) (users : fs.userTable.length ≤ fsMaxUsers)
include files users

theorem area_interval (area : Area) (lba : Nat) (member : lba ∈ areaSectors fs area) :
    areaStart area ≤ lba ∧ lba < areaEnd area := by
  cases area with
  | directory =>
      rw [List.mem_singleton.mp member]
      decide
  | table =>
      obtain ⟨i, inside, rfl⟩ := (slot_calls_member _ _ _ _).mp member
      simp only [areaStart, areaEnd, fsDataStartLba, fsMaxFiles] at files ⊢
      omega
  | users =>
      obtain ⟨i, inside, rfl⟩ := (slot_calls_member _ _ _ _).mp member
      simp only [areaStart, areaEnd, fsUserStartLba, fsDataStartLba, fsMaxUsers] at users ⊢
      omega
  | content fileIdx =>
      obtain ⟨content, _, _, s, low, rfl⟩ := (content_area_member _ _ _).mp member
      simp only [areaStart, areaEnd, contentLba, fsContentStartLba]
      omega

omit files users in
theorem intervals_apart (a b : Area) (different : a ≠ b) : areaEnd a ≤ areaStart b ∨ areaEnd b ≤ areaStart a := by
  cases a <;> cases b <;> simp only [areaStart, areaEnd, ne_eq, Area.content.injEq, not_true_eq_false] at different ⊢ <;>
    omega

theorem areas_disjoint (a b : Area) (different : a ≠ b) : List.Disjoint (areaSectors fs a) (areaSectors fs b) := by
  intro lba inA inB
  have left := area_interval fs files users a lba inA
  have right := area_interval fs files users b lba inB
  have order := intervals_apart a b different
  omega

-- Sector 1000 is the thirteenth one of the file at position 18.
theorem host_in_area (area : Area) (member : hostLba ∈ areaSectors fs area) : area = .content 18 := by
  have inside := area_interval fs files users area hostLba member
  cases area with
  | content fileIdx =>
      simp only [areaStart, areaEnd, hostLba] at inside
      have same : fileIdx = 18 := by omega
      rw [same]
  | _ =>
      simp only [areaStart, areaEnd, hostLba] at inside
      omega

theorem host_outside (free : ∀ content ∈ fs.fileContents, content.fileIdx ≠ 18) (area : Area) :
    hostLba ∉ areaSectors fs area := by
  intro member
  rw [host_in_area fs files users area member] at member
  obtain ⟨content, inside, owner, _⟩ := (content_area_member _ _ _).mp member
  exact free content inside owner

theorem host_file_kept (free : ∀ content ∈ fs.fileContents, content.fileIdx ≠ 18) (failing broken : Nat → Bool)
    (disk finish : Disk) (complete : Bool) (done : fsSaveToDisk failing fs disk = some (finish, complete)) (maxSize : Nat) :
    readFileFromHost broken finish maxSize = readFileFromHost broken disk maxSize := by
  have same : finish hostLba = disk hostLba := by
    rcases perform_sectors failing 0 disk finish _ complete done hostLba with same | ⟨write, required, member, here, _⟩
    · exact same
    · obtain ⟨area, inside⟩ := save_write_area fs write (save_actions_write fs write required member)
      exact absurd (here ▸ inside) (host_outside fs files users free area)
  rw [readFileFromHost, readFileFromHost, same]

theorem saved_areas_apart : LayoutApart fs ↔ ∀ content ∈ fs.fileContents, content.fileIdx ≠ 18 := by
  constructor
  · intro layout content member here
    exact layout.host (.content 18) ((content_area_member fs 18 hostLba).mpr ⟨content, member, here, 12, by decide, rfl⟩)
  · intro free
    exact ⟨fun write required member => save_write_area fs write (save_actions_write fs write required member),
      areas_disjoint fs files users, host_outside fs files users free⟩
end

theorem saved_areas_apart_before :
    LayoutApart ⟨rootDir, [], [rootUser], [⟨17, 1, List.replicate maxFileSize 120⟩], ascii "root"⟩ := by
  refine (saved_areas_apart _ (Nat.zero_le _) (by decide)).mpr fun content member => ?_
  rw [List.mem_singleton.mp member]
  decide

def eighteenNames : List (List UInt8) := (List.range 18).map fun i => [UInt8.ofNat (65 + i)]

-- The nineteenth file clears the sector of the host as soon as it has content.
theorem saved_areas_not_always_apart :
    ¬ ∀ machine, Run Booted FsStep (fun _ _ => True) machine → LayoutApart machine.fs := by
  intro claimed
  have evaluated : (runOps firstBoot (eighteenNames.map (fun name => plain (.touch name)) ++
      [plain (.nano (ascii "S") true (typed 120))])).any (fun machine =>
        machine.fs.fileContents.map FileContent.fileIdx = [18]) = true := by decide +kernel
  obtain ⟨machine, done, reached⟩ := (Option.any_eq_true _ _).mp evaluated
  have run := run_ops_run firstBoot machine _ (.start _ first_boot_booted) done
  have owner : 18 ∈ machine.fs.fileContents.map FileContent.fileIdx := by
    rw [of_decide_eq_true reached]
    exact List.mem_singleton_self 18
  obtain ⟨content, member, here⟩ := List.mem_map.mp owner
  have written : hostLba ∈ areaSectors machine.fs (.content 18) :=
    (content_area_member _ _ _).mpr ⟨content, member, here, 12, by decide, rfl⟩
  exact (claimed machine run).host (.content 18) written

end RoDos.Fs
