import RoDos.Fat.Directory

set_option autoImplicit false

namespace RoDos.Fat

open Base

-- The .data words that only fs_init stores stand beside those of the other functions.
structure Volume extends FileSystem where
  bootSectorLbaSaved : Nat
  bpbSectorsPerCluster : Nat
  bpbReservedSectors : Nat
  bpbNumFats : Nat
  bpbMaxRootEntries : Nat
  bpbTotalSectors16 : Nat
  bpbMedia : UInt8
  bpbFatSizeSectors : Nat
  bpbSectorsPerTrack : Nat
  bpbNumHeads : Nat
  bpbHiddenSectors : Nat
  bpbTotalSectors32 : Nat
  fsFirstDataLba : Nat
  fsTotalClusters : Nat

def saveParameters (volume : Volume) (eax ebx : Nat) : Volume :=
  { volume with bootSectorLbaSaved := eax, fsTempBufPtr := ebx }

def parseBpb (volume : Volume) : Volume :=
  let esi := volume.fsTempBufPtr
  { volume with
    bpbBytesPerSector := loadHalf volume.mem (esi + 11)
    bpbSectorsPerCluster := (loadByte volume.mem (esi + 13)).toNat
    bpbReservedSectors := loadHalf volume.mem (esi + 14)
    bpbNumFats := (loadByte volume.mem (esi + 16)).toNat
    bpbMaxRootEntries := loadHalf volume.mem (esi + 17)
    bpbTotalSectors16 := loadHalf volume.mem (esi + 19)
    bpbMedia := loadByte volume.mem (esi + 21)
    bpbFatSizeSectors := loadHalf volume.mem (esi + 22)
    bpbSectorsPerTrack := loadHalf volume.mem (esi + 24)
    bpbNumHeads := loadHalf volume.mem (esi + 26)
    bpbHiddenSectors := loadWord volume.mem (esi + 28)
    bpbTotalSectors32 := loadWord volume.mem (esi + 32) }

def computeFirstLbas (volume : Volume) : Volume :=
  let firstFat := add32 volume.bootSectorLbaSaved volume.bpbReservedSectors
  { volume with
    fsFirstFatLba := firstFat
    fsFirstRootLba := add32 (volume.bpbNumFats * volume.bpbFatSizeSectors % 2 ^ 32) firstFat }

-- EDX is 0 before a div, so that none is the divide error of a divisor 0.
def divide (eax divisor : Nat) : Option (Nat × Nat) := if divisor = 0 then none else some (eax / divisor, eax % divisor)

def computeData (volume : Volume) : Option Volume := do
  let (eax, edx) ← divide (volume.bpbMaxRootEntries * 2 ^ 5 % 2 ^ 32) volume.bpbBytesPerSector
  let rootDirSectors := if edx = 0 then eax else add32 eax 1
  return { volume with fsRootDirSectors := rootDirSectors, fsFirstDataLba := add32 rootDirSectors volume.fsFirstRootLba }

def totalSectors (volume : Volume) : Nat :=
  if volume.bpbTotalSectors16 = 0 then volume.bpbTotalSectors32 else volume.bpbTotalSectors16

def computeClusters (volume : Volume) : Option Volume := do
  let (eax, _) ← divide (sub32 (totalSectors volume) volume.fsFirstDataLba) volume.bpbSectorsPerCluster
  return { volume with fsTotalClusters := eax }

-- rep stosd over 16 records of 8 words
def clearHandles (volume : Volume) : Volume := { volume with handles := fun _ => ⟨0, 0, 0, 0, 0, 0, 0, 0⟩ }

def allocateClusterBuffer (kmalloc : Memory → Nat → Memory × Nat) (volume : Volume) : Volume :=
  let (mem, eax) := kmalloc volume.mem (volume.bpbBytesPerSector * volume.bpbSectorsPerCluster % 2 ^ 32)
  { volume with mem := mem, clusterBufferPtr := eax }

-- The second component is the EAX that is returned. What kmalloc does with the memory is any function.
def fsInit (drive : Drive) (kmalloc : Memory → Nat → Memory × Nat) (volume : Volume) (eax ebx : Nat) :
    Option (Volume × Nat) :=
  let (read, status) := readSectorLba drive (saveParameters volume eax ebx).toFileSystem eax ebx
  let read := { saveParameters volume eax ebx with toFileSystem := read }
  if status ≠ 0 then some (read, 1)
  else do
    let data ← computeData (computeFirstLbas (parseBpb read))
    let volume ← computeClusters data
    return (clearHandles (allocateClusterBuffer kmalloc volume), 0)

def clusterToLba (volume : Volume) (eax : Nat) : Nat :=
  add32 (sub32 eax 2 * volume.bpbSectorsPerCluster % 2 ^ 32) volume.fsFirstDataLba

structure Geometry where
  bytesPerSector : Nat
  sectorsPerCluster : Nat
  reservedSectors : Nat
  fats : Nat
  fatSize : Nat
  rootEntries : Nat
  total : Nat
deriving DecidableEq, Repr

def halfAt (sector : Nat → UInt8) (i : Nat) : Nat := (sector i).toNat + 2 ^ 8 * (sector (i + 1)).toNat

def wordAt (sector : Nat → UInt8) (i : Nat) : Nat :=
  (sector i).toNat + 2 ^ 8 * (sector (i + 1)).toNat + 2 ^ 16 * (sector (i + 2)).toNat + 2 ^ 24 * (sector (i + 3)).toNat

def geometryOf (sector : Nat → UInt8) : Geometry where
  bytesPerSector := halfAt sector 11
  sectorsPerCluster := (sector 13).toNat
  reservedSectors := halfAt sector 14
  fats := (sector 16).toNat
  fatSize := halfAt sector 22
  rootEntries := halfAt sector 17
  total := if halfAt sector 19 = 0 then wordAt sector 32 else halfAt sector 19

namespace Geometry

variable (geometry : Geometry)

def rootSize : Nat := (geometry.rootEntries * 32 + geometry.bytesPerSector - 1) / geometry.bytesPerSector

def system : Nat := geometry.reservedSectors + geometry.fats * geometry.fatSize + geometry.rootSize

def clusters : Nat := (geometry.total - geometry.system) / geometry.sectorsPerCluster

end Geometry

structure LaidOut (geometry : Geometry) (boot : Nat) (volume : Volume) : Prop where
  fat : volume.fsFirstFatLba = boot + geometry.reservedSectors
  root : volume.fsFirstRootLba = volume.fsFirstFatLba + geometry.fats * geometry.fatSize
  data : volume.fsFirstDataLba = volume.fsFirstRootLba + geometry.rootSize
  inside : volume.fsFirstDataLba ≤ boot + geometry.total
  clusters : volume.fsTotalClusters = (boot + geometry.total - volume.fsFirstDataLba) / geometry.sectorsPerCluster

theorem clusters_laid_out (geometry : Geometry) (boot : Nat) (volume : Volume) (laid : LaidOut geometry boot volume) :
    volume.fsTotalClusters = geometry.clusters := by
  have first : volume.fsFirstDataLba = boot + geometry.system := by
    rw [laid.data, laid.root, laid.fat, Geometry.system]
    omega
  rw [laid.clusters, first, Nat.add_sub_add_left, Geometry.clusters]

theorem rounded_up (a b : Nat) (positive : 0 < b) :
    (if a % b = 0 then a / b else a / b + 1) = (a + b - 1) / b := by
  have split := Nat.div_add_mod a b
  have small := Nat.mod_lt a positive
  rw [eq_comm, Nat.div_eq_iff positive]
  by_cases whole : a % b = 0
  · rw [if_pos whole, Nat.mul_comm (a / b)]
    omega
  · rw [if_neg whole, Nat.add_mul, Nat.mul_comm (a / b)]
    omega

theorem divided_down_iff (a b d : Nat) (positive : 0 < d) (below : b ≤ a) : (a - b) / d = a / d ↔ b ≤ a % d := by
  have split := Nat.div_add_mod a d
  have small := Nat.mod_lt a positive
  rw [Nat.div_eq_iff positive, Nat.mul_comm (a / d)]
  omega

theorem divided_up_iff (a b d : Nat) (positive : 0 < d) : (a + b) / d = a / d ↔ a % d + b < d := by
  have split := Nat.div_add_mod a d
  rw [Nat.div_eq_iff positive, Nat.mul_comm (a / d)]
  omega

structure Computed (geometry : Geometry) (boot : Nat) (volume : Volume) : Prop where
  bytes : volume.bpbBytesPerSector = geometry.bytesPerSector
  perCluster : volume.bpbSectorsPerCluster = geometry.sectorsPerCluster
  fat : volume.fsFirstFatLba = add32 boot geometry.reservedSectors
  root : volume.fsFirstRootLba = add32 (geometry.fats * geometry.fatSize) volume.fsFirstFatLba
  rootSize : volume.fsRootDirSectors = geometry.rootSize
  data : volume.fsFirstDataLba = add32 geometry.rootSize volume.fsFirstRootLba
  clusters : volume.fsTotalClusters = sub32 geometry.total volume.fsFirstDataLba / geometry.sectorsPerCluster
  handles : ∀ ebx, (volume.handles ebx).flags % 2 = 0

structure Small (geometry : Geometry) : Prop where
  bytesPerSector : geometry.bytesPerSector < 2 ^ 16
  sectorsPerCluster : geometry.sectorsPerCluster < 2 ^ 8
  reservedSectors : geometry.reservedSectors < 2 ^ 16
  fatSectors : geometry.fats * geometry.fatSize < 2 ^ 24
  rootEntries : geometry.rootEntries < 2 ^ 16
  total : geometry.total < 2 ^ 32

theorem half_at_lt (sector : Nat → UInt8) (i : Nat) : halfAt sector i < 2 ^ 16 := by
  have low := (sector i).toNat_lt
  have high := (sector (i + 1)).toNat_lt
  rw [halfAt]
  omega

theorem word_at_lt (sector : Nat → UInt8) (i : Nat) : wordAt sector i < 2 ^ 32 := by
  have low := (sector i).toNat_lt
  have second := (sector (i + 1)).toNat_lt
  have third := (sector (i + 2)).toNat_lt
  have high := (sector (i + 3)).toNat_lt
  rw [wordAt]
  omega

theorem geometry_of_small (sector : Nat → UInt8) : Small (geometryOf sector) where
  bytesPerSector := half_at_lt sector 11
  sectorsPerCluster := (sector 13).toNat_lt
  reservedSectors := half_at_lt sector 14
  fatSectors := by
    have fats : (geometryOf sector).fats < 2 ^ 8 := (sector 16).toNat_lt
    have fatSize : (geometryOf sector).fatSize < 2 ^ 16 := half_at_lt sector 22
    exact (Nat.mul_lt_mul'' fats fatSize).trans_eq rfl
  rootEntries := half_at_lt sector 17
  total := by
    have half := half_at_lt sector 19
    have word := word_at_lt sector 32
    dsimp only [geometryOf]
    split
    · exact word
    · omega

theorem half_stored (mem : Memory) (buffer i : Nat) (sector : Nat → UInt8) (inside : i + 1 < 512) :
    loadHalf (storeSector mem buffer sector) (buffer + i) = halfAt sector i := by
  rw [loadHalf, halfAt, Nat.add_assoc, load_stored _ _ _ _ inside, load_stored _ _ _ _ (Nat.lt_of_succ_lt inside)]

theorem word_stored (mem : Memory) (buffer i : Nat) (sector : Nat → UInt8) (inside : i + 3 < 512) :
    loadWord (storeSector mem buffer sector) (buffer + i) = wordAt sector i := by
  have byte (j : Nat) (below : j < 4) : loadByte (storeSector mem buffer sector) (buffer + i + j) = sector (i + j) := by
    rw [Nat.add_assoc, load_stored _ _ _ _ (by omega)]
  rw [loadWord, wordAt, byte 1 (by decide), byte 2 (by decide), byte 3 (by decide)]
  exact congrArg (fun low => UInt8.toNat low + _ + _ + _) (byte 0 (by decide))

structure Parsed (geometry : Geometry) (volume : Volume) : Prop where
  bytes : volume.bpbBytesPerSector = geometry.bytesPerSector
  clusters : volume.bpbSectorsPerCluster = geometry.sectorsPerCluster
  reserved : volume.bpbReservedSectors = geometry.reservedSectors
  fats : volume.bpbNumFats = geometry.fats
  fatSize : volume.bpbFatSizeSectors = geometry.fatSize
  entries : volume.bpbMaxRootEntries = geometry.rootEntries
  total : totalSectors volume = geometry.total

theorem bpb_parsed (volume : Volume) (mem : Memory) (sector : Nat → UInt8)
    (read : volume.mem = storeSector mem volume.fsTempBufPtr sector) : Parsed (geometryOf sector) (parseBpb volume) := by
  have byte (i : Nat) (inside : i < 512) : loadByte volume.mem (volume.fsTempBufPtr + i) = sector i := by
    rw [read, load_stored _ _ _ _ inside]
  have half (i : Nat) (inside : i + 1 < 512) : loadHalf volume.mem (volume.fsTempBufPtr + i) = halfAt sector i := by
    rw [read, half_stored _ _ _ _ inside]
  have word (i : Nat) (inside : i + 3 < 512) : loadWord volume.mem (volume.fsTempBufPtr + i) = wordAt sector i := by
    rw [read, word_stored _ _ _ _ inside]
  refine ⟨half 11 (by decide), ?_, half 14 (by decide), ?_, half 22 (by decide), half 17 (by decide), ?_⟩
  · exact congrArg UInt8.toNat (byte 13 (by decide))
  · exact congrArg UInt8.toNat (byte 16 (by decide))
  · dsimp only [totalSectors, parseBpb, geometryOf]
    rw [half 19 (by decide), word 32 (by decide)]

theorem data_computed (volume : Volume) (bytes : volume.bpbBytesPerSector ≠ 0)
    (few : volume.bpbMaxRootEntries < 2 ^ 16) :
    let size := (volume.bpbMaxRootEntries * 32 + volume.bpbBytesPerSector - 1) / volume.bpbBytesPerSector
    computeData volume =
      some { volume with fsRootDirSectors := size, fsFirstDataLba := add32 size volume.fsFirstRootLba } := by
  have shifted : volume.bpbMaxRootEntries * 2 ^ 5 % 2 ^ 32 = volume.bpbMaxRootEntries * 32 := by omega
  have small := Nat.div_le_self (volume.bpbMaxRootEntries * 32) volume.bpbBytesPerSector
  have next : add32 (volume.bpbMaxRootEntries * 32 / volume.bpbBytesPerSector) 1 =
      volume.bpbMaxRootEntries * 32 / volume.bpbBytesPerSector + 1 := add32_of_lt _ _ (by omega)
  rw [← rounded_up _ _ (Nat.pos_of_ne_zero bytes), computeData, divide, if_neg bytes, shifted, ← next]
  rfl

theorem clusters_computed (volume : Volume) (clusters : volume.bpbSectorsPerCluster ≠ 0) :
    computeClusters volume = some { volume with
      fsTotalClusters := sub32 (totalSectors volume) volume.fsFirstDataLba / volume.bpbSectorsPerCluster } := by
  rw [computeClusters, divide, if_neg clusters]
  rfl

section
variable (kmalloc : Memory → Nat → Memory × Nat) (geometry : Geometry) (volume : Volume)

def compute : Option Volume := do
  let data ← computeData (computeFirstLbas volume)
  let volume ← computeClusters data
  return clearHandles (allocateClusterBuffer kmalloc volume)

variable (small : Small geometry) (parsed : Parsed geometry volume)
include small parsed

theorem compute_done (bytes : geometry.bytesPerSector ≠ 0) (clusters : geometry.sectorsPerCluster ≠ 0) :
    ∃ after, compute kmalloc volume = some after ∧ Computed geometry volume.bootSectorLbaSaved after := by
  have fatSectors : geometry.fats * geometry.fatSize % 2 ^ 32 = geometry.fats * geometry.fatSize :=
    Nat.mod_eq_of_lt (small.fatSectors.trans (by decide))
  have size : ((computeFirstLbas volume).bpbMaxRootEntries * 32 + (computeFirstLbas volume).bpbBytesPerSector - 1) /
      (computeFirstLbas volume).bpbBytesPerSector = geometry.rootSize := by
    rw [Geometry.rootSize, ← parsed.entries, ← parsed.bytes]
    rfl
  have data := data_computed (computeFirstLbas volume) (parsed.bytes ▸ bytes) (parsed.entries ▸ small.rootEntries)
  rw [size] at data
  have counted := clusters_computed { computeFirstLbas volume with
    fsRootDirSectors := geometry.rootSize
    fsFirstDataLba := add32 geometry.rootSize (computeFirstLbas volume).fsFirstRootLba } (parsed.clusters ▸ clusters)
  refine ⟨_, by rw [compute, data, Option.bind_eq_bind, Option.bind_some, counted, Option.bind_some, Option.pure_def], ?_⟩
  refine ⟨parsed.bytes, parsed.clusters, ?_, ?_, rfl, rfl, ?_, fun _ => rfl⟩
  · exact congrArg (add32 volume.bootSectorLbaSaved) parsed.reserved
  · rw [← fatSectors, ← parsed.fats, ← parsed.fatSize]
    rfl
  · rw [← parsed.total, ← parsed.clusters]
    rfl

theorem compute_faults (zero : geometry.bytesPerSector = 0 ∨ geometry.sectorsPerCluster = 0) :
    compute kmalloc volume = none := by
  by_cases bytes : geometry.bytesPerSector = 0
  · have divisor : (computeFirstLbas volume).bpbBytesPerSector = 0 := parsed.bytes.trans bytes
    rw [compute, computeData, divide, if_pos divisor]
    rfl
  · have data := data_computed (computeFirstLbas volume) (parsed.bytes ▸ bytes) (parsed.entries ▸ small.rootEntries)
    have divisor : (computeFirstLbas volume).bpbSectorsPerCluster = 0 := parsed.clusters.trans (zero.resolve_left bytes)
    rw [compute, data, Option.bind_eq_bind, Option.bind_some, computeClusters, divide, if_pos divisor]
    rfl
end

-- The conditions under which the words modulo 2^32 are the layout: the count of clusters is too small by the LBA of the
-- boot sector, before it is divided.
structure Fits (geometry : Geometry) (boot : Nat) : Prop where
  bytes : geometry.bytesPerSector ≠ 0
  clusters : geometry.sectorsPerCluster ≠ 0
  word : boot + geometry.system < 2 ^ 32
  room : geometry.system ≤ geometry.total
  slack : boot ≤ (geometry.total - geometry.system) % geometry.sectorsPerCluster ∨
    geometry.total - geometry.system < boot ∧
      (geometry.total - geometry.system) % geometry.sectorsPerCluster + (2 ^ 32 - boot) < geometry.sectorsPerCluster

theorem counted_iff (boot system total d : Nat) (positive : 0 < d) (bound : total < 2 ^ 32) (word : boot + system < 2 ^ 32)
    (room : system ≤ total) : sub32 total (boot + system) / d = (total - system) / d ↔
      boot ≤ (total - system) % d ∨ total - system < boot ∧ (total - system) % d + (2 ^ 32 - boot) < d := by
  have low := Nat.mod_le (total - system) d
  by_cases below : boot ≤ total - system
  · have difference : sub32 total (boot + system) = total - system - boot := by
      rw [sub32]
      omega
    rw [difference, divided_down_iff _ _ _ positive below]
    omega
  · have difference : sub32 total (boot + system) = total - system + (2 ^ 32 - boot) := by
      rw [sub32]
      omega
    rw [difference, divided_up_iff _ _ _ positive]
    omega

theorem laid_out_iff (geometry : Geometry) (boot : Nat) (volume : Volume) (small : Small geometry)
    (bytes : geometry.bytesPerSector ≠ 0) (clusters : geometry.sectorsPerCluster ≠ 0)
    (computed : Computed geometry boot volume) : LaidOut geometry boot volume ↔ Fits geometry boot := by
  have counted := counted_iff boot geometry.system geometry.total geometry.sectorsPerCluster (Nat.pos_of_ne_zero clusters)
    small.total
  have from' : boot + geometry.system =
      boot + geometry.reservedSectors + geometry.fats * geometry.fatSize + geometry.rootSize := by
    rw [Geometry.system]
    omega
  constructor
  · intro laid
    have first : volume.fsFirstDataLba = boot + geometry.system := by rw [laid.data, laid.root, laid.fat, from']
    have word : boot + geometry.system < 2 ^ 32 := by
      rw [← first, computed.data]
      exact Nat.mod_lt _ (by decide)
    have inside := laid.inside
    have room : geometry.system ≤ geometry.total := by omega
    have count := laid.clusters
    rw [computed.clusters, first, Nat.add_sub_add_left] at count
    exact ⟨bytes, clusters, word, room, (counted word room).mp count⟩
  · intro fits
    have word := fits.word
    have room := fits.room
    have fat : volume.fsFirstFatLba = boot + geometry.reservedSectors := by
      rw [computed.fat, add32_of_lt _ _ (by omega)]
    have root : volume.fsFirstRootLba = volume.fsFirstFatLba + geometry.fats * geometry.fatSize := by
      rw [computed.root, add32_of_lt _ _ (by omega), Nat.add_comm]
    have data : volume.fsFirstDataLba = volume.fsFirstRootLba + geometry.rootSize := by
      rw [computed.data, add32_of_lt _ _ (by omega), Nat.add_comm]
    have first : volume.fsFirstDataLba = boot + geometry.system := by rw [data, root, fat, from']
    refine ⟨fat, root, data, by omega, ?_⟩
    rw [computed.clusters, first, Nat.add_sub_add_left]
    exact (counted word room).mpr fits.slack

theorem cluster_in_volume (geometry : Geometry) (boot : Nat) (volume : Volume) (computed : Computed geometry boot volume)
    (laid : LaidOut geometry boot volume) (word : boot + geometry.total < 2 ^ 32) (k : Nat)
    (below : k < volume.fsTotalClusters) :
    clusterToLba volume (k + 2) = volume.fsFirstDataLba + k * geometry.sectorsPerCluster ∧
      clusterToLba volume (k + 2) + geometry.sectorsPerCluster ≤ boot + geometry.total := by
  have inside := laid.inside
  have whole : volume.fsTotalClusters * geometry.sectorsPerCluster ≤ boot + geometry.total - volume.fsFirstDataLba := by
    rw [laid.clusters]
    exact Nat.div_mul_le_self _ _
  have next : (k + 1) * geometry.sectorsPerCluster ≤ volume.fsTotalClusters * geometry.sectorsPerCluster :=
    Nat.mul_le_mul_right _ below
  have few : volume.fsTotalClusters ≤ boot + geometry.total := by
    rw [laid.clusters]
    exact (Nat.div_le_self _ _).trans (Nat.sub_le _ _)
  rw [Nat.add_mul, Nat.one_mul] at next
  have index : sub32 (k + 2) 2 = k := by
    rcases Nat.lt_or_ge (k + 2) (2 ^ 32) with small | large
    · rw [sub32_of_le _ _ small (by omega), Nat.add_sub_cancel]
    · rw [sub32]
      omega
  have lba : clusterToLba volume (k + 2) = volume.fsFirstDataLba + k * geometry.sectorsPerCluster := by
    rw [clusterToLba, index, computed.perCluster, Nat.mod_eq_of_lt (by omega), add32_of_lt _ _ (by omega), Nat.add_comm]
  exact ⟨lba, by omega⟩

section
variable (drive : Drive) (kmalloc : Memory → Nat → Memory × Nat) (volume : Volume) (eax ebx : Nat)

theorem init_unread (failed : drive.fails volume.reads = true) :
    ∃ after, fsInit drive kmalloc volume eax ebx = some (after, 1) := by
  rw [fsInit, read_sector_failed drive (saveParameters volume eax ebx).toFileSystem _ _ failed]
  exact ⟨_, if_pos (by decide)⟩

theorem init_read (read : drive.fails volume.reads = false) : ∃ behind : Volume,
    behind.bootSectorLbaSaved = eax ∧ Parsed (geometryOf (drive.sector (eax % 2 ^ 28))) behind ∧
      fsInit drive kmalloc volume eax ebx = (compute kmalloc behind).map fun after => (after, 0) := by
  rw [fsInit, read_sector_done drive (saveParameters volume eax ebx).toFileSystem _ _ read]
  dsimp only
  rw [if_neg (by decide)]
  refine ⟨parseBpb { saveParameters volume eax ebx with
    mem := storeSector volume.mem ebx (drive.sector (eax % 2 ^ 28)), reads := volume.reads + 1 }, rfl,
    bpb_parsed _ volume.mem _ rfl, ?_⟩
  rw [compute, Option.map_eq_bind]
  simp only [Option.bind_eq_bind, Option.bind_assoc, Option.pure_def, Option.bind_some]
  rfl

def InitRight : Prop := ∃ after status, fsInit drive kmalloc volume eax ebx = some (after, status) ∧
  (status ≠ 0 ∨ LaidOut (geometryOf (drive.sector (eax % 2 ^ 28))) eax after)

theorem init_computed (read : drive.fails volume.reads = false)
    (bytes : (geometryOf (drive.sector (eax % 2 ^ 28))).bytesPerSector ≠ 0)
    (clusters : (geometryOf (drive.sector (eax % 2 ^ 28))).sectorsPerCluster ≠ 0) :
    ∃ after, fsInit drive kmalloc volume eax ebx = some (after, 0) ∧
      Computed (geometryOf (drive.sector (eax % 2 ^ 28))) eax after := by
  obtain ⟨behind, saved, parsed, run⟩ := init_read drive kmalloc volume eax ebx read
  obtain ⟨after, done, computed⟩ := compute_done kmalloc _ behind (geometry_of_small _) parsed bytes clusters
  exact ⟨after, by rw [run, done, Option.map_some], saved ▸ computed⟩

theorem init_faults (read : drive.fails volume.reads = false)
    (zero : (geometryOf (drive.sector (eax % 2 ^ 28))).bytesPerSector = 0 ∨
      (geometryOf (drive.sector (eax % 2 ^ 28))).sectorsPerCluster = 0) : fsInit drive kmalloc volume eax ebx = none := by
  obtain ⟨behind, _, parsed, run⟩ := init_read drive kmalloc volume eax ebx read
  rw [run, compute_faults kmalloc _ behind (geometry_of_small _) parsed zero, Option.map_none]

theorem fs_init_mounts (after : Volume) (done : fsInit drive kmalloc volume eax ebx = some (after, 0)) :
    Mounted after.toFileSystem ∧ ∀ ebx, (after.handles ebx).flags % 2 = 0 := by
  cases read : drive.fails volume.reads with
  | true =>
      obtain ⟨unread, returned⟩ := init_unread drive kmalloc volume eax ebx read
      rw [returned] at done
      cases done
  | false =>
      by_cases zero : (geometryOf (drive.sector (eax % 2 ^ 28))).bytesPerSector = 0 ∨
          (geometryOf (drive.sector (eax % 2 ^ 28))).sectorsPerCluster = 0
      · rw [init_faults drive kmalloc volume eax ebx read zero] at done
        cases done
      · obtain ⟨bytes, clusters⟩ := not_or.mp zero
        have small := geometry_of_small (drive.sector (eax % 2 ^ 28))
        obtain ⟨mounted, returned, computed⟩ := init_computed drive kmalloc volume eax ebx read bytes clusters
        rw [returned] at done
        cases done
        refine ⟨⟨?_, ?_, _, small.rootEntries, ?_⟩, computed.handles⟩
        · rw [computed.bytes]
          exact Nat.pos_of_ne_zero bytes
        · rw [computed.bytes]
          exact small.bytesPerSector
        · rw [computed.rootSize, computed.bytes, Geometry.rootSize]

theorem init_right_read (read : drive.fails volume.reads = false) :
    InitRight drive kmalloc volume eax ebx ↔ Fits (geometryOf (drive.sector (eax % 2 ^ 28))) eax := by
  by_cases zero : (geometryOf (drive.sector (eax % 2 ^ 28))).bytesPerSector = 0 ∨
      (geometryOf (drive.sector (eax % 2 ^ 28))).sectorsPerCluster = 0
  · refine iff_of_false ?_ fun fits => zero.elim fits.bytes fits.clusters
    rintro ⟨after, status, returned, _⟩
    rw [init_faults drive kmalloc volume eax ebx read zero] at returned
    cases returned
  · obtain ⟨bytes, clusters⟩ := not_or.mp zero
    obtain ⟨after, returned, computed⟩ := init_computed drive kmalloc volume eax ebx read bytes clusters
    rw [← laid_out_iff _ eax after (geometry_of_small _) bytes clusters computed]
    constructor
    · rintro ⟨other, status, same, right⟩
      rw [returned] at same
      cases same
      exact right.resolve_left (by decide)
    · exact fun laid => ⟨after, 0, returned, Or.inr laid⟩

theorem fs_init_iff : InitRight drive kmalloc volume eax ebx ↔
    drive.fails volume.reads = true ∨ Fits (geometryOf (drive.sector (eax % 2 ^ 28))) eax := by
  cases read : drive.fails volume.reads with
  | true =>
      obtain ⟨after, returned⟩ := init_unread drive kmalloc volume eax ebx read
      exact iff_of_true ⟨after, 1, returned, Or.inl (by decide)⟩ (Or.inl rfl)
  | false =>
      rw [or_iff_right Bool.false_ne_true]
      exact init_right_read drive kmalloc volume eax ebx read
end

def floppySector : Nat → UInt8
  | 12 => 2
  | 13 => 1
  | 14 => 1
  | 16 => 2
  | 17 => 224
  | 19 => 64
  | 20 => 11
  | 22 => 9
  | _ => 0

def floppyDrive : Drive := ⟨fun _ => floppySector, fun _ => false, fun _ => 0⟩

def unmounted : Volume where
  toFileSystem := blankVolume
  bootSectorLbaSaved := 0
  bpbSectorsPerCluster := 0
  bpbReservedSectors := 0
  bpbNumFats := 0
  bpbMaxRootEntries := 0
  bpbTotalSectors16 := 0
  bpbMedia := 0
  bpbFatSizeSectors := 0
  bpbSectorsPerTrack := 0
  bpbNumHeads := 0
  bpbHiddenSectors := 0
  bpbTotalSectors32 := 0
  fsFirstDataLba := 0
  fsTotalClusters := 0

def anyBuffer (mem : Memory) (_ : Nat) : Memory × Nat := (mem, 2 ^ 20)

theorem fs_init_miscounts : ¬ ∀ drive kmalloc volume eax ebx, eax < 2 ^ 32 → InitRight drive kmalloc volume eax ebx := by
  intro claimed
  have fits := (init_right_read floppyDrive anyBuffer unmounted 2048 0 rfl).mp (claimed _ _ _ _ _ (by decide))
  exact absurd fits.slack (by decide +kernel)

end RoDos.Fat
