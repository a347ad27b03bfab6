import RoDos.Fat.Model

set_option autoImplicit false

namespace RoDos.Fat

open Base

theorem load_stored (mem : Memory) (buffer i : Nat) (sector : Nat → UInt8) (inside : i < 512) :
    loadByte (storeSector mem buffer sector) (buffer + i) = sector i := by
  have offset : sub32 ((buffer + i) % 2 ^ 32) buffer = i := by
    rw [sub32]
    omega
  rw [loadByte, storeSector, offset, if_pos inside]

theorem store_sector_twice (mem : Memory) (buffer : Nat) (first second : Nat → UInt8) :
    storeSector (storeSector mem buffer first) buffer second = storeSector mem buffer second := by
  funext address
  unfold storeSector
  by_cases inside : sub32 address buffer < 512
  · simp only [if_pos inside]
  · simp only [if_neg inside]

theorem load_added (mem : Memory) (a b i : Nat) : loadByte mem (add32 a b + i) = loadByte mem (a + b + i) := by
  rw [loadByte, loadByte, add32, Nat.mod_add_mod]

section
variable (drive : Drive) (fs : FileSystem) (eax ecx : Nat)

theorem read_sector_done (done : drive.fails fs.reads = false) : readSectorLba drive fs eax ecx =
    ({ fs with mem := storeSector fs.mem ecx (drive.sector (eax % 2 ^ 28)), reads := fs.reads + 1 }, 0) := by
  rw [readSectorLba, if_neg (by rw [done]; exact Bool.false_ne_true)]

theorem read_sector_failed (failed : drive.fails fs.reads = true) :
    readSectorLba drive fs eax ecx = ({ fs with reads := fs.reads + 1 }, minusOne) := by
  rw [readSectorLba, if_pos failed]

theorem read_sector_counts : (readSectorLba drive fs eax ecx).1.reads = fs.reads + 1 := by
  cases status : drive.fails fs.reads with
  | true => rw [read_sector_failed drive fs eax ecx status]
  | false => rw [read_sector_done drive fs eax ecx status]
end

-- The FAT as the drive holds it, and its entries of 12 bits, packed from low to high.
def fatByte (drive : Drive) (fs : FileSystem) (i : Nat) : Nat :=
  (drive.sector (add32 (i / 512) fs.fsFirstFatLba % 2 ^ 28) (i % 512)).toNat

def packedEntry (drive : Drive) (fs : FileSystem) (cluster : Nat) : Nat :=
  let low := fatByte drive fs (3 * cluster / 2)
  let high := fatByte drive fs (3 * cluster / 2 + 1)
  if cluster % 2 = 1 then low / 2 ^ 4 + 2 ^ 4 * high else low + 2 ^ 8 * (high % 2 ^ 4)

def endMarked (entry : Nat) : Nat := if 0xFF8 ≤ entry then 0xFFF else entry

section
variable (drive : Drive) (fs : FileSystem) (fatSize cluster : Nat)

theorem mask_entry_word (low high : Nat) (lowByte : low < 2 ^ 8) (highByte : high < 2 ^ 8) :
    maskEntry cluster (low + 2 ^ 8 * high) =
      endMarked (if cluster % 2 = 1 then low / 2 ^ 4 + 2 ^ 4 * high else low + 2 ^ 8 * (high % 2 ^ 4)) := by
  have entry : (if cluster % 2 = 1 then (low + 2 ^ 8 * high) / 2 ^ 4 else low + 2 ^ 8 * high) % 2 ^ 12 =
      if cluster % 2 = 1 then low / 2 ^ 4 + 2 ^ 4 * high else low + 2 ^ 8 * (high % 2 ^ 4) := by
    split <;> omega
  rw [maskEntry, entry, endMarked]

-- Both shifts push a byte at bit 16 out of the entry.
theorem mask_entry_high (byte : Nat) : maskEntry cluster (byte * 2 ^ 16) = 0 := by
  have entry : (if cluster % 2 = 1 then byte * 2 ^ 16 / 2 ^ 4 else byte * 2 ^ 16) % 2 ^ 12 = 0 := by
    split <;> omega
  rw [maskEntry, entry]
  rfl

variable (bytes : fs.bpbBytesPerSector = 512) (word : fatSize < 2 ^ 16) (inside : 3 * cluster / 2 + 1 < fatSize * 512)
  (succeed : ∀ k, drive.fails k = false)
include bytes word inside succeed

theorem read_entry_within (within : 3 * cluster / 2 % 512 ≠ 511) :
    (readFatEntry drive fs cluster).2 = endMarked (packedEntry drive fs cluster) := by
  have offset : add32 (add32 cluster cluster) cluster / 2 = 3 * cluster / 2 := by
    rw [add32_of_lt cluster, add32_of_lt] <;> omega
  have short : signed32 (add32 (3 * cluster / 2 % 512) 1) < signed32 512 := by
    rw [add32_of_lt _ _ (by omega), signed32, if_pos (by omega), signed32, if_pos (by decide)]
    omega
  rw [readFatEntry, offset, bytes]
  dsimp only
  rw [read_sector_done drive fs _ _ (succeed _)]
  dsimp only
  rw [if_neg (by decide), bytes, if_pos short]
  dsimp only
  have low := load_stored fs.mem fs.fsTempBufPtr (3 * cluster / 2 % 512)
    (drive.sector (add32 (3 * cluster / 2 / 512) fs.fsFirstFatLba % 2 ^ 28)) (by omega)
  have high := load_stored fs.mem fs.fsTempBufPtr (3 * cluster / 2 % 512 + 1)
    (drive.sector (add32 (3 * cluster / 2 / 512) fs.fsFirstFatLba % 2 ^ 28)) (by omega)
  have lowRead := load_added (storeSector fs.mem fs.fsTempBufPtr
    (drive.sector (add32 (3 * cluster / 2 / 512) fs.fsFirstFatLba % 2 ^ 28))) fs.fsTempBufPtr (3 * cluster / 2 % 512) 0
  have next : (3 * cluster / 2 + 1) / 512 = 3 * cluster / 2 / 512 ∧ (3 * cluster / 2 + 1) % 512 = 3 * cluster / 2 % 512 + 1 := by
    omega
  rw [loadHalf, ← Nat.add_zero (add32 fs.fsTempBufPtr _), lowRead, Nat.add_zero, Nat.add_zero, low, load_added,
    Nat.add_assoc, high, mask_entry_word _ _ _ (UInt8.toNat_lt _) (UInt8.toNat_lt _), packedEntry, fatByte, fatByte, next.1,
    next.2]

theorem read_entry_across (across : 3 * cluster / 2 % 512 = 511) : (readFatEntry drive fs cluster).2 = 0 := by
  have offset : add32 (add32 cluster cluster) cluster / 2 = 3 * cluster / 2 := by
    rw [add32_of_lt cluster, add32_of_lt] <;> omega
  have long : ¬ signed32 (add32 511 1) < signed32 512 := by decide
  rw [readFatEntry, offset, bytes, across]
  dsimp only
  rw [read_sector_done drive fs _ _ (succeed _)]
  dsimp only
  rw [if_neg (by decide), bytes, if_neg long, read_sector_done drive _ _ _ (succeed _)]
  dsimp only
  rw [if_neg (by decide), Nat.zero_or]
  exact mask_entry_high cluster _

theorem fat_entry_iff : (readFatEntry drive fs cluster).2 = endMarked (packedEntry drive fs cluster) ↔
    3 * cluster / 2 % 512 ≠ 511 ∨ packedEntry drive fs cluster = 0 := by
  by_cases across : 3 * cluster / 2 % 512 = 511
  · rw [read_entry_across drive fs fatSize cluster bytes word inside succeed across]
    refine ⟨fun zero => Or.inr ?_, fun other => ?_⟩
    · rw [endMarked] at zero
      split at zero
      · cases zero
      · exact zero.symm
    · rw [other.resolve_left (not_not_intro across)]
      rfl
  · exact iff_of_true (read_entry_within drive fs fatSize cluster bytes word inside succeed across) (Or.inl across)
end

def blankVolume : FileSystem where
  mem := fun _ => 0
  handles := fun _ => ⟨0, 0, 0, 0, 0, 0, 0, 0⟩
  fileHandleArea := 2 ^ 20
  bpbBytesPerSector := 512
  fsFirstFatLba := 1
  fsFirstRootLba := 19
  fsRootDirSectors := 14
  fsTempBufPtr := 2 ^ 16
  clusterBufferPtr := 2 ^ 17
  reads := 0

def fullDrive : Drive := ⟨fun _ _ => 0xFF, fun _ => false, fun _ => 0⟩

theorem fat_entry_second : (readFatEntry fullDrive blankVolume 2).2 = endMarked (packedEntry fullDrive blankVolume 2) :=
  (fat_entry_iff fullDrive blankVolume 9 2 rfl (by decide) (by decide) (fun _ => rfl)).mpr (Or.inl (by decide))

theorem fat_entry_lost : ¬ ∀ drive fs fatSize cluster, fs.bpbBytesPerSector = 512 → fatSize < 2 ^ 16 →
    3 * cluster / 2 + 1 < fatSize * 512 → (∀ k, drive.fails k = false) →
      (readFatEntry drive fs cluster).2 = endMarked (packedEntry drive fs cluster) := by
  intro claimed
  have read := claimed fullDrive blankVolume 9 341 rfl (by decide) (by decide) fun _ => rfl
  have lost := read_entry_across fullDrive blankVolume 9 341 rfl (by decide) (by decide) (fun _ => rfl) (by decide)
  rw [lost] at read
  exact absurd read (by decide)

end RoDos.Fat
