import RoDos.Base.Searches
import RoDos.Fat.Entries

set_option autoImplicit false

namespace RoDos.Fat

open Base

structure Mounted (fs : FileSystem) : Prop where
  some' : 0 < fs.bpbBytesPerSector
  word : fs.bpbBytesPerSector < 2 ^ 16
  sectors : ∃ entries < 2 ^ 16, fs.fsRootDirSectors = (entries * 32 + fs.bpbBytesPerSector - 1) / fs.bpbBytesPerSector

def sectorSlots (fs : FileSystem) (sector : Nat) : List (Nat × Nat) := (entryOffsets fs).map fun offset => (sector, offset)

def rootSlots (fs : FileSystem) : List (Nat × Nat) := (rootSectors fs).flatMap (sectorSlots fs)

def sectorRead (drive : Drive) (fs : FileSystem) (sector : Nat) : Memory :=
  storeSector fs.mem fs.fsTempBufPtr (drive.sector (add32 fs.fsFirstRootLba sector % 2 ^ 28))

-- Behind the 512 bytes that a read stores the loops see what stands behind the buffer.
def seen (drive : Drive) (fs : FileSystem) (slot : Nat × Nat) (i : Nat) : UInt8 :=
  if slot.2 + i < 512 then drive.sector (add32 fs.fsFirstRootLba slot.1 % 2 ^ 28) (slot.2 + i)
  else loadByte fs.mem (fs.fsTempBufPtr + (slot.2 + i))

def endSlot (drive : Drive) (fs : FileSystem) (slot : Nat × Nat) : Bool := seen drive fs slot 0 = 0

def deadSlot (drive : Drive) (fs : FileSystem) (slot : Nat × Nat) : Bool := seen drive fs slot 0 = 0xE5

def nameOf (drive : Drive) (fs : FileSystem) (slot : Nat × Nat) : List UInt8 := (List.range 11).map (seen drive fs slot)

def bytesAt (mem : Memory) (address : Nat) : List UInt8 := (List.range 11).map fun i => loadByte mem (address + i)

def named (drive : Drive) (fs : FileSystem) (name : List UInt8) (slot : Nat × Nat) : Bool := nameOf drive fs slot = name

-- The memory at the address that is the offset of the slot, with the slot's sector in the buffer.
def lowMatch (drive : Drive) (fs : FileSystem) (slot : Nat × Nat) : Bool :=
  nameOf drive fs slot = bytesAt (sectorRead drive fs slot.1) slot.2

def liveSlots (drive : Drive) (fs : FileSystem) : List (Nat × Nat) := live (endSlot drive fs) (deadSlot drive fs) (rootSlots fs)

def indexOf (drive : Drive) (fs : FileSystem) (hit : Nat × Nat → Bool) : Option Nat :=
  firstHit (endSlot drive fs) (deadSlot drive fs) hit (rootSlots fs)

theorem sector_read_seen (drive : Drive) (fs : FileSystem) (slot : Nat × Nat) (i : Nat) (word : slot.2 + i < 2 ^ 32) :
    loadByte (sectorRead drive fs slot.1) (fs.fsTempBufPtr + slot.2 + i) = seen drive fs slot i := by
  rw [seen, sectorRead, Nat.add_assoc]
  by_cases inside : slot.2 + i < 512
  · rw [if_pos inside, load_stored _ _ _ _ inside]
  · have offset : sub32 ((fs.fsTempBufPtr + (slot.2 + i)) % 2 ^ 32) fs.fsTempBufPtr = slot.2 + i := by
      rw [sub32]
      omega
    rw [if_neg inside, loadByte, storeSector, offset, if_neg inside, loadByte]

theorem first_byte_seen (drive : Drive) (fs : FileSystem) (sector ecx : Nat) (room : ecx < 2 ^ 17) :
    loadByte (sectorRead drive fs sector) (add32 fs.fsTempBufPtr ecx) = seen drive fs (sector, ecx) 0 := by
  rw [← sector_read_seen drive fs (sector, ecx) 0 (by dsimp only; omega), ← load_added]
  rfl

theorem entry_offsets_lt (fs : FileSystem) (mounted : Mounted fs) : ∀ offset ∈ entryOffsets fs, offset < 2 ^ 17 := by
  intro offset member
  obtain ⟨k, below, rfl⟩ := List.mem_map.mp member
  have word := mounted.word
  rw [List.mem_range, signed32, if_pos (by omega), Int.toNat_natCast] at below
  omega

theorem entry_offsets_length (fs : FileSystem) (mounted : Mounted fs) :
    (entryOffsets fs).length = (fs.bpbBytesPerSector + 31) / 32 := by
  have word := mounted.word
  rw [entryOffsets, List.length_map, List.length_range, signed32, if_pos (by omega), Int.toNat_natCast]

theorem root_slots_few (fs : FileSystem) (mounted : Mounted fs) : (rootSlots fs).length < 2 ^ 30 := by
  obtain ⟨entries, few, sectors⟩ := mounted.sectors
  have word := mounted.word
  have some' := mounted.some'
  have slots (sector : Nat) : (sectorSlots fs sector).length = (fs.bpbBytesPerSector + 31) / 32 := by
    rw [sectorSlots, List.length_map, entry_offsets_length fs mounted]
  have length : (rootSlots fs).length = (rootSectors fs).length * ((fs.bpbBytesPerSector + 31) / 32) := by
    rw [rootSlots, List.length_flatMap]
    simp [slots]
  have rounded : fs.fsRootDirSectors * fs.bpbBytesPerSector ≤ entries * 32 + fs.bpbBytesPerSector - 1 := by
    rw [sectors]
    exact Nat.div_mul_le_self _ _
  have bound : fs.fsRootDirSectors ≤ entries * 32 + fs.bpbBytesPerSector - 1 :=
    (Nat.le_mul_of_pos_right _ some').trans rounded
  rw [length, rootSectors, List.length_range, signed32, if_pos (by omega), Int.toNat_natCast]
  rcases Nat.lt_or_ge fs.bpbBytesPerSector 32 with small | wide
  · have one : (fs.bpbBytesPerSector + 31) / 32 = 1 := by omega
    rw [one, Nat.mul_one]
    omega
  · have half : (fs.bpbBytesPerSector + 31) / 32 ≤ fs.bpbBytesPerSector := by omega
    have total := Nat.mul_le_mul_left fs.fsRootDirSectors half
    omega

theorem compare_bytes_iff (mem : Memory) (count esi edi : Nat) :
    compareBytes mem count esi edi = true ↔ ∀ i < count, loadByte mem (esi + i) = loadByte mem (edi + i) := by
  induction count generalizing esi edi with
  | zero => exact iff_of_true rfl fun i below => absurd below (Nat.not_lt_zero i)
  | succ count ih =>
      have shifted (i : Nat) : (loadByte mem (add32 esi 1 + i) = loadByte mem (add32 edi 1 + i)) ↔
          loadByte mem (esi + (i + 1)) = loadByte mem (edi + (i + 1)) := by
        rw [load_added, load_added, Nat.add_assoc, Nat.add_assoc, Nat.add_comm 1 i]
      rw [compareBytes]
      by_cases same : loadByte mem esi = loadByte mem edi
      · rw [if_pos same, ih]
        constructor
        · intro later i below
          cases i with
          | zero => exact same
          | succ i => exact (shifted i).mp (later i (Nat.lt_of_succ_lt_succ below))
        · exact fun all i below => (shifted i).mpr (all (i + 1) (Nat.succ_lt_succ below))
      · rw [if_neg same]
        exact iff_of_false Bool.false_ne_true fun all => same (all 0 (Nat.succ_pos count))

theorem bytes_at_eq_iff (mem : Memory) (one other : Nat) :
    bytesAt mem one = bytesAt mem other ↔ ∀ i < 11, loadByte mem (one + i) = loadByte mem (other + i) := by
  rw [bytesAt, bytesAt, List.map_inj_left]
  exact forall_congr' fun i => imp_congr_left List.mem_range

structure Reread (fs current : FileSystem) : Prop where
  rest : current = { fs with mem := current.mem, reads := current.reads }
  stored : ∀ sector, storeSector current.mem fs.fsTempBufPtr sector = storeSector fs.mem fs.fsTempBufPtr sector

theorem reread_self (fs : FileSystem) : Reread fs fs := ⟨rfl, fun _ => rfl⟩

theorem reread_read (drive : Drive) (fs current : FileSystem) (same : Reread fs current) (eax : Nat) :
    Reread fs (readSectorLba drive current eax fs.fsTempBufPtr).1 := by
  cases result : drive.fails current.reads with
  | true =>
      rw [read_sector_failed drive current _ _ result]
      exact ⟨by rw [same.rest], same.stored⟩
  | false =>
      rw [read_sector_done drive current _ _ result]
      refine ⟨by rw [same.rest], fun sector => ?_⟩
      dsimp only
      rw [store_sector_twice, same.stored]

structure SectorHeld (drive : Drive) (fs : FileSystem) (sector : Nat) (read : FileSystem) : Prop where
  again : Reread fs read
  mem : read.mem = sectorRead drive fs sector
  buffer : read.fsTempBufPtr = fs.fsTempBufPtr
  offsets : entryOffsets read = entryOffsets fs

theorem sector_searched (drive : Drive) (fs current : FileSystem) (same : Reread fs current) (sector : Nat)
    (status : drive.fails current.reads = false) :
    ∃ read, readSectorLba drive current (add32 fs.fsFirstRootLba sector) fs.fsTempBufPtr = (read, 0) ∧
      SectorHeld drive fs sector read ∧ read.reads = current.reads + 1 := by
  have again := reread_read drive fs current same (add32 fs.fsFirstRootLba sector)
  rw [read_sector_done drive current _ _ status] at again ⊢
  refine ⟨_, rfl, ⟨again, same.stored _, ?_, ?_⟩, rfl⟩
  · rw [same.rest]
  · rw [entryOffsets, entryOffsets, same.rest]

inductive EntriesSearched (drive : Drive) (fs : FileSystem) (saved : List Nat) (slots : List (Nat × Nat)) (edx : Nat) :
    EntrySearch → Prop where
  | found (index : Nat)
      (first : firstHit (endSlot drive fs) (deadSlot drive fs) (lowMatch drive fs) slots = some index) :
      EntriesSearched drive fs saved slots edx (.found (add32 edx index))
  | notFound (none' : firstHit (endSlot drive fs) (deadSlot drive fs) (lowMatch drive fs) slots = none)
      (ended : slots.any (endSlot drive fs) = true) : EntriesSearched drive fs saved slots edx .notFound
  | nextSector (stack : CallStack)
      (none' : firstHit (endSlot drive fs) (deadSlot drive fs) (lowMatch drive fs) slots = none)
      (open' : slots.any (endSlot drive fs) = false) (holds : stack.Holds saved) :
      EntriesSearched drive fs saved slots edx (.nextSector (add32 edx slots.length) stack)

section
variable (drive : Drive) (fs : FileSystem) (saved : List Nat) (frame : saved.length = 5)

theorem entries_searched_cons (slot : Nat × Nat) (slots : List (Nat × Nat)) (edx : Nat) (result : EntrySearch)
    (goes : endSlot drive fs slot = false) (passed : (!deadSlot drive fs slot && lowMatch drive fs slot) = false)
    (later : EntriesSearched drive fs saved slots (add32 edx 1) result) :
    EntriesSearched drive fs saved (slot :: slots) edx result := by
  have shifted (count : Nat) : add32 (add32 edx 1) count = add32 edx (count + 1) := by
    simp only [add32]
    omega
  have first : firstHit (endSlot drive fs) (deadSlot drive fs) (lowMatch drive fs) (slot :: slots) =
      (firstHit (endSlot drive fs) (deadSlot drive fs) (lowMatch drive fs) slots).map (· + 1) := by
    rw [first_hit_cons, goes, passed]
    rfl
  have any : (slot :: slots).any (endSlot drive fs) = slots.any (endSlot drive fs) := by
    rw [List.any_cons, goes, Bool.false_or]
  cases later with
  | found index found' =>
      rw [shifted]
      exact .found (index + 1) (by rw [first, found']; rfl)
  | notFound none' ended => exact .notFound (by rw [first, none']; rfl) (any.trans ended)
  | nextSector stack none' open' holds =>
      rw [shifted]
      exact .nextSector stack (by rw [first, none']; rfl) (any.trans open') holds

omit saved in
theorem low_match_compares (sector ecx : Nat) (room : ecx < 2 ^ 17) : lowMatch drive fs (sector, ecx) =
    compareBytes (sectorRead drive fs sector) 11 ecx (add32 fs.fsTempBufPtr ecx) := by
  have name : nameOf drive fs (sector, ecx) = bytesAt (sectorRead drive fs sector) (add32 fs.fsTempBufPtr ecx) := by
    refine List.map_congr_left fun i member => ?_
    have small := List.mem_range.mp member
    rw [load_added]
    exact (sector_read_seen drive fs (sector, ecx) i (by dsimp only; omega)).symm
  rw [lowMatch, name, Bool.eq_iff_iff, decide_eq_true_iff, compare_bytes_iff, bytes_at_eq_iff]
  exact forall_congr' fun i => imp_congr_right fun _ => eq_comm

include frame

-- EDI is pushed above ESI and ECX, so [ebp - 24] holds ECX.
theorem compared_word (stack : CallStack) (holds : stack.Holds saved) (ecx esi edi : Nat) :
    (((stack.push ecx).push esi).push edi).load 24 = ecx ∧
      (((stack.push ecx).push esi).push edi).pop.pop.pop.Holds saved := by
  have one := CallStack.holds_push _ _ ecx holds
  have two := CallStack.holds_push _ _ esi one
  have three := CallStack.holds_push _ _ edi two
  refine ⟨CallStack.holds_load _ _ 24 ecx three ?_, CallStack.holds_pop _ _ ecx (CallStack.holds_pop _ _ esi
    (CallStack.holds_pop _ _ edi three))⟩
  rw [List.getElem?_append_left (by simp [CallStack.slot, frame]), List.getElem?_append_left (by simp [CallStack.slot, frame]),
    List.getElem?_append_right (by simp [CallStack.slot, frame]), frame]
  rfl

theorem find_entries_searched (sector edi : Nat) (offsets : List Nat) (inside : ∀ offset ∈ offsets, offset < 2 ^ 17)
    (edx : Nat) (word : edx < 2 ^ 32) (stack : CallStack) (holds : stack.Holds saved) :
    EntriesSearched drive fs saved (offsets.map fun offset => (sector, offset)) edx
      (findEntries (sectorRead drive fs sector) fs.fsTempBufPtr edi offsets edx stack) := by
  have still : add32 edx 0 = edx := add32_of_lt _ _ word
  induction offsets generalizing edx stack with
  | nil =>
      have open' : EntriesSearched drive fs saved [] edx (.nextSector (add32 edx 0) stack) := .nextSector stack rfl rfl holds
      rw [still] at open'
      exact open'
  | cons ecx rest ih =>
      have room := inside ecx List.mem_cons_self
      have first := first_byte_seen drive fs sector ecx room
      have next (stack : CallStack) (holds : stack.Holds saved) :=
        ih (fun offset member => inside offset (List.mem_cons_of_mem _ member)) (add32 edx 1) (Nat.mod_lt _ (by decide)) stack holds
          (add32_of_lt _ _ (Nat.mod_lt _ (by decide)))
      obtain ⟨loaded, restored⟩ := compared_word saved frame stack holds ecx fs.fsTempBufPtr edi
      rw [List.map_cons, findEntries, first]
      dsimp only
      rw [loaded, ← low_match_compares drive fs sector ecx room]
      by_cases ended : seen drive fs (sector, ecx) 0 = 0
      · have ends : endSlot drive fs (sector, ecx) = true := decide_eq_true ended
        rw [if_pos ended]
        exact .notFound (by rw [first_hit_cons, ends]; rfl) (by rw [List.any_cons, ends, Bool.true_or])
      have goes : endSlot drive fs (sector, ecx) = false := decide_eq_false ended
      rw [if_neg ended]
      by_cases erased : seen drive fs (sector, ecx) 0 = 0xE5
      · have dead : deadSlot drive fs (sector, ecx) = true := decide_eq_true erased
        rw [if_pos erased]
        exact entries_searched_cons drive fs saved _ _ _ _ goes (by rw [dead]; rfl) (next stack holds)
      have alive : deadSlot drive fs (sector, ecx) = false := decide_eq_false erased
      rw [if_neg erased]
      by_cases hits : lowMatch drive fs (sector, ecx) = true
      · have here : EntriesSearched drive fs saved ((sector, ecx) :: rest.map fun offset => (sector, offset)) edx
            (.found (add32 edx 0)) := .found 0 (by rw [first_hit_cons, goes, alive, hits]; rfl)
        rw [still] at here
        rw [if_pos hits]
        exact here
      · rw [if_neg hits]
        exact entries_searched_cons drive fs saved _ _ _ _ goes
          (by rw [Bool.eq_false_iff.mpr hits, Bool.and_false]) (next _ restored)

def lowLookUp (sectors : List Nat) (reads : Nat) : Lookup :=
  lookUp drive.fails (endSlot drive fs) (deadSlot drive fs) (lowMatch drive fs) (sectorSlots fs) sectors reads

def sectorsRead (sectors : List Nat) (reads : Nat) : Nat :=
  pagesRead drive.fails (endSlot drive fs) (deadSlot drive fs) (lowMatch drive fs) (sectorSlots fs) sectors reads

end

section
variable (drive : Drive) (fs : FileSystem) (sector : Nat) (rest : List Nat) (reads : Nat) (status : drive.fails reads = false)
include status

theorem low_look_up_cons : lowLookUp drive fs (sector :: rest) reads =
    match firstHit (endSlot drive fs) (deadSlot drive fs) (lowMatch drive fs) (sectorSlots fs sector) with
    | some index => .found index
    | none => if (sectorSlots fs sector).any (endSlot drive fs) then .missing
        else (lowLookUp drive fs rest (reads + 1)).shift (sectorSlots fs sector).length := by
  rw [lowLookUp, lookUp, status]
  rfl

theorem sectors_read_cons : sectorsRead drive fs (sector :: rest) reads =
    match firstHit (endSlot drive fs) (deadSlot drive fs) (lowMatch drive fs) (sectorSlots fs sector) with
    | some _ => 1
    | none => if (sectorSlots fs sector).any (endSlot drive fs) then 1 else sectorsRead drive fs rest (reads + 1) + 1 := by
  rw [sectorsRead, pagesRead, status]
  rfl
end

def codeOf (edx : Nat) : Lookup → Nat
  | .found index => add32 edx index
  | .missing => minusOne
  | .failed => minusTwo

theorem code_shifted (edx count : Nat) (lookup : Lookup) : codeOf edx (lookup.shift count) = codeOf (add32 edx count) lookup := by
  cases lookup with
  | found index =>
      simp only [Lookup.shift, codeOf, add32]
      omega
  | missing => rfl
  | failed => rfl

structure SectorsSearched (drive : Drive) (fs : FileSystem) (saved sectors : List Nat) (edx reads : Nat)
    (result : FileSystem × Nat × CallStack) : Prop where
  code : result.2.1 = codeOf edx (lowLookUp drive fs sectors reads)
  holds : result.2.2.Holds saved
  reread : Reread fs result.1
  reads : result.1.reads = reads + sectorsRead drive fs sectors reads

theorem find_sectors_searched (drive : Drive) (fs : FileSystem) (mounted : Mounted fs) (saved : List Nat)
    (frame : saved.length = 5) (edi : Nat) (sectors : List Nat) (current : FileSystem) (same : Reread fs current)
    (edx : Nat) (word : edx < 2 ^ 32) (stack : CallStack) (holds : stack.Holds saved) :
    SectorsSearched drive fs saved sectors edx current.reads (findSectors drive edi sectors current edx stack) := by
  induction sectors generalizing current edx stack with
  | nil => exact ⟨rfl, holds, same, rfl⟩
  | cons sector rest ih =>
      have tempBuf : current.fsTempBufPtr = fs.fsTempBufPtr := by rw [same.rest]
      have rootLba : current.fsFirstRootLba = fs.fsFirstRootLba := by rw [same.rest]
      have called := CallStack.holds_call _ _ drive.leaves
        (CallStack.holds_push _ _ edx (CallStack.holds_push _ _ sector holds))
      have counter := CallStack.holds_top _ _ _ called
      have back := CallStack.holds_pop _ _ _ (CallStack.holds_pop _ _ _ called)
      rw [findSectors, tempBuf, rootLba]
      dsimp only
      rw [counter]
      cases status : drive.fails current.reads with
      | true =>
          have again := reread_read drive fs current same (add32 fs.fsFirstRootLba sector)
          rw [read_sector_failed drive current _ _ status] at again ⊢
          have failed : lowLookUp drive fs (sector :: rest) current.reads = .failed := by
            rw [lowLookUp, lookUp, if_pos status]
          have one : sectorsRead drive fs (sector :: rest) current.reads = 1 := by
            rw [sectorsRead, pagesRead, if_pos status]
          dsimp only
          rw [if_pos (by decide)]
          exact ⟨by rw [failed]; rfl, back, again, by rw [one]⟩
      | false =>
          obtain ⟨read, reading, ⟨again, mem, buffer, offsets⟩, reads⟩ := sector_searched drive fs current same sector status
          rw [reading]
          dsimp only
          rw [if_neg (by decide), offsets, buffer, mem]
          have searched : EntriesSearched drive fs saved (sectorSlots fs sector) edx _ :=
            find_entries_searched drive fs saved frame sector edi (entryOffsets fs) (entry_offsets_lt fs mounted) edx word _ back
          have low := low_look_up_cons drive fs sector rest current.reads status
          have count := sectors_read_cons drive fs sector rest current.reads status
          generalize findEntries _ _ _ _ _ _ = entries at searched ⊢
          cases searched with
          | found index first =>
              rw [first] at low count
              exact ⟨by rw [low]; rfl, back, again, by rw [count, reads]⟩
          | notFound first ended =>
              rw [first] at low count
              dsimp only at low count
              rw [if_pos ended] at low count
              exact ⟨by rw [low]; rfl, back, again, by rw [count, reads]⟩
          | nextSector stack first open' holds =>
              rw [first] at low count
              dsimp only at low count
              rw [if_neg (by rw [open']; simp), ← reads] at low count
              have further := ih read again (add32 edx (sectorSlots fs sector).length) (Nat.mod_lt _ (by decide)) stack holds
              dsimp only at further ⊢
              refine ⟨by rw [low, code_shifted, further.code], further.holds, further.reread, ?_⟩
              rw [count, further.reads, reads]
              omega

def rootLookUp (drive : Drive) (fs : FileSystem) : Lookup := lowLookUp drive fs (rootSectors fs) fs.reads

def readsEnd (drive : Drive) (fs : FileSystem) : Nat := fs.reads + sectorsRead drive fs (rootSectors fs) fs.reads

theorem root_look_up_failed_iff (drive : Drive) (fs : FileSystem) :
    rootLookUp drive fs = .failed ↔ ∃ k, fs.reads ≤ k ∧ k < readsEnd drive fs ∧ drive.fails k = true :=
  look_up_failed_iff _ _ _ _ _ _ _

structure FileSearched (drive : Drive) (fs : FileSystem) (regs : Registers) (result : FileSystem × Registers) : Prop where
  eax : result.2.eax = codeOf 0 (rootLookUp drive fs)
  rest : result.2 = { regs with eax := result.2.eax }
  reread : Reread fs result.1
  reads : result.1.reads = readsEnd drive fs

theorem enter_frame_holds (drive : Drive) (regs : Registers) :
    (enterFrame drive regs).Holds [regs.ebx, regs.ecx, regs.edx, regs.esi, regs.edi] := by
  have none' : (CallStack.mk drive.leaves 0).Holds [] := ⟨rfl, fun k below => absurd below (Nat.not_lt_zero k)⟩
  have one := CallStack.holds_push _ _ regs.ebx none'
  have two := CallStack.holds_push _ _ regs.ecx one
  have three := CallStack.holds_push _ _ regs.edx two
  have four := CallStack.holds_push _ _ regs.esi three
  exact CallStack.holds_push _ _ regs.edi four

theorem leave_frame_holds (stack : CallStack) (ebx ecx edx esi edi eax : Nat)
    (holds : stack.Holds [ebx, ecx, edx, esi, edi]) : leaveFrame stack eax = ⟨eax, ebx, ecx, edx, esi, edi⟩ := by
  have four := CallStack.holds_pop _ [ebx, ecx, edx, esi] edi holds
  have three := CallStack.holds_pop _ [ebx, ecx, edx] esi four
  have two := CallStack.holds_pop _ [ebx, ecx] edx three
  have one := CallStack.holds_pop _ [ebx] ecx two
  rw [leaveFrame, CallStack.holds_top _ [ebx, ecx, edx, esi] edi holds, CallStack.holds_top _ [ebx, ecx, edx] esi four,
    CallStack.holds_top _ [ebx, ecx] edx three, CallStack.holds_top _ [ebx] ecx two, CallStack.holds_top _ [] ebx one]

theorem find_file_searched (drive : Drive) (fs : FileSystem) (regs : Registers) (mounted : Mounted fs) :
    FileSearched drive fs regs (fsFindFile drive fs regs) := by
  have entered := CallStack.holds_store_below _ _ 24 regs.eax (enter_frame_holds drive regs) (Nat.le_refl 5)
  have searched := find_sectors_searched drive fs mounted _ rfl regs.edi (rootSectors fs) fs (reread_self fs) 0 (by decide) _ entered
  have left := leave_frame_holds _ _ _ _ _ _ (findSectors drive regs.edi (rootSectors fs) fs 0
    ((enterFrame drive regs).store 24 regs.eax)).2.1 searched.holds
  refine ⟨searched.code, ?_, searched.reread, searched.reads⟩
  rw [fsFindFile]
  dsimp only
  rw [left]

def indexCode : Option Nat → Nat
  | some index => index
  | none => minusOne

theorem index_code_inj (one other : Option Nat) (few : ∀ index ∈ one, index < 2 ^ 30) (few' : ∀ index ∈ other, index < 2 ^ 30) :
    indexCode one = indexCode other ↔ one = other := by
  cases one with
  | none =>
      cases other with
      | none => exact iff_of_true rfl rfl
      | some index =>
          have small := few' index rfl
          refine iff_of_false ?_ (by simp)
          rw [indexCode, indexCode, minusOne]
          omega
  | some index =>
      have small := few index rfl
      cases other with
      | none =>
          refine iff_of_false ?_ (by simp)
          rw [indexCode, indexCode, minusOne]
          omega
      | some other => rw [indexCode, indexCode, Option.some_inj]

theorem index_of_few (drive : Drive) (fs : FileSystem) (mounted : Mounted fs) (hit : Nat × Nat → Bool) :
    ∀ index ∈ indexOf drive fs hit, index < 2 ^ 30 := by
  intro index found
  obtain ⟨slot, at', _⟩ := first_hit_found _ _ _ _ _ found
  exact (List.getElem?_eq_some_iff.mp at').1.trans (root_slots_few fs mounted)

theorem find_file_succeeds (drive : Drive) (fs : FileSystem) (regs : Registers) (mounted : Mounted fs)
    (succeed : ∀ k, drive.fails k = false) :
    (fsFindFile drive fs regs).2.eax = indexCode (indexOf drive fs (lowMatch drive fs)) := by
  have same : rootLookUp drive fs =
      match indexOf drive fs (lowMatch drive fs) with
      | some index => .found index
      | none => .missing := look_up_succeeds _ _ _ _ _ succeed _ _
  rw [(find_file_searched drive fs regs mounted).eax, same]
  cases first : indexOf drive fs (lowMatch drive fs) with
  | none => rfl
  | some index =>
      have small := index_of_few drive fs mounted _ index first
      have sum : add32 0 index = 0 + index := add32_of_lt 0 index (by omega)
      exact sum.trans (Nat.zero_add index)

def FindsFile (drive : Drive) (fs : FileSystem) (regs : Registers) : Prop :=
  ∀ fails leaves,
    let result := fsFindFile { drive with fails := fails, leaves := leaves } fs regs
    ((∀ k, fails k = false) → result.2.eax = indexCode (indexOf drive fs (named drive fs (bytesAt fs.mem regs.eax)))) ∧
      ∀ k, fs.reads ≤ k → k < result.1.reads → fails k = true → result.2.eax = minusTwo

theorem find_file_iff (drive : Drive) (fs : FileSystem) (regs : Registers) (mounted : Mounted fs) :
    FindsFile drive fs regs ↔
      ∀ slot ∈ (liveSlots drive fs).find? fun slot => lowMatch drive fs slot || named drive fs (bytesAt fs.mem regs.eax) slot,
        lowMatch drive fs slot = true ∧ named drive fs (bytesAt fs.mem regs.eax) slot = true := by
  have few := index_of_few drive fs mounted
  rw [liveSlots, ← first_hits_agree, ← indexOf, ← indexOf, ← index_code_inj _ _ (few _) (few _)]
  constructor
  · intro finds
    have found := find_file_succeeds { drive with fails := fun _ => false } fs regs mounted fun _ => rfl
    exact found.symm.trans ((finds (fun _ => false) drive.leaves).1 fun _ => rfl)
  · intro agree fails leaves
    have searched := find_file_searched { drive with fails := fails, leaves := leaves } fs regs mounted
    refine ⟨fun succeed => ?_, fun k from' until' failed => ?_⟩
    · exact (find_file_succeeds { drive with fails := fails, leaves := leaves } fs regs mounted succeed).trans agree
    · have code := searched.eax
      rw [(root_look_up_failed_iff _ fs).mpr ⟨k, from', searched.reads ▸ until', failed⟩] at code
      exact code

def smallVolume (mem : Memory) : FileSystem := { blankVolume with mem := mem, fsRootDirSectors := 1 }

theorem small_volume_mounted (mem : Memory) : Mounted (smallVolume mem) := by
  refine ⟨?_, ?_, 16, by decide, ?_⟩ <;> simp [smallVolume, blankVolume]

def fileName : Registers := ⟨2 ^ 18, 0, 0, 0, 0, 0⟩

theorem find_file_same : FindsFile fullDrive (smallVolume fun _ => 0xFF) fileName :=
  (find_file_iff fullDrive (smallVolume fun _ => 0xFF) fileName (small_volume_mounted _)).mpr (by decide +kernel)

def lowZeros (address : Nat) : UInt8 := if address < 2 ^ 18 then 0 else 0xFF

theorem find_file_misses : ¬ ∀ drive fs regs, Mounted fs → fs.bpbBytesPerSector = 512 → FindsFile drive fs regs := by
  intro claimed
  have finds := claimed fullDrive (smallVolume lowZeros) fileName (small_volume_mounted _) rfl
  have found := (finds (fun _ => false) fullDrive.leaves).1 fun _ => rfl
  have missed := find_file_succeeds fullDrive (smallVolume lowZeros) fileName (small_volume_mounted _) fun _ => rfl
  exact absurd (missed.symm.trans found) (by decide +kernel)

end RoDos.Fat
