import RoDos.Fat.Directory

set_option autoImplicit false

namespace RoDos.Fat

open Base

def copies (drive : Drive) (fs : FileSystem) : Nat → List (Nat × Nat) → List (Nat × Nat)
  | _, [] => []
  | out, slot :: rest =>
      ((List.range 8).map fun i => (add32 out (4 * i), loadWord (seen drive fs slot) (4 * i))) ++
        copies drive fs (add32 out 32) rest

theorem copies_append (drive : Drive) (fs : FileSystem) (out : Nat) (word : out < 2 ^ 32) (front back : List (Nat × Nat)) :
    copies drive fs out (front ++ back) =
      copies drive fs out front ++ copies drive fs (add32 out (32 * front.length)) back := by
  induction front generalizing out with
  | nil => rw [List.length_nil, Nat.mul_zero, add32_of_lt _ _ word]; rfl
  | cons slot rest ih =>
      have further : add32 (add32 out 32) (32 * rest.length) = add32 out (32 * (rest.length + 1)) := by
        simp only [add32]
        omega
      rw [List.cons_append, copies, copies, ih (add32 out 32) (Nat.mod_lt _ (by decide)), List.append_assoc, List.length_cons, further]

theorem copies_inside (drive : Drive) (fs : FileSystem) (out : Nat) (slots : List (Nat × Nat)) :
    ∀ store ∈ copies drive fs out slots, ∃ d, d + 4 ≤ 32 * slots.length ∧ store.1 = add32 out d := by
  induction slots generalizing out with
  | nil => simp [copies]
  | cons slot rest ih =>
      intro store member
      rw [List.length_cons]
      rcases List.mem_append.mp member with here | later
      · obtain ⟨i, below, rfl⟩ := List.mem_map.mp here
        rw [List.mem_range] at below
        exact ⟨4 * i, by omega, rfl⟩
      · obtain ⟨d, inside, address⟩ := ih _ store later
        refine ⟨32 + d, by omega, address.trans ?_⟩
        simp only [add32]
        omega

theorem load_word_added (mem : Memory) (a b i : Nat) : loadWord mem (add32 a b + i) = loadWord mem (a + b + i) := by
  simp only [loadWord, Nat.add_assoc, load_added]

theorem copy_loop_words (mem : Memory) (count esi edi : Nat) (word : edi < 2 ^ 32) :
    copyLoop mem count esi edi = (List.range count).map fun i => (add32 edi (4 * i), loadWord mem (esi + 4 * i)) := by
  induction count generalizing esi edi with
  | zero => rfl
  | succ count ih =>
      have first : add32 edi 0 = edi := add32_of_lt _ _ word
      rw [copyLoop, ih (add32 esi 4) (add32 edi 4) (Nat.mod_lt _ (by decide)), List.range_succ_eq_map, List.map_cons, List.map_map, Nat.mul_zero, first]
      congr 1
      refine List.map_congr_left fun i _ => Prod.ext ?_ ?_
      · simp only [Function.comp_apply, add32]
        omega
      · simp only [Function.comp_apply, load_word_added]
        exact congrArg (loadWord mem) (by omega)

section
variable (drive : Drive) (fs : FileSystem) (slot : Nat × Nat) (i address : Nat)
  (here : address % 2 ^ 32 = (fs.fsTempBufPtr + slot.2 + i) % 2 ^ 32) (room : slot.2 + i + 4 < 2 ^ 32)
include here room

theorem slot_byte_read (j : Nat) (few : j < 4) :
    loadByte (sectorRead drive fs slot.1) (address + j) = loadByte (seen drive fs slot) (i + j) := by
  have inside : slot.2 + (i + j) < 2 ^ 32 := by omega
  have same : (address + j) % 2 ^ 32 = (fs.fsTempBufPtr + slot.2 + (i + j)) % 2 ^ 32 := by omega
  have read := sector_read_seen drive fs slot (i + j) inside
  rw [loadByte] at read ⊢
  rw [same, read, loadByte, Nat.mod_eq_of_lt (by omega)]

theorem slot_word_read : loadWord (sectorRead drive fs slot.1) address = loadWord (seen drive fs slot) i := by
  have byte := slot_byte_read drive fs slot i address here room
  have low := byte 0 (by decide)
  rw [Nat.add_zero, Nat.add_zero] at low
  rw [loadWord, loadWord, low, byte 1 (by decide), byte 2 (by decide), byte 3 (by decide)]

theorem slot_half_read : loadHalf (sectorRead drive fs slot.1) address = loadHalf (seen drive fs slot) i := by
  have byte := slot_byte_read drive fs slot i address here room
  have low := byte 0 (by decide)
  rw [Nat.add_zero, Nat.add_zero] at low
  rw [loadHalf, loadHalf, low, byte 1 (by decide)]
end

structure Listed (drive : Drive) (fs : FileSystem) (saved : List Nat) (listing after : Listing) (slots : List (Nat × Nat)) :
    Prop where
  stores : after.stores = listing.stores ++ copies drive fs listing.edi slots
  edi : after.edi = add32 listing.edi (32 * slots.length)
  edx : after.edx = add32 listing.edx slots.length
  holds : after.stack.Holds saved

section
variable (drive : Drive) (fs : FileSystem) (saved : List Nat)

theorem listed_none (listing : Listing) (edi : listing.edi < 2 ^ 32) (edx : listing.edx < 2 ^ 32)
    (holds : listing.stack.Holds saved) : Listed drive fs saved listing listing [] :=
  ⟨(List.append_nil _).symm, (add32_of_lt listing.edi 0 edi).symm, (add32_of_lt listing.edx 0 edx).symm, holds⟩

theorem listed_append (listing middle after : Listing) (front back : List (Nat × Nat)) (edi : listing.edi < 2 ^ 32)
    (first : Listed drive fs saved listing middle front) (second : Listed drive fs saved middle after back) :
    Listed drive fs saved listing after (front ++ back) := by
  refine ⟨?_, ?_, ?_, second.holds⟩
  · rw [second.stores, first.stores, copies_append drive fs _ edi, first.edi, List.append_assoc]
  · rw [second.edi, first.edi, List.length_append]
    simp only [add32]
    omega
  · rw [second.edx, first.edx, List.length_append]
    simp only [add32]
    omega

theorem listed_entry (listing : Listing) (edi : listing.edi < 2 ^ 32) (holds : listing.stack.Holds saved)
    (sector ecx : Nat) (room : ecx < 2 ^ 17) :
    let pushed := ((listing.stack.push ecx).push fs.fsTempBufPtr).push listing.edi
    Listed drive fs saved listing
      ⟨listing.stores ++ copyLoop (sectorRead drive fs sector) 8 (add32 fs.fsTempBufPtr ecx) listing.edi,
        add32 pushed.top 32, add32 listing.edx 1, pushed.pop.pop.pop⟩ [(sector, ecx)] := by
  have one := CallStack.holds_push _ _ ecx holds
  have two := CallStack.holds_push _ _ fs.fsTempBufPtr one
  have three := CallStack.holds_push _ _ listing.edi two
  have restored := CallStack.holds_pop _ _ _ (CallStack.holds_pop _ _ _ (CallStack.holds_pop _ _ _ three))
  refine ⟨?_, ?_, rfl, restored⟩
  · dsimp only
    rw [copy_loop_words _ _ _ _ edi, copies, copies, List.append_nil]
    refine congrArg (listing.stores ++ ·) (List.map_congr_left fun i below => Prod.ext rfl ?_)
    rw [List.mem_range] at below
    exact slot_word_read drive fs (sector, ecx) (4 * i) _ (by rw [add32]; dsimp only; omega) (by dsimp only; omega)
  · dsimp only
    rw [CallStack.holds_top _ _ _ three]
    rfl

theorem list_entries_listed (sector : Nat) (offsets : List Nat) (inside : ∀ offset ∈ offsets, offset < 2 ^ 17)
    (listing : Listing) (edi : listing.edi < 2 ^ 32) (edx : listing.edx < 2 ^ 32) (holds : listing.stack.Holds saved) :
    let slots := offsets.map fun offset => (sector, offset)
    let result := listEntries (sectorRead drive fs sector) fs.fsTempBufPtr offsets listing
    Listed drive fs saved listing result.1 (live (endSlot drive fs) (deadSlot drive fs) slots) ∧
      result.2 = slots.any (endSlot drive fs) := by
  induction offsets generalizing listing with
  | nil => exact ⟨listed_none drive fs saved listing edi edx holds, rfl⟩
  | cons ecx rest ih =>
      have room := inside ecx List.mem_cons_self
      have first := first_byte_seen drive fs sector ecx room
      have next := ih fun offset member => inside offset (List.mem_cons_of_mem _ member)
      dsimp only at next ⊢
      rw [List.map_cons, live_cons, listEntries, first, List.any_cons]
      dsimp only
      by_cases ended : seen drive fs (sector, ecx) 0 = 0
      · have ends : endSlot drive fs (sector, ecx) = true := decide_eq_true ended
        rw [if_pos ended, ends]
        exact ⟨listed_none drive fs saved listing edi edx holds, rfl⟩
      have goes : endSlot drive fs (sector, ecx) = false := decide_eq_false ended
      rw [if_neg ended, goes, Bool.false_or, if_neg Bool.false_ne_true]
      by_cases erased : seen drive fs (sector, ecx) 0 = 0xE5
      · have dead : deadSlot drive fs (sector, ecx) = true := decide_eq_true erased
        rw [if_pos erased, dead]
        exact next listing edi edx holds
      have alive : deadSlot drive fs (sector, ecx) = false := decide_eq_false erased
      have copied := listed_entry drive fs saved listing edi holds sector ecx room
      dsimp only at copied
      rw [if_neg erased, alive, if_neg Bool.false_ne_true]
      obtain ⟨later, any⟩ := next _ (Nat.mod_lt _ (by decide)) (Nat.mod_lt _ (by decide)) copied.holds
      exact ⟨listed_append drive fs saved _ _ _ _ _ edi copied later, any⟩

theorem list_sectors_listed (mounted : Mounted fs) (succeed : ∀ k, drive.fails k = false) (sectors : List Nat)
    (current : FileSystem) (same : Reread fs current) (listing : Listing) (edi : listing.edi < 2 ^ 32)
    (edx : listing.edx < 2 ^ 32) (holds : listing.stack.Holds saved) :
    let result := listSectors drive sectors current listing
    Listed drive fs saved listing result.2.1 (live (endSlot drive fs) (deadSlot drive fs) (sectors.flatMap (sectorSlots fs))) ∧
      result.2.2 = result.2.1.edx := by
  induction sectors generalizing current listing with
  | nil => exact ⟨listed_none drive fs saved listing edi edx holds, rfl⟩
  | cons sector rest ih =>
      have tempBuf : current.fsTempBufPtr = fs.fsTempBufPtr := by rw [same.rest]
      have rootLba : current.fsFirstRootLba = fs.fsFirstRootLba := by rw [same.rest]
      obtain ⟨read, reading, ⟨again, mem, buffer, offsets⟩, -⟩ := sector_searched drive fs current same sector (succeed _)
      have called := CallStack.holds_call _ _ drive.leaves (CallStack.holds_push _ _ listing.edi
        (CallStack.holds_push _ _ listing.edx (CallStack.holds_push _ _ sector holds)))
      have counter := CallStack.holds_pop _ _ _ called
      have back := CallStack.holds_pop _ _ _ (CallStack.holds_pop _ _ _ counter)
      have searched := list_entries_listed drive fs saved sector (entryOffsets fs) (entry_offsets_lt fs mounted)
      rw [listSectors, tempBuf, rootLba, reading]
      dsimp only
      rw [if_neg (by decide), offsets, buffer, mem, CallStack.holds_top _ _ _ called, CallStack.holds_top _ _ _ counter,
        List.flatMap_cons, live_append]
      generalize ((((listing.stack.push sector).push listing.edx).push listing.edi).call drive.leaves).pop.pop.pop = stack
        at back ⊢
      obtain ⟨copied, any⟩ := searched ⟨listing.stores, listing.edi, listing.edx, stack⟩ edi edx back
      cases entries : listEntries (sectorRead drive fs sector) fs.fsTempBufPtr (entryOffsets fs)
          ⟨listing.stores, listing.edi, listing.edx, stack⟩ with
      | mk after done =>
          rw [entries] at copied any
          dsimp only at copied any
          have copied : Listed drive fs saved listing after (live (endSlot drive fs) (deadSlot drive fs) (sectorSlots fs sector)) :=
            ⟨copied.stores, copied.edi, copied.edx, copied.holds⟩
          change done = (sectorSlots fs sector).any (endSlot drive fs) at any
          rw [← any]
          cases done with
          | true =>
              rw [if_pos rfl, List.append_nil]
              exact ⟨copied, rfl⟩
          | false =>
              have lower : after.edi < 2 ^ 32 := copied.edi ▸ Nat.mod_lt _ (by decide)
              have counted : after.edx < 2 ^ 32 := copied.edx ▸ Nat.mod_lt _ (by decide)
              obtain ⟨later, eax⟩ := ih read again after lower counted copied.holds
              rw [if_neg Bool.false_ne_true]
              exact ⟨listed_append drive fs saved _ _ _ _ _ edi copied later, eax⟩
end

section
variable (drive : Drive) (fs : FileSystem) (regs : Registers) (mounted : Mounted fs) (succeed : ∀ k, drive.fails k = false)
  (word : regs.eax < 2 ^ 32)

structure RootListed (result : FileSystem × List (Nat × Nat) × Registers) : Prop where
  stores : result.2.1 = copies drive fs regs.eax (liveSlots drive fs)
  regs : result.2.2 = { regs with eax := (liveSlots drive fs).length, edi := regs.ebx }

include mounted succeed word

-- max_entries is stored over the caller's EDI, and every live entry is copied.
theorem list_root_listed : RootListed drive fs regs (fsListRoot drive fs regs) := by
  have entered := CallStack.holds_store _ _ 20 regs.ebx (enter_frame_holds drive regs)
  obtain ⟨listed, eax⟩ := list_sectors_listed drive fs _ mounted succeed (rootSectors fs) fs (reread_self fs)
    ⟨[], regs.eax, 0, (enterFrame drive regs).store 20 regs.ebx⟩ word (Nat.two_pow_pos 32) entered
  have few : (liveSlots drive fs).length < 2 ^ 30 :=
    Nat.lt_of_le_of_lt ((List.length_filter_le _ _).trans (List.takeWhile_sublist _).length_le) (root_slots_few fs mounted)
  have count : add32 0 (liveSlots drive fs).length = (liveSlots drive fs).length :=
    (add32_of_lt 0 _ (by omega)).trans (Nat.zero_add _)
  have left := fun eax => leave_frame_holds _ _ _ _ _ _ eax listed.holds
  refine ⟨listed.stores, ?_⟩
  rw [fsListRoot]
  dsimp only at left eax ⊢
  rw [left, eax, listed.edx]
  dsimp only
  exact congrArg (fun eax => ({ regs with eax := eax, edi := regs.ebx } : Registers)) count

omit mounted succeed word

structure ListsRoot : Prop where
  eax : (fsListRoot drive fs regs).2.2.eax = min regs.ebx (liveSlots drive fs).length
  copied : (fsListRoot drive fs regs).2.1 = copies drive fs regs.eax ((liveSlots drive fs).take regs.ebx)
  inside : ∀ store ∈ (fsListRoot drive fs regs).2.1, ∃ d, d + 4 ≤ 32 * regs.ebx ∧ store.1 = add32 regs.eax d
  ebx : (fsListRoot drive fs regs).2.2.ebx = regs.ebx
  esi : (fsListRoot drive fs regs).2.2.esi = regs.esi
  edi : (fsListRoot drive fs regs).2.2.edi = regs.edi

include mounted succeed word

theorem list_root_iff : ListsRoot drive fs regs ↔ (liveSlots drive fs).length ≤ regs.ebx ∧ regs.edi = regs.ebx := by
  obtain ⟨stores, after⟩ := list_root_listed drive fs regs mounted succeed word
  constructor
  · intro lists
    have count := lists.eax
    have edi := lists.edi
    rw [after] at count edi
    exact ⟨count.trans_le (Nat.min_le_left _ _), edi.symm⟩
  · rintro ⟨room, edi⟩
    refine ⟨?_, ?_, fun store member => ?_, by rw [after], by rw [after], by rw [after, edi]⟩
    · rw [after, Nat.min_eq_right room]
    · rw [stores, List.take_of_length_le room]
    · rw [stores] at member
      obtain ⟨d, inside, address⟩ := copies_inside drive fs _ _ store member
      exact ⟨d, inside.trans (Nat.mul_le_mul_left 32 room), address⟩
end

theorem list_root_sixteen : ListsRoot fullDrive (smallVolume lowZeros) ⟨2 ^ 20, 16, 0, 0, 0, 16⟩ :=
  (list_root_iff fullDrive (smallVolume lowZeros) ⟨2 ^ 20, 16, 0, 0, 0, 16⟩ (small_volume_mounted _) (fun _ => rfl)
    (by decide)).mpr (by decide +kernel)

theorem list_root_overruns : ¬ ∀ drive fs regs, Mounted fs → fs.bpbBytesPerSector = 512 → (∀ k, drive.fails k = false) →
    regs.eax < 2 ^ 32 → ListsRoot drive fs regs := by
  intro claimed
  have lists := claimed fullDrive (smallVolume lowZeros) ⟨2 ^ 20, 1, 0, 0, 0, 1⟩ (small_volume_mounted _) rfl (fun _ => rfl)
    (by decide)
  have listed := list_root_listed fullDrive (smallVolume lowZeros) ⟨2 ^ 20, 1, 0, 0, 0, 1⟩ (small_volume_mounted _)
    (fun _ => rfl) (by decide)
  have count := lists.eax
  rw [listed.regs] at count
  exact absurd count (by decide +kernel)

end RoDos.Fat
