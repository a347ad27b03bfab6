import RoDos.Heap.Blocks

set_option autoImplicit false

namespace RoDos.Heap

open Base

structure Takes (heap : HeapState) (blocks : List Nat) (next : HeapState) (after : List Nat)
    (block need : Nat) : Prop where
  tiled : Tiled next after
  used : (usedBlocks next after).Perm (block :: usedBlocks heap blocks)
  sizes : ∀ other ∈ usedBlocks heap blocks, next.get other .size = heap.get other .size
  room : need ≤ next.get block .size

section
variable (heap : HeapState) (blocks : List Nat) (tiled : Tiled heap blocks) (esi : Nat) (esiIn : esi ∈ blocks)
  (esiFree : heap.get esi .flags = mcbFlagFree)
include tiled esiIn

theorem split_separate (need : Nat) (room : need + mcbHeaderSize ≤ heap.get esi .size) :
    Separate ((esi + mcbHeaderSize + need) :: blocks) := by
  have separate := tiled_separate heap blocks tiled
  have bound := tiled_bound heap blocks tiled esi esiIn
  have bounded := tiled.bounded
  have fresh (other : Nat) (member : other ∈ blocks) : Apart (esi + mcbHeaderSize + need) other := by
    by_cases same : other = esi
    · subst other
      unfold Apart
      omega
    · have apart := tiles_apart _ _ _ tiled.tiles other esi member esiIn same
      unfold Apart
      unfold cell at apart bound
      omega
  refine ⟨fun a member => ?_, fun a left b right => ?_⟩
  · rcases List.mem_cons.mp member with rfl | old
    · unfold cell at bound
      omega
    · exact separate.inside a old
  · rcases List.mem_cons.mp left with rfl | oldLeft
    · rcases List.mem_cons.mp right with rfl | oldRight
      · exact Or.inl rfl
      · exact Or.inr (fresh b oldRight)
    · rcases List.mem_cons.mp right with rfl | oldRight
      · exact Or.inr (fresh a oldLeft).symm
      · exact separate.apart a oldLeft b oldRight

theorem split_new (need : Nat) (room : need + mcbHeaderSize ≤ heap.get esi .size) :
    esi + mcbHeaderSize + need ∉ blocks := by
  intro member
  have header : mcbHeaderSize = 20 := rfl
  have apart := tiles_apart _ _ _ tiled.tiles _ esi member esiIn (by omega)
  unfold cell at apart
  omega

theorem split_placed (need : Nat) (room : need + mcbHeaderSize ≤ heap.get esi .size) :
    add32 (add32 esi mcbHeaderSize) need = esi + mcbHeaderSize + need := by
  have bound := tiled_bound heap blocks tiled esi esiIn
  have bounded := tiled.bounded
  rw [cell] at bound
  rw [add32_of_lt esi, add32_of_lt] <;> omega

theorem split_block_read (need : Nat) (room : need + mcbHeaderSize ≤ heap.get esi .size)
    (linked : heap.get esi .next = 0 ∨ heap.get esi .next ∈ blocks) (edi : Nat) (start : esi + mcbHeaderSize + need = edi)
    (block : Nat) (member : block ∈ edi :: blocks) (field : Field) (notPrev : field ≠ .prev) (notNext : field ≠ .next) :
    (splitBlock heap esi need).get block field =
      if block = esi ∧ field = .flags then mcbFlagUsed
      else if block = esi ∧ field = .size then need
      else if block = edi then
        match field with
        | .size => heap.get esi .size - need - mcbHeaderSize
        | .magic => mcbMagic
        | _ => mcbFlagFree
      else heap.get block field := by
  have separate := split_separate heap blocks tiled esi esiIn need room
  have word := get_lt heap esi .size
  have placed := split_placed heap blocks tiled esi esiIn need room
  have remaining : sub32 (sub32 (heap.get esi .size) need) mcbHeaderSize =
      heap.get esi .size - need - mcbHeaderSize := by
    rw [sub32_of_le (heap.get esi .size), sub32_of_le] <;> omega
  rw [start] at separate placed
  rw [split_block_get heap _ separate esi need edi block field (by simp [esiIn]) (by simp) member
    (linked.imp_right (by simp +contextual)) placed (by omega), remaining]
  cases field <;> simp at notPrev notNext ⊢

theorem split_links (need : Nat) (room : need + mcbHeaderSize ≤ heap.get esi .size)
    (linked : heap.get esi .next = 0 ∨ heap.get esi .next ∈ blocks) (edi : Nat) (start : esi + mcbHeaderSize + need = edi)
    (block : Nat) (member : block ∈ edi :: blocks) :
    ((splitBlock heap esi need).get block .next =
        if block = esi then edi else if block = edi then heap.get esi .next else heap.get block .next) ∧
      (splitBlock heap esi need).get block .prev =
        if block = heap.get esi .next then edi else if block = edi then esi else heap.get block .prev := by
  have separate := split_separate heap blocks tiled esi esiIn need room
  have word := get_lt heap esi .size
  have placed := split_placed heap blocks tiled esi esiIn need room
  have positive := tiled_block_positive heap blocks tiled
  have notNull : block ≠ 0 := by
    cases List.mem_cons.mp member with
    | inl same =>
        have header : mcbHeaderSize = 20 := rfl
        omega
    | inr old => exact positive block old
  rw [start] at separate placed
  have read (field : Field) := split_block_get heap _ separate esi need edi block field (by simp [esiIn]) (by simp)
    member (linked.imp_right (by simp +contextual)) placed (by omega)
  refine ⟨?_, ?_⟩
  · rw [read .next]
    simp
  · rw [read .prev]
    by_cases target : block = heap.get esi .next
    · have notLast : heap.get esi .next ≠ 0 := target ▸ notNull
      simp [target, notLast]
    · simp [target]

section
variable (need : Nat) (room : need + mcbHeaderSize ≤ heap.get esi .size)
  (linked : heap.get esi .next = 0 ∨ heap.get esi .next ∈ blocks) (edi : Nat) (start : esi + mcbHeaderSize + need = edi)
  (left right : List Nat) (cut : blocks = left ++ esi :: right)
  (side : ∀ block, block ∈ left ∨ block ∈ right → block ∈ blocks ∧ block ≠ esi)
include room linked start

include side in
theorem split_side_read (block : Nat) (member : block ∈ left ∨ block ∈ right) (field : Field) (notPrev : field ≠ .prev)
    (notNext : field ≠ .next) : (splitBlock heap esi need).get block field = heap.get block field := by
  obtain ⟨old, notEsi⟩ := side block member
  have notEdi : block ≠ edi := fun same => split_new heap blocks tiled esi esiIn need room (start ▸ same ▸ old)
  rw [split_block_read heap blocks tiled esi esiIn need room linked edi start block (by simp [old]) field notPrev notNext]
  simp [notEsi, notEdi]

include cut side

omit tiled esiIn room linked start side in
theorem split_members (block : Nat) : block ∈ left ++ esi :: edi :: right ↔ block ∈ blocks ∨ block = edi := by
  rw [cut]
  simp only [List.mem_append, List.mem_cons]
  constructor
  · rintro (member | member | member | member) <;> simp [member]
  · rintro ((member | member | member) | member) <;> simp [member]

theorem split_block_tiles : Tiles (cell (splitBlock heap esi need)) (splitBlock heap esi need).heapBase
    (left ++ esi :: edi :: right) (splitBlock heap esi need).heapEnd := by
  have read := split_block_read heap blocks tiled esi esiIn need room linked edi start
  have sideRead := split_side_read heap blocks tiled esi esiIn need room linked edi start left right side
  have frame := split_block_frame heap esi need
  have header : mcbHeaderSize = 20 := rfl
  have different : edi ≠ esi := by omega
  rw [frame.1, frame.2.2.1]
  have tiles := tiled.tiles
  rw [cut] at tiles
  have esiCell : cell (splitBlock heap esi need) esi = mcbHeaderSize + need := by
    rw [cell, read esi (by simp [esiIn]) .size (by decide) (by decide)]
    simp
  have ediCell : cell (splitBlock heap esi need) edi = heap.get esi .size - need := by
    rw [cell, read edi (by simp) .size (by decide) (by decide)]
    simp only [different, false_and, if_false, if_true]
    omega
  have behind : esi + cell (splitBlock heap esi need) esi = edi := by omega
  have split := tiles_split (cell (splitBlock heap esi need)) _ _ esi left right tiles
    (fun block member => by rw [cell, sideRead block member .size (by decide) (by decide), cell])
    (by
      rw [behind, esiCell, ediCell, cell]
      omega)
  rwa [behind] at split

theorem split_block_tiled : Tiled (splitBlock heap esi need) (left ++ esi :: edi :: right) := by
  have read := split_block_read heap blocks tiled esi esiIn need room linked edi start
  have frame := split_block_frame heap esi need
  have members := split_members blocks esi edi left right cut
  have new := split_new heap blocks tiled esi esiIn need room
  rw [start] at new
  have different : edi ≠ esi := fun same => new (same ▸ esiIn)
  refine ⟨split_block_tiles heap blocks tiled esi esiIn need room linked edi start left right cut side, ?_, ?_, ?_, ?_, ?_⟩
  · rw [frame.1]; exact tiled.positive
  · rw [frame.2.2.1]; exact tiled.bounded
  · rw [frame.1, frame.2.1, frame.2.2.1]; exact tiled.extent
  · intro block member
    rw [read block (by simpa [or_comm] using (members block).mp member) .magic (by decide) (by decide)]
    cases (members block).mp member with
    | inl old => simp [tiled.magic block old]
    | inr fresh => simp [fresh, different]
  · intro block member
    rw [read block (by simpa [or_comm] using (members block).mp member) .flags (by decide) (by decide)]
    cases (members block).mp member with
    | inl old =>
        have kept := tiled.flags block old
        by_cases same : block = esi
        · simp [same]
        · have notEdi : block ≠ edi := fun equal => new (equal ▸ old)
          simpa [same, notEdi] using kept
    | inr fresh => simp [fresh, different]

include esiFree in
theorem split_block_used :
    (usedBlocks (splitBlock heap esi need) (left ++ esi :: edi :: right)).Perm (esi :: usedBlocks heap blocks) := by
  have read := split_block_read heap blocks tiled esi esiIn need room linked edi start
  have sideRead := split_side_read heap blocks tiled esi esiIn need room linked edi start left right side
  have header : mcbHeaderSize = 20 := rfl
  have different : edi ≠ esi := by omega
  have esiUsed : (splitBlock heap esi need).get esi .flags ≠ mcbFlagFree := by
    rw [read esi (by simp [esiIn]) .flags (by decide) (by decide)]
    simp [mcbFlagUsed, mcbFlagFree]
  have ediUnused : (splitBlock heap esi need).get edi .flags = mcbFlagFree := by
    rw [read edi (by simp) .flags (by decide) (by decide)]
    simp [different]
  have leftSame := used_blocks_congr heap (splitBlock heap esi need) left
    (fun block member => sideRead block (Or.inl member) .flags (by decide) (by decide))
  have rightSame := used_blocks_congr heap (splitBlock heap esi need) right
    (fun block member => sideRead block (Or.inr member) .flags (by decide) (by decide))
  rw [used_blocks_append, used_blocks_cons_used _ _ _ esiUsed, used_blocks_cons_free _ _ _ ediUnused,
    leftSame, rightSame, cut, used_blocks_append, used_blocks_cons_free heap _ _ esiFree]
  exact List.perm_middle
end

include esiFree

theorem split_block_takes (need : Nat) (room : need + mcbHeaderSize ≤ heap.get esi .size)
    (linked : heap.get esi .next = 0 ∨ heap.get esi .next ∈ blocks) :
    ∃ after, Takes heap blocks (splitBlock heap esi need) after esi need ∧
      ∀ block, block ∈ after ↔ block ∈ blocks ∨ block = esi + mcbHeaderSize + need := by
  obtain ⟨left, right, cut, side⟩ := tiled_cut heap blocks tiled esi esiIn
  have read := split_block_read heap blocks tiled esi esiIn need room linked _ rfl
  have new := split_new heap blocks tiled esi esiIn need room
  refine ⟨left ++ esi :: (esi + mcbHeaderSize + need) :: right, ⟨?_, ?_, fun other member => ?_, ?_⟩,
    split_members blocks esi _ left right cut⟩
  · exact split_block_tiled heap blocks tiled esi esiIn need room linked _ rfl left right cut side
  · exact split_block_used heap blocks tiled esi esiIn esiFree need room linked _ rfl left right cut side
  · have old := (mem_used_blocks heap blocks other).mp member
    have notEsi : other ≠ esi := fun same => old.2 (same ▸ esiFree)
    have notNew : other ≠ esi + mcbHeaderSize + need := fun same => new (same ▸ old.1)
    rw [read other (by simp [old.1]) .size (by decide) (by decide)]
    simp [notEsi, notNew]
  · rw [read esi (by simp [esiIn]) .size (by decide) (by decide)]
    simp

theorem use_whole_block_takes (need : Nat) (room : need ≤ heap.get esi .size)
    (prevIn : heap.get esi .prev = 0 ∨ heap.get esi .prev ∈ blocks)
    (nextIn : heap.get esi .next = 0 ∨ heap.get esi .next ∈ blocks) :
    Takes heap blocks (useWholeBlock heap esi) blocks esi need := by
  have separate := tiled_separate heap blocks tiled
  have frame := use_whole_block_frame heap esi
  have read (block : Nat) (member : block ∈ blocks) (field : Field) (notPrev : field ≠ .prev)
      (notNext : field ≠ .next) : (useWholeBlock heap esi).get block field =
        if block = esi ∧ field = .flags then mcbFlagUsed else heap.get block field := by
    rw [use_whole_block_get heap blocks separate esi block field esiIn member prevIn nextIn]
    simp [notPrev, notNext]
  have sizes (block : Nat) (member : block ∈ blocks) :
      (useWholeBlock heap esi).get block .size = heap.get block .size := by
    rw [read block member .size (by decide) (by decide)]
    simp
  refine ⟨⟨?_, ?_, ?_, ?_, ?_, ?_⟩, ?_, ?_, ?_⟩
  · rw [frame.1, frame.2.2.1]
    exact tiles_congr _ _ _ _ (fun block member => by rw [cell, sizes block member, cell]) tiled.tiles
  · rw [frame.1]; exact tiled.positive
  · rw [frame.2.2.1]; exact tiled.bounded
  · rw [frame.1, frame.2.1, frame.2.2.1]; exact tiled.extent
  · intro block member
    rw [read block member .magic (by decide) (by decide)]
    simpa using tiled.magic block member
  · intro block member
    rw [read block member .flags (by decide) (by decide)]
    by_cases same : block = esi
    · simp [same]
    · simpa [same] using tiled.flags block member
  · refine used_blocks_differ heap heap _ blocks tiled esi esiIn esiFree ?_ fun block member notEsi => ?_
    · rw [read esi esiIn .flags (by decide) (by decide)]
      simp [mcbFlagUsed, mcbFlagFree]
    · rw [read block member .flags (by decide) (by decide)]
      simp [notEsi]
  · exact fun other member => sizes other ((mem_used_blocks _ _ _).mp member).1
  · rw [sizes esi esiIn]
    exact room
end

end RoDos.Heap
