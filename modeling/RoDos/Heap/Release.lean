import RoDos.Heap.Blocks

set_option autoImplicit false

namespace RoDos.Heap

open Base

def LinkSound (heap : HeapState) (link : Nat) : Prop := link = 0 ∨ HeapBlock heap link

structure KfreeSound (heap : HeapState) (eax : Nat) : Prop where
  forward : let esi := eax - mcbHeaderSize
    Mergeable (markFree heap esi) ((markFree heap esi).get esi .next) →
      heap.get esi .next = esi + cell heap esi ∧ HeapBlock heap (heap.get esi .next) ∧
        LinkSound heap (heap.get (heap.get esi .next) .next)
  backward : let esi := eax - mcbHeaderSize
    let joined := coalesceNext (markFree heap esi) esi
    Mergeable joined (joined.get esi .prev) →
      HeapBlock heap (joined.get esi .prev) ∧
        joined.get esi .prev + cell heap (joined.get esi .prev) = esi ∧ LinkSound heap (joined.get esi .next)
  pushed : let esi := eax - mcbHeaderSize
    let joined := coalesceNext (markFree heap esi) esi
    ¬ Mergeable joined (joined.get esi .prev) → LinkSound heap heap.heapFreeHead

structure Frees (heap : HeapState) (blocks : List Nat) (next : HeapState) (after : List Nat)
    (block : Nat) : Prop where
  tiled : Tiled next after
  used : (usedBlocks heap blocks).Perm (block :: usedBlocks next after)
  sizes : ∀ other ∈ usedBlocks next after, next.get other .size = heap.get other .size

theorem frees_evolves (heap middle next : HeapState) (blocks between after : List Nat) (block : Nat)
    (frees : Frees heap blocks middle between block) (evolves : Evolves middle between next after) :
    Frees heap blocks next after block := by
  refine ⟨evolves.tiled, frees.used.trans (List.Perm.cons _ evolves.used.symm), fun other member => ?_⟩
  have still := evolves.used.mem_iff.mp member
  rw [evolves.sizes other still, frees.sizes other still]

theorem coalesce_next_frame (heap : HeapState) (esi : Nat) :
    (coalesceNext heap esi).heapBase = heap.heapBase ∧ (coalesceNext heap esi).heapFreeHead = heap.heapFreeHead := by
  unfold coalesceNext
  dsimp only
  split
  · have frame := absorb_frame heap esi (heap.get esi .next)
    exact ⟨frame.1, frame.2.2.2⟩
  · exact ⟨rfl, rfl⟩

section
variable (heap : HeapState) (blocks : List Nat) (tiled : Tiled heap blocks) (esi : Nat) (esiIn : esi ∈ blocks)
include tiled esiIn

theorem mark_free_read (block : Nat) (member : block ∈ blocks) (field : Field) :
    (markFree heap esi).get block field = if block = esi ∧ field = .flags then mcbFlagFree else heap.get block field :=
  mark_free_get heap blocks (tiled_separate heap blocks tiled) esi block field esiIn member

theorem mark_free_freed : (markFree heap esi).get esi .flags = mcbFlagFree := by
  rw [mark_free_read heap blocks tiled esi esiIn esi esiIn]
  simp

omit esiIn in
theorem mark_free_keeps (block : Nat) (field : Field) (esiIn : esi ∈ blocks) (blockIn : block ∈ blocks)
    (notFlags : field ≠ .flags) : (markFree heap esi).get block field = heap.get block field := by
  rw [mark_free_read heap blocks tiled esi esiIn block blockIn]
  simp [notFlags]

theorem mark_free_cell (block : Nat) (blockIn : block ∈ blocks) : cell (markFree heap esi) block = cell heap block := by
  rw [cell, mark_free_keeps heap blocks tiled esi block .size esiIn blockIn (by decide), cell]

theorem mark_free_frees (used : heap.get esi .flags ≠ mcbFlagFree) :
    Frees heap blocks (markFree heap esi) blocks esi := by
  have read := mark_free_read heap blocks tiled esi esiIn
  refine ⟨⟨?_, tiled.positive, tiled.bounded, tiled.extent, ?_, ?_⟩, ?_, ?_⟩
  · exact tiles_congr _ _ _ _ (fun block member => mark_free_cell heap blocks tiled esi esiIn block member) tiled.tiles
  · intro block member
    rw [read block member]
    simpa using tiled.magic block member
  · intro block member
    rw [read block member]
    by_cases same : block = esi
    · simp [same]
    · simpa [same] using tiled.flags block member
  · refine used_blocks_differ heap _ heap blocks tiled esi esiIn (mark_free_freed heap blocks tiled esi esiIn) used
      fun block member notEsi => ?_
    rw [read block member]
    simp [notEsi]
  · exact fun other member => mark_free_keeps heap blocks tiled esi other .size esiIn
      ((mem_used_blocks _ _ _).mp member).1 (by decide)

theorem coalesce_next_evolves (esiFree : heap.get esi .flags = mcbFlagFree)
    (forward : Mergeable heap (heap.get esi .next) → heap.get esi .next = esi + cell heap esi ∧
      heap.get esi .next ∈ blocks ∧
      (heap.get (heap.get esi .next) .next = 0 ∨ heap.get (heap.get esi .next) .next ∈ blocks)) :
    ∃ between, Evolves heap blocks (coalesceNext heap esi) between ∧ esi ∈ between ∧
      (∀ block, block ∈ between ↔
        block ∈ blocks ∧ (Mergeable heap (heap.get esi .next) → block ≠ heap.get esi .next)) ∧
      ∀ block ∈ blocks, block < esi → block ∈ between ∧
        (coalesceNext heap esi).get block .size = heap.get block .size := by
  have separate := tiled_separate heap blocks tiled
  by_cases merges : Mergeable heap (heap.get esi .next)
  · obtain ⟨adjacent, nextIn, linked⟩ := forward merges
    have joined : coalesceNext heap esi = absorb heap esi (esi + cell heap esi) := by
      unfold coalesceNext
      dsimp only
      rw [if_pos merges, adjacent]
    rw [adjacent] at nextIn linked
    have size := cell_positive heap esi
    obtain ⟨between, evolves, members, sizes⟩ := absorb_evolves heap blocks blocks separate (fun _ member => member)
      tiled esi esiIn nextIn esiFree (adjacent ▸ merges.2.2) linked
    rw [joined]
    refine ⟨between, evolves, (members esi).mpr ⟨esiIn, by omega⟩, fun block => ?_, ?_⟩
    · rw [members block, ← adjacent]
      exact and_congr_right fun _ => ⟨fun different _ => different, fun excluded => excluded merges⟩
    intro block member below
    have kept := (members block).mpr ⟨member, by omega⟩
    exact ⟨kept, sizes block kept (Nat.ne_of_lt below)⟩
  · have unchanged : coalesceNext heap esi = heap := by
      unfold coalesceNext
      simp only [if_neg merges]
    rw [unchanged]
    exact ⟨blocks, ⟨tiled, List.Perm.refl _, fun _ _ => rfl⟩, esiIn, fun _ => by simp [merges],
      fun block member _ => ⟨member, rfl⟩⟩
end

theorem kfree_stages (heap : HeapState) (blocks : List Nat) (tiled : Tiled heap blocks) (esi : Nat)
    (esiIn : esi ∈ blocks) (used : heap.get esi .flags ≠ mcbFlagFree) :
    kfree heap (esi + mcbHeaderSize) = checkPrev (coalesceNext (markFree heap esi) esi) esi := by
  have separate := tiled_separate heap blocks tiled
  have inside := separate.inside esi esiIn
  have header : sub32 (esi + mcbHeaderSize) mcbHeaderSize = esi := by
    rw [sub32_of_le] <;> omega
  have notNull : esi + mcbHeaderSize ≠ 0 := by
    have := tiled_block_positive heap blocks tiled esi esiIn
    omega
  unfold kfree
  simp only [if_neg notNull, header, tiled.magic esi esiIn, ne_eq, not_true_eq_false, if_false, if_neg used]

theorem kfree_frees (heap : HeapState) (blocks : List Nat) (tiled : Tiled heap blocks) (esi : Nat)
    (esiIn : esi ∈ blocks) (used : heap.get esi .flags ≠ mcbFlagFree)
    (sound : KfreeSound heap (esi + mcbHeaderSize)) :
    ∃ after, Frees heap blocks (kfree heap (esi + mcbHeaderSize)) after esi := by
  have separate := tiled_separate heap blocks tiled
  have onWalk := heap_block_iff heap blocks tiled
  have header : esi + mcbHeaderSize - mcbHeaderSize = esi := Nat.add_sub_cancel _ _
  obtain ⟨forward, backward, pushed⟩ := sound
  simp only [header] at forward backward pushed
  have marks := mark_free_frees heap blocks tiled esi esiIn used
  have esiFree := mark_free_freed heap blocks tiled esi esiIn
  have sizes := mark_free_cell heap blocks tiled esi esiIn
  have links (block : Nat) (member : block ∈ blocks) : (markFree heap esi).get block .next = heap.get block .next :=
    mark_free_keeps heap blocks tiled esi block .next esiIn member (by decide)
  obtain ⟨between, evolves, esiStays, members, before⟩ :=
    coalesce_next_evolves (markFree heap esi) blocks marks.tiled esi esiIn esiFree (fun merges => by
      obtain ⟨adjacent, nextBlock, linked⟩ := forward merges
      have nextIn := (onWalk _).mp nextBlock
      rw [links esi esiIn, sizes esi esiIn, links _ nextIn]
      exact ⟨adjacent, nextIn, linked.imp_right (onWalk _).mp⟩)
  have through := frees_evolves _ _ _ _ _ _ _ marks evolves
  have listed (block : Nat) (member : block ∈ between) : block ∈ blocks := ((members block).mp member).1
  have stillFree : (coalesceNext (markFree heap esi) esi).get esi .flags = mcbFlagFree := by
    by_contra notFree
    have member := evolves.used.mem_iff.mp ((mem_used_blocks _ between esi).mpr ⟨esiStays, notFree⟩)
    exact ((mem_used_blocks _ _ _).mp member).2 esiFree
  have frame := (coalesce_next_frame (markFree heap esi) esi).2
  rw [kfree_stages heap blocks tiled esi esiIn used]
  generalize coalesceNext (markFree heap esi) esi = joined at backward pushed evolves before through stillFree frame ⊢
  unfold checkPrev
  dsimp only
  by_cases merges : Mergeable joined (joined.get esi .prev)
  · obtain ⟨prevBlock, adjacent, linked⟩ := backward merges
    rw [if_pos merges]
    generalize joined.get esi .prev = front at merges prevBlock adjacent ⊢
    have frontIn := (onWalk _).mp prevBlock
    have below : front < esi := by
      have := cell_positive heap front
      omega
    obtain ⟨frontStays, frontSize⟩ := before front frontIn below
    have behind : front + cell joined front = esi := by
      rw [cell, frontSize, ← cell, sizes front frontIn, adjacent]
    obtain ⟨after, merged, _, _⟩ := absorb_evolves joined blocks between separate listed evolves.tiled front frontStays
      (by rw [behind]; exact esiStays) merges.2.2 (by rw [behind]; exact stillFree)
      (by rw [behind]; exact linked.imp_right (onWalk _).mp)
    rw [behind] at merged
    exact ⟨after, frees_evolves _ _ _ _ _ _ _ through merged⟩
  · have sameHead : joined.heapFreeHead = heap.heapFreeHead := frame
    have headSound : joined.heapFreeHead = 0 ∨ joined.heapFreeHead ∈ blocks := by
      rw [sameHead]
      exact (pushed merges).imp_right (onWalk _).mp
    have headWord : joined.heapFreeHead < 2 ^ 32 := by
      rcases headSound with null | member
      · omega
      · have := separate.inside _ member
        omega
    rw [if_neg merges]
    exact ⟨between, frees_evolves _ _ _ _ _ _ _ through
      (add_to_free_list_evolves joined blocks between separate listed evolves.tiled esi esiStays headSound headWord)⟩

end RoDos.Heap
