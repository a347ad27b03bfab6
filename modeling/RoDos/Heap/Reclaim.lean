import RoDos.Heap.FreeList

set_option autoImplicit false

namespace RoDos.Heap

open Base

def FreeApart (heap : HeapState) : Prop :=
  ∀ block, HeapBlock heap block → HeapBlock heap (block + cell heap block) → heap.get block .flags = mcbFlagFree →
    heap.get (block + cell heap block) .flags ≠ mcbFlagFree

structure NeighboursLinked (heap : HeapState) (esi : Nat) : Prop where
  behind : ∀ block, HeapBlock heap block → esi + cell heap esi = block → heap.get block .flags = mcbFlagFree →
    heap.get esi .next = block ∧
      ∀ front, HeapBlock heap front → front + cell heap front = esi → heap.get front .flags = mcbFlagFree →
        heap.heapFreeHead ≠ block
  front : ∀ block, HeapBlock heap block → block + cell heap block = esi → heap.get block .flags = mcbFlagFree →
    heap.get esi .prev = block ∧ heap.heapFreeHead ≠ 0 ∧ heap.heapFreeHead ≠ esi

def StepReclaims (machine : Machine) (op : HeapOp) : Prop :=
  StepSound machine op ∧ ∀ eax, op = .kfree eax → NeighboursLinked machine.heap (eax - mcbHeaderSize)

structure Reclaimed (base size : Nat) (heap : HeapState) : Prop where
  walk : Tiles (cell heap) base [base] (base + size)
  magic : heap.get base .magic = mcbMagic
  free : heap.get base .flags = mcbFlagFree
  payload : heap.get base .size = size - mcbHeaderSize
  reached : OnFreeList heap base
  serves : ∀ mem eax fuel next pointer, kmalloc fuel (memInit (boot mem) base size).1 eax = some (next, pointer) →
    pointer ≠ 0 → ∃ fuel next, kmalloc fuel heap eax = some (next, pointer)

structure Reclaiming (machine : Machine) : Prop where
  sound : Sound machine
  apart : FreeApart machine.heap
  head : machine.heap.heapFreeHead = 0 ∨ HeapBlock machine.heap machine.heap.heapFreeHead
  listed : machine.live = [] → machine.heap.heapFreeHead ≠ 0

section
variable (heap next : HeapState) (blocks : List Nat) (tiled : Tiled heap blocks)
include tiled

theorem free_apart_kept (after : Tiled next blocks) (cells : ∀ block ∈ blocks, cell next block = cell heap block)
    (flags : ∀ block ∈ blocks, next.get block .flags = mcbFlagFree → heap.get block .flags = mcbFlagFree)
    (apart : FreeApart heap) : FreeApart next := by
  intro block walked behind free
  have blockIn := (heap_block_iff next blocks after block).mp walked
  rw [cells block blockIn] at behind ⊢
  have behindIn := (heap_block_iff next blocks after _).mp behind
  have old := heap_block_iff heap blocks tiled
  exact fun other => apart block ((old _).mpr blockIn) ((old _).mpr behindIn) (flags block blockIn free)
    (flags _ behindIn other)
end

section
variable (heap : HeapState) (blocks : List Nat) (tiled : Tiled heap blocks) (esi : Nat) (esiIn : esi ∈ blocks)
include tiled esiIn

theorem whole_free_apart (free : heap.get esi .flags = mcbFlagFree)
    (prevIn : heap.get esi .prev = 0 ∨ heap.get esi .prev ∈ blocks)
    (nextIn : heap.get esi .next = 0 ∨ heap.get esi .next ∈ blocks) (apart : FreeApart heap) :
    FreeApart (useWholeBlock heap esi) := by
  have takes := use_whole_block_takes heap blocks tiled esi esiIn free 0 (Nat.zero_le _) prevIn nextIn
  have read (block : Nat) (member : block ∈ blocks) (field : Field) :=
    use_whole_block_get heap blocks (tiled_separate heap blocks tiled) esi block field esiIn member prevIn nextIn
  refine free_apart_kept heap _ blocks tiled takes.tiled (fun block member => ?_) (fun block member => ?_) apart
  · rw [cell, read block member .size, cell]
    simp
  · rw [read block member .flags]
    by_cases same : block = esi
    · simp [same, mcbFlagUsed, mcbFlagFree]
    · simp [same]

theorem split_free_apart (free : heap.get esi .flags = mcbFlagFree) (need : Nat)
    (room : need + mcbHeaderSize ≤ heap.get esi .size) (linked : heap.get esi .next = 0 ∨ heap.get esi .next ∈ blocks)
    (apart : FreeApart heap) : FreeApart (splitBlock heap esi need) ∧
      ∀ block, HeapBlock heap block → HeapBlock (splitBlock heap esi need) block := by
  obtain ⟨after, takes, members⟩ := split_block_takes heap blocks tiled esi esiIn free need room linked
  have read := split_block_read heap blocks tiled esi esiIn need room linked _ rfl
  have new := split_new heap blocks tiled esi esiIn need room
  have header : mcbHeaderSize = 20 := rfl
  generalize start : esi + mcbHeaderSize + need = edi at members read new
  have notEsi : edi ≠ esi := by omega
  have old := heap_block_iff heap blocks tiled
  have later := heap_block_iff _ after takes.tiled
  refine ⟨fun block walked behind blockFree => ?_, fun block walked => (later block).mpr ((members block).mpr
    (Or.inl ((old block).mp walked)))⟩
  rw [later, members] at walked behind
  have flags (other : Nat) (member : other ∈ blocks) : (splitBlock heap esi need).get other .flags =
      if other = esi then mcbFlagUsed else heap.get other .flags := by
    have notEdi : other ≠ edi := fun same => new (same ▸ member)
    rw [read other (List.mem_cons_of_mem _ member) .flags (by decide) (by decide)]
    simp [notEdi]
  have cellOther (other : Nat) (member : other ∈ blocks) (different : other ≠ esi) :
      cell (splitBlock heap esi need) other = cell heap other := by
    have notEdi : other ≠ edi := fun same => new (same ▸ member)
    rw [cell, read other (List.mem_cons_of_mem _ member) .size (by decide) (by decide), cell]
    simp [notEdi, different]
  -- The used block is not free; the new one stands where the old one ended; the others have kept their cells.
  by_cases own : block = esi
  · rw [own, flags esi esiIn, if_pos rfl] at blockFree
    exact absurd blockFree (by decide)
  · by_cases fresh : block = edi
    · have cellEdi : edi + cell (splitBlock heap esi need) edi = esi + cell heap esi := by
        rw [cell, read edi List.mem_cons_self .size (by decide) (by decide), cell]
        simp only [notEsi, false_and, if_false, if_true]
        omega
      rw [fresh, cellEdi] at behind ⊢
      have behindIn : esi + cell heap esi ∈ blocks := by
        refine behind.resolve_right fun same => ?_
        rw [cell] at same
        omega
      have further := cell_positive heap esi
      rw [flags _ behindIn, if_neg (by omega)]
      exact apart esi ((old esi).mpr esiIn) ((old _).mpr behindIn) free
    · have blockIn := walked.resolve_right fresh
      rw [cellOther block blockIn own] at behind ⊢
      rw [flags block blockIn, if_neg own] at blockFree
      have behindIn : block + cell heap block ∈ blocks := by
        refine behind.resolve_right fun same => ?_
        have sides := tiles_apart _ _ _ tiled.tiles block esi blockIn esiIn own
        have width : cell heap esi = mcbHeaderSize + heap.get esi .size := rfl
        have further := cell_positive heap block
        omega
      rw [flags _ behindIn]
      split
      · decide
      · exact apart block ((old block).mpr blockIn) ((old _).mpr behindIn) blockFree

theorem allocate_free_apart (free : heap.get esi .flags = mcbFlagFree) (need : Nat)
    (room : need + mcbHeaderSize ≤ heap.get esi .size) (nextIn : heap.get esi .next = 0 ∨ heap.get esi .next ∈ blocks)
    (prevIn : heap.get esi .size < need + mcbHeaderSize + minSplitSize →
      heap.get esi .prev = 0 ∨ heap.get esi .prev ∈ blocks) (apart : FreeApart heap)
    (head : heap.heapFreeHead = 0 ∨ heap.heapFreeHead ∈ blocks) : FreeApart (allocateBlock heap esi need) ∧
      ((allocateBlock heap esi need).heapFreeHead = 0 ∨
        HeapBlock (allocateBlock heap esi need) (allocateBlock heap esi need).heapFreeHead) := by
  have old := heap_block_iff heap blocks tiled
  have word := get_lt heap esi .size
  have remaining : sub32 (sub32 (heap.get esi .size) need) mcbHeaderSize = heap.get esi .size - need - mcbHeaderSize := by
    rw [sub32_of_le (heap.get esi .size), sub32_of_le] <;> omega
  unfold allocateBlock
  rw [remaining]
  by_cases small : heap.get esi .size - need - mcbHeaderSize < minSplitSize
  · have prevIn := prevIn (by omega)
    have takes := use_whole_block_takes heap blocks tiled esi esiIn free need (by omega) prevIn nextIn
    rw [if_pos small, (use_whole_block_frame heap esi).2.2.2]
    refine ⟨whole_free_apart heap blocks tiled esi esiIn free prevIn nextIn apart, ?_⟩
    split
    · exact nextIn.imp_right (heap_block_iff _ blocks takes.tiled _).mpr
    · exact head.imp_right (heap_block_iff _ blocks takes.tiled _).mpr
  · obtain ⟨kept, stays⟩ := split_free_apart heap blocks tiled esi esiIn free need room nextIn apart
    rw [if_neg small, (split_block_frame heap esi need).2.2.2]
    exact ⟨kept, head.imp_right fun member => stays _ ((old _).mpr member)⟩
end

theorem statistics_reclaim (heap : HeapState) (blocks : List Nat) (tiled : Tiled heap blocks) (need : Nat)
    (apart : FreeApart heap) : FreeApart (updateStatistics heap need) ∧
      ∀ block, HeapBlock heap block → HeapBlock (updateStatistics heap need) block := by
  have counted := (update_statistics_evolves heap blocks need tiled).tiled
  refine ⟨free_apart_kept heap _ blocks tiled counted (fun _ _ => rfl) (fun _ _ free => free) apart, fun block walked => ?_⟩
  exact (heap_block_iff _ blocks counted block).mpr ((heap_block_iff heap blocks tiled block).mp walked)

theorem kmalloc_reclaiming (heap next : HeapState) (blocks : List Nat) (tiled : Tiled heap blocks)
    (eax fuel pointer : Nat) (sound : KmallocSound heap eax) (returned : kmalloc fuel heap eax = some (next, pointer))
    (apart : FreeApart heap) (head : heap.heapFreeHead = 0 ∨ HeapBlock heap heap.heapFreeHead) :
    FreeApart next ∧ (next.heapFreeHead = 0 ∨ HeapBlock next next.heapFreeHead) ∧
      (pointer = 0 → next.heapFreeHead = heap.heapFreeHead) := by
  have onWalk := heap_block_iff heap blocks tiled
  rcases kmalloc_cases fuel heap next eax pointer returned with ⟨_, rfl | rfl⟩ | ⟨esi, asked, search, address, rfl⟩
  · exact ⟨apart, head, fun _ => rfl⟩
  · obtain ⟨kept, stays⟩ := statistics_reclaim heap blocks tiled (alignSize eax) apart
    rw [update_statistics_head]
    exact ⟨kept, head.imp_right (stays _), fun _ => rfl⟩
  · obtain ⟨walked, room, nextSound, prevSound⟩ := sound fuel esi asked search
    have esiIn := (onWalk esi).mp walked
    have free := (search_found heap _ _ _ _ search).2.2.1
    have nextIn := nextSound.imp_right (onWalk _).mp
    have prevIn := fun small => (prevSound small).imp_right (onWalk _).mp
    obtain ⟨after, takes⟩ := allocate_block_takes heap blocks tiled esi (alignSize eax) esiIn free room nextIn prevIn
    obtain ⟨split, link⟩ := allocate_free_apart heap blocks tiled esi esiIn free (alignSize eax) room nextIn prevIn apart
      (head.imp_right (onWalk _).mp)
    obtain ⟨kept, stays⟩ := statistics_reclaim _ after takes.tiled (alignSize eax) split
    rw [update_statistics_head]
    refine ⟨kept, link.imp_right (stays _), fun null => ?_⟩
    have header : mcbHeaderSize = 20 := rfl
    have inside := (tiled_separate heap blocks tiled).inside esi esiIn
    have start : add32 esi mcbHeaderSize = esi + mcbHeaderSize := add32_of_lt _ _ inside
    omega

section
variable (heap : HeapState) (blocks : List Nat) (tiled : Tiled heap blocks) (esi : Nat) (esiIn : esi ∈ blocks)
  (used : heap.get esi .flags ≠ mcbFlagFree) (sound : KfreeSound heap (esi + mcbHeaderSize))

structure Joined (between : List Nat) : Prop where
  tiled : Tiled (coalesceNext (markFree heap esi) esi) between
  own : esi ∈ between
  members : ∀ block, block ∈ between ↔
    block ∈ blocks ∧ (Mergeable (markFree heap esi) (heap.get esi .next) → block ≠ heap.get esi .next)
  adjacent : Mergeable (markFree heap esi) (heap.get esi .next) →
    heap.get esi .next = esi + cell heap esi ∧ heap.get esi .next ∈ blocks
  flags : ∀ block ∈ between, (coalesceNext (markFree heap esi) esi).get block .flags =
    if block = esi then mcbFlagFree else heap.get block .flags
  cells : ∀ block ∈ between, block ≠ esi → cell (coalesceNext (markFree heap esi) esi) block = cell heap block
  grown : cell (coalesceNext (markFree heap esi) esi) esi =
    if Mergeable (markFree heap esi) (heap.get esi .next) then cell heap esi + cell heap (heap.get esi .next) else cell heap esi
  prev : (coalesceNext (markFree heap esi) esi).get esi .prev = heap.get esi .prev ∨
    (coalesceNext (markFree heap esi) esi).get esi .prev = esi

include tiled esiIn used sound

theorem kfree_joined : ∃ between, Joined heap blocks esi between := by
  have header : esi + mcbHeaderSize - mcbHeaderSize = esi := Nat.add_sub_cancel _ _
  have forward := sound.forward
  simp only [header] at forward
  have onWalk := heap_block_iff heap blocks tiled
  have separate := tiled_separate heap blocks tiled
  have marks := mark_free_frees heap blocks tiled esi esiIn used
  have read := mark_free_read heap blocks tiled esi esiIn
  have kept (block : Nat) (member : block ∈ blocks) (field : Field) (notFlags : field ≠ .flags) :
      (markFree heap esi).get block field = heap.get block field :=
    mark_free_keeps heap blocks tiled esi block field esiIn member notFlags
  have next := kept esi esiIn .next (by decide)
  have cells := mark_free_cell heap blocks tiled esi esiIn
  rw [next] at forward
  by_cases merges : Mergeable (markFree heap esi) (heap.get esi .next)
  · obtain ⟨adjacent, nextBlock, linked⟩ := forward merges
    have joined : coalesceNext (markFree heap esi) esi = absorb (markFree heap esi) esi (heap.get esi .next) := by
      rw [coalesceNext, next, if_pos merges]
    have nextIn := (onWalk _).mp nextBlock
    have target : (markFree heap esi).get (heap.get esi .next) .next = 0 ∨
        (markFree heap esi).get (heap.get esi .next) .next ∈ blocks := by
      rw [kept _ nextIn .next (by decide)]
      exact linked.imp_right (onWalk _).mp
    have behind : esi + cell (markFree heap esi) esi = heap.get esi .next := by rw [cells esi esiIn, adjacent]
    have esiFree := mark_free_freed heap blocks tiled esi esiIn
    obtain ⟨between, evolves, members, sizes⟩ := absorb_evolves (markFree heap esi) blocks blocks separate
      (fun _ member => member) marks.tiled esi esiIn (by rw [behind]; exact nextIn) esiFree
      (by rw [behind]; exact merges.2.2) (by rw [behind]; exact target)
    rw [behind] at evolves members sizes
    have absorbed := absorb_read (markFree heap esi) blocks blocks separate (fun _ member => member) marks.tiled esi _
      esiIn nextIn behind target
    have further := cell_positive heap esi
    rw [← joined] at evolves sizes absorbed
    refine ⟨between, evolves.tiled, (members esi).mpr ⟨esiIn, by omega⟩, fun block => ?_, fun _ => ⟨adjacent, nextIn⟩,
      fun block member => ?_,
      fun block member different => ?_, ?_, ?_⟩
    · rw [members block]
      exact and_congr_right fun _ => ⟨fun different _ => different, fun excluded => excluded merges⟩
    · have blockIn := ((members block).mp member).1
      rw [absorbed block blockIn .flags (by decide) (by decide), read block blockIn]
      simp
    · rw [cell, sizes block member different, kept block ((members block).mp member).1 .size (by decide), cell]
    · rw [if_pos merges, cell, absorbed esi esiIn .size (by decide) (by decide), if_pos ⟨rfl, rfl⟩,
        kept esi esiIn .size (by decide), kept _ nextIn .size (by decide), cell, cell]
      omega
    · rw [joined, absorb_get (markFree heap esi) blocks separate esi _ esi .prev esiIn nextIn esiIn target]
      split
      · exact Or.inr rfl
      · rw [if_neg (by simp), if_neg (by simp), kept esi esiIn .prev (by decide)]
        exact Or.inl rfl
  · have joined : coalesceNext (markFree heap esi) esi = markFree heap esi := by
      rw [coalesceNext, next, if_neg merges]
    have grown : cell (coalesceNext (markFree heap esi) esi) esi = if Mergeable (markFree heap esi) (heap.get esi .next) then
        cell heap esi + cell heap (heap.get esi .next) else cell heap esi := by
      rw [if_neg merges, joined, cells esi esiIn]
    refine ⟨blocks, ?_, esiIn, fun block => ?_, fun impossible => absurd impossible merges, fun block member => ?_,
      fun block member different => ?_, grown, ?_⟩
    · rw [joined]
      exact marks.tiled
    · exact ⟨fun member => ⟨member, fun impossible => absurd impossible merges⟩, And.left⟩
    · rw [joined, read block member]
      simp
    · rw [joined, cells block member]
    · rw [joined, kept esi esiIn .prev (by decide)]
      exact Or.inl rfl

section
variable (apart : FreeApart heap) (linked : NeighboursLinked heap esi) (between : List Nat)
  (joined : Joined heap blocks esi between)
include apart linked joined

omit used sound in
theorem joined_pairs (block : Nat) (member : block ∈ between)
    (behindIn : block + cell (coalesceNext (markFree heap esi) esi) block ∈ between)
    (free : (coalesceNext (markFree heap esi) esi).get block .flags = mcbFlagFree)
    (behindFree : (coalesceNext (markFree heap esi) esi).get
      (block + cell (coalesceNext (markFree heap esi) esi) block) .flags = mcbFlagFree) :
    block ≠ esi ∧ block + cell heap block = esi := by
  have old := heap_block_iff heap blocks tiled
  have listed (other : Nat) (inside : other ∈ between) : other ∈ blocks := ((joined.members other).mp inside).1
  have read := mark_free_read heap blocks tiled esi esiIn
  have size := cell_positive (coalesceNext (markFree heap esi) esi) block
  by_cases own : block = esi
  · rw [own] at size behindIn behindFree
    have notEsi : esi + cell (coalesceNext (markFree heap esi) esi) esi ≠ esi := by omega
    rw [joined.flags _ behindIn, if_neg notEsi] at behindFree
    have further := listed _ behindIn
    rw [joined.grown] at behindFree further notEsi
    by_cases merges : Mergeable (markFree heap esi) (heap.get esi .next)
    · obtain ⟨adjacent, nextIn⟩ := joined.adjacent merges
      have nextFree := merges.2.2
      have notOwn : heap.get esi .next ≠ esi := by
        have := cell_positive heap esi
        omega
      rw [read _ nextIn, if_neg fun both => notOwn both.1] at nextFree
      rw [if_pos merges, ← Nat.add_assoc, ← adjacent] at behindFree further
      exact absurd behindFree (apart _ ((old _).mpr nextIn) ((old _).mpr further) nextFree)
    · rw [if_neg merges] at behindFree further notEsi
      have next := (linked.behind _ ((old _).mpr further) rfl behindFree).1
      refine absurd ⟨?_, ?_, ?_⟩ merges
      · rw [next]
        exact tiled_block_positive heap blocks tiled _ further
      · rw [next, read _ further, if_neg fun both => notEsi both.1]
        exact tiled.magic _ further
      · rw [next, read _ further, if_neg fun both => notEsi both.1]
        exact behindFree
  · refine ⟨own, ?_⟩
    rw [joined.cells block member own] at behindIn behindFree
    rw [joined.flags block member, if_neg own] at free
    by_contra different
    rw [joined.flags _ behindIn, if_neg different] at behindFree
    exact apart block ((old _).mpr (listed block member)) ((old _).mpr (listed _ behindIn)) free behindFree

omit used in
theorem pushed_reclaiming (still : ¬ Mergeable (coalesceNext (markFree heap esi) esi)
    ((coalesceNext (markFree heap esi) esi).get esi .prev)) :
    FreeApart (addToFreeList (coalesceNext (markFree heap esi) esi) esi) ∧
      HeapBlock (addToFreeList (coalesceNext (markFree heap esi) esi) esi) esi := by
  have header : esi + mcbHeaderSize - mcbHeaderSize = esi := Nat.add_sub_cancel _ _
  have pushed := sound.pushed
  simp only [header] at pushed
  have separate := tiled_separate heap blocks tiled
  have listed (other : Nat) (inside : other ∈ between) : other ∈ blocks := ((joined.members other).mp inside).1
  have headIn : (coalesceNext (markFree heap esi) esi).heapFreeHead = 0 ∨
      (coalesceNext (markFree heap esi) esi).heapFreeHead ∈ blocks := by
    rw [(coalesce_next_frame (markFree heap esi) esi).2]
    exact (pushed still).imp_right (heap_block_iff heap blocks tiled _).mp
  have headWord : (coalesceNext (markFree heap esi) esi).heapFreeHead < 2 ^ 32 := by
    rcases headIn with null | member
    · rw [null]
      decide
    · exact header_lt blocks separate _ member
  have pairs := joined_pairs heap blocks tiled esi esiIn apart linked between joined
  have evolves := add_to_free_list_evolves _ blocks between separate listed joined.tiled esi joined.own headIn headWord
  have read (block : Nat) (member : block ∈ between) (field : Field) := add_to_free_list_get
    (coalesceNext (markFree heap esi) esi) blocks separate esi block field esiIn (listed block member) headIn headWord
  have walk := heap_block_iff _ between evolves.tiled
  refine ⟨fun block walked behind free behindFree => ?_, (walk esi).mpr joined.own⟩
  rw [walk] at walked behind
  have cells : cell (addToFreeList (coalesceNext (markFree heap esi) esi) esi) block =
      cell (coalesceNext (markFree heap esi) esi) block := by
    rw [cell, read block walked .size, cell]
    simp
  rw [cells] at behind behindFree
  rw [read _ behind .flags] at behindFree
  rw [read block walked .flags] at free
  simp only [reduceCtorEq, and_false, if_false] at free behindFree
  obtain ⟨own, adjacent⟩ := pairs block walked behind free behindFree
  have blockFree := free
  rw [joined.flags block walked, if_neg own] at blockFree
  obtain ⟨prev, _⟩ := linked.front block ((heap_block_iff heap blocks tiled block).mpr (listed block walked)) adjacent blockFree
  rcases joined.prev with same | same
  · rw [same, prev] at still
    exact still ⟨tiled_block_positive heap blocks tiled block (listed block walked), joined.tiled.magic block walked, free⟩
  · have esiFree := joined.flags esi joined.own
    rw [if_pos rfl] at esiFree
    rw [same] at still
    exact still ⟨tiled_block_positive heap blocks tiled esi esiIn, joined.tiled.magic esi joined.own, esiFree⟩

omit used in
theorem merged_reclaiming (front : Nat) (prev : (coalesceNext (markFree heap esi) esi).get esi .prev = front)
    (merges : Mergeable (coalesceNext (markFree heap esi) esi) front)
    (head : heap.heapFreeHead = 0 ∨ HeapBlock heap heap.heapFreeHead) :
    FreeApart (absorb (coalesceNext (markFree heap esi) esi) front esi) ∧ heap.heapFreeHead ≠ 0 ∧
      HeapBlock (absorb (coalesceNext (markFree heap esi) esi) front esi) heap.heapFreeHead := by
  have header : esi + mcbHeaderSize - mcbHeaderSize = esi := Nat.add_sub_cancel _ _
  have backward := sound.backward
  simp only [header, prev] at backward
  obtain ⟨walked, adjacent, target⟩ := backward merges
  have old := heap_block_iff heap blocks tiled
  have separate := tiled_separate heap blocks tiled
  have listed (other : Nat) (inside : other ∈ between) : other ∈ blocks := ((joined.members other).mp inside).1
  have frontIn := (old front).mp walked
  have size := cell_positive heap front
  have room := cell_positive heap esi
  have notEsi : front ≠ esi := by omega
  have frontStays : front ∈ between := (joined.members front).mpr ⟨frontIn, fun forward => by
    have next := (joined.adjacent forward).1
    omega⟩
  have behind : front + cell (coalesceNext (markFree heap esi) esi) front = esi := by
    rw [joined.cells front frontStays notEsi, adjacent]
  have esiFree := joined.flags esi joined.own
  rw [if_pos rfl] at esiFree
  have linkIn := target.imp_right (old _).mp
  obtain ⟨after, evolves, members, sizes⟩ := absorb_evolves _ blocks between separate listed joined.tiled front frontStays
    (by rw [behind]; exact joined.own) merges.2.2 (by rw [behind]; exact esiFree) (by rw [behind]; exact linkIn)
  rw [behind] at evolves members sizes
  have read := absorb_read _ blocks between separate listed joined.tiled front esi frontStays joined.own behind linkIn
  have pairs := joined_pairs heap blocks tiled esi esiIn apart linked between joined
  have walk := heap_block_iff _ after evolves.tiled
  have flags (block : Nat) (member : block ∈ between) :
      (absorb (coalesceNext (markFree heap esi) esi) front esi).get block .flags =
        (coalesceNext (markFree heap esi) esi).get block .flags := by
    rw [read block member .flags (by decide) (by decide)]
    simp
  have frontFree := merges.2.2
  rw [joined.flags front frontStays, if_neg notEsi] at frontFree
  obtain ⟨_, notNull, notFreed⟩ := linked.front front walked adjacent frontFree
  refine ⟨fun block blockWalked behindWalked free behindFree => ?_, notNull, ?_⟩
  · rw [walk] at blockWalked behindWalked
    have blockIn := ((members block).mp blockWalked).1
    have behindIn := ((members _).mp behindWalked).1
    rw [flags block blockIn] at free
    rw [flags _ behindIn] at behindFree
    by_cases own : block = front
    · have grown : front + cell (absorb (coalesceNext (markFree heap esi) esi) front esi) front =
          esi + cell (coalesceNext (markFree heap esi) esi) esi := by
        rw [cell, read front frontStays .size (by decide) (by decide), if_pos ⟨rfl, rfl⟩]
        rw [cell] at behind ⊢
        omega
      rw [own, grown] at behindIn behindFree
      exact (pairs esi joined.own behindIn esiFree behindFree).1 rfl
    · have same : cell (absorb (coalesceNext (markFree heap esi) esi) front esi) block =
          cell (coalesceNext (markFree heap esi) esi) block := by
        rw [cell, sizes block blockWalked own, cell]
      rw [same] at behindIn behindFree
      obtain ⟨_, before⟩ := pairs block blockIn behindIn free behindFree
      have further := cell_positive heap block
      have sides := tiles_apart _ _ _ tiled.tiles block front (listed block blockIn) frontIn own
      omega
  · have headIn := (old _).mp (head.resolve_left notNull)
    refine (walk _).mpr ((members _).mpr ⟨(joined.members _).mpr ⟨headIn, fun forward => ?_⟩, notFreed⟩)
    obtain ⟨next, nextIn⟩ := joined.adjacent forward
    have nextFree := forward.2.2
    rw [mark_free_read heap blocks tiled esi esiIn _ nextIn, if_neg fun both => by omega] at nextFree
    exact (linked.behind _ ((old _).mpr nextIn) next.symm nextFree).2 front walked adjacent frontFree
end

theorem kfree_reclaiming (apart : FreeApart heap) (linked : NeighboursLinked heap esi)
    (head : heap.heapFreeHead = 0 ∨ HeapBlock heap heap.heapFreeHead) :
    FreeApart (kfree heap (esi + mcbHeaderSize)) ∧ (kfree heap (esi + mcbHeaderSize)).heapFreeHead ≠ 0 ∧
      HeapBlock (kfree heap (esi + mcbHeaderSize)) (kfree heap (esi + mcbHeaderSize)).heapFreeHead := by
  obtain ⟨between, joined⟩ := kfree_joined heap blocks tiled esi esiIn used sound
  rw [kfree_stages heap blocks tiled esi esiIn used, checkPrev]
  by_cases merges : Mergeable (coalesceNext (markFree heap esi) esi) ((coalesceNext (markFree heap esi) esi).get esi .prev)
  · have same : (absorb (coalesceNext (markFree heap esi) esi) ((coalesceNext (markFree heap esi) esi).get esi .prev)
        esi).heapFreeHead = heap.heapFreeHead :=
      (absorb_frame _ _ _).2.2.2.trans (coalesce_next_frame (markFree heap esi) esi).2
    rw [if_pos merges, same]
    exact merged_reclaiming heap blocks tiled esi esiIn sound apart linked between joined _ rfl merges head
  · obtain ⟨kept, walked⟩ := pushed_reclaiming heap blocks tiled esi esiIn sound apart linked between joined merges
    rw [if_neg merges, (add_to_free_list_frame _ esi).2.2.2]
    exact ⟨kept, tiled_block_positive heap blocks tiled esi esiIn, walked⟩
end

theorem reclaiming_step (machine next : Machine) (op : HeapOp) (inv : Reclaiming machine)
    (admitted : StepReclaims machine op) (taken : HeapStep machine op next) : Reclaiming next := by
  have sound := step_sound machine next op inv.sound admitted.1 taken
  obtain ⟨blocks, tiled, accounted⟩ := inv.sound
  cases taken with
  | kmalloc eax fuel pointer heap word returned =>
      obtain ⟨apart, head, unserved⟩ := kmalloc_reclaiming machine.heap heap blocks tiled eax fuel pointer admitted.1 returned
        inv.apart inv.head
      refine ⟨sound, apart, head, fun empty => ?_⟩
      by_cases null : pointer = 0
      · rw [if_pos null] at empty
        show heap.heapFreeHead ≠ 0
        rw [unserved null]
        exact inv.listed empty
      · rw [if_neg null] at empty
        cases empty
  | kfree allocation alive =>
      obtain ⟨member, used⟩ := accounted_block machine blocks accounted allocation alive
      have pointer := accounted.pointer allocation alive
      have freed : KfreeSound machine.heap (allocation.block + mcbHeaderSize) := pointer ▸ admitted.1
      have linked := admitted.2 allocation.pointer rfl
      obtain ⟨apart, notNull, walked⟩ := kfree_reclaiming machine.heap blocks tiled allocation.block member used freed
        inv.apart linked inv.head
      rw [← pointer] at apart notNull walked
      exact ⟨sound, apart, Or.inr walked, fun _ => notNull⟩
  | write allocation address byte alive above below =>
      have evolves := write_evolves machine blocks tiled accounted allocation alive address byte above below
      have read := write_get machine blocks tiled accounted allocation alive address byte above below
      refine ⟨sound, free_apart_kept machine.heap _ blocks tiled evolves.tiled (fun block blockIn => ?_)
        (fun block blockIn free => ?_) inv.apart, inv.head.imp_right fun walked => ?_, inv.listed⟩
      · rw [cell, read block .size blockIn, cell]
      · rw [read block .flags blockIn] at free
        exact free
      · exact (heap_block_iff _ blocks evolves.tiled _).mpr ((heap_block_iff machine.heap blocks tiled _).mp walked)

section
variable (base size : Nat) (notNull : base ≠ 0) (enough : 1024 ≤ size) (inside : base + size < 2 ^ 32)
  (positive : size < 2 ^ 31)
include notNull enough inside positive

theorem started_reclaiming (machine : Machine) (boot : Started base size machine) : Reclaiming machine := by
  have sound := (started_sound base size notNull enough inside positive machine boot).1
  obtain ⟨mem, rfl⟩ := boot
  obtain ⟨_, tiled, _, head, _⟩ := mem_init_accepts (Heap.boot mem) base size notNull enough inside positive
  have walk := heap_block_iff _ [base] tiled
  refine ⟨sound, fun block walked behind _ => ?_, Or.inr ?_, fun _ => ?_⟩
  · have first := List.mem_singleton.mp ((walk _).mp walked)
    have second := List.mem_singleton.mp ((walk _).mp behind)
    exact absurd (second.trans first.symm) (Nat.ne_of_gt (Nat.lt_add_of_pos_right (cell_positive _ block)))
  · rw [head, walk]
    exact List.mem_singleton_self base
  · rw [head]
    exact notNull

-- A free block at the head of the list serves whatever fits it.
omit notNull enough inside positive in
theorem head_serves (heap : HeapState) (head : heap.heapFreeHead = base) (magic : heap.get base .magic = mcbMagic)
    (free : heap.get base .flags = mcbFlagFree) (first : base ≠ 0) (eax : Nat) (asked : eax ≠ 0)
    (fits : alignSize eax ≤ heap.get base .size) : ∃ next, kmalloc 1 heap eax = some (next, add32 base mcbHeaderSize) := by
  have search : searchLoop heap (alignSize eax) 1 heap.heapFreeHead = some (.block base) := by
    rw [head, searchLoop, if_neg first, if_neg (not_not_intro magic), if_pos ⟨free, fits⟩]
  rw [kmalloc, if_neg asked, search]
  exact ⟨_, rfl⟩

theorem fresh_served (mem : Memory) (eax fuel pointer : Nat) (next : HeapState)
    (returned : kmalloc fuel (memInit (boot mem) base size).1 eax = some (next, pointer)) (served : pointer ≠ 0) :
    eax ≠ 0 ∧ alignSize eax ≤ size - mcbHeaderSize ∧ pointer = add32 base mcbHeaderSize := by
  obtain ⟨_, _, _, head, read⟩ := mem_init_accepts (boot mem) base size notNull enough inside positive
  rcases kmalloc_cases fuel _ next eax pointer returned with ⟨null, _⟩ | ⟨esi, asked, search, address, _⟩
  · exact absurd null served
  · cases fuel with
    | zero => cases search
    | succ fuel =>
        rw [head, searchLoop, if_neg notNull, read .magic, if_neg (by simp), read .flags, read .size] at search
        dsimp only at search
        by_cases fits : alignSize eax ≤ size - mcbHeaderSize
        · rw [if_pos ⟨rfl, fits⟩] at search
          cases search
          exact ⟨asked, fits, address⟩
        · rw [if_neg fun both => fits both.2, read .next] at search
          cases fuel with
          | zero => cases search
          | succ fuel =>
              rw [searchLoop, if_pos rfl] at search
              cases search

theorem reclaiming_whole (machine : Machine) (inv : Reclaiming machine) (region : machine.heap.heapBase = base ∧
    machine.heap.heapSize = size) (empty : machine.live = []) : Reclaimed base size machine.heap := by
  obtain ⟨blocks, tiled, accounted⟩ := inv.sound
  have walk := heap_block_iff machine.heap blocks tiled
  have tiles := tiled.tiles
  rw [tiled.extent, region.1, region.2] at tiles
  have unused := accounted.used
  rw [empty] at unused
  have free (block : Nat) (member : block ∈ blocks) : machine.heap.get block .flags = mcbFlagFree := by
    by_contra used
    exact List.not_mem_nil (unused.mem_iff.mpr ((mem_used_blocks _ _ _).mpr ⟨member, used⟩))
  -- One block, since two neighbours would both be free.
  have single : blocks = [base] := by
    cases blocks with
    | nil =>
        have ended : base = base + size := tiles
        omega
    | cons first rest =>
        obtain ⟨rfl, further⟩ := tiles
        cases rest with
        | nil => rfl
        | cons second others =>
            obtain ⟨start, _⟩ := further
            have secondIn : second ∈ first :: second :: others := List.mem_cons_of_mem _ List.mem_cons_self
            have apart := inv.apart first ((walk first).mpr List.mem_cons_self)
            rw [← start] at apart
            exact absurd (free second secondIn) (apart ((walk second).mpr secondIn) (free first List.mem_cons_self))
  rw [single] at tiles
  have baseIn : base ∈ blocks := single ▸ List.mem_singleton_self base
  have header : mcbHeaderSize = 20 := rfl
  have payload : machine.heap.get base .size = size - mcbHeaderSize := by
    have ended : base + cell machine.heap base = base + size := tiles.2
    rw [cell] at ended
    omega
  have linked := inv.listed empty
  have head : machine.heap.heapFreeHead = base := by
    have member := (walk _).mp (inv.head.resolve_left linked)
    rw [single] at member
    exact List.mem_singleton.mp member
  have magic := tiled.magic base baseIn
  refine ⟨tiles, magic, free base baseIn, payload, head ▸ .head linked, fun mem eax fuel next pointer returned served => ?_⟩
  obtain ⟨asked, fits, address⟩ := fresh_served base size notNull enough inside positive mem eax fuel pointer next returned served
  obtain ⟨later, again⟩ := head_serves base machine.heap head magic (free base baseIn) notNull eax asked (payload ▸ fits)
  exact ⟨1, later, address ▸ again⟩

theorem heap_reclaimed (machine : Machine) (run : Run (Started base size) HeapStep StepReclaims machine)
    (empty : machine.live = []) : Reclaimed base size machine.heap := by
  have kept := run_invariant (fun machine => Reclaiming machine ∧ machine.heap.heapBase = base ∧ machine.heap.heapSize = size)
    (fun state boot => ?_) (fun state next op inv admitted taken => ?_) machine run
  · exact reclaiming_whole base size notNull enough inside positive machine kept.1 kept.2 empty
  · obtain ⟨sound, extent, _⟩ := started_sound base size notNull enough inside positive state boot
    refine ⟨started_reclaiming base size notNull enough inside positive state boot, ?_, extent⟩
    obtain ⟨mem, rfl⟩ := boot
    exact (mem_init_bounds (Heap.boot mem) base size notNull enough inside positive).1
  · have region := step_region state next op taken
    exact ⟨reclaiming_step state next op inv.1 admitted taken, region.1.trans inv.2.1, region.2.trans inv.2.2⟩
end

theorem heap_block_above (heap : HeapState) (block : Nat) (walked : HeapBlock heap block) : heap.heapBase ≤ block := by
  induction walked with
  | first inside => exact Nat.le_refl _
  | next block _ _ ih => exact Nat.le_trans ih (Nat.le_add_right _ _)

theorem once_taken : ∃ taken, Run (Started 4096 1024) HeapStep StepReclaims taken ∧
    taken.live = [⟨4116, 100⟩] ∧ taken.heap.heapBase = 4096 ∧ taken.heap.heapEnd = 5120 ∧ taken.heap.heapFreeHead = 4096 ∧
      taken.heap.get 4096 .size = 100 ∧ taken.heap.get 4096 .next = 4216 ∧ taken.heap.get 4216 .next = 0 ∧
        (coalesceNext (markFree taken.heap 4096) 4096).get 4096 .prev = 0 := by
  have evaluated : (stepOp 2 (zeroHeap 4096 1024) (.kmalloc 100)).any (fun taken =>
      taken.live = [⟨4116, 100⟩] ∧ taken.heap.heapBase = 4096 ∧ taken.heap.heapEnd = 5120 ∧ taken.heap.heapFreeHead = 4096 ∧
        taken.heap.get 4096 .size = 100 ∧ taken.heap.get 4096 .next = 4216 ∧ taken.heap.get 4216 .next = 0 ∧
          (coalesceNext (markFree taken.heap 4096) 4096).get 4096 .prev = 0) = true := by decide +kernel
  obtain ⟨taken, done, reached⟩ := (Option.any_eq_true _ _).mp evaluated
  have sound : KmallocSound (zeroHeap 4096 1024).heap 100 := kmalloc_test _ 100 (by decide +kernel)
  have admitted : StepReclaims (zeroHeap 4096 1024) (.kmalloc 100) := ⟨sound, fun _ same => nomatch same⟩
  exact ⟨taken, .step _ taken _ (.start _ (zero_heap_started 4096 1024)) admitted (step_op_step 2 _ _ _ done),
    of_decide_eq_true reached⟩

theorem heap_reclaimed_once : ∃ machine : Machine, machine.live = [] ∧ Reclaimed 4096 1024 machine.heap := by
  obtain ⟨taken, run, live, base, ended, head, size, next, last, prev⟩ := once_taken
  have width : cell taken.heap 4096 = 120 := by rw [cell, size]; rfl
  have first : HeapBlock taken.heap 4096 := base ▸ HeapBlock.first (by rw [base, ended]; decide)
  have second : HeapBlock taken.heap 4216 := by
    have walked := HeapBlock.next 4096 first (by rw [width, ended]; decide)
    rwa [width] at walked
  have lowest (block : Nat) (walked : HeapBlock taken.heap block) (behind : block + cell taken.heap block = 4096) : False := by
    have above := heap_block_above taken.heap block walked
    have further := cell_positive taken.heap block
    omega
  have sound : KfreeSound taken.heap 4116 := by
    refine ⟨fun _ => ⟨?_, ?_, ?_⟩, fun merges => ?_, fun _ => ?_⟩
    · show taken.heap.get 4096 .next = 4096 + cell taken.heap 4096
      rw [next, width]
    · show HeapBlock taken.heap (taken.heap.get 4096 .next)
      rw [next]
      exact second
    · show LinkSound taken.heap (taken.heap.get (taken.heap.get 4096 .next) .next)
      rw [next]
      exact Or.inl last
    · exact absurd prev merges.1
    · rw [head]
      exact Or.inr first
  have linked : NeighboursLinked taken.heap 4096 := by
    refine ⟨fun block _ behind _ => ⟨?_, fun front walked same _ => (lowest front walked same).elim⟩,
      fun block walked same _ => (lowest block walked same).elim⟩
    rw [next, ← behind, width]
  have admitted : StepReclaims taken (.kfree 4116) := ⟨sound, fun eax same => by cases same; exact linked⟩
  have freed := HeapStep.kfree taken ⟨4116, 100⟩ (live ▸ List.mem_singleton_self _)
  refine ⟨_, ?_, heap_reclaimed 4096 1024 (by decide) (by decide) (by decide) (by decide) _ (.step _ _ _ run admitted freed) ?_⟩
  · rw [live]
    rfl
  · rw [live]
    rfl

-- After the second round the block has been merged with itself.
theorem heap_not_reclaimed : ¬ ∀ base size, base ≠ 0 → 1024 ≤ size → base + size < 2 ^ 32 → size < 2 ^ 31 →
    ∀ machine, Run (Started base size) HeapStep (fun _ _ => True) machine → machine.live = [] →
      Reclaimed base size machine.heap := by
  intro claimed
  have evaluated : (runOps 3 (fun _ _ => true) (zeroHeap 4096 1024)
      [.kmalloc 4, .kfree 4116, .kmalloc 4, .kfree 4116]).any (fun machine =>
        machine.live = [] ∧ machine.heap.get 4096 .size = 2028) = true := by decide +kernel
  obtain ⟨machine, done, reached⟩ := (Option.any_eq_true _ _).mp evaluated
  obtain ⟨empty, grown⟩ := of_decide_eq_true reached
  have run := run_ops_run 4096 1024 3 _ _ machine _ (.start _ (zero_heap_started _ _)) done
  have reclaimed := claimed 4096 1024 (by decide) (by decide) (by decide) (by decide) machine
    (run_weaken _ (fun _ _ _ => trivial) machine run) empty
  rw [reclaimed.payload] at grown
  exact absurd grown (by decide)

end RoDos.Heap
