import RoDos.Base.Tiles
import RoDos.Heap.Headers

set_option autoImplicit false

namespace RoDos.Heap

open Base

def cell (heap : HeapState) (block : Nat) : Nat := mcbHeaderSize + heap.get block .size

theorem cell_positive (heap : HeapState) (block : Nat) : 0 < cell heap block :=
  Nat.lt_of_lt_of_le (by decide) (Nat.le_add_right mcbHeaderSize _)

-- The blocks met when walking from heap_base over headers and stored sizes.
inductive HeapBlock (heap : HeapState) : Nat → Prop where
  | first (inside : heap.heapBase < heap.heapEnd) : HeapBlock heap heap.heapBase
  | next (block : Nat) (earlier : HeapBlock heap block) (inside : block + cell heap block < heap.heapEnd) :
      HeapBlock heap (block + cell heap block)

structure Tiled (heap : HeapState) (blocks : List Nat) : Prop where
  tiles : Tiles (cell heap) heap.heapBase blocks heap.heapEnd
  positive : 0 < heap.heapBase
  bounded : heap.heapEnd < 2 ^ 32
  extent : heap.heapEnd = heap.heapBase + heap.heapSize
  magic : ∀ block ∈ blocks, heap.get block .magic = mcbMagic
  flags : ∀ block ∈ blocks, heap.get block .flags = mcbFlagFree ∨ heap.get block .flags = mcbFlagUsed

theorem tiled_bound (heap : HeapState) (blocks : List Nat) (tiled : Tiled heap blocks) (block : Nat)
    (member : block ∈ blocks) : heap.heapBase ≤ block ∧ block + cell heap block ≤ heap.heapEnd :=
  (tiles_bounds _ _ _ tiled.tiles).2 block member

theorem tiled_block_positive (heap : HeapState) (blocks : List Nat) (tiled : Tiled heap blocks) (block : Nat)
    (member : block ∈ blocks) : block ≠ 0 := by
  have bound := tiled_bound heap blocks tiled block member
  have := tiled.positive
  omega

theorem tiled_separate (heap : HeapState) (blocks : List Nat) (tiled : Tiled heap blocks) : Separate blocks := by
  refine ⟨fun a member => ?_, fun a left b right => ?_⟩
  · have bound := tiled_bound heap blocks tiled a member
    have := tiled.bounded
    unfold cell at bound
    omega
  · by_cases same : a = b
    · exact Or.inl same
    · have apart := tiles_apart _ _ _ tiled.tiles a b left right same
      unfold cell at apart
      unfold Apart
      omega

theorem heap_block_member (heap : HeapState) (blocks : List Nat) (tiled : Tiled heap blocks) (block : Nat)
    (walked : HeapBlock heap block) : block ∈ blocks := by
  induction walked with
  | first inside =>
      have tiles := tiled.tiles
      cases blocks with
      | nil => exact absurd tiles (Nat.ne_of_lt inside)
      | cons head rest => simp [tiles.1]
  | next block _ inside ih =>
      obtain ⟨front, back, same, _, after⟩ := tiles_cut _ _ _ tiled.tiles block ih
      cases back with
      | nil => exact absurd after (Nat.ne_of_lt inside)
      | cons head rest => simp [same, after.1]

theorem tiles_walk (heap : HeapState) (start : Nat) (blocks : List Nat)
    (tiles : Tiles (cell heap) start blocks heap.heapEnd)
    (walked : start < heap.heapEnd → HeapBlock heap start) (block : Nat) (member : block ∈ blocks) :
    HeapBlock heap block := by
  induction blocks generalizing start with
  | nil => simp at member
  | cons head rest ih =>
      obtain ⟨rfl, further⟩ := tiles
      have bound := (tiles_bounds _ _ _ further).1
      have size := cell_positive heap head
      have reached := walked (by omega)
      rcases List.mem_cons.mp member with rfl | later
      · exact reached
      · exact ih (head + cell heap head) further (fun inside => .next head reached inside) later

theorem heap_block_iff (heap : HeapState) (blocks : List Nat) (tiled : Tiled heap blocks) (block : Nat) :
    HeapBlock heap block ↔ block ∈ blocks :=
  ⟨heap_block_member heap blocks tiled block, tiles_walk heap _ blocks tiled.tiles .first block⟩

def usedBlocks (heap : HeapState) (blocks : List Nat) : List Nat :=
  blocks.filter fun block => heap.get block .flags ≠ mcbFlagFree

theorem used_blocks_congr (heap next : HeapState) (blocks : List Nat)
    (same : ∀ block ∈ blocks, next.get block .flags = heap.get block .flags) :
    usedBlocks next blocks = usedBlocks heap blocks :=
  List.filter_congr fun block member => by rw [same block member]

theorem used_blocks_cons_free (heap : HeapState) (block : Nat) (rest : List Nat)
    (free : heap.get block .flags = mcbFlagFree) : usedBlocks heap (block :: rest) = usedBlocks heap rest := by
  simp [usedBlocks, free]

theorem used_blocks_cons_used (heap : HeapState) (block : Nat) (rest : List Nat)
    (used : heap.get block .flags ≠ mcbFlagFree) :
    usedBlocks heap (block :: rest) = block :: usedBlocks heap rest := by
  simp [usedBlocks, used]

theorem used_blocks_append (heap : HeapState) (front back : List Nat) :
    usedBlocks heap (front ++ back) = usedBlocks heap front ++ usedBlocks heap back := by
  simp [usedBlocks]

theorem mem_used_blocks (heap : HeapState) (blocks : List Nat) (block : Nat) :
    block ∈ usedBlocks heap blocks ↔ block ∈ blocks ∧ heap.get block .flags ≠ mcbFlagFree := by
  simp [usedBlocks]

theorem tiled_cut (heap : HeapState) (blocks : List Nat) (tiled : Tiled heap blocks) (esi : Nat) (esiIn : esi ∈ blocks) :
    ∃ left right, blocks = left ++ esi :: right ∧
      ∀ block, block ∈ left ∨ block ∈ right → block ∈ blocks ∧ block ≠ esi := by
  obtain ⟨left, right, cut, _, _⟩ := tiles_cut _ _ _ tiled.tiles esi esiIn
  have distinct := tiles_nodup (cell_positive heap) _ _ _ tiled.tiles
  rw [cut] at distinct
  have once : esi ∉ left ∧ esi ∉ right := by
    simp only [List.nodup_append, List.nodup_cons, List.mem_cons] at distinct
    exact ⟨fun member => distinct.2.2 esi member esi (by simp) rfl, distinct.2.1.1⟩
  refine ⟨left, right, cut, fun block member => ⟨?_, ?_⟩⟩
  · rw [cut]
    cases member with
    | inl inside => simp [inside]
    | inr inside => simp [inside]
  · rintro rfl
    exact member.elim once.1 once.2

theorem used_blocks_differ (heap free used : HeapState) (blocks : List Nat) (tiled : Tiled heap blocks) (esi : Nat)
    (esiIn : esi ∈ blocks) (esiFree : free.get esi .flags = mcbFlagFree) (esiUsed : used.get esi .flags ≠ mcbFlagFree)
    (others : ∀ block ∈ blocks, block ≠ esi → used.get block .flags = free.get block .flags) :
    (usedBlocks used blocks).Perm (esi :: usedBlocks free blocks) := by
  obtain ⟨left, right, cut, side⟩ := tiled_cut heap blocks tiled esi esiIn
  have flags (block : Nat) (member : block ∈ left ∨ block ∈ right) :
      used.get block .flags = free.get block .flags := others block (side block member).1 (side block member).2
  rw [cut, used_blocks_append, used_blocks_append, used_blocks_cons_used used _ _ esiUsed,
    used_blocks_cons_free free _ _ esiFree,
    used_blocks_congr free used left (fun block member => flags block (Or.inl member)),
    used_blocks_congr free used right (fun block member => flags block (Or.inr member))]
  exact List.perm_middle

structure Evolves (heap : HeapState) (blocks : List Nat) (next : HeapState) (after : List Nat) : Prop where
  tiled : Tiled next after
  used : (usedBlocks next after).Perm (usedBlocks heap blocks)
  sizes : ∀ block ∈ usedBlocks heap blocks, next.get block .size = heap.get block .size

theorem link_writes_evolve (heap next : HeapState) (blocks : List Nat) (tiled : Tiled heap blocks)
    (bounds : next.heapBase = heap.heapBase ∧ next.heapSize = heap.heapSize ∧ next.heapEnd = heap.heapEnd)
    (same : ∀ block ∈ blocks, ∀ field, field ≠ .prev → field ≠ .next → next.get block field = heap.get block field) :
    Evolves heap blocks next blocks := by
  have sizes (block : Nat) (member : block ∈ blocks) : next.get block .size = heap.get block .size :=
    same block member .size (by decide) (by decide)
  have flags (block : Nat) (member : block ∈ blocks) : next.get block .flags = heap.get block .flags :=
    same block member .flags (by decide) (by decide)
  refine ⟨⟨?_, ?_, ?_, ?_, ?_, ?_⟩, ?_, ?_⟩
  · rw [bounds.1, bounds.2.2]
    exact tiles_congr _ _ _ _ (fun block member => by rw [cell, sizes block member, cell]) tiled.tiles
  · rw [bounds.1]; exact tiled.positive
  · rw [bounds.2.2]; exact tiled.bounded
  · rw [bounds.1, bounds.2.1, bounds.2.2]; exact tiled.extent
  · intro block member
    rw [same block member .magic (by decide) (by decide)]
    exact tiled.magic block member
  · intro block member
    rw [flags block member]
    exact tiled.flags block member
  · rw [used_blocks_congr heap next blocks flags]
  · exact fun block member => sizes block ((mem_used_blocks _ _ _).mp member).1

section
variable (heap : HeapState) (headers blocks : List Nat) (separate : Separate headers)
  (listed : ∀ block ∈ blocks, block ∈ headers) (tiled : Tiled heap blocks)
include separate listed tiled

theorem add_to_free_list_evolves (esi : Nat) (esiIn : esi ∈ blocks)
    (headIn : heap.heapFreeHead = 0 ∨ heap.heapFreeHead ∈ headers) (headWord : heap.heapFreeHead < 2 ^ 32) :
    Evolves heap blocks (addToFreeList heap esi) blocks := by
  have frame := add_to_free_list_frame heap esi
  refine link_writes_evolve heap _ blocks tiled ⟨frame.1, frame.2.1, frame.2.2.1⟩ ?_
  intro block member field notPrev notNext
  rw [add_to_free_list_get heap headers separate esi block field (listed esi esiIn) (listed block member) headIn headWord]
  simp [notPrev, notNext]

omit separate listed in
theorem absorb_size (front back : Nat) (backIn : back ∈ blocks)
    (behind : front + cell heap front = back) :
    mergedSize heap front back = heap.get front .size + mcbHeaderSize + heap.get back .size := by
  have backBound := tiled_bound heap blocks tiled back backIn
  have bounded := tiled.bounded
  rw [cell] at behind backBound
  have joined : add32 (heap.get front .size) mcbHeaderSize = heap.get front .size + mcbHeaderSize :=
    add32_of_lt _ _ (by omega)
  rw [mergedSize, joined, add32_of_lt _ _ (by omega)]

theorem absorb_read (front back : Nat) (frontIn : front ∈ blocks) (backIn : back ∈ blocks)
    (behind : front + cell heap front = back) (linked : heap.get back .next = 0 ∨ heap.get back .next ∈ headers)
    (block : Nat) (member : block ∈ blocks) (field : Field) (notPrev : field ≠ .prev) (notNext : field ≠ .next) :
    (absorb heap front back).get block field =
      if block = front ∧ field = .size then heap.get front .size + mcbHeaderSize + heap.get back .size
      else heap.get block field := by
  rw [absorb_get heap headers separate front back block field (listed front frontIn) (listed back backIn)
    (listed block member) linked, absorb_size heap blocks tiled front back backIn behind]
  simp [notPrev, notNext]

omit separate listed in
theorem absorb_cut (front back : Nat) (frontIn : front ∈ blocks) (backIn : back ∈ blocks)
    (behind : front + cell heap front = back) :
    ∃ left right, blocks = left ++ front :: back :: right ∧ front ∉ left ∧ front ∉ right ∧
      ∀ block, block ∈ left ++ front :: right ↔ block ∈ blocks ∧ block ≠ back := by
  obtain ⟨left, right, cut, _, _⟩ :=
    tiles_neighbour (cell_positive heap) _ _ _ tiled.tiles front frontIn (by rw [behind]; exact backIn)
  rw [behind] at cut
  have distinct := tiles_nodup (cell_positive heap) _ _ _ tiled.tiles
  rw [cut] at distinct
  obtain ⟨_, tail, apart⟩ := List.nodup_append.mp distinct
  obtain ⟨frontOut, rest⟩ := List.nodup_cons.mp tail
  have backOut := (List.nodup_cons.mp rest).1
  refine ⟨left, right, cut, fun member => apart front member front (by simp) rfl,
    fun member => frontOut (List.mem_cons_of_mem _ member), fun block => ?_⟩
  rw [cut]
  simp only [List.mem_append, List.mem_cons]
  constructor
  · rintro (member | rfl | member)
    · exact ⟨Or.inl member, fun same => apart block member back (by simp) same⟩
    · exact ⟨by simp, fun same => frontOut (by simp [same])⟩
    · exact ⟨by simp [member], fun same => backOut (same ▸ member)⟩
  · rintro ⟨member | rfl | rfl | member, different⟩
    · exact Or.inl member
    · simp
    · exact absurd rfl different
    · simp [member]

theorem absorb_tiles (front back : Nat) (left right : List Nat) (cut : blocks = left ++ front :: back :: right)
    (frontLeft : front ∉ left) (frontRight : front ∉ right) (behind : front + cell heap front = back)
    (linked : heap.get back .next = 0 ∨ heap.get back .next ∈ headers) :
    Tiles (cell (absorb heap front back)) heap.heapBase (left ++ front :: right) heap.heapEnd := by
  have frontIn : front ∈ blocks := by simp [cut]
  have backIn : back ∈ blocks := by simp [cut]
  have read := absorb_read heap headers blocks separate listed tiled front back frontIn backIn behind linked
  have tiles := tiled.tiles
  rw [cut] at tiles
  refine tiles_join _ _ _ front back left right tiles ?_ ?_
  · intro block side
    have member : block ∈ blocks := by
      rw [cut]
      rcases side with member | member <;> simp [member]
    have notFront : block ≠ front := by
      rintro rfl
      exact side.elim frontLeft frontRight
    rw [cell, read block member .size (by decide) (by decide)]
    simp [notFront, cell]
  · rw [cell, read front frontIn .size (by decide) (by decide)]
    simp only [and_self, if_true, cell]
    omega

theorem absorb_evolves (front : Nat) (frontIn : front ∈ blocks) (backIn : front + cell heap front ∈ blocks)
    (frontFree : heap.get front .flags = mcbFlagFree)
    (backFree : heap.get (front + cell heap front) .flags = mcbFlagFree)
    (linked : heap.get (front + cell heap front) .next = 0 ∨ heap.get (front + cell heap front) .next ∈ headers) :
    ∃ after, Evolves heap blocks (absorb heap front (front + cell heap front)) after ∧
      (∀ block, block ∈ after ↔ block ∈ blocks ∧ block ≠ front + cell heap front) ∧
      ∀ block ∈ after, block ≠ front →
        (absorb heap front (front + cell heap front)).get block .size = heap.get block .size := by
  generalize behind : front + cell heap front = back at backIn backFree linked ⊢
  obtain ⟨left, right, cut, frontLeft, frontRight, members⟩ := absorb_cut heap blocks tiled front back frontIn backIn behind
  have frame := absorb_frame heap front back
  have read := absorb_read heap headers blocks separate listed tiled front back frontIn backIn behind linked
  have flags (block : Nat) (member : block ∈ blocks) :
      (absorb heap front back).get block .flags = heap.get block .flags := by
    rw [read block member .flags (by decide) (by decide)]
    simp
  refine ⟨left ++ front :: right, ⟨⟨?_, ?_, ?_, ?_, ?_, ?_⟩, ?_, ?_⟩, members, ?_⟩
  · rw [frame.1, frame.2.2.1]
    exact absorb_tiles heap headers blocks separate listed tiled front back left right cut frontLeft frontRight behind linked
  · rw [frame.1]; exact tiled.positive
  · rw [frame.2.2.1]; exact tiled.bounded
  · rw [frame.1, frame.2.1, frame.2.2.1]; exact tiled.extent
  · intro block member
    have old := ((members block).mp member).1
    rw [read block old .magic (by decide) (by decide)]
    simpa using tiled.magic block old
  · intro block member
    have old := ((members block).mp member).1
    rw [flags block old]
    exact tiled.flags block old
  · rw [used_blocks_congr heap _ _ fun block member => flags block ((members block).mp member).1, cut]
    simp only [used_blocks_append, used_blocks_cons_free heap front _ frontFree,
      used_blocks_cons_free heap back _ backFree]
    exact List.Perm.refl _
  · intro block member
    have old := (mem_used_blocks heap blocks block).mp member
    have notFront : block ≠ front := fun same => old.2 (same ▸ frontFree)
    rw [read block old.1 .size (by decide) (by decide)]
    simp [notFront]
  · intro block member notFront
    rw [read block ((members block).mp member).1 .size (by decide) (by decide)]
    simp [notFront]
end

end RoDos.Heap
