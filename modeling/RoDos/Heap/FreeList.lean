import RoDos.Base.Links
import RoDos.Heap.Payloads

set_option autoImplicit false

namespace RoDos.Heap

open Base

structure FreeList (heap : HeapState) (nodes : List Nat) : Prop where
  chain : ∃ last, Chain (fun block => heap.get block .next) (fun block => heap.get block .prev)
    0 heap.heapFreeHead nodes last 0
  distinct : nodes.Nodup
  blocks : ∀ node ∈ nodes, HeapBlock heap node
  free : ∀ block, HeapBlock heap block → heap.get block .flags = mcbFlagFree → block ∈ nodes

-- The search ends for every requested size, and only a lack of room makes kmalloc return NULL.
def SearchAnswers (heap : HeapState) : Prop :=
  ∀ eax, eax ≠ 0 → ∃ fuel next pointer, kmalloc fuel heap eax = some (next, pointer) ∧
    (pointer = 0 → ∀ block, HeapBlock heap block → heap.get block .flags = mcbFlagFree →
      heap.get block .size < alignSize eax)

inductive OnFreeList (heap : HeapState) : Nat → Prop where
  | head (linked : heap.heapFreeHead ≠ 0) : OnFreeList heap heap.heapFreeHead
  | next (node : Nat) (earlier : OnFreeList heap node) (linked : heap.get node .next ≠ 0) :
      OnFreeList heap (heap.get node .next)

theorem on_free_list_member (heap : HeapState) (nodes : List Nat) (listed : FreeList heap nodes) (node : Nat)
    (reached : OnFreeList heap node) : node ∈ nodes := by
  obtain ⟨last, chain⟩ := listed.chain
  induction reached with
  | head linked => exact (chain_start_member _ _ _ _ chain).resolve_left linked
  | next node _ linked ih => exact (chain_next_member _ _ _ _ _ chain ih).resolve_left linked

theorem chain_reached (heap : HeapState) (before start last : Nat) (nodes : List Nat)
    (chain : Chain (fun block => heap.get block .next) (fun block => heap.get block .prev) before start nodes last 0)
    (reached : start ≠ 0 → OnFreeList heap start) (node : Nat) (member : node ∈ nodes) : OnFreeList heap node := by
  induction nodes generalizing before start with
  | nil => simp at member
  | cons first rest ih =>
      obtain ⟨rfl, notNull, _, further⟩ := chain
      rcases List.mem_cons.mp member with rfl | later
      · exact reached notNull
      · exact ih _ _ further (fun linked => .next first (reached notNull) linked) later

theorem on_free_list_iff (heap : HeapState) (nodes : List Nat) (listed : FreeList heap nodes) (node : Nat) :
    OnFreeList heap node ↔ node ∈ nodes := by
  obtain ⟨last, chain⟩ := listed.chain
  exact ⟨on_free_list_member heap nodes listed node, chain_reached heap _ _ _ nodes chain .head node⟩

theorem search_chain (heap : HeapState) (need fuel before start last : Nat) (nodes : List Nat)
    (chain : Chain (fun block => heap.get block .next) (fun block => heap.get block .prev) before start nodes last 0)
    (magic : ∀ node ∈ nodes, heap.get node .magic = mcbMagic) (enough : nodes.length < fuel) :
    (∃ esi ∈ nodes, searchLoop heap need fuel start = some (.block esi)) ∨
      (searchLoop heap need fuel start = some .failed ∧
        ∀ node ∈ nodes, heap.get node .flags = mcbFlagFree → heap.get node .size < need) := by
  induction nodes generalizing fuel before start with
  | nil =>
      obtain ⟨fuel, rfl⟩ := Nat.exists_eq_succ_of_ne_zero (Nat.ne_of_gt enough)
      right
      exact ⟨by rw [searchLoop, if_pos chain.2.symm], by simp⟩
  | cons node rest ih =>
      obtain ⟨rfl, notNull, _, further⟩ := chain
      obtain ⟨fuel, rfl⟩ := Nat.exists_eq_succ_of_ne_zero (Nat.ne_of_gt (Nat.zero_lt_of_lt enough))
      have valid : ¬ heap.get node .magic ≠ mcbMagic := not_not.mpr (magic node (by simp))
      rw [searchLoop, if_neg notNull, if_neg valid]
      by_cases fits : heap.get node .flags = mcbFlagFree ∧ need ≤ heap.get node .size
      · rw [if_pos fits]
        exact Or.inl ⟨node, by simp, rfl⟩
      · rw [if_neg fits]
        have shorter : rest.length < fuel := Nat.lt_of_succ_lt_succ enough
        rcases ih fuel _ _ further (fun other member => magic other (by simp [member])) shorter with
          ⟨esi, member, found⟩ | ⟨failed, small⟩
        · exact Or.inl ⟨esi, by simp [member], found⟩
        · refine Or.inr ⟨failed, fun other member free => ?_⟩
          rcases List.mem_cons.mp member with rfl | later
          · exact Nat.lt_of_not_le fun large => fits ⟨free, large⟩
          · exact small other later free

section
variable (heap : HeapState) (blocks nodes : List Nat) (tiled : Tiled heap blocks) (listed : FreeList heap nodes)
include tiled listed

theorem free_list_blocks : ∀ node ∈ nodes, node ∈ blocks := fun node member =>
  (heap_block_iff heap blocks tiled node).mp (listed.blocks node member)

theorem free_list_next (node : Nat) (member : node ∈ nodes) :
    heap.get node .next = 0 ∨ heap.get node .next ∈ blocks := by
  obtain ⟨last, chain⟩ := listed.chain
  exact (chain_next_member _ _ _ _ _ chain member).imp_right (free_list_blocks heap blocks nodes tiled listed _)

theorem free_list_prev (node : Nat) (member : node ∈ nodes) :
    heap.get node .prev = 0 ∨ heap.get node .prev ∈ blocks := by
  obtain ⟨last, chain⟩ := listed.chain
  exact (chain_prev_member _ _ _ _ _ _ chain member).imp_right (free_list_blocks heap blocks nodes tiled listed _)

theorem free_list_head : heap.heapFreeHead = 0 ∨ heap.heapFreeHead ∈ blocks := by
  obtain ⟨last, chain⟩ := listed.chain
  exact (chain_start_member _ _ _ _ chain).imp_right (free_list_blocks heap blocks nodes tiled listed _)

theorem free_list_search (need fuel : Nat) (enough : nodes.length < fuel) :
    (∃ esi ∈ nodes, searchLoop heap need fuel heap.heapFreeHead = some (.block esi)) ∨
      (searchLoop heap need fuel heap.heapFreeHead = some .failed ∧
        ∀ node ∈ nodes, heap.get node .flags = mcbFlagFree → heap.get node .size < need) := by
  obtain ⟨last, chain⟩ := listed.chain
  exact search_chain heap need fuel 0 heap.heapFreeHead last nodes chain
    (fun node member => tiled.magic node (free_list_blocks heap blocks nodes tiled listed node member)) enough

theorem search_listed (need fuel esi : Nat)
    (found : searchLoop heap need fuel heap.heapFreeHead = some (.block esi)) : esi ∈ nodes := by
  rcases free_list_search heap blocks nodes tiled listed need (nodes.length + 1) (Nat.lt_succ_self _) with
    ⟨other, member, first⟩ | ⟨failed, _⟩
  · have same := search_unique heap _ _ _ _ _ _ found first
    cases same
    exact member
  · have same := search_unique heap _ _ _ _ _ _ found failed
    cases same

theorem free_list_answers : SearchAnswers heap := by
  intro eax notZero
  rcases free_list_search heap blocks nodes tiled listed (alignSize eax) (nodes.length + 1) (Nat.lt_succ_self _) with
    ⟨esi, member, found⟩ | ⟨failed, small⟩
  · have inside := (tiled_separate heap blocks tiled).inside esi
      (free_list_blocks heap blocks nodes tiled listed esi member)
    refine ⟨nodes.length + 1, updateStatistics (allocateBlock heap esi (alignSize eax)) (alignSize eax),
      add32 esi mcbHeaderSize, ?_, fun null => ?_⟩
    · simp only [kmalloc, if_neg notZero, found]
    · rw [add32_of_lt _ _ inside] at null
      exact absurd null (by simp [mcbHeaderSize])
  · refine ⟨nodes.length + 1, heap, 0, ?_, fun _ block walked free => small block (listed.free block walked free) free⟩
    simp only [kmalloc, if_neg notZero, failed]
end

def KmallocFits (heap : HeapState) (eax : Nat) : Prop :=
  ∀ fuel esi, eax ≠ 0 → searchLoop heap (alignSize eax) fuel heap.heapFreeHead = some (.block esi) →
    alignSize eax + mcbHeaderSize ≤ heap.get esi .size

-- A merge forward is followed by a merge backward. A merge backward is with the free block
-- physically in front, whose next link is the freed block or the one it shares. A block
-- pushed on the list is not on it yet.
structure KfreeLinked (heap : HeapState) (eax : Nat) : Prop where
  forward : let esi := eax - mcbHeaderSize
    Mergeable (markFree heap esi) (heap.get esi .next) →
      HeapBlock heap (heap.get esi .next) ∧ heap.get esi .next = esi + cell heap esi ∧
        Mergeable (markFree heap esi) (heap.get esi .prev)
  backward : let esi := eax - mcbHeaderSize
    Mergeable (markFree heap esi) (heap.get esi .prev) →
      HeapBlock heap (heap.get esi .prev) ∧ heap.get esi .prev + cell heap (heap.get esi .prev) = esi ∧
        (heap.get (heap.get esi .prev) .next = esi ∨ heap.get (heap.get esi .prev) .next = heap.get esi .next)
  pushed : let esi := eax - mcbHeaderSize
    ¬ Mergeable (markFree heap esi) (heap.get esi .prev) → ¬ OnFreeList heap esi

def StepLinked (machine : Machine) : HeapOp → Prop
  | .kmalloc eax => KmallocFits machine.heap eax
  | .kfree eax => KfreeLinked machine.heap eax
  | .write _ _ => True

section
variable (heap : HeapState) (blocks nodes : List Nat) (tiled : Tiled heap blocks) (listed : FreeList heap nodes)
include tiled listed

theorem kmalloc_fits_sound (eax : Nat) (fits : KmallocFits heap eax) : KmallocSound heap eax := by
  intro fuel esi notZero found
  have onWalk := heap_block_iff heap blocks tiled
  have member := search_listed heap blocks nodes tiled listed _ fuel esi found
  have next := free_list_next heap blocks nodes tiled listed esi member
  have prev := free_list_prev heap blocks nodes tiled listed esi member
  exact ⟨listed.blocks esi member, fits fuel esi notZero found, next.imp_right (onWalk _).mpr,
    fun _ => prev.imp_right (onWalk _).mpr⟩

theorem update_statistics_listed (need : Nat) : FreeList (updateStatistics heap need) nodes := by
  have onWalk := heap_block_iff heap blocks tiled
  have counted := heap_block_iff _ blocks (update_statistics_evolves heap blocks need tiled).tiled
  refine ⟨listed.chain, listed.distinct, fun node member => ?_, fun block walked free => ?_⟩
  · exact (counted node).mpr ((onWalk node).mp (listed.blocks node member))
  · exact listed.free block ((onWalk block).mpr ((counted block).mp walked)) free

theorem use_whole_block_listed (esi need : Nat) (member : esi ∈ nodes) (free : heap.get esi .flags = mcbFlagFree)
    (room : need ≤ heap.get esi .size) : ∃ remaining, FreeList (useWholeBlock heap esi) remaining := by
  have onWalk := heap_block_iff heap blocks tiled
  have nodesIn := free_list_blocks heap blocks nodes tiled listed
  have prevIn := free_list_prev heap blocks nodes tiled listed esi member
  have nextIn := free_list_next heap blocks nodes tiled listed esi member
  have takes := use_whole_block_takes heap blocks tiled esi (nodesIn esi member) free need room prevIn nextIn
  have after := heap_block_iff _ blocks takes.tiled
  have read (block : Nat) (field : Field) (blockIn : block ∈ blocks) :=
    use_whole_block_get heap blocks (tiled_separate heap blocks tiled) esi block field (nodesIn esi member) blockIn
      prevIn nextIn
  have frame := use_whole_block_frame heap esi
  obtain ⟨last, chain⟩ := listed.chain
  have distinct := listed.distinct
  obtain ⟨front, back, cut, left, right⟩ := chain_cut _ _ _ _ esi nodes chain member
  have kept (node : Nat) (inside : node ∈ front ++ back) : node ∈ nodes ∧ node ≠ esi := by
    rw [cut, List.nodup_append, List.nodup_cons] at distinct
    rw [cut]
    rcases List.mem_append.mp inside with before | behind
    · exact ⟨by simp [before], fun same => distinct.2.2 node before esi (by simp) same⟩
    · exact ⟨by simp [behind], fun same => distinct.2.1.1 (same ▸ behind)⟩
  have once : (front ++ back).Nodup := by
    rw [cut] at distinct
    exact distinct.sublist (List.Sublist.append_left (List.sublist_cons_self esi back) front)
  have bridged := chain_bridge (fun block => (useWholeBlock heap esi).get block .next)
    (fun block => (useWholeBlock heap esi).get block .prev) heap.heapFreeHead _ esi esi _ last front back left right
    once
    (fun node inside => by
      have notNull := tiled_block_positive heap blocks tiled node (nodesIn node (kept node inside).1)
      rw [read node .next (nodesIn node (kept node inside).1)]
      by_cases inner : node = heap.get esi .prev
      · have linked : heap.get esi .prev ≠ 0 := inner ▸ notNull
        simp [inner, linked]
      · simp [inner])
    (fun node inside => by
      have notNull := tiled_block_positive heap blocks tiled node (nodesIn node (kept node inside).1)
      rw [read node .prev (nodesIn node (kept node inside).1)]
      by_cases target : node = heap.get esi .next
      · have linked : heap.get esi .next ≠ 0 := target ▸ notNull
        simp [target, linked]
      · simp [target])
  refine ⟨front ++ back, ?_, once, fun node inside => ?_, fun block walked unused => ?_⟩
  · rw [frame.2.2.2]
    exact bridged
  · exact (after node).mpr (nodesIn node (kept node inside).1)
  · have blockIn := (after block).mp walked
    rw [read block .flags blockIn] at unused
    by_cases same : block = esi
    · simp [same, mcbFlagUsed, mcbFlagFree] at unused
    · have old : heap.get block .flags = mcbFlagFree := by simpa [same] using unused
      have stood := listed.free block ((onWalk block).mpr blockIn) old
      rw [cut] at stood
      simpa [same] using stood

theorem split_block_listed (esi need : Nat) (member : esi ∈ nodes) (free : heap.get esi .flags = mcbFlagFree)
    (room : need + mcbHeaderSize ≤ heap.get esi .size) : ∃ longer, FreeList (splitBlock heap esi need) longer := by
  have onWalk := heap_block_iff heap blocks tiled
  have nodesIn := free_list_blocks heap blocks nodes tiled listed
  have esiIn := nodesIn esi member
  have nextIn := free_list_next heap blocks nodes tiled listed esi member
  obtain ⟨after, takes, members⟩ := split_block_takes heap blocks tiled esi esiIn free need room nextIn
  have onAfter := heap_block_iff _ after takes.tiled
  have ediNew := split_new heap blocks tiled esi esiIn need room
  generalize start : esi + mcbHeaderSize + need = edi at members ediNew
  have links := split_links heap blocks tiled esi esiIn need room nextIn edi start
  have read := split_block_read heap blocks tiled esi esiIn need room nextIn edi start
  have ediNotNull : edi ≠ 0 := by
    have := tiled_block_positive heap blocks tiled esi esiIn
    omega
  have ediNotNext : edi ≠ heap.get esi .next := by
    rintro same
    cases nextIn with
    | inl null => exact ediNotNull (same.trans null)
    | inr inside => exact ediNew (same ▸ inside)
  have ediNotEsi : edi ≠ esi := fun same => ediNew (same ▸ esiIn)
  obtain ⟨last, chain⟩ := listed.chain
  have distinct := listed.distinct
  obtain ⟨front, back, cut, _, _⟩ := chain_cut _ _ _ _ esi nodes chain member
  rw [cut] at chain distinct
  have old (node : Nat) (inside : node ∈ front ++ esi :: back) : node ∈ blocks ∧ node ≠ edi := by
    have nodeIn := nodesIn node (by rw [cut]; exact inside)
    exact ⟨nodeIn, fun same => ediNew (same ▸ nodeIn)⟩
  have inserted := chain_insert (fun block => (splitBlock heap esi need).get block .next)
    (fun block => (splitBlock heap esi need).get block .prev) heap.heapFreeHead last esi edi front back chain distinct
    ediNotNull
    (fun node inside => by
      rw [(links node (List.mem_cons_of_mem _ (old node inside).1)).1, if_neg (old node inside).2])
    (fun node inside => by
      rw [(links node (List.mem_cons_of_mem _ (old node inside).1)).2, if_neg (old node inside).2])
    (by rw [(links edi List.mem_cons_self).1, if_neg ediNotEsi, if_pos rfl])
    (by rw [(links edi List.mem_cons_self).2, if_neg ediNotNext, if_pos rfl])
  have frame := split_block_frame heap esi need
  have ediOut : edi ∉ front ++ esi :: back := fun inside => (old edi inside).2 rfl
  have listEq : front ++ esi :: edi :: back = (front ++ [esi]) ++ edi :: back := by simp
  refine ⟨front ++ esi :: edi :: back, ?_, ?_, fun node inside => ?_, fun block walked unused => ?_⟩
  · rw [frame.2.2.2]
    exact inserted
  · rw [listEq]
    refine List.nodup_middle.mpr (List.nodup_cons.mpr ⟨by simpa using ediOut, by simpa using distinct⟩)
  · refine (onAfter node).mpr ((members node).mpr ?_)
    by_cases same : node = edi
    · exact Or.inr same
    · exact Or.inl (old node (by simpa [same] using inside)).1
  · cases (members block).mp ((onAfter block).mp walked) with
    | inr same => simp [same]
    | inl blockIn =>
        have notEdi : block ≠ edi := fun same => ediNew (same ▸ blockIn)
        rw [read block (by simp [blockIn]) .flags (by decide) (by decide)] at unused
        by_cases same : block = esi
        · simp [same, mcbFlagUsed, mcbFlagFree] at unused
        · have stillFree : heap.get block .flags = mcbFlagFree := by simpa [same, notEdi] using unused
          have stood := listed.free block ((onWalk block).mpr blockIn) stillFree
          rw [cut] at stood
          simp only [List.mem_append, List.mem_cons] at stood ⊢
          exact stood.imp_right fun behind => behind.imp_right Or.inr
end

end RoDos.Heap
