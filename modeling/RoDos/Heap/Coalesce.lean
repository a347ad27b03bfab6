import RoDos.Heap.FreeList

set_option autoImplicit false

namespace RoDos.Heap

open Base

theorem middle_left_out {α : Type} (front middle back : List α) (node other : α)
    (distinct : (front ++ node :: (middle ++ back)).Nodup) (inside : other ∈ middle) :
    other ∉ front ++ node :: back := by
  obtain ⟨_, tail, apart⟩ := List.nodup_append.mp distinct
  obtain ⟨nodeApart, rest⟩ := List.nodup_cons.mp tail
  obtain ⟨_, _, split⟩ := List.nodup_append.mp rest
  have ahead : other ∈ middle ++ back := List.mem_append_left back inside
  intro listed
  cases List.mem_append.mp listed with
  | inl early => exact apart other early other (List.mem_cons_of_mem _ ahead) rfl
  | inr late =>
      cases List.mem_cons.mp late with
      | inl same => exact nodeApart (same ▸ ahead)
      | inr behind => exact split other inside other behind rfl

structure Freeing (heap : HeapState) (blocks nodes : List Nat) (esi : Nat) : Prop where
  tiled : Tiled heap blocks
  listed : FreeList heap nodes
  esiIn : esi ∈ blocks
  used : heap.get esi .flags ≠ mcbFlagFree
  linked : KfreeLinked heap (esi + mcbHeaderSize)

def MergesForward (heap : HeapState) (esi : Nat) : Prop := Mergeable (markFree heap esi) (heap.get esi .next)

def MergesBackward (heap : HeapState) (esi : Nat) : Prop := Mergeable (markFree heap esi) (heap.get esi .prev)

instance (heap : HeapState) (esi : Nat) : Decidable (MergesForward heap esi) :=
  inferInstanceAs (Decidable (Mergeable _ _))

def following (heap : HeapState) (esi : Nat) : Nat :=
  if MergesForward heap esi then heap.get (heap.get esi .next) .next else heap.get esi .next

section
variable (heap : HeapState) (blocks nodes : List Nat) (esi : Nat) (freeing : Freeing heap blocks nodes esi)
include freeing

theorem freeing_forward (merges : MergesForward heap esi) :
    heap.get esi .next ∈ nodes ∧ heap.get esi .next = esi + cell heap esi ∧ MergesBackward heap esi := by
  have header : esi + mcbHeaderSize - mcbHeaderSize = esi := Nat.add_sub_cancel _ _
  have forward := freeing.linked.forward
  simp only [header] at forward
  obtain ⟨walked, adjacent, backward⟩ := forward merges
  have size := cell_positive heap esi
  have notEsi : heap.get esi .next ≠ esi := by omega
  have blockIn := (heap_block_iff heap blocks freeing.tiled _).mp walked
  have free := merges.2.2
  rw [mark_free_read heap blocks freeing.tiled esi freeing.esiIn _ blockIn, if_neg (by simp [notEsi])] at free
  exact ⟨freeing.listed.free _ walked free, adjacent, backward⟩

theorem freeing_backward (merges : MergesBackward heap esi) :
    heap.get esi .prev ∈ nodes ∧ heap.get esi .prev + cell heap (heap.get esi .prev) = esi ∧
      (heap.get (heap.get esi .prev) .next = esi ∨
        heap.get (heap.get esi .prev) .next = heap.get esi .next) := by
  have header : esi + mcbHeaderSize - mcbHeaderSize = esi := Nat.add_sub_cancel _ _
  have backward := freeing.linked.backward
  simp only [header] at backward
  obtain ⟨walked, adjacent, order⟩ := backward merges
  have size := cell_positive heap (heap.get esi .prev)
  have notEsi : heap.get esi .prev ≠ esi := by omega
  have blockIn := (heap_block_iff heap blocks freeing.tiled _).mp walked
  have free := merges.2.2
  rw [mark_free_read heap blocks freeing.tiled esi freeing.esiIn _ blockIn, if_neg (by simp [notEsi])] at free
  exact ⟨freeing.listed.free _ walked free, adjacent, order⟩

theorem freeing_nodes : ∀ node ∈ nodes, node ∈ blocks :=
  free_list_blocks heap blocks nodes freeing.tiled freeing.listed

theorem freeing_next_apart (merges : MergesForward heap esi) : heap.get (heap.get esi .next) .next ≠ esi := by
  intro cycle
  obtain ⟨nextIn, nextAdjacent, backward⟩ := freeing_forward heap blocks nodes esi freeing merges
  obtain ⟨_, prevAdjacent, _⟩ := freeing_backward heap blocks nodes esi freeing backward
  have notNull := tiled_block_positive heap blocks freeing.tiled esi freeing.esiIn
  have size := cell_positive heap esi
  obtain ⟨last, chain⟩ := freeing.listed.chain
  have back := chain_next_prev _ _ _ _ _ chain nextIn (by rw [cycle]; exact notNull)
  rw [cycle] at back
  omega

theorem following_sound (backward : MergesBackward heap esi) : following heap esi = 0 ∨ following heap esi ∈ blocks := by
  have step := free_list_next heap blocks nodes freeing.tiled freeing.listed
  obtain ⟨prevIn, _, order⟩ := freeing_backward heap blocks nodes esi freeing backward
  by_cases forward : MergesForward heap esi
  · obtain ⟨nextIn, _, _⟩ := freeing_forward heap blocks nodes esi freeing forward
    rw [following, if_pos forward]
    exact step _ nextIn
  · rw [following, if_neg forward]
    cases order with
    | inl linked =>
        obtain ⟨last, chain⟩ := freeing.listed.chain
        have notNull := tiled_block_positive heap blocks freeing.tiled esi freeing.esiIn
        have esiOn := chain_next_member _ _ _ _ _ chain prevIn
        rw [linked] at esiOn
        exact step esi (esiOn.resolve_left notNull)
    | inr shared =>
        have next := step _ prevIn
        rw [shared] at next
        exact next

theorem joined_forward (merges : MergesForward heap esi) :
    coalesceNext (markFree heap esi) esi = absorb (markFree heap esi) esi (heap.get esi .next) := by
  have next := mark_free_keeps heap blocks freeing.tiled esi esi .next freeing.esiIn freeing.esiIn (by decide)
  have merges : Mergeable (markFree heap esi) (heap.get esi .next) := merges
  rw [coalesceNext, next, if_pos merges]

theorem joined_still (still : ¬ MergesForward heap esi) :
    coalesceNext (markFree heap esi) esi = markFree heap esi := by
  have next := mark_free_keeps heap blocks freeing.tiled esi esi .next freeing.esiIn freeing.esiIn (by decide)
  have still : ¬ Mergeable (markFree heap esi) (heap.get esi .next) := still
  rw [coalesceNext, next, if_neg still]

theorem joined_links (block : Nat) (blockIn : block ∈ blocks) :
    (coalesceNext (markFree heap esi) esi).get block .next =
        (if block = esi then following heap esi else heap.get block .next) ∧
      (block ≠ following heap esi →
        (coalesceNext (markFree heap esi) esi).get block .prev = heap.get block .prev) ∧
      ∀ field, field = .flags ∨ field = .magic →
        (coalesceNext (markFree heap esi) esi).get block field = (markFree heap esi).get block field := by
  have keeps (other : Nat) (field : Field) (otherIn : other ∈ blocks) (notFlags : field ≠ .flags) :=
    mark_free_keeps heap blocks freeing.tiled esi other field freeing.esiIn otherIn notFlags
  by_cases forward : MergesForward heap esi
  · obtain ⟨nextIn, _, _⟩ := freeing_forward heap blocks nodes esi freeing forward
    have nextBlock := freeing_nodes heap blocks nodes esi freeing _ nextIn
    have target := free_list_next heap blocks nodes freeing.tiled freeing.listed _ nextIn
    have linked : (markFree heap esi).get (heap.get esi .next) .next = heap.get (heap.get esi .next) .next :=
      keeps _ .next nextBlock (by decide)
    have read (field : Field) := absorb_get (markFree heap esi) blocks (tiled_separate heap blocks freeing.tiled)
      esi (heap.get esi .next) block field freeing.esiIn nextBlock blockIn (by rw [linked]; exact target)
    rw [joined_forward heap blocks nodes esi freeing forward, read .next, read .prev, linked,
      following, if_pos forward, keeps block .next blockIn (by decide), keeps block .prev blockIn (by decide)]
    refine ⟨by simp, fun different => by simp [different], fun field kept => ?_⟩
    rw [read field]
    rcases kept with rfl | rfl <;> simp
  · rw [joined_still heap blocks nodes esi freeing forward, following, if_neg forward,
      keeps block .next blockIn (by decide), keeps block .prev blockIn (by decide)]
    refine ⟨?_, fun _ => rfl, fun _ _ => rfl⟩
    by_cases same : block = esi
    · rw [if_pos same, same]
    · rw [if_neg same]

theorem joined_prev : (coalesceNext (markFree heap esi) esi).get esi .prev = heap.get esi .prev := by
  by_cases forward : MergesForward heap esi
  · have apart := freeing_next_apart heap blocks nodes esi freeing forward
    refine (joined_links heap blocks nodes esi freeing esi freeing.esiIn).2.1 ?_
    rw [following, if_pos forward]
    exact Ne.symm apart
  · rw [joined_still heap blocks nodes esi freeing forward]
    exact mark_free_keeps heap blocks freeing.tiled esi esi .prev freeing.esiIn freeing.esiIn (by decide)

theorem joined_mergeable :
    Mergeable (coalesceNext (markFree heap esi) esi) (heap.get esi .prev) ↔ MergesBackward heap esi := by
  by_cases forward : MergesForward heap esi
  · obtain ⟨_, _, backward⟩ := freeing_forward heap blocks nodes esi freeing forward
    obtain ⟨prevIn, _, _⟩ := freeing_backward heap blocks nodes esi freeing backward
    have kept := (joined_links heap blocks nodes esi freeing _ (freeing_nodes heap blocks nodes esi freeing _ prevIn)).2.2
    refine ⟨fun _ => backward, fun merges => ⟨merges.1, ?_, ?_⟩⟩
    · rw [kept .magic (Or.inr rfl)]
      exact merges.2.1
    · rw [kept .flags (Or.inl rfl)]
      exact merges.2.2
  · rw [joined_still heap blocks nodes esi freeing forward]
    exact Iff.rfl

theorem kfree_linked_sound : KfreeSound heap (esi + mcbHeaderSize) := by
  have header : esi + mcbHeaderSize - mcbHeaderSize = esi := Nat.add_sub_cancel _ _
  have onWalk := heap_block_iff heap blocks freeing.tiled
  have next := mark_free_keeps heap blocks freeing.tiled esi esi .next freeing.esiIn freeing.esiIn (by decide)
  refine ⟨?_, ?_, ?_⟩ <;> simp only [header, next, joined_prev heap blocks nodes esi freeing]
  · intro merges
    obtain ⟨nextIn, adjacent, _⟩ := freeing_forward heap blocks nodes esi freeing merges
    have beyond := free_list_next heap blocks nodes freeing.tiled freeing.listed _ nextIn
    exact ⟨adjacent, freeing.listed.blocks _ nextIn, beyond.imp_right (onWalk _).mpr⟩
  · intro merges
    have backward := (joined_mergeable heap blocks nodes esi freeing).mp merges
    obtain ⟨prevIn, adjacent, _⟩ := freeing_backward heap blocks nodes esi freeing backward
    refine ⟨freeing.listed.blocks _ prevIn, adjacent, ?_⟩
    rw [(joined_links heap blocks nodes esi freeing esi freeing.esiIn).1, if_pos rfl]
    exact (following_sound heap blocks nodes esi freeing backward).imp_right (onWalk _).mpr
  · intro _
    exact (free_list_head heap blocks nodes freeing.tiled freeing.listed).imp_right (onWalk _).mpr

omit freeing in
theorem following_cut (outer last : Nat) (rest : List Nat)
    (chain : Chain (fun block => heap.get block .next) (fun block => heap.get block .prev) outer (heap.get esi .next) rest
      last 0) :
    ∃ passed back outer, rest = passed ++ back ∧
      Chain (fun block => heap.get block .next) (fun block => heap.get block .prev) outer (following heap esi) back last 0 ∧
      ∀ node, node ∈ passed ↔ MergesForward heap esi ∧ node = heap.get esi .next := by
  by_cases forward : MergesForward heap esi
  · cases rest with
    | nil => exact absurd chain.2.symm forward.1
    | cons first rest =>
        obtain ⟨same, _, _, right⟩ := chain
        subst same
        refine ⟨[heap.get esi .next], rest, heap.get esi .next, rfl, ?_, by simp [forward]⟩
        rw [following, if_pos forward]
        exact right
  · refine ⟨[], rest, outer, rfl, ?_, by simp [forward]⟩
    rw [following, if_neg forward]
    exact chain

theorem freeing_cut (backward : MergesBackward heap esi) :
    ∃ front middle back outer last, nodes = front ++ heap.get esi .prev :: (middle ++ back) ∧
      Chain (fun block => heap.get block .next) (fun block => heap.get block .prev) outer (following heap esi) back last 0 ∧
      (∀ node ∈ middle, node = esi ∨ (MergesForward heap esi ∧ node = heap.get esi .next)) ∧
      esi ∉ front ++ heap.get esi .prev :: back ∧
      (MergesForward heap esi → heap.get esi .next ∉ front ++ heap.get esi .prev :: back) := by
  obtain ⟨prevIn, adjacent, order⟩ := freeing_backward heap blocks nodes esi freeing backward
  have notNull := tiled_block_positive heap blocks freeing.tiled esi freeing.esiIn
  obtain ⟨last, chain⟩ := freeing.listed.chain
  have distinct := freeing.listed.distinct
  obtain ⟨front, rest, cut, _, right⟩ := chain_cut _ _ _ _ _ nodes chain prevIn
  rw [cut] at distinct
  cases order with
  | inl linked =>
      rw [linked] at right
      cases rest with
      | nil => exact absurd right.2.symm notNull
      | cons first rest =>
          obtain ⟨same, _, _, right⟩ := right
          subst same
          obtain ⟨passed, back, outer, parted, behind, passes⟩ := following_cut heap _ _ last rest right
          subst parted
          rw [← List.cons_append] at cut distinct
          refine ⟨front, _ :: passed, back, outer, last, cut, behind, ?_, ?_, fun forward => ?_⟩
          · exact fun node inside => (List.mem_cons.mp inside).imp_right (passes node).mp
          · exact middle_left_out front _ back _ _ distinct List.mem_cons_self
          · exact middle_left_out front _ back _ _ distinct (List.mem_cons_of_mem _ ((passes _).mpr ⟨forward, rfl⟩))
  | inr shared =>
      have esiOff : esi ∉ nodes := by
        intro esiOn
        have same := chain_next_injective _ _ _ _ _ _ chain prevIn esiOn shared
        have size := cell_positive heap (heap.get esi .prev)
        omega
      rw [shared] at right
      obtain ⟨passed, back, outer, parted, behind, passes⟩ := following_cut heap esi _ last rest right
      subst parted
      refine ⟨front, passed, back, outer, last, cut, behind, fun node inside => Or.inr ((passes node).mp inside), ?_,
        fun forward => ?_⟩
      · intro inside
        apply esiOff
        rw [cut]
        simp only [List.mem_append, List.mem_cons] at inside ⊢
        exact inside.imp_right fun later => later.imp_right Or.inr
      · exact middle_left_out front _ back _ _ distinct ((passes _).mpr ⟨forward, rfl⟩)

theorem joined_evolves :
    ∃ between, Evolves (markFree heap esi) blocks (coalesceNext (markFree heap esi) esi) between ∧ esi ∈ between ∧
      (∀ block, block ∈ between ↔ block ∈ blocks ∧ (MergesForward heap esi → block ≠ heap.get esi .next)) ∧
      ∀ block ∈ blocks, block < esi → block ∈ between ∧
        (coalesceNext (markFree heap esi) esi).get block .size = heap.get block .size := by
  have nodesIn := freeing_nodes heap blocks nodes esi freeing
  have marks := mark_free_frees heap blocks freeing.tiled esi freeing.esiIn freeing.used
  have keeps (other : Nat) (field : Field) (otherIn : other ∈ blocks) (notFlags : field ≠ .flags) :=
    mark_free_keeps heap blocks freeing.tiled esi other field freeing.esiIn otherIn notFlags
  have esiFree := mark_free_freed heap blocks freeing.tiled esi freeing.esiIn
  have nextKeeps := keeps esi .next freeing.esiIn (by decide)
  obtain ⟨between, evolves, esiStays, members, before⟩ :=
    coalesce_next_evolves (markFree heap esi) blocks marks.tiled esi freeing.esiIn esiFree (fun merges => by
      rw [nextKeeps] at merges ⊢
      obtain ⟨nextIn, nextAdjacent, _⟩ := freeing_forward heap blocks nodes esi freeing merges
      rw [cell, keeps esi .size freeing.esiIn (by decide), ← cell, keeps _ .next (nodesIn _ nextIn) (by decide)]
      exact ⟨nextAdjacent, nodesIn _ nextIn, free_list_next heap blocks nodes freeing.tiled freeing.listed _ nextIn⟩)
  rw [nextKeeps] at members
  refine ⟨between, evolves, esiStays, members, fun block blockIn below => ?_⟩
  have stands := before block blockIn below
  exact ⟨stands.1, by rw [stands.2, keeps block .size blockIn (by decide)]⟩

theorem merged_links (backward : MergesBackward heap esi) (block : Nat) (blockIn : block ∈ blocks) :
    ((absorb (coalesceNext (markFree heap esi) esi) (heap.get esi .prev) esi).get block .next =
        if block = heap.get esi .prev ∨ block = esi then following heap esi else heap.get block .next) ∧
      ((absorb (coalesceNext (markFree heap esi) esi) (heap.get esi .prev) esi).get block .prev =
        if block = following heap esi then heap.get esi .prev else heap.get block .prev) ∧
      (absorb (coalesceNext (markFree heap esi) esi) (heap.get esi .prev) esi).get block .flags =
        (markFree heap esi).get block .flags := by
  have links := joined_links heap blocks nodes esi freeing
  have prevBlock := freeing_nodes heap blocks nodes esi freeing _ (freeing_backward heap blocks nodes esi freeing backward).1
  have notNull := tiled_block_positive heap blocks freeing.tiled block blockIn
  have esiNext : (coalesceNext (markFree heap esi) esi).get esi .next = following heap esi := by
    rw [(links esi freeing.esiIn).1, if_pos rfl]
  have target := following_sound heap blocks nodes esi freeing backward
  have read (field : Field) := absorb_get (coalesceNext (markFree heap esi) esi) blocks
    (tiled_separate heap blocks freeing.tiled) (heap.get esi .prev) esi block field prevBlock freeing.esiIn blockIn
    (by rw [esiNext]; exact target)
  simp only [esiNext] at read
  refine ⟨?_, ?_, ?_⟩
  · rw [read .next, (links block blockIn).1]
    by_cases front : block = heap.get esi .prev <;> by_cases freed : block = esi <;> simp [front, freed]
  · rw [read .prev]
    by_cases same : block = following heap esi
    · have linked : following heap esi ≠ 0 := same ▸ notNull
      simp [same, linked]
    · rw [(links block blockIn).2.1 same]
      simp [same]
  · rw [read .flags, (links block blockIn).2.2 .flags (Or.inl rfl)]
    simp

theorem merged_tiled (backward : MergesBackward heap esi) :
    ∃ after, Tiled (absorb (coalesceNext (markFree heap esi) esi) (heap.get esi .prev) esi) after ∧
      ∀ block, block ∈ after ↔
        block ∈ blocks ∧ block ≠ esi ∧ (MergesForward heap esi → block ≠ heap.get esi .next) := by
  have links := joined_links heap blocks nodes esi freeing
  obtain ⟨prevIn, adjacent, _⟩ := freeing_backward heap blocks nodes esi freeing backward
  have prevBlock := freeing_nodes heap blocks nodes esi freeing _ prevIn
  have size := cell_positive heap (heap.get esi .prev)
  have read := mark_free_read heap blocks freeing.tiled esi freeing.esiIn
  obtain ⟨between, evolves, esiStays, members, before⟩ := joined_evolves heap blocks nodes esi freeing
  have target := following_sound heap blocks nodes esi freeing backward
  have prevStays := before _ prevBlock (by omega)
  have joinedFree : (coalesceNext (markFree heap esi) esi).get esi .flags = mcbFlagFree := by
    rw [(links esi freeing.esiIn).2.2 .flags (Or.inl rfl), read esi freeing.esiIn]
    simp
  have prevFree : (coalesceNext (markFree heap esi) esi).get (heap.get esi .prev) .flags = mcbFlagFree := by
    rw [(links _ prevBlock).2.2 .flags (Or.inl rfl), backward.2.2]
  have esiNext := (links esi freeing.esiIn).1
  rw [if_pos rfl] at esiNext
  have behind : heap.get esi .prev + cell (coalesceNext (markFree heap esi) esi) (heap.get esi .prev) = esi := by
    rw [cell, prevStays.2, ← cell, adjacent]
  obtain ⟨after, merged, afterMembers, _⟩ := absorb_evolves (coalesceNext (markFree heap esi) esi) blocks between
    (tiled_separate heap blocks freeing.tiled) (fun block member => ((members block).mp member).1) evolves.tiled
    (heap.get esi .prev) prevStays.1 (by rw [behind]; exact esiStays) prevFree (by rw [behind]; exact joinedFree)
    (by rw [behind, esiNext]; exact target)
  rw [behind] at merged afterMembers
  refine ⟨after, merged.tiled, fun block => ?_⟩
  rw [afterMembers block, members block, and_assoc, and_comm (b := block ≠ esi)]

theorem merged_chain (front back : List Nat) (outer last finish : Nat) (backward : MergesBackward heap esi)
    (left : Chain (fun block => heap.get block .next) (fun block => heap.get block .prev) 0 heap.heapFreeHead
      (front ++ [heap.get esi .prev]) (heap.get esi .prev) finish)
    (right : Chain (fun block => heap.get block .next) (fun block => heap.get block .prev) outer (following heap esi)
      back last 0)
    (distinct : (front ++ heap.get esi .prev :: back).Nodup)
    (kept : ∀ node ∈ front ++ heap.get esi .prev :: back, node ∈ blocks ∧ node ≠ esi) :
    ∃ final, Chain (fun block => (absorb (coalesceNext (markFree heap esi) esi) (heap.get esi .prev) esi).get block .next)
      (fun block => (absorb (coalesceNext (markFree heap esi) esi) (heap.get esi .prev) esi).get block .prev) 0
      heap.heapFreeHead (front ++ heap.get esi .prev :: back) final 0 := by
  have prevBlock := freeing_nodes heap blocks nodes esi freeing _ (freeing_backward heap blocks nodes esi freeing backward).1
  have prevNotNull := tiled_block_positive heap blocks freeing.tiled _ prevBlock
  have frontEq : front ++ heap.get esi .prev :: back = (front ++ [heap.get esi .prev]) ++ back := by simp
  rw [frontEq] at distinct kept ⊢
  have bridged := chain_bridge
    (fun block => (absorb (coalesceNext (markFree heap esi) esi) (heap.get esi .prev) esi).get block .next)
    (fun block => (absorb (coalesceNext (markFree heap esi) esi) (heap.get esi .prev) esi).get block .prev)
    heap.heapFreeHead (heap.get esi .prev) outer finish (following heap esi) last _ back left right distinct
    (fun node inside => by
      obtain ⟨nodeIn, notEsi⟩ := kept node inside
      rw [(merged_links heap blocks nodes esi freeing backward node nodeIn).1]
      simp [notEsi])
    (fun node inside => (merged_links heap blocks nodes esi freeing backward node (kept node inside).1).2.1)
  rw [if_neg prevNotNull] at bridged
  exact bridged

theorem check_prev_merges (backward : MergesBackward heap esi) :
    ∃ nodes, FreeList (absorb (coalesceNext (markFree heap esi) esi) (heap.get esi .prev) esi) nodes := by
  have onWalk := heap_block_iff heap blocks freeing.tiled
  have nodesIn := freeing_nodes heap blocks nodes esi freeing
  obtain ⟨after, tiled, members⟩ := merged_tiled heap blocks nodes esi freeing backward
  have onAfter := heap_block_iff _ after tiled
  obtain ⟨front, middle, back, outer, last, cut, right, leftOut, esiOut, nextOut⟩ :=
    freeing_cut heap blocks nodes esi freeing backward
  obtain ⟨start, chain⟩ := freeing.listed.chain
  have distinct := freeing.listed.distinct
  have kept (node : Nat) (inside : node ∈ front ++ heap.get esi .prev :: back) : node ∈ blocks ∧ node ≠ esi := by
    refine ⟨nodesIn node ?_, fun same => esiOut (same ▸ inside)⟩
    rw [cut]
    simp only [List.mem_append, List.mem_cons] at inside ⊢
    exact inside.imp_right fun later => later.imp_right Or.inr
  have once : (front ++ heap.get esi .prev :: back).Nodup := by
    rw [cut] at distinct
    exact distinct.sublist (List.Sublist.append_left ((List.sublist_append_right middle back).cons_cons _) front)
  have left : ∃ finish, Chain (fun block => heap.get block .next) (fun block => heap.get block .prev) 0
      heap.heapFreeHead (front ++ [heap.get esi .prev]) (heap.get esi .prev) finish := by
    have listEq : front ++ heap.get esi .prev :: (middle ++ back) =
        (front ++ [heap.get esi .prev]) ++ (middle ++ back) := by simp
    rw [cut, listEq] at chain
    obtain ⟨inner, finish, ahead, _⟩ := (chain_append _ _ _ _ _ _).mp chain
    obtain ⟨_, _, _, _, _, _, same, _⟩ := (chain_append _ _ _ _ _ _).mp ahead
    exact ⟨finish, same ▸ ahead⟩
  obtain ⟨finish, left⟩ := left
  have bridged := merged_chain heap blocks nodes esi freeing front back outer last finish backward left right once kept
  have frame := absorb_frame (coalesceNext (markFree heap esi) esi) (heap.get esi .prev) esi
  have head : (coalesceNext (markFree heap esi) esi).heapFreeHead = heap.heapFreeHead :=
    (coalesce_next_frame (markFree heap esi) esi).2
  refine ⟨front ++ heap.get esi .prev :: back, ?_, once, fun node inside => ?_, fun block walked unused => ?_⟩
  · rw [frame.2.2.2, head]
    exact bridged
  · obtain ⟨nodeIn, notEsi⟩ := kept node inside
    exact (onAfter node).mpr ((members node).mpr ⟨nodeIn, notEsi, fun forward same => nextOut forward (same ▸ inside)⟩)
  · obtain ⟨blockIn, notEsi, notNext⟩ := (members block).mp ((onAfter block).mp walked)
    have still : heap.get block .flags = mcbFlagFree := by
      rw [(merged_links heap blocks nodes esi freeing backward block blockIn).2.2,
        mark_free_read heap blocks freeing.tiled esi freeing.esiIn block blockIn] at unused
      simpa [notEsi] using unused
    have stood := freeing.listed.free block ((onWalk block).mpr blockIn) still
    rw [cut] at stood
    have notMiddle : block ∉ middle := by
      intro inside
      cases leftOut block inside with
      | inl same => exact notEsi same
      | inr merged => exact notNext merged.1 merged.2
    simpa [notMiddle] using stood

theorem freeing_head_word : heap.heapFreeHead < 2 ^ 32 := by
  cases free_list_head heap blocks nodes freeing.tiled freeing.listed with
  | inl null => omega
  | inr inside => exact header_lt blocks (tiled_separate heap blocks freeing.tiled) _ inside

theorem pushed_links (block : Nat) (blockIn : block ∈ blocks) :
    ((addToFreeList (markFree heap esi) esi).get block .next =
        if block = esi then heap.heapFreeHead else heap.get block .next) ∧
      ((addToFreeList (markFree heap esi) esi).get block .prev =
        if block = heap.heapFreeHead then esi else if block = esi then 0 else heap.get block .prev) ∧
      (addToFreeList (markFree heap esi) esi).get block .flags = (markFree heap esi).get block .flags := by
  have notNull := tiled_block_positive heap blocks freeing.tiled block blockIn
  have head : (markFree heap esi).heapFreeHead = heap.heapFreeHead := rfl
  have final (field : Field) := add_to_free_list_get (markFree heap esi) blocks
    (tiled_separate heap blocks freeing.tiled) esi block field freeing.esiIn blockIn
    (free_list_head heap blocks nodes freeing.tiled freeing.listed) (freeing_head_word heap blocks nodes esi freeing)
  have keeps (field : Field) (notFlags : field ≠ .flags) :=
    mark_free_keeps heap blocks freeing.tiled esi block field freeing.esiIn blockIn notFlags
  refine ⟨?_, ?_, ?_⟩
  · rw [final .next, keeps .next (by decide), head]
    simp
  · rw [final .prev, keeps .prev (by decide), head]
    by_cases same : block = heap.heapFreeHead
    · have linked : heap.heapFreeHead ≠ 0 := same ▸ notNull
      simp [same, linked]
    · simp [same]
  · rw [final .flags]
    simp

theorem push_listed (still : ¬ MergesBackward heap esi) : ∃ nodes, FreeList (addToFreeList (markFree heap esi) esi) nodes := by
  have onWalk := heap_block_iff heap blocks freeing.tiled
  have nodesIn := freeing_nodes heap blocks nodes esi freeing
  have links := pushed_links heap blocks nodes esi freeing
  have header : esi + mcbHeaderSize - mcbHeaderSize = esi := Nat.add_sub_cancel _ _
  have pushed := freeing.linked.pushed
  simp only [header] at pushed
  have fresh : esi ∉ nodes := fun inside =>
    pushed still ((on_free_list_iff heap nodes freeing.listed esi).mpr inside)
  have marks := mark_free_frees heap blocks freeing.tiled esi freeing.esiIn freeing.used
  have evolves := add_to_free_list_evolves (markFree heap esi) blocks blocks (tiled_separate heap blocks freeing.tiled)
    (fun _ member => member) marks.tiled esi freeing.esiIn
    (free_list_head heap blocks nodes freeing.tiled freeing.listed) (freeing_head_word heap blocks nodes esi freeing)
  have onAfter := heap_block_iff _ blocks evolves.tiled
  have esiNotNull := tiled_block_positive heap blocks freeing.tiled esi freeing.esiIn
  obtain ⟨last, chain⟩ := freeing.listed.chain
  have notHead : esi ≠ heap.heapFreeHead := by
    intro same
    cases chain_start_member _ _ _ _ chain with
    | inl null => exact esiNotNull (same.trans null)
    | inr inside => exact fresh (same ▸ inside)
  have notEsi (node : Nat) (inside : node ∈ nodes) : node ≠ esi := fun same => fresh (same ▸ inside)
  have longer := chain_push (fun block => (addToFreeList (markFree heap esi) esi).get block .next)
    (fun block => (addToFreeList (markFree heap esi) esi).get block .prev) heap.heapFreeHead last esi nodes chain
    freeing.listed.distinct esiNotNull
    (fun node inside => by rw [(links node (nodesIn node inside)).1, if_neg (notEsi node inside)])
    (fun node inside => by rw [(links node (nodesIn node inside)).2.1, if_neg (notEsi node inside)])
    (by rw [(links esi freeing.esiIn).1, if_pos rfl])
    (by rw [(links esi freeing.esiIn).2.1, if_neg notHead, if_pos rfl])
  have frame := add_to_free_list_frame (markFree heap esi) esi
  refine ⟨esi :: nodes, ?_, List.nodup_cons.mpr ⟨fresh, freeing.listed.distinct⟩, fun node inside => ?_,
    fun block walked unused => ?_⟩
  · rw [frame.2.2.2]
    exact longer
  · cases List.mem_cons.mp inside with
    | inl same => exact (onAfter node).mpr (same ▸ freeing.esiIn)
    | inr older => exact (onAfter node).mpr (nodesIn node older)
  · have blockIn := (onAfter block).mp walked
    by_cases same : block = esi
    · simp [same]
    · rw [(links block blockIn).2.2, mark_free_read heap blocks freeing.tiled esi freeing.esiIn block blockIn] at unused
      have old : heap.get block .flags = mcbFlagFree := by simpa [same] using unused
      exact List.mem_cons_of_mem _ (freeing.listed.free block ((onWalk block).mpr blockIn) old)

theorem kfree_listed : ∃ nodes, FreeList (kfree heap (esi + mcbHeaderSize)) nodes := by
  have prev := joined_prev heap blocks nodes esi freeing
  rw [kfree_stages heap blocks freeing.tiled esi freeing.esiIn freeing.used, checkPrev, prev]
  by_cases backward : MergesBackward heap esi
  · rw [if_pos ((joined_mergeable heap blocks nodes esi freeing).mpr backward)]
    exact check_prev_merges heap blocks nodes esi freeing backward
  · have still : ¬ MergesForward heap esi := fun forward =>
      backward (freeing_forward heap blocks nodes esi freeing forward).2.2
    have notMergeable := fun merges => backward ((joined_mergeable heap blocks nodes esi freeing).mp merges)
    rw [if_neg notMergeable, joined_still heap blocks nodes esi freeing still]
    exact push_listed heap blocks nodes esi freeing backward
end

section
variable (heap : HeapState) (blocks nodes : List Nat) (tiled : Tiled heap blocks) (listed : FreeList heap nodes)
include tiled listed

theorem allocate_block_listed (esi need : Nat) (member : esi ∈ nodes) (free : heap.get esi .flags = mcbFlagFree)
    (room : need + mcbHeaderSize ≤ heap.get esi .size) : ∃ later, FreeList (allocateBlock heap esi need) later := by
  rw [allocateBlock]
  by_cases small : sub32 (sub32 (heap.get esi .size) need) mcbHeaderSize < minSplitSize
  · rw [if_pos small]
    exact use_whole_block_listed heap blocks nodes tiled listed esi need member free (by omega)
  · rw [if_neg small]
    exact split_block_listed heap blocks nodes tiled listed esi need member free room

theorem kmalloc_listed (next : HeapState) (eax fuel pointer : Nat) (fits : KmallocFits heap eax)
    (returned : kmalloc fuel heap eax = some (next, pointer)) : ∃ later, FreeList next later := by
  rcases kmalloc_cases fuel heap next eax pointer returned with ⟨_, rfl | rfl⟩ | ⟨esi, asked, search, _, rfl⟩
  · exact ⟨nodes, listed⟩
  · exact ⟨nodes, update_statistics_listed heap blocks nodes tiled listed (alignSize eax)⟩
  · have member := search_listed heap blocks nodes tiled listed _ fuel esi search
    have free := (search_found heap _ _ _ _ search).2.2.1
    have room := fits fuel esi asked search
    have nextIn := free_list_next heap blocks nodes tiled listed esi member
    have prevIn := free_list_prev heap blocks nodes tiled listed esi member
    obtain ⟨after, takes⟩ := allocate_block_takes heap blocks tiled esi (alignSize eax)
      (free_list_blocks heap blocks nodes tiled listed esi member) free room nextIn (fun _ => prevIn)
    obtain ⟨later, stands⟩ := allocate_block_listed heap blocks nodes tiled listed esi (alignSize eax) member free room
    exact ⟨later, update_statistics_listed _ after later takes.tiled stands (alignSize eax)⟩
end

def Listed (machine : Machine) : Prop := Sound machine ∧ ∃ nodes, FreeList machine.heap nodes

theorem freeing_of_alive (machine : Machine) (blocks nodes : List Nat) (tiled : Tiled machine.heap blocks)
    (accounted : Accounted machine blocks) (listed : FreeList machine.heap nodes) (allocation : Allocation)
    (alive : allocation ∈ machine.live) (linked : KfreeLinked machine.heap allocation.pointer) :
    Freeing machine.heap blocks nodes allocation.block := by
  obtain ⟨member, used⟩ := accounted_block machine blocks accounted allocation alive
  exact ⟨tiled, listed, member, used, accounted.pointer allocation alive ▸ linked⟩

theorem step_linked_sound (machine next : Machine) (op : HeapOp) (inv : Listed machine)
    (admitted : StepLinked machine op) (taken : HeapStep machine op next) : StepSound machine op := by
  obtain ⟨⟨blocks, tiled, accounted⟩, nodes, listed⟩ := inv
  cases taken with
  | kmalloc eax fuel pointer heap word returned =>
      exact kmalloc_fits_sound machine.heap blocks nodes tiled listed eax admitted
  | kfree allocation alive =>
      have freeing := freeing_of_alive machine blocks nodes tiled accounted listed allocation alive admitted
      have sound := kfree_linked_sound machine.heap blocks nodes allocation.block freeing
      rw [← accounted.pointer allocation alive] at sound
      exact sound
  | write allocation address byte alive above below => exact trivial

theorem listed_step (machine next : Machine) (op : HeapOp) (inv : Listed machine)
    (admitted : StepLinked machine op) (taken : HeapStep machine op next) : Listed next := by
  refine ⟨step_sound machine next op inv.1 (step_linked_sound machine next op inv admitted taken) taken, ?_⟩
  obtain ⟨⟨blocks, tiled, accounted⟩, nodes, listed⟩ := inv
  cases taken with
  | kmalloc eax fuel pointer heap word returned =>
      exact kmalloc_listed machine.heap blocks nodes tiled listed heap eax fuel pointer admitted returned
  | kfree allocation alive =>
      have freeing := freeing_of_alive machine blocks nodes tiled accounted listed allocation alive admitted
      have remains := kfree_listed machine.heap blocks nodes allocation.block freeing
      rw [← accounted.pointer allocation alive] at remains
      exact remains
  | write allocation address byte alive above below =>
      have evolves := write_evolves machine blocks tiled accounted allocation alive address byte above below
      have same := write_get machine blocks tiled accounted allocation alive address byte above below
      have onWalk := heap_block_iff machine.heap blocks tiled
      have onAfter := heap_block_iff _ blocks evolves.tiled
      have nodesIn := free_list_blocks machine.heap blocks nodes tiled listed
      obtain ⟨last, chain⟩ := listed.chain
      refine ⟨nodes, ⟨last, ?_⟩, listed.distinct, fun node member => (onAfter node).mpr (nodesIn node member), ?_⟩
      · exact chain_congr _ _ _ _ _ _ nodes (fun node member => same node .next (nodesIn node member))
          (fun node member => same node .prev (nodesIn node member)) chain
      · intro block walked free
        have blockIn := (onAfter block).mp walked
        rw [same block .flags blockIn] at free
        exact listed.free block ((onWalk block).mpr blockIn) free

theorem mem_init_listed (mem : Memory) (base size : Nat) (notNull : base ≠ 0) (enough : 1024 ≤ size)
    (positive : size < 2 ^ 31) (inside : base + size < 2 ^ 32) : FreeList (memInit (Heap.boot mem) base size).1 [base] := by
  obtain ⟨_, tiled, _, head, read⟩ := mem_init_accepts (Heap.boot mem) base size notNull enough inside positive
  have onWalk := heap_block_iff _ [base] tiled
  refine ⟨⟨base, ?_⟩, List.nodup_singleton base, fun node => (onWalk node).mpr, fun block walked _ => (onWalk block).mp walked⟩
  rw [head]
  exact ⟨rfl, notNull, read .prev, rfl, (read .next).symm⟩

theorem started_listed (base size : Nat) (notNull : base ≠ 0) (enough : 1024 ≤ size) (positive : size < 2 ^ 31)
    (inside : base + size < 2 ^ 32) (machine : Machine) (boot : Started base size machine) : Listed machine := by
  refine ⟨(started_sound base size notNull enough inside positive machine boot).1, [base], ?_⟩
  obtain ⟨mem, rfl⟩ := boot
  exact mem_init_listed mem base size notNull enough positive inside

structure FreeListWhole (heap : HeapState) : Prop where
  listed : ∃ nodes, FreeList heap nodes
  answers : SearchAnswers heap

theorem free_list_stays_whole (base size : Nat) (notNull : base ≠ 0) (enough : 1024 ≤ size)
    (positive : size < 2 ^ 31) (inside : base + size < 2 ^ 32) (machine : Machine)
    (run : Run (Started base size) HeapStep StepLinked machine) : FreeListWhole machine.heap := by
  obtain ⟨⟨blocks, tiled, _⟩, nodes, listed⟩ := run_invariant Listed
    (started_listed base size notNull enough positive inside) listed_step machine run
  exact ⟨⟨nodes, listed⟩, free_list_answers machine.heap blocks nodes tiled listed⟩

theorem kmalloc_fits_at (heap : HeapState) (eax fuel esi : Nat)
    (found : searchLoop heap (alignSize eax) fuel heap.heapFreeHead = some (.block esi))
    (room : alignSize eax + mcbHeaderSize ≤ heap.get esi .size) : KmallocFits heap eax := by
  intro other block _ search
  have same := search_unique heap _ _ _ _ _ _ search found
  cases same
  exact room

theorem empty_list_unlinked (heap : HeapState) (empty : heap.heapFreeHead = 0) (block : Nat) :
    ¬ OnFreeList heap block := by
  intro reached
  induction reached with
  | head linked => exact linked empty
  | next node _ _ ih => exact ih

theorem free_list_stays_whole_freed :
    ∃ machine : Machine, machine.heap.heapFreeHead = 4096 ∧ machine.live = [] ∧ FreeListWhole machine.heap := by
  have evaluated : (stepOp 2 (zeroHeap 4096 1024) (.kmalloc 980)).any (fun machine =>
      machine.heap.heapFreeHead = 0 ∧ machine.heap.get 4096 .next = 0 ∧ machine.heap.get 4096 .prev = 0 ∧
        (stepOp 2 machine (.kfree 4116)).any fun freed =>
          freed.heap.heapFreeHead = 4096 ∧ freed.live = []) = true := by decide +kernel
  obtain ⟨taken, first, reached⟩ := (Option.any_eq_true _ _).mp evaluated
  obtain ⟨empty, next, prev, further⟩ := of_decide_eq_true reached
  obtain ⟨freed, second, final⟩ := (Option.any_eq_true _ _).mp further
  obtain ⟨head, live⟩ := of_decide_eq_true final
  have fits : KmallocFits (zeroHeap 4096 1024).heap 980 :=
    kmalloc_fits_at _ 980 1 4096 (by decide +kernel) (by decide +kernel)
  have notForward : ¬ Mergeable (markFree taken.heap 4096) (taken.heap.get 4096 .next) := by
    rw [next]
    exact fun merges => merges.1 rfl
  have notBackward : ¬ Mergeable (markFree taken.heap 4096) (taken.heap.get 4096 .prev) := by
    rw [prev]
    exact fun merges => merges.1 rfl
  have linked : KfreeLinked taken.heap 4116 :=
    ⟨fun merges => absurd merges notForward, fun merges => absurd merges notBackward,
      fun _ => empty_list_unlinked taken.heap empty 4096⟩
  exact ⟨freed, head, live,
    free_list_stays_whole 4096 1024 (by decide) (by decide) (by decide) (by decide) freed
      (.step taken freed (.kfree 4116)
        (.step (zeroHeap 4096 1024) taken (.kmalloc 980) (.start _ (zero_heap_started _ _)) fits
          (step_op_step 2 _ _ _ first))
        linked (step_op_step 2 _ _ _ second))⟩

-- A split leaves the used block on the list, so kfree pushes it a second time and it links to itself.
theorem free_list_not_always_whole : ¬ ∀ base size, base ≠ 0 → 1024 ≤ size → size < 2 ^ 31 →
    base + size < 2 ^ 32 → ∀ machine, Run (Started base size) HeapStep (fun _ _ => True) machine →
      FreeListWhole machine.heap := by
  intro claimed
  have evaluated : (runOps 3 (fun _ _ => true) (zeroHeap 4096 1024) [.kmalloc 4, .kfree 4116]).any (fun machine =>
      machine.heap.heapFreeHead = 4096 ∧ machine.heap.get 4096 .next = 4096) = true := by decide +kernel
  obtain ⟨machine, done, reached⟩ := (Option.any_eq_true _ _).mp evaluated
  obtain ⟨head, loop⟩ := of_decide_eq_true reached
  have run := run_ops_run 4096 1024 3 _ _ machine _ (.start _ (zero_heap_started _ _)) done
  obtain ⟨nodes, listed⟩ := (claimed 4096 1024 (by decide) (by decide) (by decide) (by decide) machine
    (run_weaken _ (fun _ _ _ => trivial) machine run)).listed
  obtain ⟨last, chain⟩ := listed.chain
  have onList : 4096 ∈ nodes := by
    rw [← head]
    exact (chain_start_member _ _ _ _ chain).resolve_left (by rw [head]; decide)
  have back : machine.heap.get 4096 .prev = 4096 := by
    have pointed := chain_next_prev _ _ _ 4096 _ chain onList (by rw [loop]; decide)
    rwa [loop] at pointed
  have first : machine.heap.get 4096 .prev = 0 := by
    cases nodes with
    | nil => simp at onList
    | cons node rest =>
        obtain ⟨same, _, entered, _⟩ := chain
        rw [same, head] at entered
        exact entered
  rw [first] at back
  exact absurd back (by decide)

end RoDos.Heap
