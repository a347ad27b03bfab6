import RoDos.Heap.Payloads

set_option autoImplicit false

namespace RoDos.Heap

open Base

structure Registers where
  eax : Nat
  ebx : Nat
  ecx : Nat
  edx : Nat
  esi : Nat
  edi : Nat
  ebp : Nat

-- The stack of one call, outside the memory of the heap: the argument at [ebp + 8], the caller's ebp at
-- [ebp], and below it what was pushed, the first word at [ebp - 4].
structure Frame where
  argument : Nat
  ebp : Nat
  pushed : List Nat

def Frame.store (frame : Frame) (below value : Nat) : Frame :=
  { frame with pushed := frame.pushed.set (below / 4 - 1) value }

def Frame.load (frame : Frame) (below : Nat) : Nat := frame.pushed.getD (below / 4 - 1) 0

def enterKmalloc (regs : Registers) (size : Nat) : Frame :=
  ⟨size, regs.ebp, [regs.ebx, regs.ecx, regs.edx, regs.esi, regs.edi]⟩

def leaveKmalloc (frame : Frame) (eax : Nat) : Registers :=
  ⟨eax, frame.load 4, frame.load 8, frame.load 12, frame.load 16, frame.load 20, frame.ebp⟩

-- The aligned size is kept at [ebp - 20] and read again for the statistics.
def kmallocCall (fuel : Nat) (heap : HeapState) (regs : Registers) (size : Nat) : Option (HeapState × Registers) :=
  let frame := enterKmalloc regs size
  if regs.eax = 0 then some (heap, leaveKmalloc frame 0)
  else
    let aligned := alignSize regs.eax
    let saved := frame.store 20 aligned
    match searchLoop heap aligned fuel heap.heapFreeHead with
    | none => none
    | some .failed => some (heap, leaveKmalloc saved 0)
    | some .corrupted => some (updateStatistics heap (saved.load 20), leaveKmalloc saved 0)
    | some (.block esi) =>
        some (updateStatistics (allocateBlock heap esi aligned) (saved.load 20), leaveKmalloc saved (add32 esi mcbHeaderSize))

def enterKfree (regs : Registers) (ptr : Nat) : Frame :=
  ⟨ptr, regs.ebp, [regs.eax, regs.ebx, regs.ecx, regs.edx, regs.esi, regs.edi]⟩

def leaveKfree (frame : Frame) : Registers :=
  ⟨frame.load 4, frame.load 8, frame.load 12, frame.load 16, frame.load 20, frame.load 24, frame.ebp⟩

def kfreeCall (heap : HeapState) (regs : Registers) (ptr : Nat) : HeapState × Registers :=
  (kfree heap regs.eax, leaveKfree (enterKfree regs ptr))

structure Kept (before after : Registers) : Prop where
  ebx : after.ebx = before.ebx
  esi : after.esi = before.esi
  edi : after.edi = before.edi
  ebp : after.ebp = before.ebp

def SlotKept (regs : Registers) : Prop := regs.eax = 0 ∨ regs.edi = alignSize regs.eax

inductive Passes (heap : HeapState) (need : Nat) : Nat → Nat → Prop where
  | here (block : Nat) : Passes heap need block block
  | further (block stop : Nat) (notNull : block ≠ 0) (sound : heap.get block .magic = mcbMagic)
      (unfit : ¬ (heap.get block .flags = mcbFlagFree ∧ need ≤ heap.get block .size))
      (rest : Passes heap need (heap.get block .next) stop) : Passes heap need block stop

-- A request that gets nothing and leaves no trace: the last one adds 0 to the statistics.
def Refused (heap : HeapState) (eax : Nat) : Prop :=
  eax = 0 ∨ Passes heap (alignSize eax) heap.heapFreeHead 0 ∨
    (alignSize eax = 2 ^ 32 - mcbHeaderSize ∧ ∃ block, Passes heap (alignSize eax) heap.heapFreeHead block ∧
      block ≠ 0 ∧ heap.get block .magic ≠ mcbMagic)

def SameRequest (heap : HeapState) (one other : Nat) : Prop :=
  (one ≠ 0 ∧ other ≠ 0 ∧ alignSize one = alignSize other) ∨ (Refused heap one ∧ Refused heap other)

def Ignored (heap : HeapState) (eax : Nat) : Prop :=
  eax = 0 ∨ heap.get (sub32 eax mcbHeaderSize) .magic ≠ mcbMagic ∨
    heap.get (sub32 eax mcbHeaderSize) .flags = mcbFlagFree

def SameFree (heap : HeapState) (one other : Nat) : Prop := one = other ∨ (Ignored heap one ∧ Ignored heap other)

structure StatisticsWords (heap : HeapState) : Prop where
  free : heap.memTotalFree < 2 ^ 32
  used : heap.memTotalUsed < 2 ^ 32

theorem align_size_word (eax : Nat) : alignSize eax < 2 ^ 32 := by
  have word : add32 eax 3 < 2 ^ 32 := Nat.mod_lt _ (by decide)
  rw [alignSize]
  omega

theorem kmalloc_call_eax (fuel : Nat) (heap : HeapState) (regs : Registers) (size : Nat) :
    kmallocCall fuel heap regs size = (kmalloc fuel heap regs.eax).map fun result =>
      (result.1, { regs with eax := result.2, edi := if regs.eax = 0 then regs.edi else alignSize regs.eax }) := by
  rw [kmallocCall, kmalloc]
  by_cases zero : regs.eax = 0
  · simp only [if_pos zero]
    rfl
  · simp only [if_neg zero]
    cases searchLoop heap (alignSize regs.eax) fuel heap.heapFreeHead with
    | none => rfl
    | some found => cases found <;> rfl

theorem kmalloc_call_keeps (regs : Registers) (pointer : Nat) :
    Kept regs { regs with eax := pointer, edi := if regs.eax = 0 then regs.edi else alignSize regs.eax } ↔
      SlotKept regs := by
  rw [SlotKept]
  by_cases zero : regs.eax = 0
  · exact iff_of_true ⟨rfl, rfl, if_pos zero, rfl⟩ (Or.inl zero)
  · constructor
    · intro kept
      have slot := kept.edi
      rw [if_neg zero] at slot
      exact Or.inr slot.symm
    · intro slot
      exact ⟨rfl, rfl, (if_neg zero).trans (slot.resolve_left zero).symm, rfl⟩

section
variable (heap : HeapState)

theorem search_passes (need fuel start : Nat) (found : Search) (done : searchLoop heap need fuel start = some found) :
    ∃ stop, Passes heap need start stop ∧
      ((found = .failed ∧ stop = 0) ∨ (found = .corrupted ∧ stop ≠ 0 ∧ heap.get stop .magic ≠ mcbMagic) ∨
        found = .block stop) := by
  induction fuel generalizing start with
  | zero => cases done
  | succ fuel ih =>
      rw [searchLoop] at done
      split at done
      · rename_i null
        cases done
        exact ⟨start, .here start, Or.inl ⟨rfl, null⟩⟩
      · rename_i notNull
        split at done
        · rename_i broken
          cases done
          exact ⟨start, .here start, Or.inr (Or.inl ⟨rfl, notNull, broken⟩)⟩
        · rename_i sound
          split at done
          · cases done
            exact ⟨start, .here start, Or.inr (Or.inr rfl)⟩
          · rename_i unfit
            obtain ⟨stop, passes, verdict⟩ := ih _ done
            exact ⟨stop, .further start stop notNull (not_not.mp sound) unfit passes, verdict⟩

theorem passes_search (need fuel start stop : Nat) (passes : Passes heap need start stop) (found : Search)
    (done : searchLoop heap need fuel start = some found) :
    (stop = 0 → found = .failed) ∧ (stop ≠ 0 → heap.get stop .magic ≠ mcbMagic → found = .corrupted) := by
  induction passes generalizing fuel with
  | here block =>
      cases fuel with
      | zero => cases done
      | succ fuel =>
          rw [searchLoop] at done
          refine ⟨fun null => ?_, fun notNull broken => ?_⟩
          · rw [if_pos null] at done
            exact (Option.some.inj done).symm
          · rw [if_neg notNull, if_pos broken] at done
            exact (Option.some.inj done).symm
  | further block stop notNull sound unfit rest ih =>
      cases fuel with
      | zero => cases done
      | succ fuel =>
          rw [searchLoop, if_neg notNull, if_neg (not_not_intro sound), if_neg unfit] at done
          exact ih fuel done

theorem allocate_block_taken (esi need : Nat) : (allocateBlock heap esi need).get esi .flags = mcbFlagUsed ∧
    (allocateBlock heap esi need).memTotalUsed = heap.memTotalUsed := by
  have taken (state : HeapState) : (state.set esi .flags mcbFlagUsed).get esi .flags = mcbFlagUsed :=
    load_word_store_here _ _ _ (by decide)
  rw [allocateBlock]
  split
  · refine ⟨taken _, ?_⟩
    unfold useWholeBlock
    dsimp only
    split <;> split <;> rfl
  · refine ⟨taken _, ?_⟩
    unfold splitBlock
    dsimp only
    split <;> rfl

theorem idle_statistics (words : StatisticsWords heap) (need : Nat) (whole : need = 2 ^ 32 - mcbHeaderSize) :
    updateStatistics heap need = heap := by
  have nothing : add32 need mcbHeaderSize = 0 := by
    rw [whole]
    decide
  have free : sub32 heap.memTotalFree 0 = heap.memTotalFree := sub32_of_le _ _ words.free (Nat.zero_le _)
  have used : add32 heap.memTotalUsed 0 = heap.memTotalUsed := add32_of_lt _ _ words.used
  rw [updateStatistics, nothing, free, used]

theorem statistics_idle (used need : Nat) (small : need < 2 ^ 32)
    (same : add32 used (add32 need mcbHeaderSize) = used) : need = 2 ^ 32 - mcbHeaderSize := by
  simp only [add32, mcbHeaderSize] at same ⊢
  omega

theorem statistics_injective (used one other : Nat) (small : one < 2 ^ 32) (otherSmall : other < 2 ^ 32)
    (same : add32 used (add32 one mcbHeaderSize) = add32 used (add32 other mcbHeaderSize)) : one = other := by
  simp only [add32, mcbHeaderSize] at same
  omega

theorem served_differs (eax : Nat) (next : HeapState) (served : ∃ esi, heap.get esi .flags = mcbFlagFree ∧
    next = updateStatistics (allocateBlock heap esi (alignSize eax)) (alignSize eax)) : next.mem ≠ heap.mem := by
  intro untouched
  obtain ⟨esi, free, result⟩ := served
  have taken := (allocate_block_taken heap esi (alignSize eax)).1
  rw [← update_statistics_get _ (alignSize eax), ← result, HeapState.get, untouched, ← HeapState.get, free] at taken
  exact absurd taken (by decide)

section
variable (fuel eax pointer : Nat) (next : HeapState) (returned : kmalloc fuel heap eax = some (next, pointer))
include returned

theorem kmalloc_searches (asked : eax ≠ 0) :
    ∃ found, searchLoop heap (alignSize eax) fuel heap.heapFreeHead = some found := by
  rw [kmalloc, if_neg asked] at returned
  cases search : searchLoop heap (alignSize eax) fuel heap.heapFreeHead with
  | none =>
      rw [search] at returned
      cases returned
  | some found => exact ⟨found, rfl⟩

theorem kmalloc_effect :
    (next = heap ∧ pointer = 0 ∧ Refused heap eax) ∨
      (eax ≠ 0 ∧ next = updateStatistics heap (alignSize eax) ∧ pointer = 0 ∧
        ∃ block, Passes heap (alignSize eax) heap.heapFreeHead block ∧ block ≠ 0 ∧ heap.get block .magic ≠ mcbMagic) ∨
      (eax ≠ 0 ∧ ∃ esi, heap.get esi .flags = mcbFlagFree ∧
        next = updateStatistics (allocateBlock heap esi (alignSize eax)) (alignSize eax)) := by
  by_cases asked : eax = 0
  · rw [kmalloc, if_pos asked] at returned
    cases returned
    exact Or.inl ⟨rfl, rfl, Or.inl asked⟩
  · obtain ⟨found, search⟩ := kmalloc_searches heap fuel eax pointer next returned asked
    obtain ⟨stop, passes, verdict⟩ := search_passes heap _ _ _ found search
    rw [kmalloc, if_neg asked, search] at returned
    rcases verdict with ⟨rfl, null⟩ | ⟨rfl, notNull, broken⟩ | rfl
    · cases returned
      exact Or.inl ⟨rfl, rfl, Or.inr (Or.inl (null ▸ passes))⟩
    · cases returned
      exact Or.inr (Or.inl ⟨asked, rfl, rfl, stop, passes, notNull, broken⟩)
    · obtain ⟨result, _⟩ := Prod.mk.inj (Option.some.inj returned)
      exact Or.inr (Or.inr ⟨asked, stop, (search_found heap _ _ _ stop search).2.2.1, result.symm⟩)

theorem asked_statistics (changed : next ≠ heap) :
    eax ≠ 0 ∧ next.memTotalUsed = add32 heap.memTotalUsed (add32 (alignSize eax) mcbHeaderSize) := by
  rcases kmalloc_effect heap fuel eax pointer next returned with ⟨still, _⟩ | ⟨asked, traced, _⟩ | ⟨asked, esi, _, served⟩
  · exact absurd still changed
  · rw [traced]
    exact ⟨asked, rfl⟩
  · rw [served, updateStatistics, (allocate_block_taken heap esi (alignSize eax)).2]
    exact ⟨asked, rfl⟩

theorem unchanged_refused (still : next = heap) : Refused heap eax := by
  rcases kmalloc_effect heap fuel eax pointer next returned with ⟨_, _, refused⟩ | ⟨_, traced, _, broken⟩ | ⟨_, served⟩
  · exact refused
  · have same := congrArg HeapState.memTotalUsed (traced.symm.trans still)
    exact Or.inr (Or.inr ⟨statistics_idle _ _ (align_size_word eax) same, broken⟩)
  · exact absurd (congrArg HeapState.mem still) (served_differs heap eax next served)

theorem refused_effect (words : StatisticsWords heap) (refused : Refused heap eax) : next = heap ∧ pointer = 0 := by
  by_cases asked : eax = 0
  · rw [kmalloc, if_pos asked] at returned
    cases returned
    exact ⟨rfl, rfl⟩
  · obtain ⟨found, search⟩ := kmalloc_searches heap fuel eax pointer next returned asked
    rw [kmalloc, if_neg asked, search] at returned
    rcases refused with zero | passes | ⟨whole, block, passes, notNull, broken⟩
    · exact absurd zero asked
    · have failed := (passes_search heap _ _ _ 0 passes found search).1 rfl
      subst failed
      cases returned
      exact ⟨rfl, rfl⟩
    · have corrupted := (passes_search heap _ _ _ block passes found search).2 notNull broken
      rw [corrupted] at returned
      obtain ⟨result, null⟩ := Prod.mk.inj (Option.some.inj returned)
      exact ⟨result.symm.trans (idle_statistics heap words _ whole), null.symm⟩
end

section
variable (fuel other eax eax' pointer pointer' : Nat) (next next' : HeapState)
  (returned : kmalloc fuel heap eax = some (next, pointer)) (returned' : kmalloc other heap eax' = some (next', pointer'))
include returned returned'

theorem same_size_effect (asked : eax ≠ 0) (asked' : eax' ≠ 0) (same : alignSize eax = alignSize eax') :
    next = next' ∧ pointer = pointer' := by
  obtain ⟨found, search⟩ := kmalloc_searches heap fuel eax pointer next returned asked
  obtain ⟨found', search'⟩ := kmalloc_searches heap other eax' pointer' next' returned' asked'
  rw [← same] at search'
  have equal := search_unique heap _ _ _ _ found found' search search'
  rw [kmalloc, if_neg asked, search] at returned
  rw [kmalloc, if_neg asked', ← same, search', ← equal] at returned'
  have results : some (next, pointer) = some (next', pointer') := returned.symm.trans returned'
  cases results
  exact ⟨rfl, rfl⟩

theorem same_effect_iff (words : StatisticsWords heap) :
    (next = next' ∧ pointer = pointer') ↔ SameRequest heap eax eax' := by
  constructor
  · rintro ⟨same, _⟩
    by_cases still : next = heap
    · exact Or.inr ⟨unchanged_refused heap fuel eax pointer next returned still,
        unchanged_refused heap other eax' pointer' next' returned' (same.symm.trans still)⟩
    · obtain ⟨asked, used⟩ := asked_statistics heap fuel eax pointer next returned still
      obtain ⟨asked', used'⟩ := asked_statistics heap other eax' pointer' next' returned' (same ▸ still)
      rw [same, used'] at used
      exact Or.inl ⟨asked, asked',
        statistics_injective _ _ _ (align_size_word eax) (align_size_word eax') used.symm⟩
  · rintro (⟨asked, asked', sizes⟩ | ⟨refused, refused'⟩)
    · exact same_size_effect heap fuel other eax eax' pointer pointer' next next' returned returned' asked asked' sizes
    · obtain ⟨still, null⟩ := refused_effect heap fuel eax pointer next returned words refused
      obtain ⟨still', null'⟩ := refused_effect heap other eax' pointer' next' returned' words refused'
      exact ⟨still.trans still'.symm, null.trans null'.symm⟩
end
end

theorem kfree_call_eax (heap : HeapState) (regs : Registers) (ptr : Nat) :
    kfreeCall heap regs ptr = (kfree heap regs.eax, regs) := rfl

structure Linked (heap : HeapState) (headers : List Nat) : Prop where
  next : ∀ block ∈ headers, heap.get block .next = 0 ∨ heap.get block .next ∈ headers
  prev : ∀ block ∈ headers, heap.get block .prev = 0 ∨ heap.get block .prev ∈ headers
  head : heap.heapFreeHead = 0 ∨ heap.heapFreeHead ∈ headers

-- Whatever carries the magic number is one of these headers, and no two of them overlap.
structure HeadersLinked (heap : HeapState) (headers : List Nat) : Prop where
  separate : Separate headers
  complete : ∀ block < 2 ^ 32, heap.get block .magic = mcbMagic → block ∈ headers
  linked : Linked heap headers

section
variable (heap : HeapState) (headers : List Nat) (separate : Separate headers) (linked : Linked heap headers)
include separate linked

theorem mark_free_linked (esi : Nat) (esiIn : esi ∈ headers) : Linked (markFree heap esi) headers := by
  have same (block : Nat) (member : block ∈ headers) (field : Field) (link : field ≠ .flags) :
      (markFree heap esi).get block field = heap.get block field := by
    rw [mark_free_get heap headers separate esi block field esiIn member, if_neg fun both => link both.2]
  refine ⟨fun block member => ?_, fun block member => ?_, linked.head⟩
  · rw [same block member .next (by decide)]
    exact linked.next block member
  · rw [same block member .prev (by decide)]
    exact linked.prev block member

theorem absorb_linked (front back : Nat) (frontIn : front ∈ headers) (backIn : back ∈ headers) :
    Linked (absorb heap front back) headers ∧
      ∀ block ∈ headers, (absorb heap front back).get block .flags = heap.get block .flags := by
  have read (block : Nat) (member : block ∈ headers) (field : Field) :=
    absorb_get heap headers separate front back block field frontIn backIn member (linked.next back backIn)
  refine ⟨⟨fun block member => ?_, fun block member => ?_, ?_⟩, fun block member => ?_⟩
  · rw [read block member .next, if_neg (by simp)]
    split
    · exact linked.next back backIn
    · rw [if_neg (by simp)]
      exact linked.next block member
  · rw [read block member .prev]
    split
    · exact Or.inr frontIn
    · rw [if_neg (by simp), if_neg (by simp)]
      exact linked.prev block member
  · rw [(absorb_frame heap front back).2.2.2]
    exact linked.head
  · rw [read block member .flags, if_neg (by simp), if_neg (by simp), if_neg (by simp)]

theorem coalesce_next_linked (esi : Nat) (esiIn : esi ∈ headers) : Linked (coalesceNext heap esi) headers ∧
    ∀ block ∈ headers, (coalesceNext heap esi).get block .flags = heap.get block .flags := by
  unfold coalesceNext
  dsimp only
  split
  · rename_i merges
    exact absorb_linked heap headers separate linked esi _ esiIn ((linked.next esi esiIn).resolve_left merges.1)
  · exact ⟨linked, fun _ _ => rfl⟩

theorem check_prev_flags (esi : Nat) (esiIn : esi ∈ headers) (block : Nat) (member : block ∈ headers) :
    (checkPrev heap esi).get block .flags = heap.get block .flags := by
  unfold checkPrev
  dsimp only
  split
  · rename_i merges
    exact (absorb_linked heap headers separate linked _ esi ((linked.prev esi esiIn).resolve_left merges.1) esiIn).2
      block member
  · have word : heap.heapFreeHead < 2 ^ 32 := by
      rcases linked.head with null | member
      · rw [null]
        decide
      · exact header_lt headers separate _ member
    rw [add_to_free_list_get heap headers separate esi block .flags esiIn member linked.head word, if_neg (by simp),
      if_neg (by simp), if_neg (by simp)]
end

section
variable (heap : HeapState)

theorem ignored_unchanged (eax : Nat) (ignored : Ignored heap eax) : kfree heap eax = heap := by
  unfold kfree
  dsimp only
  split
  · rfl
  · rename_i notNull
    split
    · rfl
    · rename_i sound
      rw [if_pos ((ignored.resolve_left notNull).resolve_left sound)]

theorem freed_flags (headers : List Nat) (memory : HeadersLinked heap headers) (eax : Nat) (acts : ¬ Ignored heap eax) :
    sub32 eax mcbHeaderSize ∈ headers ∧ heap.get (sub32 eax mcbHeaderSize) .flags ≠ mcbFlagFree ∧
      ∀ block ∈ headers, (kfree heap eax).get block .flags =
        if block = sub32 eax mcbHeaderSize then mcbFlagFree else heap.get block .flags := by
  simp only [Ignored, not_or, not_not] at acts
  obtain ⟨notNull, sound, used⟩ := acts
  have esiIn : sub32 eax mcbHeaderSize ∈ headers := memory.complete _ (Nat.mod_lt _ (by decide)) sound
  refine ⟨esiIn, used, fun block member => ?_⟩
  have marked := mark_free_linked heap headers memory.separate memory.linked _ esiIn
  obtain ⟨joined, kept⟩ := coalesce_next_linked _ headers memory.separate marked _ esiIn
  rw [kfree, if_neg notNull]
  dsimp only
  rw [if_neg (not_not_intro sound), if_neg used, check_prev_flags _ headers memory.separate joined _ esiIn block member,
    kept block member, mark_free_get heap headers memory.separate _ block .flags esiIn member]
  simp only [and_true]

theorem same_free_unchanged (one other : Nat) (same : SameFree heap one other) : kfree heap one = kfree heap other := by
  rcases same with rfl | ⟨ignored, ignored'⟩
  · rfl
  · rw [ignored_unchanged heap one ignored, ignored_unchanged heap other ignored']

theorem unchanged_same_free (headers : List Nat) (memory : HeadersLinked heap headers) (one other : Nat)
    (word : one < 2 ^ 32) (word' : other < 2 ^ 32) (same : kfree heap one = kfree heap other) : SameFree heap one other := by
  -- A block that only one of the two calls frees tells them apart.
  have apart (eax eax' : Nat) (equal : kfree heap eax = kfree heap eax') (acts : ¬ Ignored heap eax)
      (keeps : heap.get (sub32 eax mcbHeaderSize) .flags ≠ mcbFlagFree →
        (kfree heap eax').get (sub32 eax mcbHeaderSize) .flags ≠ mcbFlagFree) : False := by
    obtain ⟨member, used, flags⟩ := freed_flags heap headers memory eax acts
    apply keeps used
    rw [← equal, flags _ member, if_pos rfl]
  by_cases ignored : Ignored heap one
  · by_cases ignored' : Ignored heap other
    · exact Or.inr ⟨ignored, ignored'⟩
    · refine False.elim (apart other one same.symm ignored' fun used => ?_)
      rw [ignored_unchanged heap one ignored]
      exact used
  · by_cases ignored' : Ignored heap other
    · refine False.elim (apart one other same ignored fun used => ?_)
      rw [ignored_unchanged heap other ignored']
      exact used
    · by_cases block : sub32 one mcbHeaderSize = sub32 other mcbHeaderSize
      · apply Or.inl
        simp only [sub32, mcbHeaderSize] at block
        omega
      · refine False.elim (apart one other same ignored fun used => ?_)
        obtain ⟨_, _, flags⟩ := freed_flags heap headers memory other ignored'
        rw [flags _ (freed_flags heap headers memory one ignored).1, if_neg block]
        exact used
end

structure CallsAgree (one other after after' : Registers) (next next' : HeapState) : Prop where
  pointer : after.eax = after'.eax
  heap : next = next'
  kept : Kept one after
  kept' : Kept other after'

theorem kmalloc_calls_agree (heap : HeapState) (words : StatisticsWords heap) (one other after after' : Registers)
    (size fuel fuel' : Nat) (next next' : HeapState) (returned : kmallocCall fuel heap one size = some (next, after))
    (returned' : kmallocCall fuel' heap other size = some (next', after')) :
    CallsAgree one other after after' next next' ↔
      SameRequest heap one.eax other.eax ∧ SlotKept one ∧ SlotKept other := by
  rw [kmalloc_call_eax] at returned returned'
  obtain ⟨⟨heap₁, pointer⟩, done, result⟩ := Option.map_eq_some_iff.mp returned
  obtain ⟨⟨heap₂, pointer'⟩, done', result'⟩ := Option.map_eq_some_iff.mp returned'
  obtain ⟨rfl, rfl⟩ := Prod.mk.inj result
  obtain ⟨rfl, rfl⟩ := Prod.mk.inj result'
  have effect := same_effect_iff heap fuel fuel' one.eax other.eax pointer pointer' _ _ done done' words
  rw [← effect, ← kmalloc_call_keeps one pointer, ← kmalloc_call_keeps other pointer']
  exact ⟨fun agree => ⟨⟨agree.heap, agree.pointer⟩, agree.kept, agree.kept'⟩,
    fun ⟨⟨same, pointers⟩, kept, kept'⟩ => ⟨pointers, same, kept, kept'⟩⟩

theorem calls_follow_registers (heap : HeapState) (words : StatisticsWords heap) (one other : Registers)
    (word : one.eax < 2 ^ 32) (word' : other.eax < 2 ^ 32) (size ptr : Nat) :
    (∀ fuel fuel' next next' after after', kmallocCall fuel heap one size = some (next, after) →
      kmallocCall fuel' heap other size = some (next', after') →
        (CallsAgree one other after after' next next' ↔
          SameRequest heap one.eax other.eax ∧ SlotKept one ∧ SlotKept other)) ∧
      Kept one (kfreeCall heap one ptr).2 ∧ Kept other (kfreeCall heap other ptr).2 ∧
      (SameFree heap one.eax other.eax → (kfreeCall heap one ptr).1 = (kfreeCall heap other ptr).1) ∧
      ∀ headers, HeadersLinked heap headers →
        ((kfreeCall heap one ptr).1 = (kfreeCall heap other ptr).1 ↔ SameFree heap one.eax other.eax) := by
  have freed := same_free_unchanged heap one.eax other.eax
  simp only [kfree_call_eax]
  refine ⟨fun fuel fuel' next next' after after' returned returned' => ?_, ⟨rfl, rfl, rfl, rfl⟩, ⟨rfl, rfl, rfl, rfl⟩, freed,
    fun headers memory => ⟨unchanged_same_free heap headers memory one.eax other.eax word word', freed⟩⟩
  exact kmalloc_calls_agree heap words one other after after' size fuel fuel' next next' returned returned'

def startHeap : HeapState := (zeroHeap 4096 1024).heap

def callerOne : Registers := ⟨5, 1, 2, 3, 4, 8, 6⟩

def callerOther : Registers := ⟨7, 10, 20, 30, 40, 8, 60⟩

theorem calls_follow_registers_aligned : ∃ next after after', kmallocCall 9 startHeap callerOne 5 = some (next, after) ∧
    kmallocCall 9 startHeap callerOther 5 = some (next, after') ∧ after.eax = after'.eax ∧ Kept callerOne after ∧
      Kept callerOther after' := by
  have evaluated : (kmallocCall 9 startHeap callerOne 5).isSome = true ∧
      (kmallocCall 9 startHeap callerOther 5).isSome = true := by decide +kernel
  obtain ⟨⟨next, after⟩, returned⟩ := Option.isSome_iff_exists.mp evaluated.1
  obtain ⟨⟨next', after'⟩, returned'⟩ := Option.isSome_iff_exists.mp evaluated.2
  have words : StatisticsWords startHeap := ⟨by decide +kernel, by decide +kernel⟩
  have agree := ((calls_follow_registers startHeap words callerOne callerOther (by decide) (by decide) 5 0).1 9 9 next next'
    after after' returned returned').mpr ⟨Or.inl ⟨by decide, by decide, by decide⟩, Or.inr (by decide), Or.inr (by decide)⟩
  exact ⟨next, after, after', returned, agree.heap ▸ returned', agree.pointer, agree.kept, agree.kept'⟩

theorem calls_not_by_argument : ¬ ∀ heap one other after after' size fuel next next',
    kmallocCall fuel heap one size = some (next, after) → kmallocCall fuel heap other size = some (next', after') →
      CallsAgree one other after after' next next' := by
  intro claimed
  have evaluated : (kmallocCall 9 startHeap callerOne 5).any (fun result => result.2.eax = 4116) = true ∧
      (kmallocCall 9 startHeap ⟨0, 1, 2, 3, 4, 8, 6⟩ 5).any (fun result => result.2.eax = 0) = true := by decide +kernel
  obtain ⟨⟨next, after⟩, returned, pointer⟩ := (Option.any_eq_true _ _).mp evaluated.1
  obtain ⟨⟨next', after'⟩, returned', pointer'⟩ := (Option.any_eq_true _ _).mp evaluated.2
  have agree := claimed _ _ _ _ _ _ _ _ _ returned returned'
  have same := agree.pointer
  rw [of_decide_eq_true pointer, of_decide_eq_true pointer'] at same
  exact absurd same (by decide)

end RoDos.Heap
