import RoDos.Heap.Allocate
import RoDos.Heap.Release

set_option autoImplicit false

namespace RoDos.Heap

open Base

def KmallocSound (heap : HeapState) (eax : Nat) : Prop :=
  ∀ fuel esi, eax ≠ 0 → searchLoop heap (alignSize eax) fuel heap.heapFreeHead = some (.block esi) →
    HeapBlock heap esi ∧ alignSize eax + mcbHeaderSize ≤ heap.get esi .size ∧
      LinkSound heap (heap.get esi .next) ∧
      (heap.get esi .size < alignSize eax + mcbHeaderSize + minSplitSize → LinkSound heap (heap.get esi .prev))

theorem search_found (heap : HeapState) (need fuel start esi : Nat)
    (found : searchLoop heap need fuel start = some (.block esi)) :
    esi ≠ 0 ∧ heap.get esi .magic = mcbMagic ∧ heap.get esi .flags = mcbFlagFree ∧ need ≤ heap.get esi .size := by
  induction fuel generalizing start with
  | zero => simp [searchLoop] at found
  | succ fuel ih =>
      unfold searchLoop at found
      by_cases null : start = 0
      · simp [null] at found
      · by_cases corrupted : heap.get start .magic ≠ mcbMagic
        · simp [null, corrupted] at found
        · by_cases fits : heap.get start .flags = mcbFlagFree ∧ need ≤ heap.get start .size
          · simp only [if_neg null, if_neg corrupted, if_pos fits, Option.some.injEq, Search.block.injEq] at found
            subst found
            exact ⟨null, not_not.mp corrupted, fits.1, fits.2⟩
          · simp only [if_neg null, if_neg corrupted, if_neg fits] at found
            exact ih _ found

theorem update_statistics_get (heap : HeapState) (need block : Nat) (field : Field) :
    (updateStatistics heap need).get block field = heap.get block field := rfl

theorem update_statistics_head (heap : HeapState) (need : Nat) :
    (updateStatistics heap need).heapFreeHead = heap.heapFreeHead := rfl

theorem update_statistics_evolves (heap : HeapState) (blocks : List Nat) (need : Nat) (tiled : Tiled heap blocks) :
    Evolves heap blocks (updateStatistics heap need) blocks :=
  link_writes_evolve heap _ blocks tiled ⟨rfl, rfl, rfl⟩ fun block _ field _ _ =>
    update_statistics_get heap need block field

theorem allocate_block_takes (heap : HeapState) (blocks : List Nat) (tiled : Tiled heap blocks) (esi need : Nat)
    (esiIn : esi ∈ blocks) (free : heap.get esi .flags = mcbFlagFree)
    (room : need + mcbHeaderSize ≤ heap.get esi .size)
    (nextIn : heap.get esi .next = 0 ∨ heap.get esi .next ∈ blocks)
    (prevIn : heap.get esi .size < need + mcbHeaderSize + minSplitSize →
      heap.get esi .prev = 0 ∨ heap.get esi .prev ∈ blocks) :
    ∃ after, Takes heap blocks (allocateBlock heap esi need) after esi need := by
  have word := get_lt heap esi .size
  have remaining : sub32 (sub32 (heap.get esi .size) need) mcbHeaderSize =
      heap.get esi .size - need - mcbHeaderSize := by
    rw [sub32_of_le (heap.get esi .size), sub32_of_le] <;> omega
  unfold allocateBlock
  rw [remaining]
  by_cases small : heap.get esi .size - need - mcbHeaderSize < minSplitSize
  · rw [if_pos small]
    exact ⟨blocks, use_whole_block_takes heap blocks tiled esi esiIn free need (by omega) (prevIn (by omega)) nextIn⟩
  · rw [if_neg small]
    obtain ⟨after, takes, _⟩ := split_block_takes heap blocks tiled esi esiIn free need room nextIn
    exact ⟨after, takes⟩

theorem kmalloc_cases (fuel : Nat) (heap next : HeapState) (eax pointer : Nat)
    (returned : kmalloc fuel heap eax = some (next, pointer)) :
    (pointer = 0 ∧ (next = heap ∨ next = updateStatistics heap (alignSize eax))) ∨
      ∃ esi, eax ≠ 0 ∧ searchLoop heap (alignSize eax) fuel heap.heapFreeHead = some (.block esi) ∧
        pointer = add32 esi mcbHeaderSize ∧
        next = updateStatistics (allocateBlock heap esi (alignSize eax)) (alignSize eax) := by
  rw [kmalloc] at returned
  by_cases zero : eax = 0
  · rw [if_pos zero] at returned
    cases returned
    exact Or.inl ⟨rfl, Or.inl rfl⟩
  · rw [if_neg zero] at returned
    cases search : searchLoop heap (alignSize eax) fuel heap.heapFreeHead with
    | none =>
        rw [search] at returned
        cases returned
    | some result =>
        rw [search] at returned
        cases result with
        | failed =>
            cases returned
            exact Or.inl ⟨rfl, Or.inl rfl⟩
        | corrupted =>
            cases returned
            exact Or.inl ⟨rfl, Or.inr rfl⟩
        | block esi =>
            obtain ⟨result, address⟩ := Prod.mk.inj (Option.some.inj returned)
            exact Or.inr ⟨esi, zero, rfl, address.symm, result.symm⟩

theorem kmalloc_takes (heap next : HeapState) (blocks : List Nat) (tiled : Tiled heap blocks)
    (eax fuel pointer : Nat) (sound : KmallocSound heap eax)
    (returned : kmalloc fuel heap eax = some (next, pointer)) :
    (pointer = 0 ∧ Evolves heap blocks next blocks) ∨
      ∃ esi after, pointer = esi + mcbHeaderSize ∧ Takes heap blocks next after esi (alignSize eax) := by
  rcases kmalloc_cases fuel heap next eax pointer returned with ⟨null, rfl | rfl⟩ | ⟨esi, asked, search, address, rfl⟩
  · exact Or.inl ⟨null, tiled, List.Perm.refl _, fun _ _ => rfl⟩
  · exact Or.inl ⟨null, update_statistics_evolves heap blocks (alignSize eax) tiled⟩
  · have onWalk := heap_block_iff heap blocks tiled
    obtain ⟨walked, room, nextSound, prevSound⟩ := sound fuel esi asked search
    have esiIn := (onWalk esi).mp walked
    obtain ⟨after, takes⟩ := allocate_block_takes heap blocks tiled esi (alignSize eax) esiIn
      (search_found heap _ _ _ _ search).2.2.1 room (nextSound.imp_right (onWalk _).mp)
      (fun small => (prevSound small).imp_right (onWalk _).mp)
    have inside := (tiled_separate heap blocks tiled).inside esi esiIn
    have counted := update_statistics_evolves _ after (alignSize eax) takes.tiled
    refine Or.inr ⟨esi, after, address.trans (add32_of_lt _ _ inside), counted.tiled, counted.used.trans takes.used, ?_, ?_⟩
    · intro other member
      rw [update_statistics_get]
      exact takes.sizes other member
    · rw [update_statistics_get]
      exact takes.room

structure Accounted (machine : Machine) (blocks : List Nat) : Prop where
  used : (machine.live.map Allocation.block).Perm (usedBlocks machine.heap blocks)
  pointer : ∀ allocation ∈ machine.live, allocation.pointer = allocation.block + mcbHeaderSize
  fits : ∀ allocation ∈ machine.live, allocation.requested + 3 < 2 ^ 32 →
    allocation.requested ≤ payloadSize machine.heap allocation

theorem accounted_block (machine : Machine) (blocks : List Nat) (accounted : Accounted machine blocks)
    (allocation : Allocation) (alive : allocation ∈ machine.live) :
    allocation.block ∈ blocks ∧ machine.heap.get allocation.block .flags ≠ mcbFlagFree :=
  (mem_used_blocks _ _ _).mp (accounted.used.mem_iff.mp (List.mem_map_of_mem alive))

theorem align_size_covers (eax : Nat) (small : eax + 3 < 2 ^ 32) : eax ≤ alignSize eax := by
  unfold alignSize
  rw [add32_of_lt _ _ small]
  omega

theorem takes_accounted (machine : Machine) (next : HeapState) (blocks after : List Nat) (esi eax : Nat)
    (accounted : Accounted machine blocks)
    (takes : Takes machine.heap blocks next after esi (alignSize eax)) :
    Accounted ⟨next, ⟨esi + mcbHeaderSize, eax⟩ :: machine.live⟩ after := by
  have block : Allocation.block ⟨esi + mcbHeaderSize, eax⟩ = esi := Nat.add_sub_cancel _ _
  refine ⟨?_, ?_, ?_⟩
  · simp only [List.map_cons, block]
    exact (List.Perm.cons _ accounted.used).trans takes.used.symm
  · intro allocation alive
    rcases List.mem_cons.mp alive with rfl | older
    · rw [block]
    · exact accounted.pointer allocation older
  · intro allocation alive small
    rcases List.mem_cons.mp alive with rfl | older
    · rw [payloadSize, block]
      exact Nat.le_trans (align_size_covers eax small) takes.room
    · have used := accounted.used.mem_iff.mp (List.mem_map_of_mem older)
      rw [payloadSize, takes.sizes _ used]
      exact accounted.fits allocation older small

theorem evolves_accounted (machine : Machine) (next : HeapState) (blocks after : List Nat)
    (accounted : Accounted machine blocks) (evolves : Evolves machine.heap blocks next after) :
    Accounted ⟨next, machine.live⟩ after := by
  refine ⟨accounted.used.trans evolves.used.symm, accounted.pointer, fun allocation alive small => ?_⟩
  have used := accounted.used.mem_iff.mp (List.mem_map_of_mem alive)
  rw [payloadSize, evolves.sizes _ used]
  exact accounted.fits allocation alive small

theorem frees_accounted (machine : Machine) (next : HeapState) (blocks after : List Nat) (allocation : Allocation)
    (accounted : Accounted machine blocks) (alive : allocation ∈ machine.live)
    (frees : Frees machine.heap blocks next after allocation.block) :
    Accounted ⟨next, machine.live.erase allocation⟩ after := by
  have remaining : ((machine.live.erase allocation).map Allocation.block).Perm (usedBlocks next after) := by
    have removed := (List.perm_cons_erase alive).map Allocation.block
    exact ((removed.symm.trans accounted.used).trans frees.used).cons_inv
  refine ⟨remaining, fun other kept => accounted.pointer other (List.mem_of_mem_erase kept), ?_⟩
  intro other kept small
  have used := remaining.mem_iff.mp (List.mem_map_of_mem kept)
  rw [payloadSize, frees.sizes _ used]
  exact accounted.fits other (List.mem_of_mem_erase kept) small

-- A program's own stores stay behind the header of their block and before the next one.
theorem write_get (machine : Machine) (blocks : List Nat) (tiled : Tiled machine.heap blocks)
    (accounted : Accounted machine blocks) (allocation : Allocation) (alive : allocation ∈ machine.live)
    (address : Nat) (byte : UInt8) (above : allocation.pointer ≤ address)
    (below : address < allocation.pointer + payloadSize machine.heap allocation) (block : Nat) (field : Field)
    (other : block ∈ blocks) :
    HeapState.get { machine.heap with mem := storeByte machine.heap.mem address byte } block field =
      machine.heap.get block field := by
  obtain ⟨member, _⟩ := accounted_block machine blocks accounted allocation alive
  have pointer := accounted.pointer allocation alive
  have bound := tiled_bound machine.heap blocks tiled allocation.block member
  have bounded := tiled.bounded
  have blockBound := tiled_bound machine.heap blocks tiled block other
  have offset := offset_bound field
  unfold payloadSize at below
  unfold cell at bound blockBound
  refine load_word_store_byte _ _ _ _ (by omega) (by omega) ?_
  by_cases same : block = allocation.block
  · subst same
    omega
  · have apart := tiles_apart _ _ _ tiled.tiles block allocation.block other member same
    unfold cell at apart
    omega

theorem write_evolves (machine : Machine) (blocks : List Nat) (tiled : Tiled machine.heap blocks)
    (accounted : Accounted machine blocks) (allocation : Allocation) (alive : allocation ∈ machine.live)
    (address : Nat) (byte : UInt8) (above : allocation.pointer ≤ address)
    (below : address < allocation.pointer + payloadSize machine.heap allocation) :
    Evolves machine.heap blocks { machine.heap with mem := storeByte machine.heap.mem address byte } blocks :=
  link_writes_evolve machine.heap _ blocks tiled ⟨rfl, rfl, rfl⟩ fun block other field _ _ =>
    write_get machine blocks tiled accounted allocation alive address byte above below block field other

def Sound (machine : Machine) : Prop :=
  ∃ blocks, Tiled machine.heap blocks ∧ Accounted machine blocks

def StepSound (machine : Machine) : HeapOp → Prop
  | .kmalloc eax => KmallocSound machine.heap eax
  | .kfree eax => KfreeSound machine.heap eax
  | .write _ _ => True

theorem step_sound (machine next : Machine) (op : HeapOp) (sound : Sound machine)
    (admitted : StepSound machine op) (taken : HeapStep machine op next) : Sound next := by
  obtain ⟨blocks, tiled, accounted⟩ := sound
  cases taken with
  | kmalloc eax fuel pointer heap word returned =>
      rcases kmalloc_takes machine.heap heap blocks tiled eax fuel pointer admitted returned with
        ⟨null, evolves⟩ | ⟨esi, after, rfl, takes⟩
      · rw [if_pos null]
        exact ⟨blocks, evolves.tiled, evolves_accounted machine heap blocks blocks accounted evolves⟩
      · have notNull : esi + mcbHeaderSize ≠ 0 := by simp [mcbHeaderSize]
        rw [if_neg notNull]
        exact ⟨after, takes.tiled, takes_accounted machine heap blocks after esi eax accounted takes⟩
  | kfree allocation alive =>
      obtain ⟨member, used⟩ := accounted_block machine blocks accounted allocation alive
      have pointer := accounted.pointer allocation alive
      have admitted : KfreeSound machine.heap allocation.pointer := admitted
      rw [pointer] at admitted ⊢
      obtain ⟨after, frees⟩ := kfree_frees machine.heap blocks tiled allocation.block member used admitted
      exact ⟨after, frees.tiled, frees_accounted machine _ blocks after allocation accounted alive frees⟩
  | write allocation address byte alive above below =>
      have evolves := write_evolves machine blocks tiled accounted allocation alive address byte above below
      exact ⟨blocks, evolves.tiled, evolves_accounted machine _ blocks blocks accounted evolves⟩

section
variable (heap : HeapState) (base size : Nat) (notNull : base ≠ 0) (enough : 1024 ≤ size)
  (inside : base + size < 2 ^ 32) (positive : size < 2 ^ 31)
include notNull enough inside positive

omit inside in
theorem mem_init_valid : ¬ (base = 0 ∨ size < 1024) ∧ ¬ signed32 size ≤ (mcbHeaderSize : Int) := by
  have header : mcbHeaderSize = 20 := rfl
  refine ⟨by omega, ?_⟩
  rw [signed32, if_pos positive]
  omega

theorem mem_init_bounds : (memInit heap base size).1.heapBase = base ∧ (memInit heap base size).1.heapSize = size ∧
    (memInit heap base size).1.heapEnd = base + size ∧ (memInit heap base size).1.heapFreeHead = base ∧
    (memInit heap base size).2 = 0 := by
  obtain ⟨valid, large⟩ := mem_init_valid base size notNull enough positive
  have ended : add32 size base = base + size := by rw [add32_of_lt] <;> omega
  rw [memInit]
  simp only [if_neg valid, if_neg large, ended]
  exact ⟨rfl, rfl, rfl, trivial, trivial⟩

theorem mem_init_read (field : Field) : (memInit heap base size).1.get base field =
    match field with
    | .prev => 0
    | .next => 0
    | .size => size - mcbHeaderSize
    | .magic => mcbMagic
    | .flags => mcbFlagFree := by
  have header : mcbHeaderSize = 20 := rfl
  obtain ⟨valid, large⟩ := mem_init_valid base size notNull enough positive
  have payload : sub32 size mcbHeaderSize = size - mcbHeaderSize := sub32_of_le _ _ (by omega) (by omega)
  have separate : Separate [base] := by
    refine ⟨fun a member => ?_, fun a left b right => ?_⟩
    · rw [List.mem_singleton.mp member]
      omega
    · rw [List.mem_singleton.mp left, List.mem_singleton.mp right]
      exact Or.inl rfl
  have baseIn : base ∈ [base] := List.mem_singleton_self base
  have sizeWord : size - mcbHeaderSize < 2 ^ 32 := by omega
  have nullWord : (0 : Nat) < 2 ^ 32 := by decide
  have magicWord : mcbMagic < 2 ^ 32 := by decide
  have freeWord : mcbFlagFree < 2 ^ 32 := by decide
  have stored (other : HeapState) (head free used count block : Nat) (f : Field) :
      HeapState.get { other with heapFreeHead := head, memTotalFree := free, memTotalUsed := used,
                                 memNumBlocks := count } block f = other.get block f := rfl
  rw [memInit]
  simp only [if_neg valid, if_neg large, payload, stored]
  simp (disch := assumption) only [get_set _ [base] separate]
  cases field <;> simp

theorem mem_init_accepts :
    (memInit heap base size).2 = 0 ∧ Tiled (memInit heap base size).1 [base] ∧
      (memInit heap base size).1.heapSize = size ∧ (memInit heap base size).1.heapFreeHead = base ∧
      ∀ field, (memInit heap base size).1.get base field =
        match field with
        | .prev => 0
        | .next => 0
        | .size => size - mcbHeaderSize
        | .magic => mcbMagic
        | .flags => mcbFlagFree := by
  have header : mcbHeaderSize = 20 := rfl
  have read := mem_init_read heap base size notNull enough inside positive
  obtain ⟨start, extent, ended, head, status⟩ := mem_init_bounds heap base size notNull enough inside positive
  refine ⟨status, ⟨?_, ?_, ?_, ?_, ?_, ?_⟩, extent, head, read⟩
  · rw [start, ended]
    refine ⟨rfl, ?_⟩
    simp only [Tiles, cell, read]
    omega
  · rw [start]; omega
  · rw [ended]; exact inside
  · rw [start, extent, ended]
  · intro block member
    rw [List.mem_singleton.mp member, read]
  · intro block member
    rw [List.mem_singleton.mp member, read]
    exact Or.inl rfl
end

-- From 2^31 bytes on the signed test of mem_init reports an error and links no block.
theorem mem_init_rejects (heap : HeapState) (base size : Nat) (large : 2 ^ 31 ≤ size) (word : size < 2 ^ 32) :
    (memInit heap base size).2 ≠ 0 ∧ (memInit heap base size).1.heapFreeHead = heap.heapFreeHead := by
  have negative : signed32 size ≤ (mcbHeaderSize : Int) := by
    have header : mcbHeaderSize = 20 := rfl
    unfold signed32
    rw [if_neg (by omega)]
    omega
  unfold memInit
  by_cases invalid : base = 0 ∨ size < 1024
  · simp [invalid]
  · simp only [if_neg invalid, if_pos negative]
    exact ⟨by decide, rfl⟩

theorem update_statistics_region (heap : HeapState) (need : Nat) :
    (updateStatistics heap need).heapBase = heap.heapBase ∧
      (updateStatistics heap need).heapSize = heap.heapSize := ⟨rfl, rfl⟩

theorem allocate_block_region (heap : HeapState) (esi need : Nat) :
    (allocateBlock heap esi need).heapBase = heap.heapBase ∧
      (allocateBlock heap esi need).heapSize = heap.heapSize := by
  have split := split_block_frame heap esi need
  have whole := use_whole_block_frame heap esi
  by_cases small : sub32 (sub32 (heap.get esi .size) need) mcbHeaderSize < minSplitSize
  · rw [allocateBlock, if_pos small]
    exact ⟨whole.1, whole.2.1⟩
  · rw [allocateBlock, if_neg small]
    exact ⟨split.1, split.2.1⟩

theorem kmalloc_region (fuel : Nat) (heap next : HeapState) (eax pointer : Nat)
    (returned : kmalloc fuel heap eax = some (next, pointer)) :
    next.heapBase = heap.heapBase ∧ next.heapSize = heap.heapSize := by
  rcases kmalloc_cases fuel heap next eax pointer returned with ⟨_, rfl | rfl⟩ | ⟨esi, _, _, _, rfl⟩
  · exact ⟨rfl, rfl⟩
  · exact update_statistics_region heap (alignSize eax)
  · have region := allocate_block_region heap esi (alignSize eax)
    have counted := update_statistics_region (allocateBlock heap esi (alignSize eax)) (alignSize eax)
    rw [counted.1, counted.2]
    exact region

theorem kfree_region (heap : HeapState) (eax : Nat) :
    (kfree heap eax).heapBase = heap.heapBase ∧ (kfree heap eax).heapSize = heap.heapSize := by
  have merged (state : HeapState) (esi : Nat) : (coalesceNext state esi).heapBase = state.heapBase ∧
      (coalesceNext state esi).heapSize = state.heapSize := by
    have frame := absorb_frame state esi (state.get esi .next)
    unfold coalesceNext
    dsimp only
    split
    · exact ⟨frame.1, frame.2.1⟩
    · exact ⟨rfl, rfl⟩
  have linked (state : HeapState) (esi : Nat) : (checkPrev state esi).heapBase = state.heapBase ∧
      (checkPrev state esi).heapSize = state.heapSize := by
    have frame := absorb_frame state (state.get esi .prev) esi
    have pushed := add_to_free_list_frame state esi
    unfold checkPrev
    dsimp only
    split
    · exact ⟨frame.1, frame.2.1⟩
    · exact ⟨pushed.1, pushed.2.1⟩
  unfold kfree
  dsimp only
  repeat' split
  · exact ⟨rfl, rfl⟩
  · exact ⟨rfl, rfl⟩
  · exact ⟨rfl, rfl⟩
  · rw [(linked _ _).1, (linked _ _).2, (merged _ _).1, (merged _ _).2]
    exact ⟨rfl, rfl⟩

theorem step_region (machine next : Machine) (op : HeapOp) (taken : HeapStep machine op next) :
    next.heap.heapBase = machine.heap.heapBase ∧ next.heap.heapSize = machine.heap.heapSize := by
  cases taken with
  | kmalloc eax fuel pointer heap word returned => exact kmalloc_region fuel _ _ eax pointer returned
  | kfree allocation alive => exact kfree_region _ _
  | write allocation address byte alive above below => exact ⟨rfl, rfl⟩

def Allocation.Disjoint (a b : Allocation) : Prop :=
  a.pointer + a.requested ≤ b.pointer ∨ b.pointer + b.requested ≤ a.pointer

structure PayloadsApart (machine : Machine) : Prop where
  inside : ∀ allocation ∈ machine.live, machine.heap.heapBase ≤ allocation.pointer ∧
    allocation.pointer + allocation.requested ≤ machine.heap.heapEnd
  disjoint : machine.live.Pairwise Allocation.Disjoint
  headers : ∀ allocation ∈ machine.live, ∀ block, HeapBlock machine.heap block →
    block + mcbHeaderSize ≤ allocation.pointer ∨ allocation.pointer + allocation.requested ≤ block

def RequestFits (machine : Machine) : HeapOp → Prop
  | .kmalloc eax => eax ≤ machine.heap.heapSize
  | _ => True

instance (machine : Machine) (op : HeapOp) : Decidable (RequestFits machine op) := by
  cases op <;> unfold RequestFits <;> infer_instance

theorem accounted_payloads_apart (machine : Machine) (blocks : List Nat) (tiled : Tiled machine.heap blocks)
    (accounted : Accounted machine blocks)
    (small : ∀ allocation ∈ machine.live, allocation.requested + 3 < 2 ^ 32) : PayloadsApart machine := by
  have owned (allocation : Allocation) (alive : allocation ∈ machine.live) :
      allocation.block ∈ blocks ∧ allocation.pointer = allocation.block + mcbHeaderSize ∧
        allocation.requested ≤ machine.heap.get allocation.block .size :=
    ⟨(accounted_block machine blocks accounted allocation alive).1, accounted.pointer allocation alive,
      accounted.fits allocation alive (small allocation alive)⟩
  have blockwise : machine.live.Pairwise fun a b => a.block ≠ b.block := by
    rw [← List.pairwise_map (f := Allocation.block) (R := (· ≠ ·))]
    exact accounted.used.nodup_iff.mpr ((tiles_nodup (cell_positive _) _ _ _ tiled.tiles).filter _)
  refine ⟨fun allocation alive => ?_, ?_, fun allocation alive block walked => ?_⟩
  · obtain ⟨member, pointer, fits⟩ := owned allocation alive
    have bound := tiled_bound machine.heap blocks tiled allocation.block member
    unfold cell at bound
    omega
  · refine blockwise.imp_of_mem fun {a b} left right different => ?_
    obtain ⟨leftIn, leftPointer, leftFits⟩ := owned a left
    obtain ⟨rightIn, rightPointer, rightFits⟩ := owned b right
    have apart := tiles_apart _ _ _ tiled.tiles a.block b.block leftIn rightIn different
    unfold cell at apart
    unfold Allocation.Disjoint
    omega
  · obtain ⟨member, pointer, fits⟩ := owned allocation alive
    have blockIn := (heap_block_iff machine.heap blocks tiled block).mp walked
    by_cases same : block = allocation.block
    · exact Or.inl (by omega)
    · have apart := tiles_apart _ _ _ tiled.tiles block allocation.block blockIn member same
      unfold cell at apart
      omega

theorem started_sound (base size : Nat) (notNull : base ≠ 0) (enough : 1024 ≤ size)
    (inside : base + size < 2 ^ 32) (positive : size < 2 ^ 31) (machine : Machine)
    (boot : Started base size machine) : Sound machine ∧ machine.heap.heapSize = size ∧ machine.live = [] := by
  obtain ⟨mem, rfl⟩ := boot
  obtain ⟨_, tiled, extent, _, read⟩ := mem_init_accepts (Heap.boot mem) base size notNull enough inside positive
  refine ⟨⟨[base], tiled, ?_, by simp, by simp⟩, extent, rfl⟩
  simp [usedBlocks, read]

def Idle (machine : Machine) : Prop := machine.heap.heapFreeHead = 0 ∧ machine.live = []

theorem idle_step (machine next : Machine) (op : HeapOp) (idle : Idle machine)
    (taken : HeapStep machine op next) : Idle next := by
  obtain ⟨empty, none⟩ := idle
  cases taken with
  | kmalloc eax fuel pointer heap word returned =>
      have unchanged : heap = machine.heap ∧ pointer = 0 := by
        unfold kmalloc at returned
        cases fuel with
        | zero => by_cases zero : eax = 0 <;> simp_all [searchLoop]
        | succ fuel => by_cases zero : eax = 0 <;> simp_all [searchLoop]
      rw [unchanged.1, unchanged.2]
      exact ⟨empty, none⟩
  | kfree allocation alive => simp [none] at alive
  | write allocation address byte alive above below => simp [none] at alive

theorem requested_step (machine next : Machine) (op : HeapOp) (fits : RequestFits machine op)
    (taken : HeapStep machine op next)
    (bounded : ∀ allocation ∈ machine.live, allocation.requested ≤ machine.heap.heapSize) :
    ∀ allocation ∈ next.live, allocation.requested ≤ next.heap.heapSize := by
  have region := (step_region machine next op taken).2
  rw [region]
  intro allocation alive
  cases taken with
  | kmalloc eax fuel pointer heap word returned =>
      by_cases null : pointer = 0
      · simp only [if_pos null] at alive
        exact bounded allocation alive
      · simp only [if_neg null, List.mem_cons] at alive
        rcases alive with rfl | older
        · exact fits
        · exact bounded allocation older
  | kfree freed gone => exact bounded allocation (List.mem_of_mem_erase alive)
  | write owner address byte owned above below => exact bounded allocation alive

theorem payloads_stay_apart (base size : Nat) (notNull : base ≠ 0) (enough : 1024 ≤ size)
    (inside : base + size < 2 ^ 32) (machine : Machine)
    (run : Run (Started base size) HeapStep (fun machine op => RequestFits machine op ∧ StepSound machine op) machine) :
    PayloadsApart machine := by
  by_cases positive : size < 2 ^ 31
  · have kept := run_invariant
      (fun machine => Sound machine ∧ machine.heap.heapSize = size ∧
        ∀ allocation ∈ machine.live, allocation.requested ≤ machine.heap.heapSize)
      (fun state boot => by
        obtain ⟨sound, extent, empty⟩ := started_sound base size notNull enough inside positive state boot
        exact ⟨sound, extent, by simp [empty]⟩)
      (fun state next op inv admitted taken => ⟨step_sound state next op inv.1 admitted.2 taken,
        (step_region state next op taken).2.trans inv.2.1, requested_step state next op admitted.1 taken inv.2.2⟩)
      machine run
    obtain ⟨⟨blocks, tiled, accounted⟩, extent, bounded⟩ := kept
    refine accounted_payloads_apart machine blocks tiled accounted fun allocation alive => ?_
    have := bounded allocation alive
    omega
  · have idle := run_invariant Idle
      (fun state boot => by
        obtain ⟨mem, rfl⟩ := boot
        exact ⟨(mem_init_rejects (Heap.boot mem) base size (by omega) (by omega)).2, rfl⟩)
      (fun state next op inv _ taken => idle_step state next op inv taken) machine run
    exact ⟨by simp [idle.2], by simp [idle.2], by simp [idle.2]⟩

theorem search_more (heap : HeapState) (need fuel more start : Nat) (result : Search)
    (found : searchLoop heap need fuel start = some result) :
    searchLoop heap need (fuel + more) start = some result := by
  induction fuel generalizing start with
  | zero => simp [searchLoop] at found
  | succ fuel ih =>
      have shift : fuel + 1 + more = (fuel + more) + 1 := by omega
      rw [shift]
      unfold searchLoop at found ⊢
      by_cases null : start = 0
      · simpa [null] using found
      · by_cases corrupted : heap.get start .magic ≠ mcbMagic
        · simpa [null, corrupted] using found
        · by_cases fits : heap.get start .flags = mcbFlagFree ∧ need ≤ heap.get start .size
          · simpa [null, corrupted, fits] using found
          · simp only [if_neg null, if_neg corrupted, if_neg fits] at found ⊢
            exact ih _ found

theorem search_unique (heap : HeapState) (need a b start : Nat) (left right : Search)
    (first : searchLoop heap need a start = some left) (second : searchLoop heap need b start = some right) :
    left = right := by
  have longer := search_more heap need a b start left first
  have other := search_more heap need b a start right second
  rw [Nat.add_comm] at other
  exact Option.some.inj (longer.symm.trans other)

theorem kmalloc_sound_at (heap : HeapState) (eax fuel esi : Nat)
    (found : searchLoop heap (alignSize eax) fuel heap.heapFreeHead = some (.block esi))
    (walked : HeapBlock heap esi) (room : alignSize eax + mcbHeaderSize ≤ heap.get esi .size)
    (nextSound : LinkSound heap (heap.get esi .next)) (prevSound : LinkSound heap (heap.get esi .prev)) :
    KmallocSound heap eax := by
  intro other block _ search
  have same := search_unique heap _ _ _ _ _ _ search found
  cases same
  exact ⟨walked, room, nextSound, fun _ => prevSound⟩

def zeroHeap (base size : Nat) : Machine := ⟨(memInit (boot fun _ => 0) base size).1, []⟩

theorem zero_heap_started (base size : Nat) : Started base size (zeroHeap base size) := ⟨fun _ => 0, rfl⟩

-- The conditions of a step as a test, for runs that are given.
def walksTo (heap : HeapState) (block : Nat) : Nat → Nat → Bool
  | 0, _ => false
  | fuel + 1, start =>
      decide (start < heap.heapEnd) && (decide (start = block) || walksTo heap block fuel (start + cell heap start))

def linkTest (heap : HeapState) (link : Nat) : Bool := decide (link = 0) || walksTo heap link 16 heap.heapBase

def kmallocTest (heap : HeapState) (eax : Nat) : Bool :=
  (searchLoop heap (alignSize eax) 16 heap.heapFreeHead).any fun
    | .block esi =>
        walksTo heap esi 16 heap.heapBase && decide (alignSize eax + mcbHeaderSize ≤ heap.get esi .size) &&
          linkTest heap (heap.get esi .next) && linkTest heap (heap.get esi .prev)
    | _ => false

def kfreeTest (heap : HeapState) (eax : Nat) : Bool :=
  let esi := eax - mcbHeaderSize
  let joined := coalesceNext (markFree heap esi) esi
  !decide (Mergeable (markFree heap esi) ((markFree heap esi).get esi .next)) &&
    !decide (Mergeable joined (joined.get esi .prev)) && linkTest heap heap.heapFreeHead

def soundTest (machine : Machine) (op : HeapOp) : Bool :=
  decide (RequestFits machine op) && match op with
    | .kmalloc eax => kmallocTest machine.heap eax
    | .kfree eax => kfreeTest machine.heap eax
    | .write _ _ => true

theorem walks_to_block (heap : HeapState) (block fuel start : Nat) (here : start < heap.heapEnd → HeapBlock heap start)
    (found : walksTo heap block fuel start = true) : HeapBlock heap block := by
  induction fuel generalizing start with
  | zero => cases found
  | succ fuel ih =>
      rw [walksTo, Bool.and_eq_true, Bool.or_eq_true, decide_eq_true_iff, decide_eq_true_iff] at found
      obtain ⟨inside, rfl | further⟩ := found
      · exact here inside
      · exact ih _ (.next start (here inside)) further

theorem walks_from_base (heap : HeapState) (block : Nat) (found : walksTo heap block 16 heap.heapBase = true) :
    HeapBlock heap block := walks_to_block heap block 16 heap.heapBase .first found

theorem link_test (heap : HeapState) (link : Nat) (found : linkTest heap link = true) : LinkSound heap link := by
  rw [linkTest, Bool.or_eq_true, decide_eq_true_iff] at found
  exact found.imp_right (walks_from_base heap link)

theorem kmalloc_test (heap : HeapState) (eax : Nat) (passed : kmallocTest heap eax = true) : KmallocSound heap eax := by
  obtain ⟨search, found, passed⟩ := (Option.any_eq_true _ _).mp passed
  cases search with
  | block esi =>
      simp only [Bool.and_eq_true, decide_eq_true_iff] at passed
      obtain ⟨⟨⟨walked, room⟩, next⟩, prev⟩ := passed
      exact kmalloc_sound_at heap eax 16 esi found (walks_from_base heap esi walked) room (link_test heap _ next) (link_test heap _ prev)
  | failed => cases passed
  | corrupted => cases passed

theorem kfree_test (heap : HeapState) (eax : Nat) (passed : kfreeTest heap eax = true) : KfreeSound heap eax := by
  simp only [kfreeTest, Bool.and_eq_true, Bool.not_eq_true', decide_eq_false_iff_not] at passed
  obtain ⟨⟨forward, backward⟩, head⟩ := passed
  exact ⟨fun merges => absurd merges forward, fun merges => absurd merges backward, fun _ => link_test heap _ head⟩

theorem sound_test (machine : Machine) (op : HeapOp) (passed : soundTest machine op = true) :
    RequestFits machine op ∧ StepSound machine op := by
  simp only [soundTest, Bool.and_eq_true, decide_eq_true_iff] at passed
  refine ⟨passed.1, ?_⟩
  cases op with
  | kmalloc eax => exact kmalloc_test machine.heap eax passed.2
  | kfree eax => exact kfree_test machine.heap eax passed.2
  | write address byte => trivial

theorem twice_taken : ∃ machine, Run (Started 4096 1024) HeapStep (fun machine op => RequestFits machine op ∧ StepSound machine op) machine ∧
    machine.live = [⟨4236, 200⟩] := by
  have evaluated : (runOps 3 soundTest (zeroHeap 4096 1024) [.kmalloc 100, .kmalloc 200, .kfree 4116]).any
      (fun machine => machine.live = [⟨4236, 200⟩]) = true := by decide +kernel
  obtain ⟨machine, done, live⟩ := (Option.any_eq_true _ _).mp evaluated
  have run := run_ops_run 4096 1024 3 soundTest _ machine _ (.start _ (zero_heap_started _ _)) done
  exact ⟨machine, run_weaken _ sound_test machine run, of_decide_eq_true live⟩

theorem payloads_stay_apart_first : ∃ machine, machine.live = [⟨4236, 200⟩] ∧ PayloadsApart machine := by
  obtain ⟨machine, run, live⟩ := twice_taken
  exact ⟨machine, live, payloads_stay_apart 4096 1024 (by decide) (by decide) (by decide) machine run⟩

-- The exact fit leaves a remainder of -20, so the block is split with a header at heap_end.
theorem payloads_not_always_apart : ¬ ∀ base size, base ≠ 0 → 1024 ≤ size → base + size < 2 ^ 32 →
    ∀ machine, Run (Started base size) HeapStep RequestFits machine → PayloadsApart machine := by
  intro claimed
  have evaluated : (runOps 3 (fun machine op => RequestFits machine op) (zeroHeap 4096 1024)
      [.kmalloc 1004, .kmalloc 4]).any (fun machine =>
        machine.heap.heapEnd = 5120 ∧ ⟨5140, 4⟩ ∈ machine.live) = true := by decide +kernel
  obtain ⟨machine, done, reached⟩ := Option.any_eq_true _ _ |>.mp evaluated
  obtain ⟨ended, alive⟩ := of_decide_eq_true reached
  have run := run_ops_run 4096 1024 3 _ _ machine _ (.start _ (zero_heap_started _ _)) done
  have admitted := run_weaken RequestFits (fun _ _ admits => of_decide_eq_true admits) machine run
  have bound := ((claimed 4096 1024 (by decide) (by decide) (by decide) machine admitted).inside _ alive).2
  rw [ended] at bound
  exact absurd bound (by decide)

end RoDos.Heap
