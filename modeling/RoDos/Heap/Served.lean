import RoDos.Heap.Coalesce

set_option autoImplicit false

namespace RoDos.Heap

open Base

def WellFormed (heap : HeapState) : Prop := ∃ blocks nodes, Tiled heap blocks ∧ FreeList heap nodes

structure BlockKept (heap next : HeapState) (block : Nat) : Prop where
  size : next.get block .size = heap.get block .size
  magic : next.get block .magic = heap.get block .magic
  flags : next.get block .flags = heap.get block .flags
  payload : ∀ address, block + mcbHeaderSize ≤ address → address < block + cell heap block →
    loadByte next.mem address = loadByte heap.mem address

structure Allotted (heap next : HeapState) (esi n : Nat) : Prop where
  own : HeapBlock heap esi
  room : n ≤ next.get esi .size
  used : next.get esi .flags = mcbFlagUsed
  parts : (next.get esi .size = heap.get esi .size ∧ ∀ block, HeapBlock next block ↔ HeapBlock heap block) ∨
    ∃ rest, rest = esi + cell next esi ∧ next.get rest .flags = mcbFlagFree ∧
      next.get esi .size + mcbHeaderSize + next.get rest .size = heap.get esi .size ∧
      ∀ block, HeapBlock next block ↔ HeapBlock heap block ∨ block = rest
  others : ∀ block, HeapBlock heap block → block ≠ esi → BlockKept heap next block
  region : next.heapBase = heap.heapBase ∧ next.heapEnd = heap.heapEnd
  wellFormed : WellFormed next

def Serves (heap : HeapState) (n : Nat) : Prop := ∀ fuel next pointer, kmalloc fuel heap n = some (next, pointer) →
  pointer ≠ 0 → ∃ esi, pointer = esi + mcbHeaderSize ∧ Allotted heap next esi n

def firstFit (heap : HeapState) (nodes : List Nat) (need : Nat) : Option Nat :=
  nodes.find? fun node => heap.get node .flags = mcbFlagFree ∧ need ≤ heap.get node .size

-- Rounding n up does not wrap, and the first fit has room for a header more.
def Roomy (heap : HeapState) (nodes : List Nat) (n : Nat) : Prop := ∀ esi ∈ firstFit heap nodes (alignSize n),
  n ≤ alignSize n ∧ alignSize n + mcbHeaderSize ≤ heap.get esi .size

theorem align_size_wraps (n : Nat) (word : n < 2 ^ 32) (above : alignSize n < n) : alignSize n = 0 ∧ 2 ^ 32 - 3 ≤ n := by
  simp only [alignSize, add32] at above ⊢
  omega

theorem search_first_fit (heap : HeapState) (need before start last : Nat) (nodes : List Nat)
    (chain : Chain (fun block => heap.get block .next) (fun block => heap.get block .prev) before start nodes last 0)
    (magic : ∀ node ∈ nodes, heap.get node .magic = mcbMagic) :
    searchLoop heap need (nodes.length + 1) start = some (((firstFit heap nodes need).map Search.block).getD .failed) := by
  induction nodes generalizing before start with
  | nil => exact if_pos chain.2.symm
  | cons node rest ih =>
      obtain ⟨rfl, notNull, _, further⟩ := chain
      have valid : ¬ heap.get node .magic ≠ mcbMagic := not_not.mpr (magic node List.mem_cons_self)
      rw [List.length_cons, searchLoop, if_neg notNull, if_neg valid, firstFit, List.find?_cons]
      by_cases fits : heap.get node .flags = mcbFlagFree ∧ need ≤ heap.get node .size
      · rw [if_pos fits, decide_eq_true fits]
        rfl
      · rw [if_neg fits, decide_eq_false fits]
        exact ih _ _ further fun other member => magic other (List.mem_cons_of_mem _ member)

theorem set_byte (heap : HeapState) (block value address : Nat) (field : Field) (inside : block + mcbHeaderSize < 2 ^ 32)
    (word : address < 2 ^ 32) (outside : address < block ∨ block + mcbHeaderSize ≤ address) :
    loadByte (heap.set block field value).mem address = loadByte heap.mem address := by
  have bound := offset_bound field
  rw [HeapState.set, storeWord, load_byte_store_elsewhere, load_byte_store_elsewhere, load_byte_store_elsewhere,
    load_byte_store_elsewhere] <;> omega

section
variable (heap : HeapState) (headers : List Nat) (separate : Separate headers) (address : Nat) (word : address < 2 ^ 32)
  (outside : ∀ header ∈ headers, address < header ∨ header + mcbHeaderSize ≤ address) (esi : Nat) (esiIn : esi ∈ headers)
  (nextIn : heap.get esi .next = 0 ∨ heap.get esi .next ∈ headers)
include separate word outside esiIn nextIn

theorem use_whole_block_byte (prevIn : heap.get esi .prev = 0 ∨ heap.get esi .prev ∈ headers) :
    loadByte (useWholeBlock heap esi).mem address = loadByte heap.mem address := by
  have kept (state : HeapState) (block value : Nat) (field : Field) (member : block ∈ headers) :
      loadByte (state.set block field value).mem address = loadByte state.mem address :=
    set_byte state block value address field (separate.inside block member) word (outside block member)
  rw [useWholeBlock]
  rw [kept _ esi _ _ esiIn]
  by_cases last : heap.get esi .next = 0 <;> by_cases first : heap.get esi .prev = 0
  · rw [if_pos last, if_pos first]
  · rw [if_pos last, if_neg first, kept _ _ _ _ (prevIn.resolve_left first)]
  · rw [if_neg last, if_pos first, kept _ _ _ _ (nextIn.resolve_left last)]
  · rw [if_neg last, if_neg first, kept _ _ _ _ (nextIn.resolve_left last), kept _ _ _ _ (prevIn.resolve_left first)]

theorem split_block_byte (eax edi : Nat) (ediIn : edi ∈ headers)
    (placed : add32 (add32 esi mcbHeaderSize) eax = edi) :
    loadByte (splitBlock heap esi eax).mem address = loadByte heap.mem address := by
  have kept (state : HeapState) (block value : Nat) (field : Field) (member : block ∈ headers) :
      loadByte (state.set block field value).mem address = loadByte state.mem address :=
    set_byte state block value address field (separate.inside block member) word (outside block member)
  have edxRead : (heap.set edi .prev esi).get esi .next = heap.get esi .next := by
    rw [get_set heap headers separate edi esi esi .prev .next ediIn esiIn (header_lt headers separate esi esiIn)]
    exact if_neg fun both => by cases both.2
  rw [splitBlock]
  rw [placed, edxRead, kept _ esi _ _ esiIn]
  have linked (state : HeapState) : loadByte (if heap.get esi .next = 0 then state
      else state.set (heap.get esi .next) .prev edi).mem address = loadByte state.mem address := by
    by_cases last : heap.get esi .next = 0
    · rw [if_pos last]
    · rw [if_neg last, kept _ _ _ _ (nextIn.resolve_left last)]
  rw [linked, kept _ esi _ _ esiIn, kept _ esi _ _ esiIn, kept _ edi _ _ ediIn, kept _ edi _ _ ediIn, kept _ edi _ _ ediIn,
    kept _ edi _ _ ediIn, kept _ edi _ _ ediIn]
end

theorem payload_outside (heap : HeapState) (blocks : List Nat) (tiled : Tiled heap blocks) (block header address : Nat)
    (blockIn : block ∈ blocks) (headerIn : header ∈ blocks) (above : block + mcbHeaderSize ≤ address)
    (below : address < block + cell heap block) : address < header ∨ header + mcbHeaderSize ≤ address := by
  by_cases same : block = header
  · exact Or.inr (same ▸ above)
  · have apart := tiles_apart _ _ _ tiled.tiles block header blockIn headerIn same
    have size : mcbHeaderSize ≤ cell heap header := Nat.le_add_right _ _
    omega

section
variable (heap : HeapState) (blocks nodes : List Nat) (tiled : Tiled heap blocks) (listed : FreeList heap nodes) (esi : Nat)
  (member : esi ∈ nodes) (free : heap.get esi .flags = mcbFlagFree) (n need : Nat) (covers : n ≤ need)
include tiled listed member free covers

theorem whole_allotted (room : need ≤ heap.get esi .size) : Allotted heap (useWholeBlock heap esi) esi n := by
  have onWalk := heap_block_iff heap blocks tiled
  have esiIn := free_list_blocks heap blocks nodes tiled listed esi member
  have prevIn := free_list_prev heap blocks nodes tiled listed esi member
  have nextIn := free_list_next heap blocks nodes tiled listed esi member
  have separate := tiled_separate heap blocks tiled
  have takes := use_whole_block_takes heap blocks tiled esi esiIn free need room prevIn nextIn
  have frame := use_whole_block_frame heap esi
  have after := heap_block_iff _ blocks takes.tiled
  have read (block : Nat) (inside : block ∈ blocks) (field : Field) (notPrev : field ≠ .prev) (notNext : field ≠ .next) :
      (useWholeBlock heap esi).get block field =
        if block = esi ∧ field = .flags then mcbFlagUsed else heap.get block field := by
    rw [use_whole_block_get heap blocks separate esi block field esiIn inside prevIn nextIn]
    simp [notPrev, notNext]
  have size : (useWholeBlock heap esi).get esi .size = heap.get esi .size := by
    rw [read esi esiIn .size (by decide) (by decide)]
    exact if_neg fun both => by cases both.2
  obtain ⟨remaining, stands⟩ := use_whole_block_listed heap blocks nodes tiled listed esi need member free room
  refine ⟨(onWalk esi).mpr esiIn, Nat.le_trans covers (Nat.le_trans room (Nat.le_of_eq size.symm)), ?_, Or.inl ⟨size, fun block => (after block).trans (onWalk block).symm⟩,
    fun block walked notEsi => ?_, ⟨frame.1, frame.2.2.1⟩, blocks, remaining, takes.tiled, stands⟩
  · rw [read esi esiIn .flags (by decide) (by decide)]
    exact if_pos ⟨rfl, rfl⟩
  · have inside := (onWalk block).mp walked
    have other (field : Field) (notPrev : field ≠ .prev) (notNext : field ≠ .next) :
        (useWholeBlock heap esi).get block field = heap.get block field := by
      rw [read block inside field notPrev notNext]
      exact if_neg fun both => notEsi both.1
    refine ⟨other .size (by decide) (by decide), other .magic (by decide) (by decide), other .flags (by decide) (by decide),
      fun address above below => ?_⟩
    have bound := tiled_bound heap blocks tiled block inside
    have bounded := tiled.bounded
    exact use_whole_block_byte heap blocks separate address (by omega)
      (fun header headerIn => payload_outside heap blocks tiled block header address inside headerIn above below)
      esi esiIn nextIn prevIn

theorem split_allotted (room : need + mcbHeaderSize ≤ heap.get esi .size) : Allotted heap (splitBlock heap esi need) esi n := by
  have onWalk := heap_block_iff heap blocks tiled
  have esiIn := free_list_blocks heap blocks nodes tiled listed esi member
  have nextIn := free_list_next heap blocks nodes tiled listed esi member
  obtain ⟨after, takes, members⟩ := split_block_takes heap blocks tiled esi esiIn free need room nextIn
  have onAfter := heap_block_iff _ after takes.tiled
  have ediNew := split_new heap blocks tiled esi esiIn need room
  have separate := split_separate heap blocks tiled esi esiIn need room
  have placed := split_placed heap blocks tiled esi esiIn need room
  have read := split_block_read heap blocks tiled esi esiIn need room nextIn _ rfl
  have frame := split_block_frame heap esi need
  obtain ⟨longer, stands⟩ := split_block_listed heap blocks nodes tiled listed esi need member free room
  generalize start : esi + mcbHeaderSize + need = edi at *
  have ediNotEsi : edi ≠ esi := fun same => ediNew (same ▸ esiIn)
  have size : (splitBlock heap esi need).get esi .size = need := by
    rw [read esi (List.mem_cons_of_mem _ esiIn) .size (by decide) (by decide), if_neg fun both => by cases both.2]
    exact if_pos ⟨rfl, rfl⟩
  have restSize : (splitBlock heap esi need).get edi .size = heap.get esi .size - need - mcbHeaderSize := by
    rw [read edi List.mem_cons_self .size (by decide) (by decide), if_neg fun both => ediNotEsi both.1,
      if_neg fun both => ediNotEsi both.1, if_pos rfl]
  have restFlags : (splitBlock heap esi need).get edi .flags = mcbFlagFree := by
    rw [read edi List.mem_cons_self .flags (by decide) (by decide), if_neg fun both => ediNotEsi both.1,
      if_neg fun both => ediNotEsi both.1, if_pos rfl]
  refine ⟨(onWalk esi).mpr esiIn, Nat.le_trans covers (Nat.le_of_eq size.symm), ?_, Or.inr ⟨edi, ?_, restFlags, ?_, fun block => ?_⟩,
    fun block walked notEsi => ?_, ⟨frame.1, frame.2.2.1⟩, after, longer, takes.tiled, stands⟩
  · rw [read esi (List.mem_cons_of_mem _ esiIn) .flags (by decide) (by decide)]
    exact if_pos ⟨rfl, rfl⟩
  · rw [cell, size]
    omega
  · rw [size, restSize]
    omega
  · rw [onAfter block, members block, onWalk block]
  · have inside := (onWalk block).mp walked
    have notEdi : block ≠ edi := fun same => ediNew (same ▸ inside)
    have other (field : Field) (notPrev : field ≠ .prev) (notNext : field ≠ .next) :
        (splitBlock heap esi need).get block field = heap.get block field := by
      rw [read block (List.mem_cons_of_mem _ inside) field notPrev notNext, if_neg fun both => notEsi both.1,
        if_neg fun both => notEsi both.1, if_neg notEdi]
    have sizeKept := other .size (by decide) (by decide)
    refine ⟨sizeKept, other .magic (by decide) (by decide), other .flags (by decide) (by decide), fun address above below => ?_⟩
    have bound := tiled_bound heap blocks tiled block inside
    have bounded := tiled.bounded
    have blockAfter := (members block).mpr (Or.inl inside)
    refine split_block_byte heap (edi :: blocks) separate address (by omega) (fun header headerIn => ?_) esi
      (List.mem_cons_of_mem _ esiIn) (nextIn.imp_right (List.mem_cons_of_mem _)) need edi List.mem_cons_self placed
    refine payload_outside _ after takes.tiled block header address blockAfter ((members header).mpr ?_) above ?_
    · exact (List.mem_cons.mp headerIn).symm
    · rw [cell, sizeKept]
      exact below

theorem allocate_allotted (room : need + mcbHeaderSize ≤ heap.get esi .size) :
    Allotted heap (allocateBlock heap esi need) esi n := by
  rw [allocateBlock]
  split
  · exact whole_allotted heap blocks nodes tiled listed esi member free n need covers (Nat.le_of_add_right_le room)
  · exact split_allotted heap blocks nodes tiled listed esi member free n need covers room
end

theorem allotted_statistics (heap next : HeapState) (esi n need : Nat) (allotted : Allotted heap next esi n) :
    Allotted heap (updateStatistics next need) esi n := by
  obtain ⟨blocks, nodes, tiled, listed⟩ := allotted.wellFormed
  have counted := (update_statistics_evolves next blocks need tiled).tiled
  have walk (block : Nat) : HeapBlock (updateStatistics next need) block ↔ HeapBlock next block :=
    (heap_block_iff _ blocks counted block).trans (heap_block_iff next blocks tiled block).symm
  refine ⟨allotted.own, allotted.room, allotted.used, ?_, fun block walked notEsi => ?_, allotted.region, blocks, nodes, counted,
    update_statistics_listed next blocks nodes tiled listed need⟩
  · rcases allotted.parts with ⟨size, same⟩ | ⟨rest, behind, free, sizes, same⟩
    · exact Or.inl ⟨size, fun block => (walk block).trans (same block)⟩
    · exact Or.inr ⟨rest, behind, free, sizes, fun block => (walk block).trans (same block)⟩
  · have kept := allotted.others block walked notEsi
    exact ⟨kept.size, kept.magic, kept.flags, kept.payload⟩

theorem list_starts (heap : HeapState) (node : Nat) (head : heap.heapFreeHead = node) (linked : node ≠ 0) :
    OnFreeList heap node := by
  subst head
  exact .head linked

theorem list_leads (heap : HeapState) (node other : Nat) (earlier : OnFreeList heap node) (next : heap.get node .next = other)
    (linked : other ≠ 0) : OnFreeList heap other := by
  subst next
  exact .next node earlier linked

theorem list_passes (heap next : HeapState) (esi : Nat) (head : next.heapFreeHead = heap.heapFreeHead)
    (kept : ∀ node, OnFreeList heap node → node ≠ esi → next.get node .next = heap.get node .next) (node : Nat)
    (reached : OnFreeList heap node) : OnFreeList next node ∨ OnFreeList next esi := by
  induction reached with
  | head linked => exact Or.inl (list_starts next heap.heapFreeHead head linked)
  | next node earlier linked ih =>
      rcases ih with walked | found
      · by_cases here : node = esi
        · exact Or.inr (here ▸ walked)
        · exact Or.inl (list_leads next node (heap.get node .next) walked (kept node earlier here) linked)
      · exact Or.inr found

theorem get_set_above (heap : HeapState) (a b value : Nat) (f g : Field) (above : b + mcbHeaderSize ≤ a)
    (round : a + mcbHeaderSize ≤ b + 2 ^ 32) : (heap.set a f value).get b g = heap.get b g := by
  have left := offset_bound f
  have right := offset_bound g
  have byte (address : Nat) (low : b ≤ address) (high : address < b + mcbHeaderSize) :
      loadByte (heap.set a f value).mem address = loadByte heap.mem address := by
    rw [HeapState.set, storeWord, load_byte_store_elsewhere, load_byte_store_elsewhere, load_byte_store_elsewhere,
      load_byte_store_elsewhere] <;> omega
  rw [HeapState.get, HeapState.get, loadWord, loadWord, byte _ (by omega) (by omega), byte _ (by omega) (by omega),
    byte _ (by omega) (by omega), byte _ (by omega) (by omega)]

section
variable (heap : HeapState) (blocks nodes : List Nat) (tiled : Tiled heap blocks) (listed : FreeList heap nodes)
  (region : heap.heapSize < 2 ^ 31) (esi : Nat) (member : esi ∈ nodes) (need : Nat)
  (fits : need ≤ heap.get esi .size) (edi : Nat) (start : esi + mcbHeaderSize + need = edi)
include tiled listed region member fits start

theorem tight_split_get (block : Nat) (inside : block ∈ blocks) (before : block + mcbHeaderSize ≤ edi) (g : Field) :
    (splitBlock heap esi need).get block g =
      if block = esi ∧ g = .flags then mcbFlagUsed
      else if block = heap.get esi .next ∧ heap.get esi .next ≠ 0 ∧ g = .prev then edi
      else if block = esi ∧ g = .size then need
      else if block = esi ∧ g = .next then edi
      else heap.get block g := by
  have separate := tiled_separate heap blocks tiled
  have esiIn := free_list_blocks heap blocks nodes tiled listed esi member
  have nextIn := free_list_next heap blocks nodes tiled listed esi member
  have bound := tiled_bound heap blocks tiled esi esiIn
  have blockBound := tiled_bound heap blocks tiled block inside
  have bounded := tiled.bounded
  have extent := tiled.extent
  have header : mcbHeaderSize = 20 := rfl
  rw [cell] at bound blockBound
  have needWord : need < 2 ^ 32 := by omega
  have ediWord : edi < 2 ^ 32 := by omega
  have usedWord : mcbFlagUsed < 2 ^ 32 := by decide
  have placed : add32 (add32 esi mcbHeaderSize) need = edi := by
    rw [add32_of_lt esi, add32_of_lt] <;> omega
  have aside (state : HeapState) (other value : Nat) (f g' : Field) (low : heap.heapBase ≤ other)
      (front : other + mcbHeaderSize ≤ edi) : (state.set edi f value).get other g' = state.get other g' :=
    get_set_above state edi other value f g' front (by omega)
  have edxRead : (heap.set edi .prev esi).get esi .next = heap.get esi .next := aside _ _ _ _ _ bound.1 (by omega)
  rw [splitBlock, placed, edxRead]
  by_cases last : heap.get esi .next = 0
  · rw [if_pos last]
    simp (disch := assumption) only [get_set _ blocks separate]
    simp only [aside _ block _ _ _ blockBound.1 before]
    cases g <;> simp [last]
  · have edxIn := nextIn.resolve_left last
    rw [if_neg last]
    simp (disch := assumption) only [get_set _ blocks separate]
    simp only [aside _ block _ _ _ blockBound.1 before]
    cases g <;> simp [last]

theorem tight_split_size : (splitBlock heap esi need).get esi .size = need := by
  have esiIn := free_list_blocks heap blocks nodes tiled listed esi member
  rw [tight_split_get heap blocks nodes tiled listed region esi member need fits edi start esi esiIn (by omega) .size]
  simp

-- At the end of the heap the list runs into the header that was written behind it.
theorem tight_split_list (last : edi = heap.heapEnd) : OnFreeList (updateStatistics (splitBlock heap esi need) need) edi := by
  have onWalk := heap_block_iff heap blocks tiled
  have frame := split_block_frame heap esi need
  have head := (update_statistics_head (splitBlock heap esi need) need).trans frame.2.2.2
  have next (block : Nat) (inside : block ∈ blocks) :
      (updateStatistics (splitBlock heap esi need) need).get block .next = if block = esi then edi else heap.get block .next := by
    have bound := tiled_bound heap blocks tiled block inside
    rw [cell] at bound
    rw [update_statistics_get,
      tight_split_get heap blocks nodes tiled listed region esi member need fits edi start block inside (by omega) .next]
    simp
  have kept (node : Nat) (reached : OnFreeList heap node) (other : node ≠ esi) :
      (updateStatistics (splitBlock heap esi need) need).get node .next = heap.get node .next := by
    rw [next node (free_list_blocks heap blocks nodes tiled listed node (on_free_list_member heap nodes listed node reached)),
      if_neg other]
  have stays := (list_passes heap _ esi head kept esi ((on_free_list_iff heap nodes listed esi).mpr member)).elim id id
  have led := next esi (free_list_blocks heap blocks nodes tiled listed esi member)
  rw [if_pos rfl] at led
  have positive := tiled.positive
  have ordered := (tiles_bounds _ _ _ tiled.tiles).1
  exact list_leads _ esi edi stays led (by omega)

-- An exact fit leaves a free block of the size -20.
theorem tight_split_ill (exact' : need = heap.get esi .size)
    (walk : ∀ block, HeapBlock (updateStatistics (splitBlock heap esi need) need) block ↔ HeapBlock heap block)
    (bounds : (updateStatistics (splitBlock heap esi need) need).heapEnd = heap.heapEnd) :
    ¬ WellFormed (updateStatistics (splitBlock heap esi need) need) := by
  rintro ⟨after, remaining, wellTiled, wellListed⟩
  have separate := tiled_separate heap blocks tiled
  have esiIn := free_list_blocks heap blocks nodes tiled listed esi member
  have nextIn := free_list_next heap blocks nodes tiled listed esi member
  have bounded := tiled.bounded
  have header : mcbHeaderSize = 20 := rfl
  have behind : edi = esi + cell heap esi := by
    rw [cell]
    omega
  have bound := tiled_bound heap blocks tiled esi esiIn
  rw [← behind] at bound
  rcases Nat.lt_or_ge edi heap.heapEnd with inside | past
  · have walked : HeapBlock heap edi :=
      behind ▸ .next esi ((heap_block_iff heap blocks tiled esi).mpr esiIn) (behind ▸ inside)
    have ediIn := heap_block_member heap blocks tiled edi walked
    have ediBound := tiled_bound _ after wellTiled edi (heap_block_member _ after wellTiled edi ((walk edi).mpr walked))
    have word := header_lt blocks separate esi esiIn
    have placed : add32 (add32 esi mcbHeaderSize) need = edi := by
      rw [add32_of_lt esi, add32_of_lt] <;> omega
    have read := split_block_get heap blocks separate esi need edi edi .size esiIn ediIn ediIn nextIn placed (by omega)
    have notEsi : edi ≠ esi := by omega
    have wrapped : sub32 (sub32 need need) mcbHeaderSize = 2 ^ 32 - 20 := by
      rw [sub32_of_le need need (by omega) (Nat.le_refl _), Nat.sub_self]
      decide
    simp only [notEsi, false_and, if_false, if_true, reduceCtorEq, and_false, ← exact', wrapped] at read
    rw [cell, update_statistics_get, read, bounds] at ediBound
    omega
  · have last : edi = heap.heapEnd := Nat.le_antisymm bound.2 past
    have reached := tight_split_list heap blocks nodes tiled listed region esi member need fits edi start last
    have walked := wellListed.blocks edi (on_free_list_member _ remaining wellListed edi reached)
    have ediBound := tiled_bound heap blocks tiled edi (heap_block_member heap blocks tiled edi ((walk edi).mp walked))
    rw [cell] at ediBound
    omega
end

section
variable (heap : HeapState) (blocks nodes : List Nat) (tiled : Tiled heap blocks) (listed : FreeList heap nodes) (n : Nat)
include tiled listed

theorem search_fits (fuel esi : Nat) (search : searchLoop heap (alignSize n) fuel heap.heapFreeHead = some (.block esi)) :
    firstFit heap nodes (alignSize n) = some esi := by
  obtain ⟨last, chain⟩ := listed.chain
  have complete := search_first_fit heap (alignSize n) 0 heap.heapFreeHead last nodes chain fun node member =>
    tiled.magic node (free_list_blocks heap blocks nodes tiled listed node member)
  have same := search_unique heap _ _ _ _ _ _ search complete
  cases found : firstFit heap nodes (alignSize n) with
  | none =>
      rw [found] at same
      cases same
  | some other =>
      rw [found] at same
      cases same
      rfl

theorem roomy_serves (roomy : Roomy heap nodes n) : Serves heap n := by
  intro fuel next pointer returned handed
  rcases kmalloc_cases fuel heap next n pointer returned with ⟨null, _⟩ | ⟨esi, _, search, address, rfl⟩
  · exact absurd null handed
  · have member := search_listed heap blocks nodes tiled listed _ fuel esi search
    have free := (search_found heap _ _ _ _ search).2.2.1
    obtain ⟨covers, room⟩ := roomy esi (search_fits heap blocks nodes tiled listed n fuel esi search)
    have inside := (tiled_separate heap blocks tiled).inside esi (free_list_blocks heap blocks nodes tiled listed esi member)
    exact ⟨esi, address.trans (add32_of_lt _ _ inside), allotted_statistics heap _ esi n _
      (allocate_allotted heap blocks nodes tiled listed esi member free n (alignSize n) covers room)⟩

theorem serves_roomy (region : heap.heapSize < 2 ^ 31) (asked : n ≠ 0) (word : n < 2 ^ 32) (serves : Serves heap n) :
    Roomy heap nodes n := by
  intro esi first
  have fit : heap.get esi .flags = mcbFlagFree ∧ alignSize n ≤ heap.get esi .size := by
    simpa using List.find?_some first
  have member : esi ∈ nodes := List.mem_of_find?_eq_some first
  have esiIn := free_list_blocks heap blocks nodes tiled listed esi member
  obtain ⟨last, chain⟩ := listed.chain
  have search := search_first_fit heap (alignSize n) 0 heap.heapFreeHead last nodes chain fun node member =>
    tiled.magic node (free_list_blocks heap blocks nodes tiled listed node member)
  rw [first] at search
  have inside := (tiled_separate heap blocks tiled).inside esi esiIn
  have address := add32_of_lt esi mcbHeaderSize inside
  have header : mcbHeaderSize = 20 := rfl
  have returned : kmalloc (nodes.length + 1) heap n =
      some (updateStatistics (allocateBlock heap esi (alignSize n)) (alignSize n), esi + mcbHeaderSize) := by
    rw [kmalloc, if_neg asked, search, ← address]
    rfl
  obtain ⟨block, pointer, allotted⟩ := serves _ _ _ returned (by omega)
  obtain rfl : block = esi := by omega
  have wide := get_lt heap block .size
  have room := allotted.room
  rw [update_statistics_get, allocateBlock] at room
  by_cases small : sub32 (sub32 (heap.get block .size) (alignSize n)) mcbHeaderSize < minSplitSize
  · have remains := small
    rw [sub32_of_le _ _ wide fit.2] at remains
    have split : minSplitSize = 32 := rfl
    have bare : mcbHeaderSize ≤ heap.get block .size - alignSize n := by
      simp only [sub32] at remains
      omega
    rw [sub32_of_le _ _ (by omega) bare] at remains
    have whole := use_whole_block_get heap blocks (tiled_separate heap blocks tiled) block block .size esiIn esiIn
      (free_list_prev heap blocks nodes tiled listed block member) (free_list_next heap blocks nodes tiled listed block member)
    simp only [reduceCtorEq, and_false, if_false] at whole
    rw [if_pos small, whole] at room
    refine ⟨?_, by omega⟩
    by_contra wraps
    have zero := align_size_wraps n word (Nat.lt_of_not_le wraps)
    omega
  · have size := tight_split_size heap blocks nodes tiled listed region block member (alignSize n) fit.2 _ rfl
    rw [if_neg small, size] at room
    refine ⟨room, ?_⟩
    by_contra tight
    rcases allotted.parts with ⟨same, walk⟩ | ⟨rest, _, _, sizes, _⟩
    · rw [allocateBlock, if_neg small, update_statistics_get, size] at same
      have wellFormed := allotted.wellFormed
      have bounds := allotted.region.2
      rw [allocateBlock, if_neg small] at wellFormed walk bounds
      exact tight_split_ill heap blocks nodes tiled listed region block member (alignSize n) fit.2 _ rfl same walk bounds
        wellFormed
    · rw [allocateBlock, if_neg small, update_statistics_get, size] at sizes
      omega
theorem kmalloc_serves_iff (asked : n ≠ 0) (word : n < 2 ^ 32) :
    (Roomy heap nodes n → Serves heap n) ∧ (heap.heapSize < 2 ^ 31 → Serves heap n → Roomy heap nodes n) :=
  ⟨roomy_serves heap blocks nodes tiled listed n,
    fun region => serves_roomy heap blocks nodes tiled listed n region asked word⟩
end

theorem kmalloc_serves_small : Serves (zeroHeap 4096 1024).heap 100 := by
  have roomy : Roomy (zeroHeap 4096 1024).heap [4096] 100 := by
    intro esi found
    have first := List.mem_singleton.mp (List.mem_of_find?_eq_some found)
    rw [first]
    decide +kernel
  exact (kmalloc_serves_iff _ [4096] [4096]
    (mem_init_accepts (boot fun _ => 0) 4096 1024 (by decide) (by decide) (by decide) (by decide)).2.1
    (mem_init_listed (fun _ => 0) 4096 1024 (by decide) (by decide) (by decide) (by decide)) 100 (by decide)
    (by decide)).1 roomy

-- An exact fit is split, and the new header stands behind the heap.
theorem kmalloc_not_always_serves : ¬ ∀ heap n, WellFormed heap → n ≠ 0 → n < 2 ^ 32 → Serves heap n := by
  intro claimed
  obtain ⟨_, tiled, _⟩ := mem_init_accepts (boot fun _ => 0) 4096 1024 (by decide) (by decide) (by decide) (by decide)
  have listed := mem_init_listed (fun _ => 0) 4096 1024 (by decide) (by decide) (by decide) (by decide)
  have serves := claimed (zeroHeap 4096 1024).heap 1004 ⟨[4096], [4096], tiled, listed⟩ (by decide) (by decide)
  have roomy := serves_roomy _ [4096] [4096] tiled listed 1004 (by decide +kernel) (by decide) (by decide) serves 4096
    (show firstFit _ _ _ = some 4096 by decide +kernel)
  have small : ¬ alignSize 1004 + mcbHeaderSize ≤ (zeroHeap 4096 1024).heap.get 4096 .size := by decide +kernel
  exact small roomy.2

end RoDos.Heap
