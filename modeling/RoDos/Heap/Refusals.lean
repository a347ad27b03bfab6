import RoDos.Heap.Calls

set_option autoImplicit false

namespace RoDos.Heap

open Base

structure Untouched (heap next : HeapState) : Prop where
  mem : next.mem = heap.mem
  head : next.heapFreeHead = heap.heapFreeHead
  totalFree : next.memTotalFree = heap.memTotalFree
  totalUsed : next.memTotalUsed = heap.memTotalUsed

def NullKeeps (heap : HeapState) (eax : Nat) : Prop :=
  ∀ fuel next, kmalloc fuel heap eax = some (next, 0) → Untouched heap next

-- A header without the magic number adds what was asked for to the statistics, which is nothing only for a size
-- that makes 0 with the header. A block whose payload stands at address 0 is handed out like any other.
def Harmless (heap : HeapState) (eax : Nat) : Prop :=
  eax = 0 ∨ ∀ block, Passes heap (alignSize eax) heap.heapFreeHead block → block ≠ 0 →
    (heap.get block .magic ≠ mcbMagic → alignSize eax = 2 ^ 32 - mcbHeaderSize) ∧
      (heap.get block .magic = mcbMagic → heap.get block .flags = mcbFlagFree → alignSize eax ≤ heap.get block .size →
        add32 block mcbHeaderSize ≠ 0)

section
variable (heap : HeapState) (need : Nat)

theorem passes_reaches (start stop : Nat) (passes : Passes heap need start stop) :
    ∃ fuel, searchLoop heap need fuel start = searchLoop heap need 1 stop := by
  induction passes with
  | here block => exact ⟨1, rfl⟩
  | further block stop notNull sound unfit rest ih =>
      obtain ⟨fuel, same⟩ := ih
      refine ⟨fuel + 1, ?_⟩
      rw [searchLoop, if_neg notNull, if_neg (not_not_intro sound), if_neg unfit]
      exact same
end

section
variable (heap : HeapState) (words : StatisticsWords heap) (eax : Nat)

theorem null_keeps_harmless (keeps : NullKeeps heap eax) : Harmless heap eax := by
  by_cases asked : eax = 0
  · exact Or.inl asked
  refine Or.inr fun block passes notNull => ⟨fun broken => ?_, fun sound free fits null => ?_⟩
  · have stops : searchLoop heap (alignSize eax) 1 block = some .corrupted := by
      rw [searchLoop, if_neg notNull, if_pos broken]
    obtain ⟨fuel, search⟩ := passes_reaches heap _ _ _ passes
    have returned : kmalloc fuel heap eax = some (updateStatistics heap (alignSize eax), 0) := by
      rw [kmalloc, if_neg asked, search, stops]
    exact statistics_idle _ _ (align_size_word eax) (keeps fuel _ returned).totalUsed
  · have stops : searchLoop heap (alignSize eax) 1 block = some (.block block) := by
      rw [searchLoop, if_neg notNull, if_neg (not_not_intro sound), if_pos ⟨free, fits⟩]
    obtain ⟨fuel, search⟩ := passes_reaches heap _ _ _ passes
    have returned : kmalloc fuel heap eax =
        some (updateStatistics (allocateBlock heap block (alignSize eax)) (alignSize eax), 0) := by
      rw [kmalloc, if_neg asked, search, stops, ← null]
    exact served_differs heap eax _ ⟨block, free, rfl⟩ (keeps fuel _ returned).mem

include words

theorem harmless_null_keeps (harmless : Harmless heap eax) : NullKeeps heap eax := by
  intro fuel next returned
  rcases kmalloc_effect heap fuel eax 0 next returned with ⟨still, _⟩ | ⟨asked, traced, _, block, passes, notNull, broken⟩ |
    ⟨asked, _⟩
  · rw [still]
    exact ⟨rfl, rfl, rfl, rfl⟩
  · have whole := ((harmless.resolve_left asked) block passes notNull).1 broken
    rw [traced, idle_statistics heap words _ whole]
    exact ⟨rfl, rfl, rfl, rfl⟩
  · obtain ⟨found, search⟩ := kmalloc_searches heap fuel eax 0 next returned asked
    obtain ⟨stop, passes, verdict⟩ := search_passes heap _ _ _ found search
    rw [kmalloc, if_neg asked, search] at returned
    rcases verdict with ⟨rfl, _⟩ | ⟨rfl, notNull, broken⟩ | rfl
    · cases returned
      exact ⟨rfl, rfl, rfl, rfl⟩
    · have whole := ((harmless.resolve_left asked) stop passes notNull).1 broken
      cases returned
      rw [idle_statistics heap words _ whole]
      exact ⟨rfl, rfl, rfl, rfl⟩
    · obtain ⟨notNull, sound, free, fits⟩ := search_found heap _ _ _ stop search
      have null := (Prod.mk.inj (Option.some.inj returned)).2
      exact absurd null (((harmless.resolve_left asked) stop passes notNull).2 sound free fits)

theorem null_keeps_iff : NullKeeps heap eax ↔ Harmless heap eax :=
  ⟨null_keeps_harmless heap eax, harmless_null_keeps heap words eax⟩
end

theorem null_keeps_full : NullKeeps startHeap 2000 := by
  refine (null_keeps_iff startHeap ⟨by decide +kernel, by decide +kernel⟩ 2000).mpr (Or.inr fun block passes notNull => ?_)
  have small : ¬ alignSize 2000 ≤ startHeap.get startHeap.heapFreeHead .size := by decide +kernel
  have sound : startHeap.get startHeap.heapFreeHead .magic = mcbMagic := by decide +kernel
  have ended : startHeap.get startHeap.heapFreeHead .next = 0 := by decide +kernel
  cases passes with
  | here => exact ⟨fun broken => absurd sound broken, fun _ _ fits => absurd fits small⟩
  | further _ _ _ _ _ rest =>
      rw [ended] at rest
      cases rest with
      | here => exact absurd rfl notNull
      | further _ _ null => exact absurd rfl null

-- The exit for a broken header counts the request as handed out.
theorem null_not_always_keeps : ¬ ∀ heap eax, StatisticsWords heap → NullKeeps heap eax := by
  intro claimed
  let heap := startHeap.set 4096 .magic 0
  have harmless := null_keeps_harmless heap 4 (claimed heap 4 ⟨by decide +kernel, by decide +kernel⟩)
  have whole := ((harmless.resolve_left (by decide)) 4096 (.here 4096) (by decide)).1 (by decide +kernel)
  exact absurd whole (by decide)

end RoDos.Heap
