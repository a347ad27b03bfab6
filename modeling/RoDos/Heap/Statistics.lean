import RoDos.Heap.Payloads

set_option autoImplicit false

namespace RoDos.Heap

open Base

def sizesOf (heap : HeapState) (blocks : List Nat) : List Nat := blocks.map fun block => heap.get block .size

def freeBlocks (heap : HeapState) (blocks : List Nat) : List Nat :=
  blocks.filter fun block => heap.get block .flags = mcbFlagFree

theorem free_blocks_cons (heap : HeapState) (block : Nat) (rest : List Nat) :
    freeBlocks heap (block :: rest) =
      if heap.get block .flags = mcbFlagFree then block :: freeBlocks heap rest else freeBlocks heap rest := by
  by_cases free : heap.get block .flags = mcbFlagFree <;> simp [freeBlocks, free]

theorem used_blocks_cons (heap : HeapState) (block : Nat) (rest : List Nat) :
    usedBlocks heap (block :: rest) =
      if heap.get block .flags = mcbFlagFree then usedBlocks heap rest else block :: usedBlocks heap rest := by
  by_cases free : heap.get block .flags = mcbFlagFree <;> simp [usedBlocks, free]

theorem cells_sum (heap : HeapState) (blocks : List Nat) :
    (blocks.map (cell heap)).sum = (sizesOf heap (freeBlocks heap blocks)).sum +
      (sizesOf heap (usedBlocks heap blocks)).sum + mcbHeaderSize * blocks.length := by
  induction blocks with
  | nil => rfl
  | cons block rest ih =>
      rw [free_blocks_cons, used_blocks_cons]
      by_cases free : heap.get block .flags = mcbFlagFree
      · simp only [if_pos free, sizesOf, List.map_cons, List.sum_cons, List.length_cons, cell] at ih ⊢
        rw [ih, Nat.mul_succ]
        omega
      · simp only [if_neg free, sizesOf, List.map_cons, List.sum_cons, List.length_cons, cell] at ih ⊢
        rw [ih, Nat.mul_succ]
        omega

theorem scan_tiles (heap : HeapState) (bounded : heap.heapEnd < 2 ^ 32) (start fuel : Nat) (blocks : List Nat)
    (stats : Stats) (tiles : Tiles (cell heap) start blocks heap.heapEnd)
    (magic : ∀ block ∈ blocks, heap.get block .magic = mcbMagic) (enough : blocks.length < fuel)
    (small : stats.totalFree + stats.totalUsed + mcbHeaderSize * stats.numBlocks + (heap.heapEnd - start) < 2 ^ 32) :
    scanLoop heap fuel start stats =
      some ⟨stats.totalFree + (sizesOf heap (freeBlocks heap blocks)).sum,
        stats.totalUsed + (sizesOf heap (usedBlocks heap blocks)).sum, stats.numBlocks + blocks.length⟩ := by
  induction blocks generalizing start fuel stats with
  | nil =>
      obtain ⟨fuel, rfl⟩ := Nat.exists_eq_succ_of_ne_zero (Nat.ne_of_gt enough)
      have ended : heap.heapEnd ≤ start ∨ heap.get start .magic ≠ mcbMagic := Or.inl (Nat.le_of_eq tiles.symm)
      rw [scanLoop, if_pos ended]
      rfl
  | cons block rest ih =>
      obtain ⟨rfl, further⟩ := tiles
      obtain ⟨fuel, rfl⟩ := Nat.exists_eq_succ_of_ne_zero (Nat.ne_of_gt (Nat.zero_lt_of_lt enough))
      have ordered := (tiles_bounds _ _ _ further).1
      have header : mcbHeaderSize = 20 := rfl
      have size : cell heap block = 20 + heap.get block .size := rfl
      rw [header] at small
      have going : ¬ (heap.heapEnd ≤ block ∨ heap.get block .magic ≠ mcbMagic) := by
        rintro (past | corrupted)
        · omega
        · exact corrupted (magic block (by simp))
      have moved : add32 (add32 block mcbHeaderSize) (heap.get block .size) = block + cell heap block := by
        rw [add32_of_lt block, add32_of_lt] <;> omega
      have counted : add32 stats.numBlocks 1 = stats.numBlocks + 1 := add32_of_lt _ _ (by omega)
      have later : heap.heapEnd - block = cell heap block + (heap.heapEnd - (block + cell heap block)) := by omega
      have enough : rest.length < fuel := by
        simp only [List.length_cons] at enough
        omega
      have magic : ∀ other ∈ rest, heap.get other .magic = mcbMagic := fun other member =>
        magic other (List.mem_cons_of_mem _ member)
      rw [scanLoop, if_neg going, free_blocks_cons, used_blocks_cons]
      dsimp only
      rw [moved, counted]
      by_cases free : heap.get block .flags = mcbFlagFree
      · have added : add32 stats.totalFree (heap.get block .size) = stats.totalFree + heap.get block .size :=
          add32_of_lt _ _ (by omega)
        simp only [if_pos free, added]
        rw [ih _ fuel ⟨_, _, _⟩ further magic enough (by dsimp only; rw [header]; omega)]
        simp only [sizesOf, List.map_cons, List.sum_cons, List.length_cons, Option.some.injEq, Stats.mk.injEq]
        exact ⟨by omega, trivial, by omega⟩
      · have added : add32 stats.totalUsed (heap.get block .size) = stats.totalUsed + heap.get block .size :=
          add32_of_lt _ _ (by omega)
        simp only [if_neg free, added]
        rw [ih _ fuel ⟨_, _, _⟩ further magic enough (by dsimp only; rw [header]; omega)]
        simp only [sizesOf, List.map_cons, List.sum_cons, List.length_cons, Option.some.injEq, Stats.mk.injEq]
        exact ⟨trivial, by omega, by omega⟩

theorem tiled_statistics (heap : HeapState) (blocks : List Nat) (tiled : Tiled heap blocks) (fuel : Nat)
    (enough : blocks.length < fuel) :
    (memGetStats fuel heap).map (·.2) = some ⟨(sizesOf heap (freeBlocks heap blocks)).sum,
      (sizesOf heap (usedBlocks heap blocks)).sum, blocks.length⟩ := by
  have bounded := tiled.bounded
  have scanned := scan_tiles heap bounded heap.heapBase fuel blocks ⟨0, 0, 0⟩ tiled.tiles tiled.magic enough
    (by dsimp only; omega)
  simp [memGetStats, scanned]

theorem accounted_payload_sum (machine : Machine) (blocks : List Nat) (accounted : Accounted machine blocks) :
    (sizesOf machine.heap (usedBlocks machine.heap blocks)).sum =
      (machine.live.map (payloadSize machine.heap)).sum := by
  have sizes := accounted.used.map fun block => machine.heap.get block .size
  rw [List.map_map] at sizes
  exact sizes.sum_nat.symm

structure Conserved (size : Nat) (machine : Machine) (blocks : List Nat) : Prop where
  walk : Tiles (cell machine.heap) machine.heap.heapBase blocks machine.heap.heapEnd
  magic : ∀ block ∈ blocks, machine.heap.get block .magic = mcbMagic
  returned : ∃ stats, (∀ fuel, blocks.length < fuel → (memGetStats fuel machine.heap).map (·.2) = some stats) ∧
    stats.totalFree + stats.totalUsed + mcbHeaderSize * stats.numBlocks = size ∧
    stats.totalUsed = (machine.live.map (payloadSize machine.heap)).sum

theorem sound_conserved (machine : Machine) (sound : Sound machine) :
    ∃ blocks, Conserved machine.heap.heapSize machine blocks := by
  obtain ⟨blocks, tiled, accounted⟩ := sound
  have length := tiles_sum _ _ _ tiled.tiles
  rw [tiled.extent, cells_sum] at length
  exact ⟨blocks, tiled.tiles, tiled.magic, _, tiled_statistics machine.heap blocks tiled,
    by dsimp only; omega, accounted_payload_sum machine blocks accounted⟩

theorem statistics_stay_conserved (base size : Nat) (notNull : base ≠ 0) (enough : 1024 ≤ size)
    (positive : size < 2 ^ 31) (inside : base + size < 2 ^ 32) (machine : Machine)
    (run : Run (Started base size) HeapStep StepSound machine) : ∃ blocks, Conserved size machine blocks := by
  have kept := run_invariant (fun machine => Sound machine ∧ machine.heap.heapSize = size)
    (fun state boot => by
      obtain ⟨sound, extent, _⟩ := started_sound base size notNull enough inside positive state boot
      exact ⟨sound, extent⟩)
    (fun state next op inv admitted taken => ⟨step_sound state next op inv.1 admitted taken,
      (step_region state next op taken).2.trans inv.2⟩) machine run
  have conserved := sound_conserved machine kept.1
  rwa [kept.2] at conserved

theorem statistics_stay_conserved_first :
    ∃ machine blocks, machine.live = [⟨4236, 200⟩] ∧ Conserved 1024 machine blocks := by
  obtain ⟨machine, run, live⟩ := twice_taken
  obtain ⟨blocks, conserved⟩ := statistics_stay_conserved 4096 1024 (by decide) (by decide) (by decide) (by decide) machine
    (run_weaken _ (fun _ _ admitted => admitted.2) machine run)
  exact ⟨machine, blocks, live, conserved⟩

-- The second kfree finds its own header linked as its next block and merges the block with itself.
theorem statistics_not_always_conserved : ¬ ∀ base size, base ≠ 0 → 1024 ≤ size → size < 2 ^ 31 →
    base + size < 2 ^ 32 → ∀ machine, Run (Started base size) HeapStep (fun _ _ => True) machine →
      ∃ blocks, Conserved size machine blocks := by
  intro claimed
  have evaluated : (runOps 3 (fun _ _ => true) (zeroHeap 4096 1024)
      [.kmalloc 4, .kfree 4116, .kmalloc 4, .kfree 4116]).any (fun machine =>
        machine.heap.heapBase = 4096 ∧ machine.heap.heapEnd = 5120 ∧ machine.heap.get 4096 .size = 2028) = true := by
    decide +kernel
  obtain ⟨machine, done, reached⟩ := (Option.any_eq_true _ _).mp evaluated
  obtain ⟨first, ended, grown⟩ := of_decide_eq_true reached
  have run := run_ops_run 4096 1024 3 _ _ machine _ (.start _ (zero_heap_started _ _)) done
  obtain ⟨blocks, conserved⟩ := claimed 4096 1024 (by decide) (by decide) (by decide) (by decide) machine
    (run_weaken _ (fun _ _ _ => trivial) machine run)
  have walk := conserved.walk
  rw [first, ended] at walk
  cases blocks with
  | nil => simp [Tiles] at walk
  | cons block rest =>
      obtain ⟨rfl, further⟩ := walk
      have ordered := (tiles_bounds _ _ _ further).1
      rw [cell, grown] at ordered
      exact absurd ordered (by decide)

end RoDos.Heap
