import RoDos.Base.Memory
import RoDos.Base.Runs

set_option autoImplicit false

namespace RoDos.Heap

open Base

def mcbMagic : Nat := 0x4D43424B
def mcbHeaderSize : Nat := 20
def minSplitSize : Nat := 32
def mcbFlagFree : Nat := 1
def mcbFlagUsed : Nat := 0

inductive Field where
  | prev | next | size | magic | flags
deriving DecidableEq, Repr

def Field.offset : Field → Nat
  | .prev => 0
  | .next => 4
  | .size => 8
  | .magic => 12
  | .flags => 16

-- The .data words of the allocator stand beside the byte memory that holds the heap region.
structure HeapState where
  mem : Memory
  heapBase : Nat
  heapSize : Nat
  heapEnd : Nat
  heapFreeHead : Nat
  memTotalFree : Nat
  memTotalUsed : Nat
  memNumBlocks : Nat

def HeapState.get (heap : HeapState) (block : Nat) (field : Field) : Nat :=
  loadWord heap.mem (block + field.offset)

def HeapState.set (heap : HeapState) (block : Nat) (field : Field) (value : Nat) : HeapState :=
  { heap with mem := storeWord heap.mem (block + field.offset) value }

def boot (mem : Memory) : HeapState := ⟨mem, 0, 0, 0, 0, 0, 0, 0⟩

-- jle reads the flags of the 32-bit subtraction, so the size test is signed.
def memInit (heap : HeapState) (eax ebx : Nat) : HeapState × Nat :=
  if eax = 0 ∨ ebx < 1024 then (heap, 1)
  else
    let stored := { heap with heapBase := eax, heapSize := ebx, heapEnd := add32 ebx eax }
    let cleared := (stored.set eax .prev 0).set eax .next 0
    if signed32 ebx ≤ mcbHeaderSize then (cleared, 2)
    else
      let ecx := sub32 ebx mcbHeaderSize
      let first := ((cleared.set eax .size ecx).set eax .magic mcbMagic).set eax .flags mcbFlagFree
      ({ first with heapFreeHead := eax, memTotalFree := ecx, memTotalUsed := 0, memNumBlocks := 1 }, 0)

def alignSize (eax : Nat) : Nat := add32 eax 3 / 4 * 4

inductive Search where
  | failed
  | corrupted
  | block (esi : Nat)
deriving DecidableEq, Repr

-- none says that the loop is still running when the fuel is spent.
def searchLoop (heap : HeapState) (eax : Nat) : Nat → Nat → Option Search
  | 0, _ => none
  | fuel + 1, esi =>
      if esi = 0 then some .failed
      else if heap.get esi .magic ≠ mcbMagic then some .corrupted
      else if heap.get esi .flags = mcbFlagFree ∧ eax ≤ heap.get esi .size then some (.block esi)
      else searchLoop heap eax fuel (heap.get esi .next)

def splitBlock (heap : HeapState) (esi eax : Nat) : HeapState :=
  let edi := add32 (add32 esi mcbHeaderSize) eax
  let owned := heap.set edi .prev esi
  let edx := owned.get esi .next
  let chained := owned.set edi .next edx
  let ecx := sub32 (sub32 (chained.get esi .size) eax) mcbHeaderSize
  let created := ((chained.set edi .size ecx).set edi .magic mcbMagic).set edi .flags mcbFlagFree
  let linked := (created.set esi .next edi).set esi .size eax
  let following := if edx = 0 then linked else linked.set edx .prev edi
  following.set esi .flags mcbFlagUsed

def useWholeBlock (heap : HeapState) (esi : Nat) : HeapState :=
  let edx := heap.get esi .prev
  let ecx := heap.get esi .next
  let before := if edx = 0 then { heap with heapFreeHead := ecx } else heap.set edx .next ecx
  let after := if ecx = 0 then before else before.set ecx .prev edx
  after.set esi .flags mcbFlagUsed

def allocateBlock (heap : HeapState) (esi eax : Nat) : HeapState :=
  if sub32 (sub32 (heap.get esi .size) eax) mcbHeaderSize < minSplitSize then useWholeBlock heap esi
  else splitBlock heap esi eax

def updateStatistics (heap : HeapState) (eax : Nat) : HeapState :=
  { heap with
    memTotalFree := sub32 heap.memTotalFree (add32 eax mcbHeaderSize)
    memTotalUsed := add32 heap.memTotalUsed (add32 eax mcbHeaderSize) }

-- The corrupted exit falls through into the statistics of the successful one.
def kmalloc (fuel : Nat) (heap : HeapState) (eax : Nat) : Option (HeapState × Nat) :=
  if eax = 0 then some (heap, 0)
  else
    match searchLoop heap (alignSize eax) fuel heap.heapFreeHead with
    | none => none
    | some .failed => some (heap, 0)
    | some .corrupted => some (updateStatistics heap (alignSize eax), 0)
    | some (.block esi) =>
        some (updateStatistics (allocateBlock heap esi (alignSize eax)) (alignSize eax),
          add32 esi mcbHeaderSize)

-- The tests made on a neighbour before a merge.
def Mergeable (heap : HeapState) (edi : Nat) : Prop :=
  edi ≠ 0 ∧ heap.get edi .magic = mcbMagic ∧ heap.get edi .flags = mcbFlagFree

instance (heap : HeapState) (edi : Nat) : Decidable (Mergeable heap edi) :=
  inferInstanceAs (Decidable (_ ∧ _ ∧ _))

def mergedSize (heap : HeapState) (front back : Nat) : Nat :=
  add32 (add32 (heap.get front .size) mcbHeaderSize) (heap.get back .size)

-- Both coalescing paths let the front header absorb the back one and inherit its next link.
def absorb (heap : HeapState) (front back : Nat) : HeapState :=
  let grown := heap.set front .size (mergedSize heap front back)
  let ebx := grown.get back .next
  let linked := grown.set front .next ebx
  if ebx = 0 then linked else linked.set ebx .prev front

def coalesceNext (heap : HeapState) (esi : Nat) : HeapState :=
  let edi := heap.get esi .next
  if Mergeable heap edi then absorb heap esi edi else heap

def addToFreeList (heap : HeapState) (esi : Nat) : HeapState :=
  let eax := heap.heapFreeHead
  let linked := { (heap.set esi .prev 0).set esi .next eax with heapFreeHead := esi }
  if eax = 0 then linked else linked.set eax .prev esi

def checkPrev (heap : HeapState) (esi : Nat) : HeapState :=
  let edi := heap.get esi .prev
  if Mergeable heap edi then absorb heap edi esi else addToFreeList heap esi

def markFree (heap : HeapState) (esi : Nat) : HeapState := heap.set esi .flags mcbFlagFree

def kfree (heap : HeapState) (eax : Nat) : HeapState :=
  if eax = 0 then heap
  else
    let esi := sub32 eax mcbHeaderSize
    if heap.get esi .magic ≠ mcbMagic then heap
    else if heap.get esi .flags = mcbFlagFree then heap
    else checkPrev (coalesceNext (markFree heap esi) esi) esi

structure Stats where
  totalFree : Nat
  totalUsed : Nat
  numBlocks : Nat
deriving DecidableEq, Repr

def scanLoop (heap : HeapState) : Nat → Nat → Stats → Option Stats
  | 0, _, _ => none
  | fuel + 1, esi, stats =>
      if heap.heapEnd ≤ esi ∨ heap.get esi .magic ≠ mcbMagic then some stats
      else
        let edx := heap.get esi .size
        let counted : Stats :=
          if heap.get esi .flags = mcbFlagFree then
            ⟨add32 stats.totalFree edx, stats.totalUsed, add32 stats.numBlocks 1⟩
          else ⟨stats.totalFree, add32 stats.totalUsed edx, add32 stats.numBlocks 1⟩
        scanLoop heap fuel (add32 (add32 esi mcbHeaderSize) edx) counted

def memGetStats (fuel : Nat) (heap : HeapState) : Option (HeapState × Stats) :=
  (scanLoop heap fuel heap.heapBase ⟨0, 0, 0⟩).map fun stats =>
    ({ heap with memTotalFree := stats.totalFree, memTotalUsed := stats.totalUsed,
                 memNumBlocks := stats.numBlocks }, stats)

-- A pointer handed out and not yet freed, with the size that was asked for.
structure Allocation where
  pointer : Nat
  requested : Nat
deriving DecidableEq, Repr

structure Machine where
  heap : HeapState
  live : List Allocation

inductive HeapOp where
  | kmalloc (eax : Nat)
  | kfree (eax : Nat)
  | write (address : Nat) (byte : UInt8)
deriving DecidableEq, Repr

def Allocation.block (allocation : Allocation) : Nat := allocation.pointer - mcbHeaderSize

def payloadSize (heap : HeapState) (allocation : Allocation) : Nat := heap.get allocation.block .size

-- A search that never ends gives no step. Programs write only into their own payloads.
inductive HeapStep : Machine → HeapOp → Machine → Prop where
  | kmalloc (machine : Machine) (eax fuel pointer : Nat) (heap : HeapState) (word : eax < 2 ^ 32)
      (returned : kmalloc fuel machine.heap eax = some (heap, pointer)) :
      HeapStep machine (.kmalloc eax)
        ⟨heap, if pointer = 0 then machine.live else ⟨pointer, eax⟩ :: machine.live⟩
  | kfree (machine : Machine) (allocation : Allocation) (alive : allocation ∈ machine.live) :
      HeapStep machine (.kfree allocation.pointer)
        ⟨kfree machine.heap allocation.pointer, machine.live.erase allocation⟩
  | write (machine : Machine) (allocation : Allocation) (address : Nat) (byte : UInt8)
      (alive : allocation ∈ machine.live) (above : allocation.pointer ≤ address)
      (below : address < allocation.pointer + payloadSize machine.heap allocation) :
      HeapStep machine (.write address byte)
        ⟨{ machine.heap with mem := storeByte machine.heap.mem address byte }, machine.live⟩

def stepOp (fuel : Nat) (machine : Machine) : HeapOp → Option Machine
  | .kmalloc eax =>
      if eax < 2 ^ 32 then
        (kmalloc fuel machine.heap eax).map fun returned =>
          ⟨returned.1, if returned.2 = 0 then machine.live else ⟨returned.2, eax⟩ :: machine.live⟩
      else none
  | .kfree eax =>
      (machine.live.find? fun allocation => allocation.pointer = eax).map fun allocation =>
        ⟨kfree machine.heap eax, machine.live.erase allocation⟩
  | .write address byte =>
      (machine.live.find? fun allocation =>
        allocation.pointer ≤ address ∧ address < allocation.pointer + payloadSize machine.heap allocation).map
          fun _ => ⟨{ machine.heap with mem := storeByte machine.heap.mem address byte }, machine.live⟩

def runOps (fuel : Nat) (admits : Machine → HeapOp → Bool) : Machine → List HeapOp → Option Machine
  | machine, [] => some machine
  | machine, op :: rest =>
      if admits machine op then (stepOp fuel machine op).bind fun next => runOps fuel admits next rest else none

theorem step_op_step (fuel : Nat) (machine next : Machine) (op : HeapOp)
    (done : stepOp fuel machine op = some next) : HeapStep machine op next := by
  cases op with
  | kmalloc eax =>
      by_cases word : eax < 2 ^ 32
      · simp only [stepOp, if_pos word, Option.map_eq_some_iff] at done
        obtain ⟨⟨heap, pointer⟩, returned, rfl⟩ := done
        exact .kmalloc machine eax fuel pointer heap word returned
      · rw [stepOp, if_neg word] at done
        cases done
  | kfree eax =>
      simp only [stepOp, Option.map_eq_some_iff] at done
      obtain ⟨allocation, found, rfl⟩ := done
      have pointer : allocation.pointer = eax := by simpa using List.find?_some found
      subst pointer
      exact .kfree machine allocation (List.mem_of_find?_eq_some found)
  | write address byte =>
      simp only [stepOp, Option.map_eq_some_iff] at done
      obtain ⟨allocation, found, rfl⟩ := done
      have inside : allocation.pointer ≤ address ∧
          address < allocation.pointer + payloadSize machine.heap allocation := by simpa using List.find?_some found
      exact .write machine allocation address byte (List.mem_of_find?_eq_some found) inside.1 inside.2

def Started (base size : Nat) (machine : Machine) : Prop :=
  ∃ mem, machine = ⟨(memInit (boot mem) base size).1, []⟩

theorem run_ops_run (base size fuel : Nat) (admits : Machine → HeapOp → Bool) (start finish : Machine)
    (ops : List HeapOp)
    (run : Run (Started base size) HeapStep (fun machine op => admits machine op = true) start)
    (done : runOps fuel admits start ops = some finish) :
    Run (Started base size) HeapStep (fun machine op => admits machine op = true) finish := by
  induction ops generalizing start with
  | nil =>
      simp only [runOps, Option.some.injEq] at done
      exact done ▸ run
  | cons op rest ih =>
      by_cases admitted : admits start op = true
      · simp only [runOps, if_pos admitted, Option.bind_eq_some_iff] at done
        obtain ⟨next, taken, further⟩ := done
        exact ih next (.step start next op run admitted (step_op_step fuel start next op taken)) further
      · simp [runOps, admitted] at done

end RoDos.Heap
