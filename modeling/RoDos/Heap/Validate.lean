import RoDos.Base.Orbits
import RoDos.Heap.Calls

set_option autoImplicit false

namespace RoDos.Heap

open Base

def validateLoop (heap : HeapState) : Nat → Nat → Option Nat
  | 0, _ => none
  | fuel + 1, esi =>
      if heap.heapEnd ≤ esi then some 0
      else if heap.get esi .magic ≠ mcbMagic then some 1
      else if heap.get esi .flags ≠ mcbFlagFree ∧ heap.get esi .flags ≠ mcbFlagUsed then some 1
      else validateLoop heap fuel (add32 (add32 esi mcbHeaderSize) (heap.get esi .size))

def memValidateHeap (fuel : Nat) (heap : HeapState) : Option Nat := validateLoop heap fuel heap.heapBase

-- The header words that the two loops read, in their order.
def validateReads (heap : HeapState) : Nat → Nat → List Nat
  | 0, _ => []
  | fuel + 1, esi =>
      if heap.heapEnd ≤ esi then []
      else if heap.get esi .magic ≠ mcbMagic then [esi + Field.magic.offset]
      else if heap.get esi .flags ≠ mcbFlagFree ∧ heap.get esi .flags ≠ mcbFlagUsed then
        [esi + Field.magic.offset, esi + Field.flags.offset]
      else [esi + Field.magic.offset, esi + Field.flags.offset, esi + Field.size.offset] ++
        validateReads heap fuel (add32 (add32 esi mcbHeaderSize) (heap.get esi .size))

def scanReads (heap : HeapState) : Nat → Nat → List Nat
  | 0, _ => []
  | fuel + 1, esi =>
      if heap.heapEnd ≤ esi then []
      else if heap.get esi .magic ≠ mcbMagic then [esi + Field.magic.offset]
      else [esi + Field.magic.offset, esi + Field.size.offset, esi + Field.flags.offset] ++
        scanReads heap fuel (add32 (add32 esi mcbHeaderSize) (heap.get esi .size))

def WordInside (heap : HeapState) (word : Nat) : Prop :=
  ∀ i < 4, heap.heapBase ≤ (word + i) % 2 ^ 32 ∧ (word + i) % 2 ^ 32 < heap.heapEnd

def LegalHeader (heap : HeapState) (block : Nat) : Prop :=
  heap.get block .magic = mcbMagic ∧ (heap.get block .flags = mcbFlagFree ∨ heap.get block .flags = mcbFlagUsed)

-- Legal blocks laid end to end up to heap_end.
def SoundWalk (heap : HeapState) : Prop :=
  ∃ blocks, Tiles (cell heap) heap.heapBase blocks heap.heapEnd ∧ ∀ block ∈ blocks, LegalHeader heap block

structure Validates (heap : HeapState) : Prop where
  validateEnds : ∃ fuel status, memValidateHeap fuel heap = some status
  statsEnds : ∃ fuel result, memGetStats fuel heap = some result
  validateInside : ∀ fuel, ∀ word ∈ validateReads heap fuel heap.heapBase, WordInside heap word
  statsInside : ∀ fuel, ∀ word ∈ scanReads heap fuel heap.heapBase, WordInside heap word
  verdict : ∀ fuel status, memValidateHeap fuel heap = some status → (status = 0 ↔ SoundWalk heap)

-- The step of both loops, modulo 2 ^ 32.
def onward (heap : HeapState) (esi : Nat) : Nat := add32 (add32 esi mcbHeaderSize) (heap.get esi .size)

def Scans (heap : HeapState) (esi : Nat) : Prop := esi < heap.heapEnd ∧ heap.get esi .magic = mcbMagic

def Accepts (heap : HeapState) (esi : Nat) : Prop := esi < heap.heapEnd ∧ LegalHeader heap esi

def walked (heap : HeapState) (k : Nat) : Nat := (onward heap)^[k] heap.heapBase

-- The walk over headers with the magic number comes to no address twice and finds the words it reads inside the heap,
-- and a walk over legal headers leaves the heap only if none of its blocks reaches past heap_end.
structure Walkable (heap : HeapState) : Prop where
  once : ∀ i k, i < k → WalksTo (onward heap) (Scans heap) heap.heapBase k → walked heap i ≠ walked heap k
  inside : ∀ k, WalksTo (onward heap) (Scans heap) heap.heapBase k → walked heap k < heap.heapEnd →
    WordInside heap (walked heap k + Field.magic.offset) ∧ (heap.get (walked heap k) .magic = mcbMagic →
      WordInside heap (walked heap k + Field.size.offset) ∧ WordInside heap (walked heap k + Field.flags.offset))
  fits : ∀ n, WalksTo (onward heap) (Accepts heap) heap.heapBase n → heap.heapEnd ≤ walked heap n →
    ∀ i < n, walked heap i + cell heap (walked heap i) ≤ heap.heapEnd

section
variable (heap : HeapState)

theorem scan_loop_runs (fuel esi : Nat) (stats : Stats) :
    scanLoop heap fuel esi stats = none ↔ WalksTo (onward heap) (Scans heap) esi fuel := by
  induction fuel generalizing esi stats with
  | zero => exact iff_of_true rfl (walks_to_zero _ _ _)
  | succ fuel ih =>
      rw [walks_to_succ, scanLoop]
      by_cases stops : heap.heapEnd ≤ esi ∨ heap.get esi .magic ≠ mcbMagic
      · rw [if_pos stops]
        refine iff_of_false (Option.some_ne_none _) fun walks => ?_
        exact stops.elim (Nat.not_le.mpr walks.1.1) fun broken => broken walks.1.2
      · obtain ⟨below, sound⟩ := not_or.mp stops
        rw [if_neg stops]
        exact (ih _ _).trans ⟨fun walks => ⟨⟨Nat.lt_of_not_le below, not_not.mp sound⟩, walks⟩, fun walks => walks.2⟩

theorem accepts_of_going (esi : Nat) (below : ¬ heap.heapEnd ≤ esi) (sound : ¬ heap.get esi .magic ≠ mcbMagic)
    (flags : ¬ (heap.get esi .flags ≠ mcbFlagFree ∧ heap.get esi .flags ≠ mcbFlagUsed)) : Accepts heap esi := by
  refine ⟨Nat.lt_of_not_le below, not_not.mp sound, ?_⟩
  by_contra neither
  exact flags (not_or.mp neither)

theorem validate_loop_runs (fuel esi : Nat) :
    validateLoop heap fuel esi = none ↔ WalksTo (onward heap) (Accepts heap) esi fuel := by
  induction fuel generalizing esi with
  | zero => exact iff_of_true rfl (walks_to_zero _ _ _)
  | succ fuel ih =>
      rw [walks_to_succ, validateLoop]
      by_cases past : heap.heapEnd ≤ esi
      · rw [if_pos past]
        exact iff_of_false (Option.some_ne_none _) fun walks => absurd past (Nat.not_le.mpr walks.1.1)
      rw [if_neg past]
      by_cases broken : heap.get esi .magic ≠ mcbMagic
      · rw [if_pos broken]
        exact iff_of_false (Option.some_ne_none _) fun walks => broken walks.1.2.1
      rw [if_neg broken]
      by_cases illegal : heap.get esi .flags ≠ mcbFlagFree ∧ heap.get esi .flags ≠ mcbFlagUsed
      · rw [if_pos illegal]
        exact iff_of_false (Option.some_ne_none _) fun walks => walks.1.2.2.elim illegal.1 illegal.2
      · rw [if_neg illegal]
        exact (ih _).trans ⟨fun walks => ⟨accepts_of_going heap esi past broken illegal, walks⟩, fun walks => walks.2⟩

theorem validate_loop_zero (fuel esi : Nat) : validateLoop heap fuel esi = some 0 ↔
    ∃ n < fuel, WalksTo (onward heap) (Accepts heap) esi n ∧ heap.heapEnd ≤ (onward heap)^[n] esi := by
  induction fuel generalizing esi with
  | zero =>
      refine iff_of_false (fun running => by cases running) ?_
      rintro ⟨n, below, _⟩
      exact absurd below (Nat.not_lt_zero n)
  | succ fuel ih =>
      rw [validateLoop]
      by_cases past : heap.heapEnd ≤ esi
      · rw [if_pos past]
        exact iff_of_true rfl ⟨0, Nat.succ_pos fuel, walks_to_zero _ _ _, past⟩
      rw [if_neg past]
      have later : (∃ n < fuel + 1, WalksTo (onward heap) (Accepts heap) esi n ∧ heap.heapEnd ≤ (onward heap)^[n] esi) ↔
          Accepts heap esi ∧ ∃ n < fuel, WalksTo (onward heap) (Accepts heap) (onward heap esi) n ∧
            heap.heapEnd ≤ (onward heap)^[n] (onward heap esi) := by
        constructor
        · rintro ⟨n, below, walks, ended⟩
          cases n with
          | zero => exact absurd ended past
          | succ n =>
              obtain ⟨first, rest⟩ := (walks_to_succ _ _ _ _).mp walks
              exact ⟨first, n, Nat.lt_of_succ_lt_succ below, rest, ended⟩
        · rintro ⟨first, n, below, walks, ended⟩
          exact ⟨n + 1, Nat.succ_lt_succ below, (walks_to_succ _ _ _ _).mpr ⟨first, walks⟩, ended⟩
      rw [later]
      by_cases broken : heap.get esi .magic ≠ mcbMagic
      · rw [if_pos broken]
        exact iff_of_false (by decide) fun found => broken found.1.2.1
      rw [if_neg broken]
      by_cases illegal : heap.get esi .flags ≠ mcbFlagFree ∧ heap.get esi .flags ≠ mcbFlagUsed
      · rw [if_pos illegal]
        exact iff_of_false (by decide) fun found => found.1.2.2.elim illegal.1 illegal.2
      · rw [if_neg illegal]
        exact (ih _).trans ⟨fun found => ⟨accepts_of_going heap esi past broken illegal, found⟩, fun found => found.2⟩

theorem scan_reads_iff (fuel esi word : Nat) : word ∈ scanReads heap fuel esi ↔
    ∃ k < fuel, WalksTo (onward heap) (Scans heap) esi k ∧ (onward heap)^[k] esi < heap.heapEnd ∧
      (word = (onward heap)^[k] esi + Field.magic.offset ∨ heap.get ((onward heap)^[k] esi) .magic = mcbMagic ∧
        (word = (onward heap)^[k] esi + Field.size.offset ∨ word = (onward heap)^[k] esi + Field.flags.offset)) := by
  induction fuel generalizing esi with
  | zero =>
      refine iff_of_false List.not_mem_nil ?_
      rintro ⟨k, below, _⟩
      exact absurd below (Nat.not_lt_zero k)
  | succ fuel ih =>
      rw [scanReads]
      by_cases past : heap.heapEnd ≤ esi
      · rw [if_pos past]
        refine iff_of_false List.not_mem_nil fun found => ?_
        obtain ⟨k, _, walks, below, _⟩ := found
        cases k with
        | zero => exact absurd past (Nat.not_le.mpr below)
        | succ k => exact absurd past (Nat.not_le.mpr (walks 0 (Nat.succ_pos k)).1)
      rw [if_neg past]
      by_cases broken : heap.get esi .magic ≠ mcbMagic
      · rw [if_pos broken, List.mem_singleton]
        constructor
        · intro same
          exact ⟨0, Nat.succ_pos fuel, walks_to_zero _ _ _, Nat.lt_of_not_le past, Or.inl same⟩
        · rintro ⟨k, _, walks, _, same⟩
          cases k with
          | zero => exact same.resolve_right fun both => broken both.1
          | succ k => exact absurd (walks 0 (Nat.succ_pos k)).2 broken
      · rw [if_neg broken, List.mem_append]
        have sound := not_not.mp broken
        constructor
        · rintro (here | later)
          · refine ⟨0, Nat.succ_pos fuel, walks_to_zero _ _ _, Nat.lt_of_not_le past, ?_⟩
            simp only [List.mem_cons, List.not_mem_nil, or_false] at here
            exact here.imp_right fun others => ⟨sound, others⟩
          · obtain ⟨k, below, walks, read⟩ := (ih _).mp later
            exact ⟨k + 1, Nat.succ_lt_succ below,
              (walks_to_succ _ _ _ _).mpr ⟨⟨Nat.lt_of_not_le past, sound⟩, walks⟩, read⟩
        · rintro ⟨k, below, walks, inside, read⟩
          cases k with
          | zero =>
              left
              simp only [List.mem_cons, List.not_mem_nil, or_false]
              exact read.imp_right fun both => both.2
          | succ k =>
              exact Or.inr ((ih _).mpr ⟨k, Nat.lt_of_succ_lt_succ below, ((walks_to_succ _ _ _ _).mp walks).2, inside, read⟩)

theorem validate_reads_subset (fuel esi : Nat) : validateReads heap fuel esi ⊆ scanReads heap fuel esi := by
  induction fuel generalizing esi with
  | zero => exact List.Subset.refl _
  | succ fuel ih =>
      intro word member
      rw [validateReads] at member
      rw [scanReads]
      by_cases past : heap.heapEnd ≤ esi
      · rw [if_pos past] at member
        cases member
      rw [if_neg past] at member ⊢
      by_cases broken : heap.get esi .magic ≠ mcbMagic
      · rw [if_pos broken] at member ⊢
        exact member
      rw [if_neg broken] at member ⊢
      by_cases illegal : heap.get esi .flags ≠ mcbFlagFree ∧ heap.get esi .flags ≠ mcbFlagUsed
      · rw [if_pos illegal] at member
        refine List.mem_append_left _ ?_
        simp only [List.mem_cons, List.not_mem_nil, or_false] at member ⊢
        exact member.imp_right Or.inr
      · rw [if_neg illegal] at member
        rcases List.mem_append.mp member with here | later
        · refine List.mem_append_left _ ?_
          simp only [List.mem_cons, List.not_mem_nil, or_false] at here ⊢
          exact here.imp_right Or.symm
        · exact List.mem_append_right _ (ih _ later)
theorem onward_inside (bounded : heap.heapEnd < 2 ^ 32) (esi : Nat) (fits : esi + cell heap esi ≤ heap.heapEnd) :
    onward heap esi = esi + cell heap esi := by
  rw [cell] at fits ⊢
  rw [onward, add32_of_lt esi, add32_of_lt] <;> omega

theorem tiles_walked (bounded : heap.heapEnd < 2 ^ 32) (start : Nat) (blocks : List Nat)
    (tiles : Tiles (cell heap) start blocks heap.heapEnd) (legal : ∀ block ∈ blocks, LegalHeader heap block) :
    ∃ n, WalksTo (onward heap) (Accepts heap) start n ∧ heap.heapEnd ≤ (onward heap)^[n] start ∧
      ∀ i < n, (onward heap)^[i] start + cell heap ((onward heap)^[i] start) ≤ heap.heapEnd := by
  induction blocks generalizing start with
  | nil => exact ⟨0, walks_to_zero _ _ _, Nat.le_of_eq tiles.symm, fun i below => absurd below (Nat.not_lt_zero i)⟩
  | cons block rest ih =>
      obtain ⟨rfl, further⟩ := tiles
      have ordered := (tiles_bounds _ _ _ further).1
      have positive := cell_positive heap block
      have stepped := onward_inside heap bounded block ordered
      obtain ⟨n, walks, ended, fits⟩ := ih _ further fun other member => legal other (List.mem_cons_of_mem _ member)
      rw [← stepped] at walks ended fits
      refine ⟨n + 1, (walks_to_succ _ _ _ _).mpr ⟨⟨by omega, legal block List.mem_cons_self⟩, walks⟩, ended, fun i below => ?_⟩
      cases i with
      | zero => exact ordered
      | succ i => exact fits i (Nat.lt_of_succ_lt_succ below)

theorem walked_tiles (bounded : heap.heapEnd < 2 ^ 32) (start n : Nat) (ordered : start ≤ heap.heapEnd)
    (walks : WalksTo (onward heap) (Accepts heap) start n) (ended : heap.heapEnd ≤ (onward heap)^[n] start)
    (fits : ∀ i < n, (onward heap)^[i] start + cell heap ((onward heap)^[i] start) ≤ heap.heapEnd) :
    ∃ blocks, Tiles (cell heap) start blocks heap.heapEnd ∧ ∀ block ∈ blocks, LegalHeader heap block := by
  induction n generalizing start with
  | zero => exact ⟨[], Nat.le_antisymm ordered ended, fun block member => absurd member List.not_mem_nil⟩
  | succ n ih =>
      obtain ⟨first, rest⟩ := (walks_to_succ _ _ _ _).mp walks
      have within := fits 0 (Nat.succ_pos n)
      have stepped := onward_inside heap bounded start within
      obtain ⟨blocks, tiles, legal⟩ := ih (onward heap start) (stepped ▸ within) rest ended
        (fun i below => fits (i + 1) (Nat.succ_lt_succ below))
      rw [stepped] at tiles
      exact ⟨start :: blocks, ⟨rfl, tiles⟩, List.forall_mem_cons.mpr ⟨first.2, legal⟩⟩

theorem walk_leaves_once (i n : Nat) (walks : WalksTo (onward heap) (Accepts heap) heap.heapBase i)
    (walks' : WalksTo (onward heap) (Accepts heap) heap.heapBase n) (ended : heap.heapEnd ≤ walked heap i)
    (ended' : heap.heapEnd ≤ walked heap n) : i = n := by
  rcases Nat.lt_trichotomy i n with before | same | behind
  · exact absurd (walks' i before).1 (Nat.not_lt.mpr ended)
  · exact same
  · exact absurd (walks n behind).1 (Nat.not_lt.mpr ended')

theorem scans_finite : {esi | Scans heap esi}.Finite :=
  (Set.finite_lt_nat heap.heapEnd).subset fun _ scans => scans.1

theorem accepts_scans (esi : Nat) (accepts : Accepts heap esi) : Scans heap esi := ⟨accepts.1, accepts.2.1⟩

theorem validates_walkable (bounded : heap.heapEnd < 2 ^ 32) (validates : Validates heap) : Walkable heap := by
  refine ⟨fun i k before walks => ?_, fun k walks below => ?_, fun n walks ended => ?_⟩
  · obtain ⟨fuel, result, ends⟩ := validates.statsEnds
    refine (walk_ends_iff (onward heap) (Scans heap) heap.heapBase (scans_finite heap)).mp ?_ i k before walks
    by_contra endless
    have runs := (scan_loop_runs heap fuel heap.heapBase ⟨0, 0, 0⟩).mpr fun j _ => by
      by_contra stops
      exact endless ⟨j, stops⟩
    rw [memGetStats, runs] at ends
    cases ends
  · have reads (word : Nat) (read : word = walked heap k + Field.magic.offset ∨
        heap.get (walked heap k) .magic = mcbMagic ∧
          (word = walked heap k + Field.size.offset ∨ word = walked heap k + Field.flags.offset)) : WordInside heap word :=
      validates.statsInside (k + 1) word
        ((scan_reads_iff heap (k + 1) heap.heapBase word).mpr ⟨k, Nat.lt_succ_self k, walks, below, read⟩)
    exact ⟨reads _ (Or.inl rfl), fun sound => ⟨reads _ (Or.inr ⟨sound, Or.inl rfl⟩), reads _ (Or.inr ⟨sound, Or.inr rfl⟩)⟩⟩
  · have accepted := (validate_loop_zero heap (n + 1) heap.heapBase).mpr ⟨n, Nat.lt_succ_self n, walks, ended⟩
    obtain ⟨blocks, tiles, legal⟩ := (validates.verdict (n + 1) 0 accepted).mp rfl
    obtain ⟨m, walks', ended', fits⟩ := tiles_walked heap bounded heap.heapBase blocks tiles legal
    rw [walk_leaves_once heap n m walks walks' ended ended']
    exact fits

theorem walkable_validates (ordered : heap.heapBase ≤ heap.heapEnd) (bounded : heap.heapEnd < 2 ^ 32)
    (walkable : Walkable heap) : Validates heap := by
  obtain ⟨n, stops⟩ :=
    (walk_ends_iff (onward heap) (Scans heap) heap.heapBase (scans_finite heap)).mpr walkable.once
  have statsInside (fuel word : Nat) (member : word ∈ scanReads heap fuel heap.heapBase) : WordInside heap word := by
    obtain ⟨k, _, walks, below, read⟩ := (scan_reads_iff heap fuel heap.heapBase word).mp member
    obtain ⟨magic, others⟩ := walkable.inside k walks below
    rcases read with rfl | ⟨sound, rfl | rfl⟩
    · exact magic
    · exact (others sound).1
    · exact (others sound).2
  refine ⟨⟨n + 1, ?_⟩, ⟨n + 1, ?_⟩, fun fuel word member => ?_, statsInside, fun fuel status done => ?_⟩
  · refine Option.ne_none_iff_exists'.mp fun runs => ?_
    exact stops (accepts_scans heap _ ((validate_loop_runs heap (n + 1) heap.heapBase).mp runs n (Nat.lt_succ_self n)))
  · refine Option.ne_none_iff_exists'.mp fun runs => ?_
    have endless := (scan_loop_runs heap (n + 1) heap.heapBase ⟨0, 0, 0⟩).mp (Option.map_eq_none_iff.mp runs)
    exact stops (endless n (Nat.lt_succ_self n))
  · exact statsInside fuel word (validate_reads_subset heap fuel heap.heapBase member)
  · constructor
    · rintro rfl
      obtain ⟨m, _, walks, ended⟩ := (validate_loop_zero heap fuel heap.heapBase).mp done
      exact walked_tiles heap bounded heap.heapBase m ordered walks ended (walkable.fits m walks ended)
    · rintro ⟨blocks, tiles, legal⟩
      obtain ⟨m, walks, ended, _⟩ := tiles_walked heap bounded heap.heapBase blocks tiles legal
      have enough : m < fuel := by
        by_contra short
        have runs := (validate_loop_runs heap fuel heap.heapBase).mpr
          (walks_to_less _ _ _ fuel m (Nat.le_of_not_lt short) walks)
        rw [memValidateHeap, runs] at done
        cases done
      have accepted := (validate_loop_zero heap fuel heap.heapBase).mpr ⟨m, enough, walks, ended⟩
      rw [memValidateHeap, accepted] at done
      exact (Option.some.inj done).symm

theorem validates_iff (ordered : heap.heapBase ≤ heap.heapEnd) (bounded : heap.heapEnd < 2 ^ 32) :
    Validates heap ↔ Walkable heap :=
  ⟨validates_walkable heap bounded, walkable_validates heap ordered bounded⟩
end

theorem validates_fresh : Validates startHeap := by
  have base : walked startHeap 0 = 4096 := by decide +kernel
  have behind : walked startHeap 1 = 5120 := by decide +kernel
  have ended : startHeap.heapEnd = 5120 := by decide +kernel
  have short (k : Nat) (walks : WalksTo (onward startHeap) (Scans startHeap) startHeap.heapBase k) : k ≤ 1 := by
    by_contra long
    have past := (walks 1 (Nat.lt_of_not_le long)).1
    change walked startHeap 1 < startHeap.heapEnd at past
    rw [behind, ended] at past
    exact absurd past (by decide)
  refine (validates_iff startHeap (by decide +kernel) (by decide +kernel)).mpr ⟨fun i k before walks => ?_,
    fun k walks below => ?_, fun n walks leaves i before => ?_⟩
  · have last := short k walks
    obtain rfl : i = 0 := by omega
    obtain rfl : k = 1 := by omega
    rw [base, behind]
    decide
  · have first : k = 0 := by
      by_contra later
      have last := short k walks
      obtain rfl : k = 1 := by omega
      rw [behind, ended] at below
      exact absurd below (by decide)
    rw [first, base]
    exact ⟨by unfold WordInside; decide +kernel, fun _ => ⟨by unfold WordInside; decide +kernel, by unfold WordInside; decide +kernel⟩⟩
  · have last := short n (walks_to_weaken _ _ _ _ (accepts_scans startHeap) n walks)
    obtain rfl : i = 0 := by omega
    rw [base]
    decide +kernel

-- A header of the size that makes 0 with its own length is walked over for ever.
theorem validates_not_always : ¬ ∀ heap : HeapState, heap.heapBase ≤ heap.heapEnd → heap.heapEnd < 2 ^ 32 → Validates heap := by
  intro claimed
  let heap := startHeap.set 4096 .size (2 ^ 32 - 20)
  have walkable := validates_walkable heap (by decide +kernel) (claimed heap (by decide +kernel) (by decide +kernel))
  have scans : Scans heap 4096 := ⟨by decide +kernel, by decide +kernel⟩
  have walks : WalksTo (onward heap) (Scans heap) heap.heapBase 1 :=
    (walks_to_succ _ _ _ _).mpr ⟨scans, walks_to_zero _ _ _⟩
  exact walkable.once 0 1 (by decide) walks (by decide +kernel)

end RoDos.Heap
