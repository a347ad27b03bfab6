import RoDos.Heap.Model

set_option autoImplicit false

namespace RoDos.Heap

open Base

theorem offset_bound (field : Field) : field.offset + 4 ≤ mcbHeaderSize := by
  cases field <;> decide

theorem offset_apart (a b : Field) (different : a ≠ b) :
    a.offset + 4 ≤ b.offset ∨ b.offset + 4 ≤ a.offset := by
  cases a <;> cases b <;> first | exact absurd rfl different | decide

def Apart (a b : Nat) : Prop := a + mcbHeaderSize ≤ b ∨ b + mcbHeaderSize ≤ a

structure Separate (headers : List Nat) : Prop where
  inside : ∀ a ∈ headers, a + mcbHeaderSize < 2 ^ 32
  apart : ∀ a ∈ headers, ∀ b ∈ headers, a = b ∨ Apart a b

@[simp] theorem set_base (heap : HeapState) (a v : Nat) (f : Field) : (heap.set a f v).heapBase = heap.heapBase := rfl
@[simp] theorem set_size (heap : HeapState) (a v : Nat) (f : Field) : (heap.set a f v).heapSize = heap.heapSize := rfl
@[simp] theorem set_end (heap : HeapState) (a v : Nat) (f : Field) : (heap.set a f v).heapEnd = heap.heapEnd := rfl
@[simp] theorem set_head (heap : HeapState) (a v : Nat) (f : Field) :
    (heap.set a f v).heapFreeHead = heap.heapFreeHead := rfl

theorem get_lt (heap : HeapState) (a : Nat) (f : Field) : heap.get a f < 2 ^ 32 := load_word_lt _ _

theorem get_set (heap : HeapState) (headers : List Nat) (separate : Separate headers) (a b v : Nat) (f g : Field)
    (left : a ∈ headers) (right : b ∈ headers) (word : v < 2 ^ 32) :
    (heap.set a f v).get b g = if b = a ∧ g = f then v else heap.get b g := by
  have insideLeft := separate.inside a left
  have insideRight := separate.inside b right
  have boundLeft := offset_bound f
  have boundRight := offset_bound g
  by_cases same : b = a ∧ g = f
  · obtain ⟨rfl, rfl⟩ := same
    rw [if_pos ⟨rfl, rfl⟩]
    exact load_word_store_here _ _ _ word
  · rw [if_neg same]
    refine load_word_store_apart _ _ _ _ (by omega) (by omega) ?_
    rcases separate.apart a left b right with rfl | apart
    · have fields := offset_apart f g (fun equal => same ⟨rfl, equal.symm⟩)
      omega
    · unfold Apart at apart
      omega

section
variable (heap : HeapState) (headers : List Nat) (separate : Separate headers)
include separate

theorem header_lt (a : Nat) (member : a ∈ headers) :
    a < 2 ^ 32 := by
  have := separate.inside a member
  omega

theorem mark_free_get (esi c : Nat) (g : Field) (esiIn : esi ∈ headers) (cIn : c ∈ headers) :
    (markFree heap esi).get c g = if c = esi ∧ g = .flags then mcbFlagFree else heap.get c g :=
  get_set heap headers separate esi c mcbFlagFree .flags g esiIn cIn (by decide)

theorem create_block_get (edi c : Nat) (g : Field) (ediIn : edi ∈ headers) (cIn : c ∈ headers)
    (prev next size magic flags : Nat) (prevWord : prev < 2 ^ 32) (nextWord : next < 2 ^ 32) (sizeWord : size < 2 ^ 32)
    (magicWord : magic < 2 ^ 32) (flagsWord : flags < 2 ^ 32) :
    (((((heap.set edi .prev prev).set edi .next next).set edi .size size).set edi .magic magic).set edi .flags flags).get c g =
      if c = edi then
        match g with
        | .prev => prev
        | .next => next
        | .size => size
        | .magic => magic
        | .flags => flags
      else heap.get c g := by
  simp (disch := assumption) only [get_set _ headers separate]
  by_cases here : c = edi
  · cases g <;> simp [here]
  · simp only [here, false_and, if_false]

-- Outside the new block a split rewrites the used header and the prev link of the old next block.
theorem split_block_get (esi eax edi c : Nat) (g : Field) (esiIn : esi ∈ headers) (ediIn : edi ∈ headers)
    (cIn : c ∈ headers) (linked : heap.get esi .next = 0 ∨ heap.get esi .next ∈ headers)
    (placed : add32 (add32 esi mcbHeaderSize) eax = edi) (word : eax < 2 ^ 32) :
    (splitBlock heap esi eax).get c g =
      if c = esi ∧ g = .flags then mcbFlagUsed
      else if c = heap.get esi .next ∧ heap.get esi .next ≠ 0 ∧ g = .prev then edi
      else if c = esi ∧ g = .size then eax
      else if c = esi ∧ g = .next then edi
      else if c = edi then
        match g with
        | .prev => esi
        | .next => heap.get esi .next
        | .size => sub32 (sub32 (heap.get esi .size) eax) mcbHeaderSize
        | .magic => mcbMagic
        | .flags => mcbFlagFree
      else heap.get c g := by
  have esiWord := header_lt headers separate esi esiIn
  have ediWord := header_lt headers separate edi ediIn
  have edxWord := get_lt heap esi .next
  have ecxWord : sub32 (sub32 (heap.get esi .size) eax) mcbHeaderSize < 2 ^ 32 := Nat.mod_lt _ (by decide)
  have magicWord : mcbMagic < 2 ^ 32 := by decide
  have freeWord : mcbFlagFree < 2 ^ 32 := by decide
  have usedWord : mcbFlagUsed < 2 ^ 32 := by decide
  have edxRead : (heap.set edi .prev esi).get esi .next = heap.get esi .next := by
    simp (disch := assumption) [get_set _ headers separate]
  have sizeRead : ((heap.set edi .prev esi).set edi .next (heap.get esi .next)).get esi .size =
      heap.get esi .size := by
    simp (disch := assumption) [get_set _ headers separate]
  have created (b : Nat) (f : Field) (bIn : b ∈ headers) := create_block_get heap headers separate edi b f ediIn bIn
    esi (heap.get esi .next) _ mcbMagic mcbFlagFree esiWord edxWord ecxWord magicWord freeWord
  unfold splitBlock
  simp only [placed, edxRead, sizeRead]
  generalize (((((heap.set edi .prev esi).set edi .next (heap.get esi .next)).set edi .size
    (sub32 (sub32 (heap.get esi .size) eax) mcbHeaderSize)).set edi .magic mcbMagic).set edi .flags mcbFlagFree) = block
    at created ⊢
  by_cases last : heap.get esi .next = 0
  · simp (disch := assumption) only [if_pos last, get_set _ headers separate, created]
    cases g <;> simp [last]
  · have edxIn := linked.resolve_left last
    simp (disch := assumption) only [if_neg last, get_set _ headers separate, created]
    cases g <;> simp [last]

theorem use_whole_block_get (esi c : Nat) (g : Field) (esiIn : esi ∈ headers) (cIn : c ∈ headers)
    (prevIn : heap.get esi .prev = 0 ∨ heap.get esi .prev ∈ headers)
    (nextIn : heap.get esi .next = 0 ∨ heap.get esi .next ∈ headers) :
    (useWholeBlock heap esi).get c g =
      if c = esi ∧ g = .flags then mcbFlagUsed
      else if c = heap.get esi .next ∧ heap.get esi .next ≠ 0 ∧ g = .prev then heap.get esi .prev
      else if c = heap.get esi .prev ∧ heap.get esi .prev ≠ 0 ∧ g = .next then heap.get esi .next
      else heap.get c g := by
  have edxWord := get_lt heap esi .prev
  have ecxWord := get_lt heap esi .next
  have usedWord : mcbFlagUsed < 2 ^ 32 := by decide
  have headRead (other : Nat) (b : Nat) (f : Field) :
      HeapState.get { heap with heapFreeHead := other } b f = heap.get b f := rfl
  unfold useWholeBlock
  dsimp only
  by_cases first : heap.get esi .prev = 0 <;> by_cases last : heap.get esi .next = 0
  · simp (disch := assumption) only [if_pos first, if_pos last, headRead,
      get_set _ headers separate]
    simp [first, last]
  · have ecxIn := nextIn.resolve_left last
    simp (disch := assumption) only [if_pos first, if_neg last, headRead,
      get_set _ headers separate]
    simp [first, last]
  · have edxIn := prevIn.resolve_left first
    simp (disch := assumption) only [if_neg first, if_pos last,
      get_set _ headers separate]
    simp [first, last]
  · have edxIn := prevIn.resolve_left first
    have ecxIn := nextIn.resolve_left last
    simp (disch := assumption) only [if_neg first, if_neg last,
      get_set _ headers separate]
    simp [first, last]

theorem absorb_get (front back c : Nat) (g : Field) (frontIn : front ∈ headers) (backIn : back ∈ headers)
    (cIn : c ∈ headers) (linked : heap.get back .next = 0 ∨ heap.get back .next ∈ headers) :
    (absorb heap front back).get c g =
      if c = heap.get back .next ∧ heap.get back .next ≠ 0 ∧ g = .prev then front
      else if c = front ∧ g = .next then heap.get back .next
      else if c = front ∧ g = .size then mergedSize heap front back
      else heap.get c g := by
  have ebxWord := get_lt heap back .next
  have frontWord := header_lt headers separate front frontIn
  have sizeWord : mergedSize heap front back < 2 ^ 32 := Nat.mod_lt _ (by decide)
  have ebxRead : (heap.set front .size (mergedSize heap front back)).get back .next = heap.get back .next := by
    simp (disch := assumption) [get_set _ headers separate]
  unfold absorb
  simp only [ebxRead]
  by_cases last : heap.get back .next = 0
  · simp (disch := assumption) only [if_pos last, get_set _ headers separate]
    simp [last]
  · have ebxIn := linked.resolve_left last
    simp (disch := assumption) only [if_neg last, get_set _ headers separate]
    simp [last]

theorem add_to_free_list_get (esi c : Nat) (g : Field) (esiIn : esi ∈ headers) (cIn : c ∈ headers)
    (headIn : heap.heapFreeHead = 0 ∨ heap.heapFreeHead ∈ headers) (headWord : heap.heapFreeHead < 2 ^ 32) :
    (addToFreeList heap esi).get c g =
      if c = heap.heapFreeHead ∧ heap.heapFreeHead ≠ 0 ∧ g = .prev then esi
      else if c = esi ∧ g = .next then heap.heapFreeHead
      else if c = esi ∧ g = .prev then 0
      else heap.get c g := by
  have esiWord := header_lt headers separate esi esiIn
  have nullWord : (0 : Nat) < 2 ^ 32 := by decide
  have linkedRead (b : Nat) (f : Field) :
      HeapState.get { (heap.set esi .prev 0).set esi .next heap.heapFreeHead with heapFreeHead := esi } b f =
        ((heap.set esi .prev 0).set esi .next heap.heapFreeHead).get b f := rfl
  unfold addToFreeList
  dsimp only
  by_cases empty : heap.heapFreeHead = 0
  · simp only [if_pos empty, linkedRead]
    simp (disch := assumption) only [get_set _ headers separate]
    simp [empty]
  · have eaxIn := headIn.resolve_left empty
    simp only [if_neg empty]
    simp (disch := assumption) only [linkedRead, get_set _ headers separate]
    simp [empty]
end

theorem split_block_frame (heap : HeapState) (esi eax : Nat) :
    (splitBlock heap esi eax).heapBase = heap.heapBase ∧ (splitBlock heap esi eax).heapSize = heap.heapSize ∧
      (splitBlock heap esi eax).heapEnd = heap.heapEnd ∧
      (splitBlock heap esi eax).heapFreeHead = heap.heapFreeHead := by
  unfold splitBlock
  dsimp only
  split <;> exact ⟨rfl, rfl, rfl, rfl⟩

theorem use_whole_block_frame (heap : HeapState) (esi : Nat) :
    (useWholeBlock heap esi).heapBase = heap.heapBase ∧ (useWholeBlock heap esi).heapSize = heap.heapSize ∧
      (useWholeBlock heap esi).heapEnd = heap.heapEnd ∧
      (useWholeBlock heap esi).heapFreeHead =
        if heap.get esi .prev = 0 then heap.get esi .next else heap.heapFreeHead := by
  unfold useWholeBlock
  dsimp only
  by_cases first : heap.get esi .prev = 0 <;> by_cases last : heap.get esi .next = 0 <;>
    simp only [if_pos, first, last, set_base, set_size, set_end, set_head] <;> simp

theorem absorb_frame (heap : HeapState) (front back : Nat) :
    (absorb heap front back).heapBase = heap.heapBase ∧ (absorb heap front back).heapSize = heap.heapSize ∧
      (absorb heap front back).heapEnd = heap.heapEnd ∧
      (absorb heap front back).heapFreeHead = heap.heapFreeHead := by
  unfold absorb
  dsimp only
  split <;> exact ⟨rfl, rfl, rfl, rfl⟩

theorem add_to_free_list_frame (heap : HeapState) (esi : Nat) :
    (addToFreeList heap esi).heapBase = heap.heapBase ∧ (addToFreeList heap esi).heapSize = heap.heapSize ∧
      (addToFreeList heap esi).heapEnd = heap.heapEnd ∧ (addToFreeList heap esi).heapFreeHead = esi := by
  unfold addToFreeList
  dsimp only
  split <;> exact ⟨rfl, rfl, rfl, rfl⟩

end RoDos.Heap
