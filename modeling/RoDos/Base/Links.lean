import Mathlib.Data.List.Nodup
import Mathlib.Tactic.Common

set_option autoImplicit false

namespace Base

-- A stretch of a doubly linked list: the nodes from start on, entered from before and left
-- from last towards finish. Zero is the null link, and every prev link names the node before.
def Chain (next prev : Nat → Nat) : Nat → Nat → List Nat → Nat → Nat → Prop
  | before, start, [], last, finish => last = before ∧ finish = start
  | before, start, node :: rest, last, finish =>
      node = start ∧ node ≠ 0 ∧ prev node = before ∧ Chain next prev node (next node) rest last finish

section
variable {next prev : Nat → Nat}

theorem chain_append (before start last finish : Nat) (front back : List Nat) :
    Chain next prev before start (front ++ back) last finish ↔
      ∃ inner middle, Chain next prev before start front inner middle ∧
        Chain next prev inner middle back last finish := by
  induction front generalizing before start with
  | nil => simp [Chain]
  | cons node rest ih => simp [Chain, ih, and_assoc]

theorem chain_not_null (before start last finish : Nat) (nodes : List Nat)
    (chain : Chain next prev before start nodes last finish) : ∀ node ∈ nodes, node ≠ 0 := by
  induction nodes generalizing before start with
  | nil => simp
  | cons node rest ih =>
      obtain ⟨_, notNull, _, further⟩ := chain
      intro other member
      rcases List.mem_cons.mp member with rfl | later
      · exact notNull
      · exact ih _ _ further other later

theorem chain_start_member (before start last : Nat) (nodes : List Nat)
    (chain : Chain next prev before start nodes last 0) : start = 0 ∨ start ∈ nodes := by
  cases nodes with
  | nil => exact Or.inl chain.2.symm
  | cons node rest => simp [chain.1]

theorem chain_cut (before start last finish node : Nat) (nodes : List Nat)
    (chain : Chain next prev before start nodes last finish) (member : node ∈ nodes) :
    ∃ front back, nodes = front ++ node :: back ∧ Chain next prev before start front (prev node) node ∧
      Chain next prev node (next node) back last finish := by
  obtain ⟨front, back, rfl⟩ := List.append_of_mem member
  obtain ⟨inner, middle, left, same, _, entered, right⟩ := (chain_append _ _ _ _ _ _).mp chain
  rw [← same, ← entered] at left
  exact ⟨front, back, rfl, left, right⟩

theorem chain_next_member (before start last node : Nat) (nodes : List Nat)
    (chain : Chain next prev before start nodes last 0) (member : node ∈ nodes) :
    next node = 0 ∨ next node ∈ nodes := by
  obtain ⟨front, back, rfl, _, right⟩ := chain_cut _ _ _ _ _ _ chain member
  rcases chain_start_member _ _ _ _ right with null | later
  · exact Or.inl null
  · exact Or.inr (by simp [later])

theorem chain_last_member (before start last finish : Nat) (nodes : List Nat)
    (chain : Chain next prev before start nodes last finish) :
    (nodes = [] ∧ last = before) ∨ last ∈ nodes := by
  induction nodes generalizing before start with
  | nil => exact Or.inl ⟨rfl, chain.1⟩
  | cons node rest ih =>
      rcases ih _ _ chain.2.2.2 with ⟨rfl, same⟩ | later
      · exact Or.inr (by simp [same])
      · exact Or.inr (by simp [later])

theorem chain_prev_member (before start last finish node : Nat) (nodes : List Nat)
    (chain : Chain next prev before start nodes last finish) (member : node ∈ nodes) :
    prev node = before ∨ prev node ∈ nodes := by
  obtain ⟨front, back, rfl, left, _⟩ := chain_cut _ _ _ _ _ _ chain member
  rcases chain_last_member _ _ _ _ _ left with ⟨_, first⟩ | inner
  · exact Or.inl first
  · exact Or.inr (by simp [inner])

theorem chain_next_prev (before start last node : Nat) (nodes : List Nat)
    (chain : Chain next prev before start nodes last 0) (member : node ∈ nodes) (later : next node ≠ 0) :
    prev (next node) = node := by
  obtain ⟨front, back, rfl, _, right⟩ := chain_cut _ _ _ _ _ _ chain member
  cases back with
  | nil => exact absurd right.2.symm later
  | cons other rest =>
      obtain ⟨same, _, entered, _⟩ := right
      rw [← same]
      exact entered

theorem chain_last_next (before start last node : Nat) (nodes : List Nat)
    (chain : Chain next prev before start nodes last 0) (member : node ∈ nodes) (ended : next node = 0) :
    last = node := by
  obtain ⟨front, back, rfl, _, right⟩ := chain_cut _ _ _ _ _ _ chain member
  cases back with
  | nil => exact right.1
  | cons other rest =>
      obtain ⟨same, notNull, _⟩ := right
      exact absurd (same.trans ended) notNull

theorem chain_next_injective (before start last a b : Nat) (nodes : List Nat)
    (chain : Chain next prev before start nodes last 0) (left : a ∈ nodes) (right : b ∈ nodes)
    (same : next a = next b) : a = b := by
  by_cases ended : next a = 0
  · rw [← chain_last_next _ _ _ a _ chain left ended, chain_last_next _ _ _ b _ chain right (same ▸ ended)]
  · rw [← chain_next_prev _ _ _ a _ chain left ended, same, chain_next_prev _ _ _ b _ chain right (same ▸ ended)]

section
variable (next' prev' : Nat → Nat)

theorem chain_congr (before start last finish : Nat) (nodes : List Nat)
    (nexts : ∀ node ∈ nodes, next' node = next node) (prevs : ∀ node ∈ nodes, prev' node = prev node)
    (chain : Chain next prev before start nodes last finish) :
    Chain next' prev' before start nodes last finish := by
  induction nodes generalizing before start with
  | nil => exact chain
  | cons node rest ih =>
      obtain ⟨same, notNull, entered, further⟩ := chain
      refine ⟨same, notNull, (prevs node (by simp)).trans entered, ?_⟩
      rw [nexts node (by simp)]
      exact ih _ _ (fun other member => nexts other (by simp [member]))
        (fun other member => prevs other (by simp [member])) further

theorem chain_redirect_end (before start last finish target : Nat) (nodes : List Nat)
    (chain : Chain next prev before start nodes last finish) (distinct : nodes.Nodup)
    (nexts : ∀ node ∈ nodes, next' node = if node = last then target else next node)
    (prevs : ∀ node ∈ nodes, prev' node = prev node) :
    Chain next' prev' before (if nodes = [] then target else start) nodes last target := by
  induction nodes generalizing before start with
  | nil => exact ⟨chain.1, rfl⟩
  | cons node rest ih =>
      obtain ⟨same, notNull, entered, further⟩ := chain
      obtain ⟨once, distinct⟩ := List.nodup_cons.mp distinct
      have tail := ih node (next node) further distinct (fun other member => nexts other (by simp [member]))
        (fun other member => prevs other (by simp [member]))
      refine ⟨by simp [same], notNull, (prevs node (by simp)).trans entered, ?_⟩
      have turned : next' node = if rest = [] then target else next node := by
        rw [nexts node (by simp)]
        rcases chain_last_member _ _ _ _ _ further with ⟨empty, final⟩ | later
        · rw [if_pos final.symm, if_pos empty]
        · have notLast : node ≠ last := fun equal => once (equal ▸ later)
          have notEmpty : rest ≠ [] := List.ne_nil_of_mem later
          rw [if_neg notLast, if_neg notEmpty]
      rw [turned]
      exact tail

theorem chain_redirect_start (before start last finish source : Nat) (nodes : List Nat)
    (chain : Chain next prev before start nodes last finish) (distinct : nodes.Nodup)
    (nexts : ∀ node ∈ nodes, next' node = next node)
    (prevs : ∀ node ∈ nodes, prev' node = if node = start then source else prev node) :
    ∃ final, Chain next' prev' source start nodes final finish := by
  cases nodes with
  | nil => exact ⟨source, rfl, chain.2⟩
  | cons node rest =>
      obtain ⟨same, notNull, _, further⟩ := chain
      obtain ⟨once, _⟩ := List.nodup_cons.mp distinct
      refine ⟨last, same, notNull, ?_, ?_⟩
      · rw [prevs node (by simp), if_pos same]
      · rw [nexts node (by simp)]
        refine chain_congr next' prev' _ _ _ _ _ (fun other member => nexts other (by simp [member])) ?_ further
        intro other member
        have notFirst : other ≠ start := fun equal => once (same ▸ equal ▸ member)
        rw [prevs other (by simp [member]), if_neg notFirst]

theorem chain_bridge (start inner outer middle target last : Nat) (front back : List Nat)
    (left : Chain next prev 0 start front inner middle) (right : Chain next prev outer target back last 0)
    (distinct : (front ++ back).Nodup)
    (nexts : ∀ node ∈ front ++ back, next' node = if node = inner then target else next node)
    (prevs : ∀ node ∈ front ++ back, prev' node = if node = target then inner else prev node) :
    ∃ final, Chain next' prev' 0 (if inner = 0 then target else start) (front ++ back) final 0 := by
  obtain ⟨frontOnce, backOnce, separate⟩ := List.nodup_append.mp distinct
  have notTarget (node : Nat) (member : node ∈ front) : node ≠ target := by
    rintro rfl
    rcases chain_start_member _ _ _ _ right with null | later
    · exact chain_not_null _ _ _ _ _ left node member null
    · exact separate node member node later rfl
  have notInner (node : Nat) (member : node ∈ back) : node ≠ inner := by
    rintro rfl
    rcases chain_last_member _ _ _ _ _ left with ⟨_, null⟩ | earlier
    · exact chain_not_null _ _ _ _ _ right node member null
    · exact separate node earlier node member rfl
  have empty : inner = 0 ↔ front = [] := by
    constructor
    · intro null
      rcases chain_last_member _ _ _ _ _ left with ⟨none, _⟩ | earlier
      · exact none
      · exact absurd null (chain_not_null _ _ _ _ _ left inner earlier)
    · rintro rfl
      exact left.1
  have first := chain_redirect_end next' prev' 0 start inner middle target front left frontOnce
    (fun node member => nexts node (by simp [member]))
    (fun node member => by rw [prevs node (by simp [member]), if_neg (notTarget node member)])
  obtain ⟨final, second⟩ := chain_redirect_start next' prev' outer target last 0 inner back right backOnce
    (fun node member => by rw [nexts node (by simp [member]), if_neg (notInner node member)])
    (fun node member => prevs node (by simp [member]))
  have begin : (if inner = 0 then target else start) = if front = [] then target else start := by
    simp only [empty]
  rw [begin]
  exact ⟨final, (chain_append _ _ _ _ _ _).mpr ⟨inner, target, first, second⟩⟩

theorem chain_insert (start last node fresh : Nat) (front back : List Nat)
    (chain : Chain next prev 0 start (front ++ node :: back) last 0)
    (distinct : (front ++ node :: back).Nodup) (notNull : fresh ≠ 0)
    (nexts : ∀ other ∈ front ++ node :: back, next' other = if other = node then fresh else next other)
    (prevs : ∀ other ∈ front ++ node :: back, prev' other = if other = next node then fresh else prev other)
    (freshNext : next' fresh = next node) (freshPrev : prev' fresh = node) :
    ∃ final, Chain next' prev' 0 start (front ++ node :: fresh :: back) final 0 := by
  obtain ⟨inner, middle, left, same, nodeNotNull, entered, right⟩ := (chain_append _ _ _ _ _ _).mp chain
  obtain ⟨frontOnce, backOnce, separate⟩ := List.nodup_append.mp distinct
  obtain ⟨nodeOnce, backOnce⟩ := List.nodup_cons.mp backOnce
  have notNext (other : Nat) (member : other ∈ front ∨ other = node) : other ≠ next node := by
    rintro rfl
    rcases chain_start_member _ _ _ _ right with null | later
    · rcases member with earlier | itself
      · exact chain_not_null _ _ _ _ _ left _ earlier null
      · exact nodeNotNull (itself.symm.trans null)
    · rcases member with earlier | itself
      · exact separate _ earlier _ (List.mem_cons_of_mem _ later) rfl
      · exact nodeOnce (itself ▸ later)
  have first := chain_congr next' prev' _ _ _ _ front
    (fun other member => by
      have notNode : other ≠ node := fun equal => separate other member node (by simp) equal
      rw [nexts other (by simp [member]), if_neg notNode])
    (fun other member => by rw [prevs other (by simp [member]), if_neg (notNext other (Or.inl member))]) left
  obtain ⟨final, second⟩ := chain_redirect_start next' prev' node (next node) last 0 fresh back right backOnce
    (fun other member => by
      have notNode : other ≠ node := fun equal => nodeOnce (equal ▸ member)
      rw [nexts other (by simp [member]), if_neg notNode])
    (fun other member => prevs other (by simp [member]))
  refine ⟨final, (chain_append _ _ _ _ _ _).mpr ⟨inner, middle, first, same, nodeNotNull, ?_, ?_, notNull, freshPrev, ?_⟩⟩
  · rw [prevs node (by simp), if_neg (notNext node (Or.inr rfl))]
    exact entered
  · rw [nexts node (by simp), if_pos rfl]
  · rw [freshNext]
    exact second

theorem chain_push (start last fresh : Nat) (nodes : List Nat) (chain : Chain next prev 0 start nodes last 0)
    (distinct : nodes.Nodup) (notNull : fresh ≠ 0) (nexts : ∀ node ∈ nodes, next' node = next node)
    (prevs : ∀ node ∈ nodes, prev' node = if node = start then fresh else prev node)
    (freshNext : next' fresh = start) (freshPrev : prev' fresh = 0) :
    ∃ final, Chain next' prev' 0 fresh (fresh :: nodes) final 0 := by
  obtain ⟨final, tail⟩ := chain_redirect_start next' prev' 0 start last 0 fresh nodes chain distinct nexts prevs
  refine ⟨final, rfl, notNull, freshPrev, ?_⟩
  rw [freshNext]
  exact tail
end
end

end Base
