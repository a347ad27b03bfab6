import RoDos.Base.Pointers
import RoDos.Base.Words
import Mathlib.Logic.Function.Basic

set_option autoImplicit false

namespace RoDos.Utils

open Base

def searchChar (c : UInt8) : List UInt8 → Nat → Nat
  | [], _ => 0
  | byte :: rest, p =>
      if byte = 0 then (if c = 0 then p else 0)
      else if byte = c then p
      else searchChar c rest (p + 1)

def strchr (memory : List UInt8) (str : Nat) (c : UInt8) : Nat :=
  if str = 0 then 0 else searchChar c (memory.drop str) str

-- The two loops of strtok and of strtok_r over the pointer that they keep: the memory, the pointer and the token behind
-- them.
def nextToken (memory : List UInt8) (saveptr delim : Nat) : List UInt8 × Nat × Nat :=
  let start := skip (fun byte => byte ≠ 0 ∧ strchr memory delim byte ≠ 0) (memory.drop saveptr) saveptr
  if byteAt memory start = 0 then (memory, 0, 0)
  else
    let stop := skip (fun byte => byte ≠ 0 ∧ strchr memory delim byte = 0) (memory.drop start) start
    if byteAt memory stop ≠ 0 then (memory.set stop 0, stop + 1, start)
    else (memory, 0, start)

-- The static pointer of strtok, and the pointers that callers of strtok_r keep, by their addresses.
structure Machine where
  memory : List UInt8
  strtokSaveptr : Nat
  saveptrs : Nat → Nat

def strtok (machine : Machine) (str delim : Nat) : Machine × Nat :=
  let own := if str ≠ 0 then str else machine.strtokSaveptr
  if own = 0 ∨ delim = 0 then ({ machine with strtokSaveptr := own }, 0)
  else
    let (memory, saveptr, start) := nextToken machine.memory own delim
    ({ machine with memory := memory, strtokSaveptr := saveptr }, start)

def strtokR (machine : Machine) (str delim saveptr : Nat) : Machine × Nat :=
  if saveptr = 0 ∨ delim = 0 then (machine, 0)
  else
    let own := if str ≠ 0 then str else machine.saveptrs saveptr
    if own = 0 then ({ machine with saveptrs := Function.update machine.saveptrs saveptr own }, 0)
    else
      let (memory, kept, start) := nextToken machine.memory own delim
      ({ machine with memory := memory, saveptrs := Function.update machine.saveptrs saveptr kept }, start)

-- One scan of a string: by strtok, or by strtok_r with the pointer at the given address.
structure Scan where
  cell : Option Nat
  str : Nat
  delim : Nat

-- The first call passes the string, the later ones NULL.
def callScan (machine : Machine) (scan : Scan) (first : Bool) : Machine × Nat :=
  let str := if first then scan.str else 0
  match scan.cell with
  | none => strtok machine str scan.delim
  | some saveptr => strtokR machine str scan.delim saveptr

structure Scanning (ι : Type) where
  machine : Machine
  returned : ι → List Nat

section
variable {ι : Type} [DecidableEq ι] (scans : ι → Scan)

def scanStep (state : Scanning ι) (i : ι) : Scanning ι :=
  let (machine, start) := callScan state.machine (scans i) (state.returned i).isEmpty
  ⟨machine, Function.update state.returned i (state.returned i ++ [start])⟩

-- The calls in the order in which the scans take their turns.
def scanAll (machine : Machine) (order : List ι) : Scanning ι :=
  order.foldl (scanStep scans) ⟨machine, fun _ => []⟩

end

def delimiter (memory : List UInt8) (delim : Nat) (byte : UInt8) : Bool := byte ∈ textAt memory delim

def tokensOf (memory : List UInt8) (scan : Scan) : List (List UInt8) :=
  words (delimiter memory scan.delim) (textAt memory scan.str)

def endOf (memory : List UInt8) (p : Nat) : Nat := p + (textAt memory p).length

-- A token that is returned is a string inside the scanned one; NULL says that there is none.
def Found (memory : List UInt8) (low high : Nat) : Option (List UInt8) → Nat → Prop
  | none, p => p = 0
  | some word, p => p ≠ 0 ∧ low ≤ p ∧ p + word.length ≤ high ∧ Reads memory p (word ++ [0])

structure ScansApart {ι : Type} (memory : List UInt8) (scans : ι → Scan) : Prop where
  some' : ∀ i, (scans i).str ≠ 0 ∧ (scans i).delim ≠ 0 ∧ (scans i).cell ≠ some 0
  terminated : ∀ i, TerminatedAt memory (scans i).str ∧ TerminatedAt memory (scans i).delim
  cells : ∀ i j, i ≠ j → (scans i).cell ≠ (scans j).cell
  strings : ∀ i j, i ≠ j → endOf memory (scans i).str < (scans j).str ∨ endOf memory (scans j).str < (scans i).str
  delims : ∀ i j, endOf memory (scans i).str < (scans j).delim ∨ endOf memory (scans j).delim < (scans i).str

theorem search_char_found (memory : List UInt8) (p : Nat) (delims : List UInt8) (c : UInt8) (some' : c ≠ 0) (placed : p ≠ 0)
    (noNul : ∀ byte ∈ delims, byte ≠ 0) (reads : Reads memory p (delims ++ [0])) :
    searchChar c (memory.drop p) p ≠ 0 ↔ c ∈ delims := by
  induction delims generalizing p with
  | nil =>
      rw [drop_of_get memory p 0 reads.1, searchChar, if_pos rfl, if_neg some']
      exact iff_of_false (fun none' => none' rfl) List.not_mem_nil
  | cons own rest ih =>
      have later := ih (p + 1) (Nat.succ_ne_zero p) (fun byte member => noNul byte (List.mem_cons_of_mem _ member)) reads.2
      rw [drop_of_get memory p own reads.1, searchChar, if_neg (noNul own List.mem_cons_self), List.mem_cons]
      by_cases same : own = c
      · rw [if_pos same]
        exact iff_of_true placed (Or.inl same.symm)
      · rw [if_neg same, later]
        exact ⟨Or.inr, fun either => either.elim (fun equal => absurd equal.symm same) id⟩

theorem strchr_found (memory : List UInt8) (delim : Nat) (c : UInt8) (some' : c ≠ 0) (placed : delim ≠ 0)
    (terminated : TerminatedAt memory delim) : strchr memory delim c ≠ 0 ↔ delimiter memory delim c = true := by
  rw [strchr, if_neg placed, search_char_found memory delim _ c some' placed (text_no_nul memory delim)
    (reads_text memory delim terminated), delimiter, decide_eq_true_iff]

-- What nextToken does to a string that is left from saveptr on.
section
variable (memory : List UInt8) (saveptr delim : Nat) (placed : delim ≠ 0) (terminated : TerminatedAt memory delim)
include placed terminated

theorem skip_delimiters (front back : List UInt8) (byte : UInt8) (noNul : ∀ own ∈ front, own ≠ 0)
    (passed : ∀ own ∈ front, delimiter memory delim own = true) (stop : byte = 0 ∨ delimiter memory delim byte = false)
    (reads : Reads memory saveptr (front ++ byte :: back)) :
    skip (fun byte => byte ≠ 0 ∧ strchr memory delim byte ≠ 0) (memory.drop saveptr) saveptr = saveptr + front.length := by
  have head : Reads memory saveptr (front ++ [byte]) := by
    have both := (reads_append memory saveptr front (byte :: back)).mp reads
    exact (reads_append memory saveptr front [byte]).mpr ⟨both.1, both.2.1, trivial⟩
  refine skip_reads memory _ saveptr front byte (fun own member => ?_) ?_ head
  · exact decide_eq_true ⟨noNul own member,
      (strchr_found memory delim own (noNul own member) placed terminated).mpr (passed own member)⟩
  · refine decide_eq_false fun both => ?_
    rcases stop with nul | other
    · exact both.1 nul
    · exact Bool.noConfusion (other.symm.trans ((strchr_found memory delim byte both.1 placed terminated).mp both.2))

theorem skip_word (word back : List UInt8) (byte : UInt8) (noNul : ∀ own ∈ word, own ≠ 0)
    (solid : ∀ own ∈ word, delimiter memory delim own = false) (stop : byte = 0 ∨ delimiter memory delim byte = true)
    (reads : Reads memory saveptr (word ++ byte :: back)) :
    skip (fun byte => byte ≠ 0 ∧ strchr memory delim byte = 0) (memory.drop saveptr) saveptr = saveptr + word.length := by
  have head : Reads memory saveptr (word ++ [byte]) := by
    have both := (reads_append memory saveptr word (byte :: back)).mp reads
    exact (reads_append memory saveptr word [byte]).mpr ⟨both.1, both.2.1, trivial⟩
  refine skip_reads memory _ saveptr word byte (fun own member => ?_) ?_ head
  · refine decide_eq_true ⟨noNul own member, Classical.not_not.mp fun found => ?_⟩
    have delimits := (strchr_found memory delim own (noNul own member) placed terminated).mp found
    exact Bool.noConfusion ((solid own member).symm.trans delimits)
  · refine decide_eq_false fun both => ?_
    rcases stop with nul | delimits
    · exact both.1 nul
    · exact (strchr_found memory delim byte both.1 placed terminated).mpr delimits both.2

theorem next_token_none (rest : List UInt8) (noNul : ∀ own ∈ rest, own ≠ 0) (reads : Reads memory saveptr (rest ++ [0]))
    (empty : rest.dropWhile (delimiter memory delim) = []) : nextToken memory saveptr delim = (memory, 0, 0) := by
  have start := skip_delimiters memory saveptr delim placed terminated rest [] 0 noNul
    (List.dropWhile_eq_nil_iff.mp empty) (Or.inl rfl) reads
  rw [nextToken, start]
  dsimp only
  rw [if_pos (reads_inside memory saveptr rest 0 reads).2]

theorem next_token_start (front word back : List UInt8) (noNul : ∀ own ∈ front ++ word, own ≠ 0)
    (passed : ∀ own ∈ front, delimiter memory delim own = true) (solid : ∀ own ∈ word, delimiter memory delim own = false)
    (some' : word ≠ []) (reads : Reads memory saveptr (front ++ word ++ back)) :
    skip (fun byte => byte ≠ 0 ∧ strchr memory delim byte ≠ 0) (memory.drop saveptr) saveptr = saveptr + front.length ∧
      byteAt memory (saveptr + front.length) ≠ 0 := by
  cases word with
  | nil => exact absurd rfl some'
  | cons first later =>
      rw [List.append_assoc, List.cons_append] at reads
      refine ⟨skip_delimiters memory saveptr delim placed terminated front (later ++ back) first
        (fun own member => noNul own (List.mem_append_left _ member)) passed (Or.inr (solid first List.mem_cons_self)) reads, ?_⟩
      rw [byte_of_get memory _ first ((reads_append memory saveptr front _).mp reads).2.1]
      exact noNul first (List.mem_append_right _ List.mem_cons_self)

theorem next_token_last (front word : List UInt8) (noNul : ∀ own ∈ front ++ word, own ≠ 0)
    (passed : ∀ own ∈ front, delimiter memory delim own = true) (solid : ∀ own ∈ word, delimiter memory delim own = false)
    (some' : word ≠ []) (reads : Reads memory saveptr (front ++ word ++ [0])) :
    nextToken memory saveptr delim = (memory, 0, saveptr + front.length) := by
  obtain ⟨start, some''⟩ := next_token_start memory saveptr delim placed terminated front word [0] noNul passed solid some' reads
  rw [List.append_assoc] at reads
  have tail := ((reads_append memory saveptr front _).mp reads).2
  have stop := skip_word memory (saveptr + front.length) delim placed terminated word [] 0
    (fun own member => noNul own (List.mem_append_right _ member)) solid (Or.inl rfl) tail
  rw [nextToken, start]
  dsimp only
  rw [if_neg some'', stop, if_neg (not_not_intro (reads_inside memory _ word 0 tail).2)]

theorem next_token_cut (front word back : List UInt8) (byte : UInt8) (noNul : ∀ own ∈ front ++ word, own ≠ 0)
    (passed : ∀ own ∈ front, delimiter memory delim own = true) (solid : ∀ own ∈ word, delimiter memory delim own = false)
    (some' : word ≠ []) (delimits : delimiter memory delim byte = true) (solid' : byte ≠ 0)
    (reads : Reads memory saveptr (front ++ word ++ byte :: back)) :
    nextToken memory saveptr delim = (memory.set (saveptr + front.length + word.length) 0,
      saveptr + front.length + word.length + 1, saveptr + front.length) := by
  obtain ⟨start, some''⟩ :=
    next_token_start memory saveptr delim placed terminated front word (byte :: back) noNul passed solid some' reads
  rw [List.append_assoc] at reads
  have tail := ((reads_append memory saveptr front _).mp reads).2
  have stop := skip_word memory (saveptr + front.length) delim placed terminated word back byte
    (fun own member => noNul own (List.mem_append_right _ member)) solid (Or.inr delimits) tail
  have here := byte_of_get memory _ byte ((reads_append memory (saveptr + front.length) word _).mp tail).2.1
  rw [nextToken, start]
  dsimp only
  rw [if_neg some'', stop, if_pos (here.symm ▸ solid')]

end

def Standing (space : UInt8 → Bool) (memory : List UInt8) (finish saveptr : Nat) (tokens : List (List UInt8)) : Prop :=
  saveptr = 0 ∧ tokens = [] ∨
    saveptr ≠ 0 ∧ ∃ rest, (∀ own ∈ rest, own ≠ 0) ∧ Reads memory saveptr (rest ++ [0]) ∧
      saveptr + rest.length = finish ∧ words space rest = tokens

def settled (finish saveptr : Nat) : Nat := if saveptr = 0 then finish else saveptr - 1

structure Advanced (space : UInt8 → Bool) (memory : List UInt8) (finish saveptr : Nat) (tokens : List (List UInt8))
    (next : List UInt8 × Nat × Nat) : Prop where
  stores : next.1 = memory ∨ ∃ place, saveptr ≤ place ∧ place < finish ∧ next.1 = memory.set place 0
  standing : Standing space next.1 finish next.2.1 tokens.tail
  onward : next.2.1 ≠ 0 → saveptr ≤ next.2.1
  found : Found next.1 saveptr (settled finish next.2.1) tokens.head? next.2.2

section
variable (memory : List UInt8) (saveptr delim : Nat) (placed : delim ≠ 0) (terminated : TerminatedAt memory delim)
  (some' : saveptr ≠ 0)
include placed terminated some'

theorem next_token_advances_last (front own : List UInt8) (noNul : ∀ byte ∈ front ++ own, byte ≠ 0)
    (passed : ∀ byte ∈ front, delimiter memory delim byte = true) (solid : ∀ byte ∈ own, delimiter memory delim byte = false)
    (word : own ≠ []) (reads : Reads memory saveptr (front ++ own ++ [0])) :
    Advanced (delimiter memory delim) memory (saveptr + (front ++ own).length) saveptr (own :: words (delimiter memory delim) [])
      (nextToken memory saveptr delim) := by
  have token := ((reads_append memory saveptr front _).mp (List.append_assoc front own [0] ▸ reads)).2
  have inside : saveptr + (front ++ own).length = saveptr + front.length + own.length := by
    rw [List.length_append, Nat.add_assoc]
  have placed' : saveptr + front.length ≠ 0 := by omega
  rw [next_token_last memory saveptr delim placed terminated front own noNul passed solid word reads, inside]
  exact ⟨Or.inl rfl, Or.inl ⟨rfl, rfl⟩, fun none' => absurd rfl none', placed', Nat.le_add_right _ _, Nat.le_refl _, token⟩

theorem next_token_advances_cut (front own later : List UInt8) (byte : UInt8)
    (noNul : ∀ other ∈ front ++ own ++ byte :: later, other ≠ 0)
    (passed : ∀ byte ∈ front, delimiter memory delim byte = true) (solid : ∀ byte ∈ own, delimiter memory delim byte = false)
    (word : own ≠ []) (delimits : delimiter memory delim byte = true)
    (reads : Reads memory saveptr (front ++ own ++ byte :: later ++ [0])) :
    Advanced (delimiter memory delim) memory (saveptr + (front ++ own ++ byte :: later).length) saveptr
      (own :: words (delimiter memory delim) (byte :: later)) (nextToken memory saveptr delim) := by
  have noNul' : ∀ byte ∈ front ++ own, byte ≠ 0 := fun byte member => noNul byte (List.mem_append_left _ member)
  have inside : saveptr + (front ++ own ++ byte :: later).length = saveptr + front.length + own.length + (later.length + 1) := by
    rw [List.length_append, List.length_append, List.length_cons]
    omega
  have placed' : saveptr + front.length ≠ 0 := by omega
  have solid' : byte ≠ 0 := noNul byte (List.mem_append_right _ List.mem_cons_self)
  rw [List.append_assoc, List.cons_append] at reads
  have tail := (reads_append memory saveptr (front ++ own) _).mp reads
  have token := ((reads_append memory saveptr front own).mp tail.1).2
  have behind := tail.2.2
  rw [List.length_append, ← Nat.add_assoc] at behind
  have cut := tail.2.1
  rw [List.length_append, ← Nat.add_assoc] at cut
  have inMemory := (List.getElem?_eq_some_iff.mp cut).1
  rw [next_token_cut memory saveptr delim placed terminated front own _ byte noNul' passed solid word delimits solid' reads, inside]
  refine ⟨Or.inr ⟨_, by omega, by omega, rfl⟩, Or.inr ⟨Nat.succ_ne_zero _, later, ?_, ?_, ?_, ?_⟩,
    fun _ => by dsimp only; omega, placed', Nat.le_add_right _ _, Nat.le_refl _, ?_⟩
  · exact fun own member => noNul own (List.mem_append_right _ (List.mem_cons_of_mem _ member))
  · exact reads_set memory _ _ 0 _ (Or.inl (Nat.lt_succ_self _)) behind
  · dsimp only
    omega
  · exact (words_space _ byte delimits [] later).symm
  · refine (reads_append _ _ own [0]).mpr ⟨reads_set memory _ _ 0 own (Or.inr (Nat.le_refl _)) token, ?_, trivial⟩
    exact List.getElem?_set_self inMemory

theorem next_token_advances (rest : List UInt8) (noNul : ∀ own ∈ rest, own ≠ 0) (reads : Reads memory saveptr (rest ++ [0])) :
    Advanced (delimiter memory delim) memory (saveptr + rest.length) saveptr (words (delimiter memory delim) rest)
      (nextToken memory saveptr delim) := by
  generalize spaceEq : delimiter memory delim = space
  by_cases empty : rest.dropWhile space = []
  · rw [next_token_none memory saveptr delim placed terminated rest noNul reads (spaceEq ▸ empty),
      words_leading, if_pos empty]
    exact ⟨Or.inl rfl, Or.inl ⟨rfl, rfl⟩, fun none' => absurd rfl none', rfl⟩
  · have solid := leading_word_solid space rest
    have word : leadingWord space rest ≠ [] := fun none' => empty ((leading_word_nil space rest).mp none')
    have behindSpace := behind_word_space space rest
    have passed : ∀ own ∈ rest.takeWhile space, space own = true := fun own member => List.mem_takeWhile_imp member
    have split : rest = rest.takeWhile space ++ leadingWord space rest ++ behindWord space rest := by
      rw [List.append_assoc, ← word_split space rest, List.takeWhile_append_dropWhile]
    rw [words_leading, if_neg empty]
    generalize rest.takeWhile space = front at passed split
    generalize leadingWord space rest = own at solid word split
    generalize behindWord space rest = behind at behindSpace split
    subst split
    subst spaceEq
    cases behind with
    | nil =>
        rw [List.append_nil] at noNul reads ⊢
        exact next_token_advances_last memory saveptr delim placed terminated some' front own noNul passed solid word reads
    | cons byte later =>
        exact next_token_advances_cut memory saveptr delim placed terminated some' front own later byte noNul passed solid word
          (behindSpace byte later rfl) reads
end

theorem found_wider (memory : List UInt8) (low low' high high' p : Nat) (token : Option (List UInt8)) (lower : low' ≤ low)
    (higher : high ≤ high') (found : Found memory low high token p) : Found memory low' high' token p := by
  cases token with
  | none => exact found
  | some word => exact ⟨found.1, Nat.le_trans lower found.2.1, Nat.le_trans found.2.2.1 higher, found.2.2.2⟩

theorem found_set (memory : List UInt8) (low high p place : Nat) (byte : UInt8) (token : Option (List UInt8))
    (outside : place < low ∨ high < place) (found : Found memory low high token p) :
    Found (memory.set place byte) low high token p := by
  cases token with
  | none => exact found
  | some word =>
      obtain ⟨some', lower, higher, reads⟩ := found
      refine ⟨some', lower, higher, reads_set memory p place byte _ ?_ reads⟩
      rw [List.length_append, List.length_singleton]
      omega

structure ScanRight (initial : List UInt8) (scan : Scan) (memory : List UInt8) (saveptr : Nat) (returned : List Nat) : Prop where
  delims : Reads memory scan.delim (textAt initial scan.delim ++ [0])
  standing : Standing (delimiter initial scan.delim) memory (endOf initial scan.str) saveptr
    ((tokensOf initial scan).drop returned.length)
  inside : saveptr ≠ 0 → scan.str ≤ saveptr
  found : ∀ k p : Nat, returned[k]? = some p →
    Found memory scan.str (settled (endOf initial scan.str) saveptr) (tokensOf initial scan)[k]? p

section
variable (initial : List UInt8) (scan : Scan) (memory : List UInt8) (saveptr : Nat) (returned : List Nat)
  (right : ScanRight initial scan memory saveptr returned)
include right

theorem scan_right_within (some' : saveptr ≠ 0) : saveptr ≤ endOf initial scan.str := by
  obtain ⟨none', _⟩ | ⟨_, rest, _, _, finish, _⟩ := right.standing
  · exact absurd none' some'
  · omega

theorem settled_le : settled (endOf initial scan.str) saveptr ≤ endOf initial scan.str := by
  rw [settled]
  split
  · exact Nat.le_refl _
  · rename_i some'
    have within := scan_right_within initial scan memory saveptr returned right some'
    omega

theorem scan_right_set (place : Nat) (byte : UInt8) (string : place < scan.str ∨ endOf initial scan.str < place)
    (delims : place < scan.delim ∨ endOf initial scan.delim < place) :
    ScanRight initial scan (memory.set place byte) saveptr returned := by
  have below := settled_le initial scan memory saveptr returned right
  refine ⟨?_, ?_, right.inside, fun k p here => ?_⟩
  · refine reads_set memory _ place byte _ ?_ right.delims
    rw [List.length_append, List.length_singleton]
    rw [endOf] at delims
    omega
  · obtain none' | ⟨some', rest, noNul, reads, finish, tokens⟩ := right.standing
    · exact Or.inl none'
    · have inside := right.inside some'
      refine Or.inr ⟨some', rest, noNul, reads_set memory saveptr place byte _ ?_ reads, finish, tokens⟩
      rw [List.length_append, List.length_singleton]
      omega
  · exact found_set memory _ _ p place byte _ (by omega) (right.found k p here)

theorem scan_right_ended (none' : saveptr = 0) : ScanRight initial scan memory saveptr (returned ++ [0]) := by
  obtain ⟨_, empty⟩ | ⟨some', _⟩ := right.standing
  · have all := List.drop_eq_nil_iff.mp empty
    refine ⟨right.delims, Or.inl ⟨none', ?_⟩, right.inside, fun k p here => ?_⟩
    · exact List.drop_eq_nil_iff.mpr (by rw [List.length_append]; omega)
    · by_cases old : k < returned.length
      · rw [List.getElem?_append_left old] at here
        exact right.found k p here
      · rw [List.getElem?_append_right (by omega)] at here
        rw [List.getElem?_eq_none (by omega)]
        exact (List.mem_singleton.mp (List.mem_of_getElem? here))
  · exact absurd none' some'

omit right in
theorem advanced_reads (space : UInt8 → Bool) (finish : Nat) (tokens : List (List UInt8)) (next : List UInt8 × Nat × Nat)
    (advanced : Advanced space memory finish saveptr tokens next) (p : Nat) (bytes : List UInt8)
    (outside : p + bytes.length ≤ saveptr ∨ finish < p) (held : Reads memory p bytes) : Reads next.1 p bytes := by
  rcases advanced.stores with unchanged | ⟨place, low, high, cut⟩
  · exact unchanged ▸ held
  · rw [cut]
    exact reads_set memory p place 0 bytes (by omega) held

theorem scan_right_advanced (placed : scan.delim ≠ 0) (some' : saveptr ≠ 0) :
    Advanced (delimiter initial scan.delim) memory (endOf initial scan.str) saveptr
      ((tokensOf initial scan).drop returned.length) (nextToken memory saveptr scan.delim) := by
  obtain ⟨none', _⟩ | ⟨_, rest, noNul, reads, finish, tokens⟩ := right.standing
  · exact absurd none' some'
  · obtain ⟨same, terminated⟩ := text_of_reads memory scan.delim _ (text_no_nul initial scan.delim) right.delims
    have advanced := next_token_advances memory saveptr scan.delim placed terminated some' rest noNul reads
    have spaces : delimiter memory scan.delim = delimiter initial scan.delim := by
      unfold delimiter
      rw [same]
    rw [finish, spaces, tokens] at advanced
    exact advanced

theorem scan_right_next (placed : scan.delim ≠ 0) (some' : saveptr ≠ 0)
    (apart : endOf initial scan.str < scan.delim ∨ endOf initial scan.delim < scan.str) :
    ScanRight initial scan (nextToken memory saveptr scan.delim).1 (nextToken memory saveptr scan.delim).2.1
      (returned ++ [(nextToken memory saveptr scan.delim).2.2]) := by
  have inside := right.inside some'
  have within := scan_right_within initial scan memory saveptr returned right some'
  have advanced := scan_right_advanced initial scan memory saveptr returned right placed some'
  generalize nextToken memory saveptr scan.delim = next at advanced
  have kept := advanced_reads memory saveptr _ _ _ next advanced
  have old : ∀ (token : Option (List UInt8)) (p : Nat), Found memory scan.str (saveptr - 1) token p →
      Found next.1 scan.str (settled (endOf initial scan.str) next.2.1) token p := by
    intro token p held
    have higher : saveptr - 1 ≤ settled (endOf initial scan.str) next.2.1 := by
      rw [settled]
      split
      · omega
      · have onward := advanced.onward (by assumption)
        omega
    refine found_wider next.1 _ _ _ _ p token (Nat.le_refl _) higher ?_
    cases token with
    | none => exact held
    | some word =>
        obtain ⟨token', lower, below, string⟩ := held
        refine ⟨token', lower, below, kept p _ (Or.inl ?_) string⟩
        rw [List.length_append, List.length_singleton]
        omega
  refine ⟨kept _ _ ?_ right.delims, ?_, fun some'' => Nat.le_trans inside (advanced.onward some''), fun k p here => ?_⟩
  · rw [List.length_append, List.length_singleton]
    unfold endOf at apart ⊢
    omega
  · rw [List.length_append, List.length_singleton, ← List.tail_drop]
    exact advanced.standing
  · by_cases before : k < returned.length
    · rw [List.getElem?_append_left before] at here
      have held := right.found k p here
      rw [settled, if_neg some'] at held
      exact old _ p held
    · have last : k = returned.length := by
        have short := (List.getElem?_eq_some_iff.mp here).1
        rw [List.length_append, List.length_singleton] at short
        omega
      rw [last, List.getElem?_append_right (Nat.le_refl _), Nat.sub_self] at here
      cases here
      have token := advanced.found
      rw [List.head?_drop] at token
      rw [last]
      exact found_wider next.1 _ _ _ _ _ _ inside (Nat.le_refl _) token
end

def cellOf (machine : Machine) : Option Nat → Nat
  | none => machine.strtokSaveptr
  | some saveptr => machine.saveptrs saveptr

def pointerOf (machine : Machine) (scan : Scan) (returned : List Nat) : Nat :=
  if returned.isEmpty then scan.str else cellOf machine scan.cell

def nextOf (memory : List UInt8) (own delim : Nat) : List UInt8 × Nat × Nat :=
  if own = 0 then (memory, 0, 0) else nextToken memory own delim

theorem strtok_next (machine : Machine) (str delim own : Nat) (delims : delim ≠ 0)
    (passed : (if str ≠ 0 then str else machine.strtokSaveptr) = own) :
    strtok machine str delim = ({ machine with
      memory := (nextOf machine.memory own delim).1
      strtokSaveptr := (nextOf machine.memory own delim).2.1 }, (nextOf machine.memory own delim).2.2) := by
  rw [strtok, passed]
  dsimp only
  by_cases ended : own = 0
  · rw [if_pos (Or.inl ended), nextOf, if_pos ended, ended]
  · rw [if_neg (not_or.mpr ⟨ended, delims⟩), nextOf, if_neg ended]

theorem strtok_r_next (machine : Machine) (str delim saveptr own : Nat) (delims : delim ≠ 0) (cell : saveptr ≠ 0)
    (passed : (if str ≠ 0 then str else machine.saveptrs saveptr) = own) :
    strtokR machine str delim saveptr = ({ machine with
      memory := (nextOf machine.memory own delim).1
      saveptrs := Function.update machine.saveptrs saveptr (nextOf machine.memory own delim).2.1 },
      (nextOf machine.memory own delim).2.2) := by
  rw [strtokR, if_neg (not_or.mpr ⟨cell, delims⟩), passed]
  dsimp only
  by_cases ended : own = 0
  · rw [if_pos ended, nextOf, if_pos ended, ended]
  · rw [if_neg ended, nextOf, if_neg ended]

structure Called (machine : Machine) (scan : Scan) (own : Nat) (called : Machine × Nat) : Prop where
  memory : called.1.memory = (nextOf machine.memory own scan.delim).1
  saveptr : cellOf called.1 scan.cell = (nextOf machine.memory own scan.delim).2.1
  start : called.2 = (nextOf machine.memory own scan.delim).2.2
  others : ∀ other, other ≠ scan.cell → cellOf called.1 other = cellOf machine other

theorem call_scan_called (machine : Machine) (scan : Scan) (returned : List Nat) (placed : scan.str ≠ 0)
    (delims : scan.delim ≠ 0) (cell : scan.cell ≠ some 0) :
    Called machine scan (pointerOf machine scan returned) (callScan machine scan returned.isEmpty) := by
  have passed : (if (if returned.isEmpty then scan.str else 0) ≠ 0 then (if returned.isEmpty then scan.str else 0)
      else cellOf machine scan.cell) = pointerOf machine scan returned := by
    cases empty : returned.isEmpty <;> simp [pointerOf, empty, placed]
  cases cellEq : scan.cell with
  | none =>
      rw [cellEq] at passed
      have call : callScan machine scan returned.isEmpty = strtok machine (if returned.isEmpty then scan.str else 0) scan.delim := by
        rw [callScan, cellEq]
      rw [call, strtok_next machine _ scan.delim _ delims passed]
      refine ⟨rfl, by rw [cellEq]; rfl, rfl, fun other different => ?_⟩
      cases other with
      | none => exact absurd cellEq.symm different
      | some saveptr => rfl
  | some saveptr =>
      rw [cellEq] at passed
      have call : callScan machine scan returned.isEmpty =
          strtokR machine (if returned.isEmpty then scan.str else 0) scan.delim saveptr := by
        rw [callScan, cellEq]
      have kept : saveptr ≠ 0 := fun none' => cell (none' ▸ cellEq)
      rw [call, strtok_r_next machine _ scan.delim saveptr _ delims kept passed]
      refine ⟨rfl, ?_, rfl, fun other different => ?_⟩
      · rw [cellEq]
        exact Function.update_self _ _ _
      · cases other with
        | none => rfl
        | some own =>
            exact Function.update_of_ne (fun same => different (by rw [same, cellEq])) _ _

def AllRight {ι : Type} (initial : List UInt8) (scans : ι → Scan) (state : Scanning ι) : Prop :=
  ∀ i, ScanRight initial (scans i) state.machine.memory (pointerOf state.machine (scans i) (state.returned i)) (state.returned i)

section
variable {ι : Type} [DecidableEq ι] (scans : ι → Scan) (initial : List UInt8) (apart : ScansApart initial scans)
include apart

omit [DecidableEq ι] in
theorem scans_right_start (machine : Machine) (same : machine.memory = initial) :
    AllRight initial scans ⟨machine, fun _ => []⟩ := by
  intro i
  have pointer : pointerOf machine (scans i) [] = (scans i).str := rfl
  rw [pointer, same]
  refine ⟨reads_text initial _ (apart.terminated i).2, ?_, fun _ => Nat.le_refl _, fun k p here => ?_⟩
  · exact Or.inr ⟨(apart.some' i).1, textAt initial (scans i).str, text_no_nul initial _,
      reads_text initial _ (apart.terminated i).1, rfl, rfl⟩
  · rw [List.getElem?_nil] at here
    exact absurd here (Option.some_ne_none p).symm

theorem scan_step_right (state : Scanning ι) (i : ι) (right : AllRight initial scans state) :
    AllRight initial scans (scanStep scans state i) := by
  have called := call_scan_called state.machine (scans i) (state.returned i) (apart.some' i).1 (apart.some' i).2.1 (apart.some' i).2.2
  have own := right i
  generalize pointerOf state.machine (scans i) (state.returned i) = saveptr at called own
  intro j
  rw [scanStep]
  dsimp only
  generalize callScan state.machine (scans i) (state.returned i).isEmpty = after at called
  by_cases same : j = i
  · subst same
    have pointer : pointerOf after.1 (scans j) (state.returned j ++ [after.2]) = cellOf after.1 (scans j).cell := by
      rw [pointerOf, if_neg]
      rw [List.isEmpty_iff]
      exact List.append_ne_nil_of_right_ne_nil _ (List.cons_ne_nil _ _)
    rw [Function.update_self, pointer, called.memory, called.saveptr, called.start, nextOf]
    by_cases ended : saveptr = 0
    · rw [if_pos ended]
      rw [ended] at own
      exact scan_right_ended initial (scans j) state.machine.memory 0 _ own rfl
    · rw [if_neg ended]
      exact scan_right_next initial (scans j) state.machine.memory saveptr _ own (apart.some' j).2.1 ended (apart.delims j j)
  · have pointer : pointerOf after.1 (scans j) (state.returned j) = pointerOf state.machine (scans j) (state.returned j) := by
      rw [pointerOf, pointerOf, called.others _ (apart.cells j i same)]
    have strings := apart.strings j i same
    have delims := apart.delims i j
    rw [Function.update_of_ne same, pointer, called.memory, nextOf]
    by_cases ended : saveptr = 0
    · rw [if_pos ended]
      exact right j
    · have inside := own.inside ended
      have advanced := scan_right_advanced initial (scans i) state.machine.memory saveptr _ own (apart.some' i).2.1 ended
      rw [if_neg ended]
      rcases advanced.stores with unchanged | ⟨place, low, high, cut⟩
      · rw [unchanged]
        exact right j
      · rw [cut]
        exact scan_right_set initial (scans j) state.machine.memory _ _ (right j) place 0 (by omega) (by omega)

theorem scan_all_right (machine : Machine) (same : machine.memory = initial) (order : List ι) :
    AllRight initial scans (scanAll scans machine order) := by
  rw [scanAll]
  generalize startEq : (⟨machine, fun _ => []⟩ : Scanning ι) = state
  have right : AllRight initial scans state := startEq ▸ scans_right_start scans initial apart machine same
  clear startEq
  induction order generalizing state with
  | nil => exact right
  | cons i order ih => exact ih _ (scan_step_right scans initial apart state i right)
end

theorem scan_all_counts {ι : Type} [DecidableEq ι] (scans : ι → Scan) (order : List ι) (state : Scanning ι) (i : ι) :
    ((order.foldl (scanStep scans) state).returned i).length = (state.returned i).length + order.count i := by
  induction order generalizing state with
  | nil => rfl
  | cons j order ih =>
      rw [List.foldl_cons, ih, List.count_cons, scanStep]
      dsimp only
      by_cases same : i = j
      · subst same
        rw [Function.update_self, List.length_append, List.length_singleton, if_pos (BEq.rfl)]
        omega
      · rw [Function.update_of_ne same, if_neg (fun equal => same (eq_of_beq equal).symm), Nat.add_zero]

theorem scans_return_tokens {ι : Type} [DecidableEq ι] (scans : ι → Scan) (machine : Machine)
    (apart : ScansApart machine.memory scans) (order : List ι) (i : ι) :
    ((scanAll scans machine order).returned i).length = order.count i ∧
      ∀ k p : Nat, ((scanAll scans machine order).returned i)[k]? = some p →
        Found (scanAll scans machine order).machine.memory (scans i).str (endOf machine.memory (scans i).str)
          (tokensOf machine.memory (scans i))[k]? p := by
  have right := scan_all_right scans machine.memory apart machine rfl order i
  refine ⟨?_, fun k p here => ?_⟩
  · have counts := scan_all_counts scans order ⟨machine, fun _ => []⟩ i
    rw [List.length_nil, Nat.zero_add] at counts
    exact counts
  · exact found_wider _ _ _ _ _ p _ (Nat.le_refl _) (settled_le _ _ _ _ _ right) (right.found k p here)

def commas : List UInt8 := [0xFF, 44, 97, 44, 98, 0, 99, 44, 0, 44, 0]

def commaScans (second : Bool) : Scan := if second then ⟨some 1, 6, 9⟩ else ⟨none, 1, 9⟩

theorem commas_apart : ScansApart commas commaScans :=
  ⟨by decide, by decide, by decide, by decide, by decide⟩

theorem scans_return_commas : ScansApart commas commaScans ∧
    (scanAll commaScans ⟨commas, 0, fun _ => 0⟩ [false, true, false, true, false]).returned false = [2, 4, 0] ∧
      ((scanAll commaScans ⟨commas, 0, fun _ => 0⟩ [false, true, false, true, false]).returned true).length = 2 :=
  ⟨commas_apart, by decide,
    (scans_return_tokens commaScans ⟨commas, 0, fun _ => 0⟩ commas_apart [false, true, false, true, false] true).1⟩

end RoDos.Utils
