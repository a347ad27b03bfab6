import RoDos.Video.Vbe

set_option autoImplicit false

namespace RoDos.Video

open Base

def Access.run (memory : Memory) : Access → Memory
  | .store edi eax => storeWord memory edi eax
  | .move esi edi => storeWord memory edi (loadWord memory esi)

def runAccesses (memory : Memory) (accesses : List Access) : Memory := accesses.foldl Access.run memory

def wordByte (value k : Nat) : UInt8 := UInt8.ofNat (value / 2 ^ (8 * k))

def Covers (edi a : Nat) : Prop := ∃ k, k < 4 ∧ a = (edi + k) % 2 ^ 32

-- Stores of one colour to words of one alignment.
def Painting (base color : Nat) (accesses : List Access) : Prop :=
  ∀ access ∈ accesses, ∃ edi, access = .store edi color ∧ edi % 4 = base % 4

def Rectangle (x y w h : Int) (order : List (Int × Int)) : Prop :=
  ∀ px py, (px, py) ∈ order ↔ x ≤ px ∧ px < x + w ∧ y ≤ py ∧ py < y + h

def drawPixels (driver : Driver) (color : Nat) (order : List (Int × Int)) : List Access :=
  order.flatMap fun pixel => vbeDrawPixel driver pixel.1 pixel.2 color

theorem store_word_covered (memory : Memory) (edi value a base : Nat) (aligned : edi % 4 = base % 4) (covers : Covers edi a) :
    storeWord memory edi value a = wordByte value ((a + 4 - base % 4) % 4) := by
  obtain ⟨k, word, place⟩ := covers
  have index : (a + 4 - base % 4) % 4 = k := by omega
  rw [index, storeWord, storeByte, storeByte, storeByte, storeByte, wordByte]
  rcases Nat.lt_or_ge k 2 with low | high
  · rcases Nat.lt_or_ge k 1 with first | second
    · have zero : k = 0 := by omega
      rw [if_neg (by omega), if_neg (by omega), if_neg (by omega), if_pos (by omega), zero, Nat.mul_zero, Nat.pow_zero, Nat.div_one]
    · have one : k = 1 := by omega
      rw [if_neg (by omega), if_neg (by omega), if_pos (by omega), one]
  · rcases Nat.lt_or_ge k 3 with third | fourth
    · have two : k = 2 := by omega
      rw [if_neg (by omega), if_pos (by omega), two]
    · have three : k = 3 := by omega
      rw [if_pos (by omega), three]

theorem store_word_elsewhere (memory : Memory) (edi value a : Nat) (outside : ¬ Covers edi a) :
    storeWord memory edi value a = memory a := by
  have other : ∀ k, k < 4 → a ≠ (edi + k) % 2 ^ 32 := fun k word same => outside ⟨k, word, same⟩
  have first : a ≠ edi % 2 ^ 32 := other 0 (by decide)
  rw [storeWord, storeByte, storeByte, storeByte, storeByte, if_neg (other 3 (by decide)), if_neg (other 2 (by decide)),
    if_neg (other 1 (by decide)), if_neg first]

section
variable (base color : Nat) (accesses : List Access) (painting : Painting base color accesses)
include painting

theorem run_elsewhere (memory : Memory) (a : Nat) (outside : ∀ edi, .store edi color ∈ accesses → ¬ Covers edi a) :
    runAccesses memory accesses a = memory a := by
  induction accesses generalizing memory with
  | nil => rfl
  | cons access rest ih =>
      obtain ⟨edi, rfl, _⟩ := painting access List.mem_cons_self
      rw [runAccesses, List.foldl_cons, ← runAccesses, ih (fun other member => painting other (List.mem_cons_of_mem _ member))
        _ fun other member => outside other (List.mem_cons_of_mem _ member)]
      exact store_word_elsewhere memory edi color a (outside edi List.mem_cons_self)

theorem run_covered (memory : Memory) (a edi : Nat) (member : .store edi color ∈ accesses) (covers : Covers edi a) :
    runAccesses memory accesses a = wordByte color ((a + 4 - base % 4) % 4) := by
  induction accesses generalizing memory edi with
  | nil => exact absurd member List.not_mem_nil
  | cons access rest ih =>
      have further : Painting base color rest := fun other member => painting other (List.mem_cons_of_mem _ member)
      rw [runAccesses, List.foldl_cons, ← runAccesses]
      by_cases later : ∃ other, .store other color ∈ rest ∧ Covers other a
      · obtain ⟨other, inRest, covered⟩ := later
        exact ih further _ other inRest covered
      · rw [run_elsewhere base color rest further _ a fun other inRest covered => later ⟨other, inRest, covered⟩]
        rcases List.mem_cons.mp member with rfl | inRest
        · obtain ⟨own, same, aligned⟩ := painting _ List.mem_cons_self
          cases same
          exact store_word_covered memory edi color a base aligned covers
        · exact absurd ⟨edi, inRest, covers⟩ later
end

theorem painted_alike (base color : Nat) (accesses other : List Access) (painting : Painting base color accesses)
    (same : ∀ access, access ∈ accesses ↔ access ∈ other) (memory : Memory) :
    runAccesses memory accesses = runAccesses memory other := by
  have painting' : Painting base color other := fun access member => painting access ((same access).mpr member)
  funext a
  by_cases covered : ∃ edi, .store edi color ∈ accesses ∧ Covers edi a
  · obtain ⟨edi, member, covers⟩ := covered
    rw [run_covered base color accesses painting memory a edi member covers,
      run_covered base color other painting' memory a edi ((same _).mp member) covers]
  · rw [run_elsewhere base color accesses painting memory a fun edi member covers => covered ⟨edi, member, covers⟩,
      run_elsewhere base color other painting' memory a fun edi member covers => covered ⟨edi, (same _).mpr member, covers⟩]

theorem wrap_int_of_range (value : Int) (low : -2 ^ 31 ≤ value) (high : value < 2 ^ 31) : wrapInt value = value := by
  unfold wrapInt
  omega

section
variable (driver : Driver) (x y w h : Int) (color : Nat)

theorem pixels_painting (order : List (Int × Int)) : Painting (getDrawTarget driver) color (drawPixels driver color order) := by
  intro access member
  obtain ⟨pixel, _, drawn⟩ := List.mem_flatMap.mp member
  rw [vbeDrawPixel] at drawn
  split at drawn
  · exact absurd drawn List.not_mem_nil
  · refine ⟨_, List.mem_singleton.mp drawn, ?_⟩
    rw [add32]
    omega

theorem fill_stores (low : -2 ^ 31 ≤ x + w ∧ -2 ^ 31 ≤ y + h) (high : x + w < 2 ^ 31 ∧ y + h < 2 ^ 31) (access : Access) :
    access ∈ vbeFillRect driver x y w h color ↔
      ∃ px py, (x ≤ px ∧ px < x + w ∧ y ≤ py ∧ py < y + h) ∧ access ∈ vbeDrawPixel driver px py color := by
  have drawn : ∀ px py, access ∈ vbeDrawPixel driver px py color ↔ ¬ offScreen driver.info px py ∧
      access = assign (getDrawTarget driver) (py.toNat * driver.info.width.toNat + px.toNat) color := by
    intro px py
    rw [vbeDrawPixel]
    by_cases off : offScreen driver.info px py
    · rw [if_pos off]
      exact iff_of_false List.not_mem_nil fun both => both.1 off
    · rw [if_neg off, List.mem_singleton]
      exact ⟨fun same => ⟨off, same⟩, And.right⟩
  rw [vbeFillRect, wrap_int_of_range _ low.1 high.1, wrap_int_of_range _ low.2 high.2]
  generalize x1Eq : (if x < 0 then 0 else x) = x1
  generalize y1Eq : (if y < 0 then 0 else y) = y1
  generalize x2Eq : (if driver.info.width.toNat < x + w then (driver.info.width.toNat : Int) else x + w) = x2
  generalize y2Eq : (if driver.info.height.toNat < y + h then (driver.info.height.toNat : Int) else y + h) = y2
  constructor
  · intro member
    by_cases empty : x2 ≤ x1 ∨ y2 ≤ y1
    · rw [if_pos empty] at member
      exact absurd member List.not_mem_nil
    · rw [if_neg empty] at member
      obtain ⟨i, line, stored⟩ := List.mem_flatMap.mp member
      rw [List.mem_range] at line
      rw [rep_stosl_stores _ _ _ (add32_lt _ _)] at stored
      obtain ⟨j, inLine, rfl⟩ := List.mem_map.mp stored
      rw [List.mem_range] at inLine
      refine ⟨x1 + (j : Int), y1 + (i : Int), by omega, (drawn _ _).mpr ⟨?_, ?_⟩⟩
      · rw [offScreen]
        omega
      · have column : (x1 + (j : Int)).toNat = x1.toNat + j := by omega
        have row : (y1 + (i : Int)).toNat = y1.toNat + i := by omega
        rw [assign, column, row, add32, add32, add32, Nat.mod_add_mod, Nat.add_assoc, ← Nat.mul_add, Nat.add_assoc]
  · rintro ⟨px, py, inside, member⟩
    obtain ⟨on, same⟩ := (drawn px py).mp member
    rw [offScreen] at on
    have some' : ¬ (x2 ≤ x1 ∨ y2 ≤ y1) := by omega
    rw [if_neg some']
    refine List.mem_flatMap.mpr ⟨(py - y1).toNat, List.mem_range.mpr (by omega), ?_⟩
    rw [rep_stosl_stores _ _ _ (add32_lt _ _)]
    refine List.mem_map.mpr ⟨(px - x1).toNat, List.mem_range.mpr (by omega), ?_⟩
    have column : x1.toNat + (px - x1).toNat = px.toNat := by omega
    have row : y1.toNat + (py - y1).toNat = py.toNat := by omega
    rw [same, assign, row, add32, add32, add32, Nat.mod_add_mod, Nat.add_assoc, ← Nat.mul_add, Nat.add_assoc, column]

theorem fill_rect_pixels (low : -2 ^ 31 ≤ x + w ∧ -2 ^ 31 ≤ y + h) (high : x + w < 2 ^ 31 ∧ y + h < 2 ^ 31)
    (order : List (Int × Int)) (all : Rectangle x y w h order) (memory : Memory) :
    runAccesses memory (vbeFillRect driver x y w h color) = runAccesses memory (drawPixels driver color order) := by
  refine (painted_alike (getDrawTarget driver) color _ _ (pixels_painting driver color order) (fun access => ?_) memory).symm
  rw [fill_stores driver x y w h color low high, drawPixels, List.mem_flatMap]
  constructor
  · rintro ⟨⟨px, py⟩, inOrder, drawn⟩
    exact ⟨px, py, (all px py).mp inOrder, drawn⟩
  · rintro ⟨px, py, inside, drawn⟩
    exact ⟨(px, py), (all px py).mpr inside, drawn⟩

end

theorem corner_rectangle : Rectangle (-1) 0 2 1 [(-1, 0), (0, 0)] := by
  intro px py
  simp only [List.mem_cons, List.not_mem_nil, or_false, Prod.mk.injEq]
  omega

theorem fill_rect_corner : runAccesses (fun _ => 0) (vbeFillRect ⟨vgaInfo, true, 0x200000, 0⟩ (-1) 0 2 1 7) =
    runAccesses (fun _ => 0) (drawPixels ⟨vgaInfo, true, 0x200000, 0⟩ 7 [(-1, 0), (0, 0)]) :=
  fill_rect_pixels ⟨vgaInfo, true, 0x200000, 0⟩ (-1) 0 2 1 7 ⟨by decide, by decide⟩ ⟨by decide, by decide⟩
    [(-1, 0), (0, 0)] corner_rectangle (fun _ => 0)

end RoDos.Video
