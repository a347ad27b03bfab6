import RoDos.Video.Rects
import Mathlib.Data.List.Basic

set_option autoImplicit false

namespace RoDos.Video

open Base

def rgbToVga (c : UInt32) : UInt8 :=
  if c < 256 then c.toUInt8
  else if c = 0x000000 then 0
  else if c = 0x0000AA then 1
  else if c = 0x00AA00 then 2
  else if c = 0x00AAAA then 3
  else if c = 0xAA0000 then 4
  else if c = 0xAA00AA then 5
  else if c = 0xAA5500 then 6
  else if c = 0xAAAAAA then 7
  else if c = 0x555555 then 8
  else if c = 0x5555FF then 9
  else if c = 0x55FF55 then 10
  else if c = 0x55FFFF then 11
  else if c = 0xFF5555 then 12
  else if c = 0xFF55FF then 13
  else if c = 0xFFFF55 then 14
  else if c = 0xFFFFFF then 15
  else 15

-- The address of VGA_MEM[index], for any vga_target.
def vgaMem (target : Nat) (index : Int) : Nat := ((target + index) % 2 ^ 32).toNat

def runStores (memory : Memory) (stores : List (Nat × UInt8)) : Memory :=
  stores.foldl (fun memory store => storeByte memory store.1 store.2) memory

-- for (i = first; i < last; i++)
def countUp (first last : Int) : List Int := (List.range (last - first).toNat).map fun (i : Nat) => first + (i : Int)

section
variable (font : Nat → Nat → UInt8) (target : Nat)

def vgaDrawPixel (x y : Int) (color : UInt32) : List (Nat × UInt8) :=
  if x < 0 ∨ y < 0 ∨ 320 ≤ x ∨ 200 ≤ y then [] else [(vgaMem target (y * 320 + x), rgbToVga color)]

def vgaFillRect (x y w h : Int) (color : UInt32) : List (Nat × UInt8) :=
  let c := rgbToVga color
  (countUp y (min (wrapInt (y + h)) 200)).flatMap fun py =>
    if py < 0 then []
    else
      (countUp x (min (wrapInt (x + w)) 320)).flatMap fun px =>
        if px < 0 then [] else [(vgaMem target (py * 320 + px), c)]

def glyphBit (c : UInt8) (row col : Nat) : Bool :=
  (font (if 127 < c.toNat then 63 else c.toNat) row).toNat &&& 0x80 >>> col ≠ 0

def vgaDrawChar (x y : Int) (c : UInt8) (fg bg : UInt32) : List (Nat × UInt8) :=
  let fgc := rgbToVga fg
  let bgc := rgbToVga bg
  (List.range 8).flatMap fun (row : Nat) => (List.range 8).flatMap fun (col : Nat) =>
    let px := wrapInt (x + (col : Int))
    let py := wrapInt (y + (row : Int))
    if px < 320 ∧ py < 200 then
      [(vgaMem target (wrapInt (wrapInt (py * 320) + px)), if glyphBit font c row col then fgc else bgc)]
    else []

def vgaDrawString (x y : Int) (fg bg : UInt32) : List UInt8 → List (Nat × UInt8)
  | [] => []
  | c :: str => vgaDrawChar font target x y c fg bg ++ vgaDrawString (wrapInt (x + 8)) y fg bg str

def charPixels (x y : Int) (c : UInt8) (fg bg : UInt32) : List ((Int × Int) × UInt32) :=
  (List.range 8).flatMap fun (row : Nat) => (List.range 8).map fun (col : Nat) =>
    ((x + (col : Int), y + (row : Int)), if glyphBit font c row col then fg else bg)

def stringPixels (x y : Int) (fg bg : UInt32) : List UInt8 → List ((Int × Int) × UInt32)
  | [] => []
  | c :: str => charPixels font x y c fg bg ++ stringPixels (x + 8) y fg bg str

def vgaDrawPixels (pixels : List ((Int × Int) × UInt32)) : List (Nat × UInt8) :=
  pixels.flatMap fun pixel => vgaDrawPixel target pixel.1.1 pixel.1.2 pixel.2

end

-- Two pictures that cannot be told apart, whatever was in the memory before.
def Alike (stores other : List (Nat × UInt8)) : Prop := ∀ memory, runStores memory stores = runStores memory other

def IsInt (value : Int) : Prop := -2 ^ 31 ≤ value ∧ value < 2 ^ 31

instance (value : Int) : Decidable (IsInt value) := inferInstanceAs (Decidable (-2 ^ 31 ≤ value ∧ value < 2 ^ 31))

-- A text of the given length starts at the right of the left edge and below the upper one, or lies behind one of the two
-- edges that are tested; no coordinate of its pixels passes the largest int.
def TextFits (x y : Int) (length : Nat) : Prop :=
  200 ≤ y ∧ y + 7 < 2 ^ 31 ∨ x + 8 * length ≤ 2 ^ 31 ∧ (320 ≤ x ∨ 0 ≤ x ∧ 0 ≤ y ∧ y + 7 < 2 ^ 31)

instance (x y : Int) (length : Nat) : Decidable (TextFits x y length) := inferInstanceAs
  (Decidable (200 ≤ y ∧ y + 7 < 2 ^ 31 ∨ x + 8 * length ≤ 2 ^ 31 ∧ (320 ≤ x ∨ 0 ≤ x ∧ 0 ≤ y ∧ y + 7 < 2 ^ 31)))

theorem vga_mem_lt (target : Nat) (index : Int) : vgaMem target index < 2 ^ 32 := by
  unfold vgaMem
  omega

theorem vga_mem_wrap (target : Nat) (py px : Int) :
    vgaMem target (wrapInt (wrapInt (py * 320) + px)) = vgaMem target (py * 320 + px) := by
  unfold vgaMem wrapInt
  omega

theorem vga_mem_apart (target : Nat) (index other : Int) (below : index < other) (near : other < index + 2 ^ 32) :
    vgaMem target index ≠ vgaMem target other := by
  unfold vgaMem
  omega

-- The memory behind a run of stores.
section
variable (stores : List (Nat × UInt8)) (a : Nat)

theorem run_untouched (memory : Memory) (outside : ∀ store ∈ stores, store.1 % 2 ^ 32 ≠ a) :
    runStores memory stores a = memory a := by
  induction stores generalizing memory with
  | nil => rfl
  | cons store rest ih =>
      rw [runStores, List.foldl_cons, ← runStores, ih _ fun other member => outside other (List.mem_cons_of_mem _ member)]
      exact if_neg fun same => outside store List.mem_cons_self same.symm

theorem run_stored (memory other : Memory) (stored : ∃ store ∈ stores, store.1 % 2 ^ 32 = a) :
    runStores memory stores a = runStores other stores a := by
  induction stores generalizing memory other with
  | nil =>
      obtain ⟨store, member, _⟩ := stored
      exact absurd member List.not_mem_nil
  | cons store rest ih =>
      rw [runStores, runStores, List.foldl_cons, List.foldl_cons, ← runStores, ← runStores]
      by_cases later : ∃ store ∈ rest, store.1 % 2 ^ 32 = a
      · exact ih _ _ later
      · have outside : ∀ store ∈ rest, store.1 % 2 ^ 32 ≠ a := fun other member same => later ⟨other, member, same⟩
        obtain ⟨own, member, here⟩ := stored
        rcases List.mem_cons.mp member with rfl | inRest
        · rw [run_untouched rest a _ outside, run_untouched rest a _ outside]
          exact (if_pos here.symm).trans (if_pos here.symm).symm
        · exact absurd here (outside own inRest)

theorem run_coloured (memory : Memory) (c : UInt8) (coloured : ∀ store ∈ stores, store.2 = c)
    (stored : ∃ store ∈ stores, store.1 % 2 ^ 32 = a) : runStores memory stores a = c := by
  rw [run_stored stores a memory (fun _ => c) stored]
  clear stored
  induction stores with
  | nil => rfl
  | cons store rest ih =>
      have first : storeByte (fun _ => c) store.1 store.2 = fun _ => c := by
        funext other
        rw [storeByte, coloured store List.mem_cons_self]
        split <;> rfl
      rw [runStores, List.foldl_cons, first]
      exact ih fun other member => coloured other (List.mem_cons_of_mem _ member)
end

theorem alike_coloured (stores other : List (Nat × UInt8)) (c : UInt8) (coloured : ∀ store ∈ stores, store.2 = c)
    (same : ∀ store, store ∈ stores ↔ store ∈ other) : Alike stores other := by
  intro memory
  funext a
  by_cases stored : ∃ store ∈ stores, store.1 % 2 ^ 32 = a
  · obtain ⟨store, member, here⟩ := stored
    rw [run_coloured stores a memory c coloured ⟨store, member, here⟩, run_coloured other a memory c
      (fun own inOther => coloured own ((same own).mpr inOther)) ⟨store, (same store).mp member, here⟩]
  · rw [run_untouched stores a memory fun store member here => stored ⟨store, member, here⟩,
      run_untouched other a memory fun store member here => stored ⟨store, (same store).mpr member, here⟩]

theorem stray_shows (stores other : List (Nat × UInt8)) (store : Nat × UInt8) (member : store ∈ stores)
    (stray : ∀ own ∈ other, own.1 % 2 ^ 32 ≠ store.1 % 2 ^ 32) : ¬ Alike stores other := by
  intro alike
  have stored : ∃ own ∈ stores, own.1 % 2 ^ 32 = store.1 % 2 ^ 32 := ⟨store, member, rfl⟩
  generalize store.1 % 2 ^ 32 = a at stray stored
  generalize valueEq : runStores (fun _ => 0) stores a = value
  have here : ∀ memory : Memory, memory a = value := fun memory => by
    rw [← valueEq, run_stored stores a _ memory stored, alike memory, run_untouched other a memory stray]
  exact absurd ((here fun _ => 0).trans (here fun _ => 1).symm) (by decide)

theorem count_up_mem (first last own : Int) : own ∈ countUp first last ↔ first ≤ own ∧ own < last := by
  rw [countUp, List.mem_map]
  constructor
  · rintro ⟨i, member, rfl⟩
    rw [List.mem_range] at member
    omega
  · rintro ⟨low, high⟩
    exact ⟨(own - first).toNat, List.mem_range.mpr (by omega), by omega⟩

section
variable (font : Nat → Nat → UInt8) (target : Nat)

theorem draw_pixel_mem (x y : Int) (color : UInt32) (store : Nat × UInt8) : store ∈ vgaDrawPixel target x y color ↔
    (0 ≤ x ∧ x < 320 ∧ 0 ≤ y ∧ y < 200) ∧ store = (vgaMem target (y * 320 + x), rgbToVga color) := by
  rw [vgaDrawPixel]
  by_cases off : x < 0 ∨ y < 0 ∨ 320 ≤ x ∨ 200 ≤ y
  · rw [if_pos off]
    exact iff_of_false List.not_mem_nil fun both => by omega
  · rw [if_neg off, List.mem_singleton]
    exact ⟨fun same => ⟨by omega, same⟩, And.right⟩

theorem fill_rect_mem (x y w h : Int) (color : UInt32) (width : IsInt (x + w)) (height : IsInt (y + h)) (store : Nat × UInt8) :
    store ∈ vgaFillRect target x y w h color ↔
      ∃ px py, (x ≤ px ∧ px < x + w ∧ y ≤ py ∧ py < y + h) ∧ store ∈ vgaDrawPixel target px py color := by
  rw [vgaFillRect, wrap_int_of_range _ width.1 width.2, wrap_int_of_range _ height.1 height.2]
  constructor
  · intro member
    obtain ⟨py, inRows, inRow⟩ := List.mem_flatMap.mp member
    rw [count_up_mem] at inRows
    by_cases above : py < 0
    · rw [if_pos above] at inRow
      exact absurd inRow List.not_mem_nil
    · rw [if_neg above] at inRow
      obtain ⟨px, inColumns, stored⟩ := List.mem_flatMap.mp inRow
      rw [count_up_mem] at inColumns
      by_cases left : px < 0
      · rw [if_pos left] at stored
        exact absurd stored List.not_mem_nil
      · rw [if_neg left, List.mem_singleton] at stored
        exact ⟨px, py, by omega, (draw_pixel_mem target px py color store).mpr ⟨by omega, stored⟩⟩
  · rintro ⟨px, py, inside, drawn⟩
    obtain ⟨on, same⟩ := (draw_pixel_mem target px py color store).mp drawn
    refine List.mem_flatMap.mpr ⟨py, (count_up_mem _ _ _).mpr (by omega), ?_⟩
    rw [if_neg (by omega)]
    refine List.mem_flatMap.mpr ⟨px, (count_up_mem _ _ _).mpr (by omega), ?_⟩
    rw [if_neg (by omega)]
    exact List.mem_singleton.mpr same

theorem fill_rect_alike (x y w h : Int) (color : UInt32) (width : IsInt (x + w)) (height : IsInt (y + h))
    (order : List (Int × Int)) (all : Rectangle x y w h order) :
    Alike (vgaFillRect target x y w h color) (vgaDrawPixels target (order.map fun pixel => (pixel, color))) := by
  refine alike_coloured _ _ (rgbToVga color) (fun store member => ?_) fun store => ?_
  · obtain ⟨px, py, _, drawn⟩ := (fill_rect_mem target x y w h color width height store).mp member
    rw [((draw_pixel_mem target px py color store).mp drawn).2]
  · rw [fill_rect_mem target x y w h color width height, vgaDrawPixels, List.mem_flatMap]
    constructor
    · rintro ⟨px, py, inside, drawn⟩
      exact ⟨((px, py), color), List.mem_map.mpr ⟨(px, py), (all px py).mpr inside, rfl⟩, drawn⟩
    · rintro ⟨pixel, member, drawn⟩
      obtain ⟨⟨px, py⟩, inOrder, rfl⟩ := List.mem_map.mp member
      exact ⟨px, py, (all px py).mp inOrder, drawn⟩

theorem draw_char_below (x y : Int) (c : UInt8) (fg bg : UInt32) (below : 200 ≤ y) (high : y + 7 < 2 ^ 31) :
    vgaDrawChar font target x y c fg bg = [] := by
  refine List.flatMap_eq_nil_iff.mpr fun row inRows => List.flatMap_eq_nil_iff.mpr fun col _ => if_neg ?_
  rw [List.mem_range] at inRows
  rw [wrap_int_of_range (y + (row : Int)) (by omega) (by omega)]
  omega

theorem draw_string_below (x y : Int) (fg bg : UInt32) (str : List UInt8) (below : 200 ≤ y) (high : y + 7 < 2 ^ 31) :
    vgaDrawString font target x y fg bg str = [] := by
  induction str generalizing x with
  | nil => rfl
  | cons c str ih => rw [vgaDrawString, draw_char_below font target x y c fg bg below high, ih, List.nil_append]

theorem pixels_below (x y : Int) (fg bg : UInt32) (str : List UInt8) (below : 200 ≤ y) :
    vgaDrawPixels target (stringPixels font x y fg bg str) = [] := by
  induction str generalizing x with
  | nil => rfl
  | cons c str ih =>
      rw [stringPixels, vgaDrawPixels, List.flatMap_append, ← vgaDrawPixels, ← vgaDrawPixels, ih, List.append_nil, vgaDrawPixels]
      refine List.flatMap_eq_nil_iff.mpr fun pixel member => ?_
      obtain ⟨row, _, inRow⟩ := List.mem_flatMap.mp member
      obtain ⟨col, _, rfl⟩ := List.mem_map.mp inRow
      exact if_pos (by dsimp only; omega)

theorem draw_char_fits (x y : Int) (c : UInt8) (fg bg : UInt32) (low : -2 ^ 31 ≤ x) (columns : x + 8 ≤ 2 ^ 31)
    (edges : 320 ≤ x ∨ 0 ≤ x ∧ 0 ≤ y ∧ y + 7 < 2 ^ 31) :
    vgaDrawChar font target x y c fg bg = vgaDrawPixels target (charPixels font x y c fg bg) := by
  rw [vgaDrawChar, vgaDrawPixels, charPixels, List.flatMap_assoc]
  refine List.flatMap_congr fun row inRows => ?_
  rw [List.flatMap_map]
  refine List.flatMap_congr fun col inColumns => ?_
  rw [List.mem_range] at inRows inColumns
  dsimp only
  rw [wrap_int_of_range (x + (col : Int)) (by omega) (by omega), vgaDrawPixel, vga_mem_wrap]
  rcases edges with right | ⟨left, above, high⟩
  · rw [if_neg (by omega), if_pos (by omega)]
  · rw [wrap_int_of_range (y + (row : Int)) (by omega) (by omega)]
    by_cases on : x + (col : Int) < 320 ∧ y + (row : Int) < 200
    · have inside : ¬ (x + (col : Int) < 0 ∨ y + (row : Int) < 0 ∨ 320 ≤ x + (col : Int) ∨ 200 ≤ y + (row : Int)) := by omega
      rw [if_pos on, if_neg inside, apply_ite rgbToVga]
    · rw [if_neg on, if_pos (by omega)]

theorem draw_string_fits (x y : Int) (fg bg : UInt32) (str : List UInt8) (low : -2 ^ 31 ≤ x)
    (fits : TextFits x y str.length) :
    vgaDrawString font target x y fg bg str = vgaDrawPixels target (stringPixels font x y fg bg str) := by
  rcases fits with ⟨below, high⟩ | ⟨columns, edges⟩
  · rw [draw_string_below font target x y fg bg str below high, pixels_below font target x y fg bg str below]
  · induction str generalizing x with
    | nil => rfl
    | cons c str ih =>
        rw [List.length_cons] at columns
        rw [vgaDrawString, stringPixels, vgaDrawPixels, List.flatMap_append, ← vgaDrawPixels, ← vgaDrawPixels,
          draw_char_fits font target x y c fg bg low (by omega) edges]
        refine congrArg (vgaDrawPixels target (charPixels font x y c fg bg) ++ ·) ?_
        cases str with
        | nil => rfl
        | cons next later =>
            rw [List.length_cons] at columns
            rw [wrap_int_of_range (x + 8) (by omega) (by omega)]
            exact ih (x + 8) (by omega) (by rw [List.length_cons]; omega) (by omega)

end

-- Every pixel of a string that the two tests let through is stored.
section
variable (font : Nat → Nat → UInt8) (target : Nat)

theorem draw_char_stores (x y : Int) (c : UInt8) (fg bg : UInt32) (row col : Nat) (inRows : row < 8) (inColumns : col < 8)
    (right : wrapInt (x + (col : Int)) < 320) (below : wrapInt (y + (row : Int)) < 200) :
    ∃ value, (vgaMem target (wrapInt (y + (row : Int)) * 320 + wrapInt (x + (col : Int))), value) ∈
      vgaDrawChar font target x y c fg bg := by
  refine ⟨if glyphBit font c row col then rgbToVga fg else rgbToVga bg, ?_⟩
  refine List.mem_flatMap.mpr ⟨row, List.mem_range.mpr inRows, List.mem_flatMap.mpr ⟨col, List.mem_range.mpr inColumns, ?_⟩⟩
  dsimp only
  rw [if_pos ⟨right, below⟩, vga_mem_wrap]
  exact List.mem_cons_self

theorem draw_string_stores (x y : Int) (fg bg : UInt32) (str : List UInt8) (row col : Nat) (inRows : row < 8)
    (inColumns : col < 8 * str.length) (right : wrapInt (x + (col : Int)) < 320) (below : wrapInt (y + (row : Int)) < 200) :
    ∃ value, (vgaMem target (wrapInt (y + (row : Int)) * 320 + wrapInt (x + (col : Int))), value) ∈
      vgaDrawString font target x y fg bg str := by
  induction str generalizing x col with
  | nil => exact absurd inColumns (Nat.not_lt_zero col)
  | cons c str ih =>
      rw [List.length_cons] at inColumns
      by_cases first : col < 8
      · obtain ⟨value, stored⟩ := draw_char_stores font target x y c fg bg row col inRows first right below
        exact ⟨value, List.mem_append_left _ stored⟩
      · have same : wrapInt (wrapInt (x + 8) + ((col - 8 : Nat) : Int)) = wrapInt (x + (col : Int)) := by
          unfold wrapInt
          omega
        obtain ⟨value, stored⟩ := ih (wrapInt (x + 8)) (col - 8) (by omega) (by rw [same]; exact right)
        rw [same] at stored
        exact ⟨value, List.mem_append_right _ stored⟩

theorem pixels_rows (x y : Int) (fg bg : UInt32) (str : List UInt8) (pixel : (Int × Int) × UInt32)
    (member : pixel ∈ stringPixels font x y fg bg str) : y ≤ pixel.1.2 ∧ pixel.1.2 ≤ y + 7 := by
  induction str generalizing x with
  | nil => exact absurd member List.not_mem_nil
  | cons c str ih =>
      rcases List.mem_append.mp member with first | later
      · obtain ⟨row, inRows, inRow⟩ := List.mem_flatMap.mp first
        obtain ⟨col, _, rfl⟩ := List.mem_map.mp inRow
        rw [List.mem_range] at inRows
        dsimp only
        omega
      · exact ih (x + 8) later

theorem string_stray (x y : Int) (fg bg : UInt32) (str : List UInt8) (columns : IsInt x) (rows : IsInt y)
    (some' : 0 < str.length) (unfit : ¬ TextFits x y str.length) :
    ¬ Alike (vgaDrawString font target x y fg bg str) (vgaDrawPixels target (stringPixels font x y fg bg str)) := by
  rw [IsInt] at columns rows
  rw [TextFits] at unfit
  -- A row that passes the test, and a column left of the screen or above it.
  have row : ∃ row : Nat, row < 8 ∧ wrapInt (y + (row : Int)) < 200 ∧ (y < 200 → row = 0) := by
    by_cases above : y < 200
    · refine ⟨0, by decide, ?_, fun _ => rfl⟩
      rw [wrap_int_of_range _ (by omega) (by omega)]
      omega
    · refine ⟨7, by decide, ?_, fun below => absurd below above⟩
      unfold wrapInt
      omega
  have col : ∃ col : Nat, col < 8 * str.length ∧ wrapInt (x + (col : Int)) < 320 ∧
      (wrapInt (x + (col : Int)) = -2 ^ 31 ∨ col = 0 ∧ x < 320 ∧ (x < 0 ∨ y < 0 ∨ 2 ^ 31 ≤ y + 7)) := by
    by_cases wraps : 2 ^ 31 < x + 8 * (str.length : Int)
    · refine ⟨(2 ^ 31 - x).toNat, by omega, ?_, Or.inl ?_⟩ <;> unfold wrapInt <;> omega
    · refine ⟨0, by omega, ?_, Or.inr ⟨rfl, by omega, by omega⟩⟩
      rw [wrap_int_of_range _ (by omega) (by omega)]
      omega
  obtain ⟨row, inRows, below, upper⟩ := row
  obtain ⟨col, inColumns, right, outside⟩ := col
  obtain ⟨value, stored⟩ := draw_string_stores font target x y fg bg str row col inRows inColumns right below
  refine stray_shows _ _ _ stored fun own member => ?_
  obtain ⟨pixel, inString, drawn⟩ := List.mem_flatMap.mp member
  obtain ⟨on, same⟩ := (draw_pixel_mem target _ _ _ own).mp drawn
  have inText := pixels_rows font x y fg bg str pixel inString
  have apart : vgaMem target (wrapInt (y + (row : Int)) * 320 + wrapInt (x + (col : Int))) ≠
      vgaMem target (pixel.1.2 * 320 + pixel.1.1) := by
    have zero := upper (by omega)
    rw [zero, wrap_int_of_range (y + ((0 : Nat) : Int)) (by omega) (by omega)]
    rcases outside with least | ⟨first, left, _⟩
    · rw [least]
      refine vga_mem_apart target _ _ ?_ ?_ <;> omega
    · rw [first, wrap_int_of_range (x + ((0 : Nat) : Int)) (by omega) (by omega)]
      refine vga_mem_apart target _ _ ?_ ?_ <;> omega
  rw [same, Nat.mod_eq_of_lt (vga_mem_lt target _), Nat.mod_eq_of_lt (vga_mem_lt target _)]
  exact fun equal => apart equal.symm

theorem string_alike_iff (x y : Int) (fg bg : UInt32) (str : List UInt8) (columns : IsInt x) (rows : IsInt y) :
    Alike (vgaDrawString font target x y fg bg str) (vgaDrawPixels target (stringPixels font x y fg bg str)) ↔
      str = [] ∨ TextFits x y str.length := by
  constructor
  · intro alike
    by_cases empty : str = []
    · exact Or.inl empty
    · exact Or.inr (Classical.byContradiction fun unfit =>
        string_stray font target x y fg bg str columns rows (List.length_pos_iff.mpr empty) unfit alike)
  · rintro (rfl | fits)
    · exact fun memory => rfl
    · rw [draw_string_fits font target x y fg bg str columns.1 fits]
      exact fun memory => rfl

theorem char_alike_iff (x y : Int) (c : UInt8) (fg bg : UInt32) (columns : IsInt x) (rows : IsInt y) :
    Alike (vgaDrawChar font target x y c fg bg) (vgaDrawPixels target (charPixels font x y c fg bg)) ↔ TextFits x y 1 := by
  have one := string_alike_iff font target x y fg bg [c] columns rows
  rw [vgaDrawString, vgaDrawString, stringPixels, stringPixels, List.append_nil, List.append_nil] at one
  exact one.trans ⟨fun either => either.elim (fun none' => absurd none' (List.cons_ne_nil _ _)) id, Or.inr⟩

-- Rectangles are clipped at all four edges, texts at the right one and the lower one only.
theorem vga_draws_iff (x y : Int) (columns : IsInt x) (rows : IsInt y) :
    (∀ w h color order, IsInt (x + w) → IsInt (y + h) → Rectangle x y w h order →
      Alike (vgaFillRect target x y w h color) (vgaDrawPixels target (order.map fun pixel => (pixel, color)))) ∧
    (∀ c fg bg, Alike (vgaDrawChar font target x y c fg bg) (vgaDrawPixels target (charPixels font x y c fg bg)) ↔
      TextFits x y 1) ∧
    (∀ str fg bg, Alike (vgaDrawString font target x y fg bg str) (vgaDrawPixels target (stringPixels font x y fg bg str)) ↔
      str = [] ∨ TextFits x y str.length) :=
  ⟨fun w h color order width height all => fill_rect_alike target x y w h color width height order all,
    fun c fg bg => char_alike_iff font target x y c fg bg columns rows,
    fun str fg bg => string_alike_iff font target x y fg bg str columns rows⟩
end

theorem vga_draws_corner : TextFits 0 0 1 ↔ Alike (vgaDrawChar (fun _ _ => 0) 0xA0000 0 0 65 15 1)
    (vgaDrawPixels 0xA0000 (charPixels (fun _ _ => 0) 0 0 65 15 1)) :=
  ((vga_draws_iff (fun _ _ => 0) 0xA0000 0 0 (by decide) (by decide)).2.1 65 15 1).symm

theorem vga_not_draws : ¬ ∀ font target x y, IsInt x → IsInt y → ∀ c fg bg,
    Alike (vgaDrawChar font target x y c fg bg) (vgaDrawPixels target (charPixels font x y c fg bg)) := by
  intro claimed
  have fits := (char_alike_iff (fun _ _ => 0) 0xA0000 (-4) 1 65 15 1 (by decide) (by decide)).mp
    (claimed (fun _ _ => 0) 0xA0000 (-4) 1 (by decide) (by decide) 65 15 1)
  exact absurd fits (by decide)

end RoDos.Video
