import RoDos.Base.Memory
import RoDos.Base.Runs

set_option autoImplicit false

namespace RoDos.Video

open Base

structure VbeBootInfo where
  framebuffer : UInt32
  width : UInt16
  height : UInt16
  bpp : UInt8
deriving DecidableEq

structure Driver where
  info : VbeBootInfo
  vbeActive : Bool
  backbuffer : Nat
  backbufferSize : Nat
deriving DecidableEq

-- What one turn of rep stosl or rep movsl, or one assignment, does to the memory.
inductive Access where
  | store (edi eax : Nat)
  | move (esi edi : Nat)
deriving DecidableEq

inductive Draw where
  | clear (color : Nat)
  | pixel (x y : Int) (color : Nat)
  | fillRect (x y w h : Int) (color : Nat)
  | char (x y : Int) (c : UInt8) (fg bg : Nat)
  | string (x y : Int) (str : List UInt8) (fg bg : Nat)
deriving DecidableEq

inductive Op where
  | draw (call : Draw)
  | flush
deriving DecidableEq

def pixels (info : VbeBootInfo) : Nat := info.width.toNat * info.height.toNat

-- The messages that it prints are left out. The second component is the pointer that is returned.
def gpuSetupFramebuffer (kmalloc : Nat → Nat) (driver : Driver) : Driver × Nat :=
  if driver.info.framebuffer ≠ 0 ∧ 640 ≤ driver.info.width.toNat ∧ 480 ≤ driver.info.height.toNat then
    let size := pixels driver.info * 4 % 2 ^ 32
    let allocated := kmalloc size
    let backbuffer := if allocated ≠ 0 then allocated else driver.info.framebuffer.toNat
    ({ driver with vbeActive := true, backbufferSize := size, backbuffer := backbuffer }, backbuffer)
  else ({ driver with vbeActive := false }, 0xA0000)

def repStosl (eax : Nat) : Nat → Nat → List Access
  | 0, _ => []
  | ecx + 1, edi => .store edi eax :: repStosl eax ecx (add32 edi 4)

-- With the accesses, the ESI behind them.
def repMovsl : Nat → Nat → Nat → List Access × Nat
  | 0, esi, _ => ([], esi)
  | ecx + 1, esi, edi =>
      let (rest, final) := repMovsl ecx (add32 esi 4) (add32 edi 4)
      (.move esi edi :: rest, final)

-- "+S"(backbuffer): ESI is loaded from the global and stored back into it.
def gpuFlush (driver : Driver) : Driver × List Access :=
  if driver.vbeActive = false then (driver, [])
  else if driver.backbuffer ≠ 0 ∧ driver.backbuffer ≠ driver.info.framebuffer.toNat then
    let (moves, esi) := repMovsl (pixels driver.info) driver.backbuffer driver.info.framebuffer.toNat
    ({ driver with backbuffer := esi }, moves)
  else (driver, [])

def getDrawTarget (driver : Driver) : Nat :=
  if driver.vbeActive ∧ driver.backbuffer ≠ 0 then driver.backbuffer
  else if driver.vbeActive then driver.info.framebuffer.toNat
  else 0

-- target[index] = color
def assign (target index color : Nat) : Access := .store (add32 target (4 * index)) color

def offScreen (info : VbeBootInfo) (x y : Int) : Prop := x < 0 ∨ y < 0 ∨ info.width.toNat ≤ x ∨ info.height.toNat ≤ y

instance (info : VbeBootInfo) (x y : Int) : Decidable (offScreen info x y) :=
  inferInstanceAs (Decidable (x < 0 ∨ y < 0 ∨ info.width.toNat ≤ x ∨ info.height.toNat ≤ y))

-- The drawing calls with vbe_active set, with any font.
section
variable (font : Nat → Nat → UInt8)

def vbeClear (driver : Driver) (color : Nat) : List Access :=
  repStosl color (pixels driver.info) (getDrawTarget driver)

def vbeDrawPixel (driver : Driver) (x y : Int) (color : Nat) : List Access :=
  if offScreen driver.info x y then []
  else [assign (getDrawTarget driver) (y.toNat * driver.info.width.toNat + x.toNat) color]

def vbeFillRect (driver : Driver) (x y w h : Int) (color : Nat) : List Access :=
  let x1 := if x < 0 then 0 else x
  let y1 := if y < 0 then 0 else y
  let x2 := if driver.info.width.toNat < wrapInt (x + w) then (driver.info.width.toNat : Int) else wrapInt (x + w)
  let y2 := if driver.info.height.toNat < wrapInt (y + h) then (driver.info.height.toNat : Int) else wrapInt (y + h)
  if x2 ≤ x1 ∨ y2 ≤ y1 then []
  else
    (List.range (y2 - y1).toNat).flatMap fun i =>
      repStosl color (x2 - x1).toNat
        (add32 (getDrawTarget driver) (4 * ((y1.toNat + i) * driver.info.width.toNat + x1.toNat)))

def vbeDrawChar (driver : Driver) (x y : Int) (c : UInt8) (fg bg : Nat) : List Access :=
  let glyph := font (if 127 < c.toNat then 63 else c.toNat)
  (List.range 8).flatMap fun (row : Nat) => (List.range 8).flatMap fun (col : Nat) =>
    let py := wrapInt (y + (row : Int))
    let px := wrapInt (x + (col : Int))
    if offScreen driver.info px py then []
    else
      [assign (getDrawTarget driver) (py.toNat * driver.info.width.toNat + px.toNat)
        (if (glyph row).toNat &&& 0x80 >>> col ≠ 0 then fg else bg)]

-- cx wraps as well when it passes the largest int.
def vbeDrawString (driver : Driver) (x y : Int) (fg bg : Nat) : List UInt8 → List Access
  | [] => []
  | c :: str => vbeDrawChar font driver x y c fg bg ++ vbeDrawString driver (wrapInt (x + 8)) y fg bg str

def drawAccesses (driver : Driver) : Draw → List Access
  | .clear color => vbeClear driver color
  | .pixel x y color => vbeDrawPixel driver x y color
  | .fillRect x y w h color => vbeFillRect driver x y w h color
  | .char x y c fg bg => vbeDrawChar font driver x y c fg bg
  | .string x y str fg bg => vbeDrawString font driver x y fg bg str

end

def gpuStep (driver : Driver) : Op → Option Driver
  | .draw _ => some driver
  | .flush => some (gpuFlush driver).1

-- The VBE mode that gpu_setup_framebuffer finds, in which kmalloc gives it a buffer beside the framebuffer. The size of
-- the mode fits in the 32 bits of backbuffer_size.
structure Allocated (kmalloc : Nat → Nat) (info : VbeBootInfo) : Prop where
  mode : info.framebuffer ≠ 0 ∧ 640 ≤ info.width.toNat ∧ 480 ≤ info.height.toNat
  fits : pixels info * 4 < 2 ^ 32
  some' : kmalloc (pixels info * 4) ≠ 0
  apart : kmalloc (pixels info * 4) ≠ info.framebuffer.toNat
  room : kmalloc (pixels info * 4) + pixels info * 4 ≤ 2 ^ 32

def Within (buffer size : Nat) (access : Access) : Prop :=
  ∃ edi eax, access = .store edi eax ∧ buffer ≤ edi ∧ edi + 4 ≤ buffer + size

def copied (info : VbeBootInfo) (buffer : Nat) : List Access :=
  (List.range (pixels info)).map fun i => .move (add32 buffer (4 * i)) (add32 info.framebuffer.toNat (4 * i))

-- The target is the buffer; a draw stays inside it, and a flush copies all of it and leaves the global as it is.
def OpRight (font : Nat → Nat → UInt8) (buffer : Nat) (driver : Driver) (op : Op) : Prop :=
  getDrawTarget driver = buffer ∧
    match op with
    | .draw call => ∀ access ∈ drawAccesses font driver call, Within buffer driver.backbufferSize access
    | .flush => (gpuFlush driver).2 = copied driver.info buffer ∧ (gpuFlush driver).1.backbuffer = driver.backbuffer

theorem add32_lt (a b : Nat) : add32 a b < 2 ^ 32 := Nat.mod_lt _ (by decide)

theorem next_word (address i : Nat) : add32 (add32 address 4) (4 * i) = add32 address (4 * (i + 1)) := by
  rw [add32, add32, add32, Nat.mod_add_mod, Nat.add_assoc, Nat.mul_succ, Nat.add_comm 4]

theorem first_word (address : Nat) (word : address < 2 ^ 32) : add32 address (4 * 0) = address := Nat.mod_eq_of_lt word

theorem rep_stosl_stores (eax count edi : Nat) (target : edi < 2 ^ 32) :
    repStosl eax count edi = (List.range count).map fun i => .store (add32 edi (4 * i)) eax := by
  induction count generalizing edi with
  | zero => rfl
  | succ count ih =>
      rw [repStosl, ih _ (add32_lt _ _), List.range_succ_eq_map, List.map_cons, List.map_map, first_word _ target]
      exact congrArg (_ :: ·) (List.map_congr_left fun i _ => by rw [next_word]; rfl)

theorem rep_movsl_moves (count esi edi : Nat) (source : esi < 2 ^ 32) (target : edi < 2 ^ 32) : repMovsl count esi edi =
    ((List.range count).map fun i => .move (add32 esi (4 * i)) (add32 edi (4 * i)), add32 esi (4 * count)) := by
  induction count generalizing esi edi with
  | zero => rw [repMovsl, first_word _ source, List.range_zero, List.map_nil]
  | succ count ih =>
      rw [repMovsl, ih _ _ (add32_lt _ _) (add32_lt _ _), List.range_succ_eq_map, List.map_cons,
        List.map_map, first_word _ source, first_word _ target, next_word]
      dsimp only
      refine congrArg (fun moves => (_ :: moves, _)) (List.map_congr_left fun i _ => ?_)
      rw [next_word, next_word]
      rfl

theorem line_inside (info : VbeBootInfo) (x y : Nat) (inLine : x ≤ info.width.toNat) (line : y < info.height.toNat) :
    y * info.width.toNat + x ≤ pixels info := by
  have lines : (y + 1) * info.width.toNat ≤ info.height.toNat * info.width.toNat := Nat.mul_le_mul_right _ line
  rw [Nat.add_mul, Nat.one_mul] at lines
  rw [pixels, Nat.mul_comm info.width.toNat]
  omega

section
variable (font : Nat → Nat → UInt8) (driver : Driver) (buffer : Nat) (target : getDrawTarget driver = buffer)
  (room : buffer + pixels driver.info * 4 ≤ 2 ^ 32) (size : driver.backbufferSize = pixels driver.info * 4)
include room size

theorem stores_within (color first count : Nat) (inside : first + count ≤ pixels driver.info) :
    ∀ access ∈ repStosl color count (add32 buffer (4 * first)), Within buffer driver.backbufferSize access := by
  intro access member
  rw [rep_stosl_stores _ _ _ (add32_lt _ _)] at member
  obtain ⟨i, below, rfl⟩ := List.mem_map.mp member
  rw [List.mem_range] at below
  refine ⟨buffer + 4 * first + 4 * i, color, ?_, by omega, by omega⟩
  rw [add32_of_lt buffer _ (by omega), add32_of_lt _ _ (by omega)]

include target

theorem assign_within (index color : Nat) (inside : index < pixels driver.info) :
    Within buffer driver.backbufferSize (assign (getDrawTarget driver) index color) := by
  refine ⟨buffer + 4 * index, color, ?_, by omega, by omega⟩
  rw [assign, target, add32_of_lt _ _ (by omega)]

theorem clear_within (color : Nat) : ∀ access ∈ vbeClear driver color, Within buffer driver.backbufferSize access := by
  by_cases none' : pixels driver.info = 0
  · rw [vbeClear, none', repStosl]
    exact fun access member => absurd member List.not_mem_nil
  · have whole := stores_within driver buffer room size color 0 (pixels driver.info) (by omega)
    rw [first_word _ (by omega)] at whole
    rw [vbeClear, target]
    exact whole

theorem pixel_within (x y : Int) (color : Nat) :
    ∀ access ∈ vbeDrawPixel driver x y color, Within buffer driver.backbufferSize access := by
  intro access member
  rw [vbeDrawPixel] at member
  by_cases off : offScreen driver.info x y
  · rw [if_pos off] at member
    exact absurd member List.not_mem_nil
  · rw [if_neg off, List.mem_singleton] at member
    rw [member]
    rw [offScreen] at off
    exact assign_within driver buffer target room size _ color (line_inside driver.info (x.toNat + 1) y.toNat (by omega) (by omega))

theorem char_within (x y : Int) (c : UInt8) (fg bg : Nat) :
    ∀ access ∈ vbeDrawChar font driver x y c fg bg, Within buffer driver.backbufferSize access := by
  intro access member
  obtain ⟨row, _, inRow⟩ := List.mem_flatMap.mp member
  obtain ⟨col, _, drawn⟩ := List.mem_flatMap.mp inRow
  dsimp only at drawn
  by_cases off : offScreen driver.info (wrapInt (x + (col : Int))) (wrapInt (y + (row : Int)))
  · rw [if_pos off] at drawn
    exact absurd drawn List.not_mem_nil
  · rw [if_neg off, List.mem_singleton] at drawn
    rw [drawn]
    rw [offScreen] at off
    exact assign_within driver buffer target room size _ _
      (line_inside driver.info (wrapInt (x + (col : Int)) |>.toNat.succ) (wrapInt (y + (row : Int))).toNat (by omega) (by omega))

theorem string_within (x y : Int) (str : List UInt8) (fg bg : Nat) :
    ∀ access ∈ vbeDrawString font driver x y fg bg str, Within buffer driver.backbufferSize access := by
  induction str generalizing x with
  | nil => exact fun access member => absurd member List.not_mem_nil
  | cons c str ih =>
      intro access member
      rcases List.mem_append.mp member with first | rest
      · exact char_within font driver buffer target room size x y c fg bg access first
      · exact ih (wrapInt (x + 8)) access rest

theorem rect_within (x y w h : Int) (color : Nat) :
    ∀ access ∈ vbeFillRect driver x y w h color, Within buffer driver.backbufferSize access := by
  intro access member
  rw [vbeFillRect] at member
  generalize x1Eq : (if x < 0 then 0 else x) = x1 at member
  generalize y1Eq : (if y < 0 then 0 else y) = y1 at member
  generalize x2Eq : (if driver.info.width.toNat < wrapInt (x + w) then (driver.info.width.toNat : Int) else
    wrapInt (x + w)) = x2 at member
  generalize y2Eq : (if driver.info.height.toNat < wrapInt (y + h) then (driver.info.height.toNat : Int) else
    wrapInt (y + h)) = y2 at member
  by_cases empty : x2 ≤ x1 ∨ y2 ≤ y1
  · rw [if_pos empty] at member
    exact absurd member List.not_mem_nil
  · rw [if_neg empty] at member
    obtain ⟨i, line, drawn⟩ := List.mem_flatMap.mp member
    rw [List.mem_range] at line
    rw [target] at drawn
    have inside := line_inside driver.info (x1.toNat + (x2 - x1).toNat) (y1.toNat + i) (by omega) (by omega)
    exact stores_within driver buffer room size color _ _ (by omega) access drawn

theorem draw_within (call : Draw) :
    ∀ access ∈ drawAccesses font driver call, Within buffer driver.backbufferSize access := by
  cases call with
  | clear color => exact clear_within driver buffer target room size color
  | pixel x y color => exact pixel_within driver buffer target room size x y color
  | fillRect x y w h color => exact rect_within driver buffer target room size x y w h color
  | char x y c fg bg => exact char_within font driver buffer target room size x y c fg bg
  | string x y str fg bg => exact string_within font driver buffer target room size x y str fg bg

end

def doubleBuffered (kmalloc : Nat → Nat) (info : VbeBootInfo) : Driver :=
  ⟨info, true, kmalloc (pixels info * 4), pixels info * 4⟩

section
variable (kmalloc : Nat → Nat) (info : VbeBootInfo) (allocated : Allocated kmalloc info)
include allocated

theorem setup_allocates (active : Bool) (backbuffer size : Nat) :
    (gpuSetupFramebuffer kmalloc ⟨info, active, backbuffer, size⟩).1 = doubleBuffered kmalloc info := by
  rw [gpuSetupFramebuffer, if_pos allocated.mode, Nat.mod_eq_of_lt allocated.fits]
  dsimp only
  rw [if_pos allocated.some', doubleBuffered]

theorem double_buffered_target : getDrawTarget (doubleBuffered kmalloc info) = kmalloc (pixels info * 4) :=
  if_pos ⟨rfl, allocated.some'⟩

theorem flush_moves : gpuFlush (doubleBuffered kmalloc info) =
    ({ doubleBuffered kmalloc info with backbuffer := add32 (kmalloc (pixels info * 4)) (4 * pixels info) },
      copied info (kmalloc (pixels info * 4))) := by
  have room := allocated.room
  have some' := allocated.mode
  have positive : 0 < pixels info := Nat.mul_pos (by omega) (by omega)
  have inBuffer : kmalloc (pixels info * 4) < 2 ^ 32 := by omega
  have active : (doubleBuffered kmalloc info).vbeActive ≠ false := Bool.true_eq_false.mp
  rw [gpuFlush, if_neg active, if_pos ⟨allocated.some', allocated.apart⟩]
  dsimp only [doubleBuffered]
  rw [rep_movsl_moves _ _ _ inBuffer info.framebuffer.toNat_lt]
  rfl

-- The first flush copies the buffer, and moves the global behind it.
theorem flush_leaves_buffer : (gpuFlush (doubleBuffered kmalloc info)).1.backbuffer ≠ kmalloc (pixels info * 4) := by
  have room := allocated.room
  have fits := allocated.fits
  have mode := allocated.mode
  have positive : 0 < pixels info := Nat.mul_pos (by omega) (by omega)
  rw [flush_moves kmalloc info allocated, add32]
  dsimp only
  omega

theorem target_stays_iff (font : Nat → Nat → UInt8) (active : Bool) (backbuffer size : Nat) (ops : List Op) :
    Along gpuStep (OpRight font (kmalloc (pixels info * 4)))
        (gpuSetupFramebuffer kmalloc ⟨info, active, backbuffer, size⟩).1 ops ↔ Op.flush ∉ ops := by
  rw [setup_allocates kmalloc info allocated]
  have target := double_buffered_target kmalloc info allocated
  induction ops with
  | nil => exact iff_of_true trivial List.not_mem_nil
  | cons op ops ih =>
      cases op with
      | flush =>
          refine iff_of_false (fun right => ?_) fun absent => absent List.mem_cons_self
          exact flush_leaves_buffer kmalloc info allocated right.1.2.2
      | draw call =>
          have within := draw_within font (doubleBuffered kmalloc info) _ target allocated.room rfl call
          rw [List.mem_cons, not_or]
          constructor
          · exact fun right => ⟨by simp, ih.mp (right.2 _ rfl)⟩
          · rintro ⟨_, later⟩
            refine ⟨⟨target, within⟩, fun reached moved => ?_⟩
            cases moved
            exact ih.mpr later
end

def vgaInfo : VbeBootInfo := ⟨0xE0000000, 640, 480, 32⟩

def heapBuffer (_ : Nat) : Nat := 0x200000

theorem vga_allocated : Allocated heapBuffer vgaInfo :=
  ⟨by decide, by decide, by decide, by decide, by decide⟩

theorem target_stays_vga : ¬ Along gpuStep (OpRight (fun _ _ => 0) 0x200000)
    (gpuSetupFramebuffer heapBuffer ⟨vgaInfo, false, 0, 0⟩).1 [.draw (.clear 0), .flush] := by
  have stays := target_stays_iff heapBuffer vgaInfo vga_allocated (fun _ _ => 0) false 0 0 [.draw (.clear 0), .flush]
  exact fun right => stays.mp right (by decide)

theorem target_not_stays : ¬ ∀ kmalloc info font active backbuffer size ops, Allocated kmalloc info →
    Along gpuStep (OpRight font (kmalloc (pixels info * 4)))
      (gpuSetupFramebuffer kmalloc ⟨info, active, backbuffer, size⟩).1 ops := by
  intro claimed
  have right := claimed heapBuffer vgaInfo (fun _ _ => 0) false 0 0 [.flush] vga_allocated
  rw [setup_allocates heapBuffer vgaInfo vga_allocated] at right
  exact flush_leaves_buffer heapBuffer vgaInfo vga_allocated right.1.2.2

end RoDos.Video
