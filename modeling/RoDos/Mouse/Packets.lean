import RoDos.Base.Memory

set_option autoImplicit false

namespace RoDos.Mouse

open Base

structure MouseState where
  x : Int
  y : Int
  left : Bool
  right : Bool
  initialized : Bool
  limitW : Int
  limitH : Int
  packet0 : UInt8
  packet1 : UInt8
  packet2 : UInt8
  packetIdx : Nat
deriving DecidableEq

def staticMouse : MouseState := ⟨160, 100, false, false, false, 320, 200, 0, 0, 0, 0⟩

def signedByte (byte : UInt8) : Int := if byte.toNat < 128 then (byte.toNat : Int) else (byte.toNat : Int) - 256

def belowZero (value : Int) : Int := if value < 0 then 0 else value

def atLimit (value limit : Int) : Int := if limit ≤ value then limit - 1 else value

-- The bytes that the commands of the initialisation read do not matter to the position.
def mouseInit (mouse : MouseState) (gpuWidth gpuHeight : Int) : MouseState :=
  if mouse.initialized then mouse
  else
    let w := if gpuWidth ≤ 0 then 320 else gpuWidth
    let h := if gpuHeight ≤ 0 then 200 else gpuHeight
    { mouse with initialized := true, limitW := w, limitH := h, x := w / 2, y := h / 2 }

def packetDone (mouse : MouseState) : MouseState :=
  let status := mouse.packet0
  let dx := if status &&& 0x40 ≠ 0 then 0 else signedByte mouse.packet1
  let dy := if status &&& 0x80 ≠ 0 then 0 else signedByte mouse.packet2
  { mouse with
    left := status &&& 0x01 ≠ 0
    right := status &&& 0x02 ≠ 0
    x := atLimit (belowZero (wrapInt (mouse.x + dx))) mouse.limitW
    y := atLimit (belowZero (wrapInt (mouse.y - dy))) mouse.limitH }

def pollByte (mouse : MouseState) (b : UInt8) : MouseState :=
  if mouse.packetIdx = 0 then
    if b &&& 0x08 = 0x08 then { mouse with packet0 := b, packetIdx := 1 } else mouse
  else if mouse.packetIdx = 1 then { mouse with packet1 := b, packetIdx := 2 }
  else packetDone { mouse with packet2 := b, packetIdx := 0 }

-- The bytes that c_mouse_read gives before it returns -1.
def mousePoll (mouse : MouseState) (bytes : List UInt8) : MouseState := if mouse.initialized then bytes.foldl pollByte mouse else mouse

def mouseSetBounds (mouse : MouseState) (width height : Int) : MouseState :=
  { mouse with
    limitW := width
    limitH := height
    x := if width ≤ mouse.x then width - 1 else mouse.x
    y := if height ≤ mouse.y then height - 1 else mouse.y }

structure Bounds where
  w : Int
  h : Int
  width : 1 ≤ w ∧ w < 2 ^ 31
  height : 1 ≤ h ∧ h < 2 ^ 31

inductive Op where
  | init (gpuWidth gpuHeight : Int)
  | setBounds (bounds : Bounds)
  | poll (bytes : List UInt8)

def mouseStep (mouse : MouseState) : Op → MouseState
  | .init gpuWidth gpuHeight => mouseInit mouse gpuWidth gpuHeight
  | .setBounds bounds => mouseSetBounds mouse bounds.w bounds.h
  | .poll bytes => mousePoll mouse bytes

def mouseAfter (ops : List Op) : MouseState := ops.foldl mouseStep staticMouse

structure Inside (mouse : MouseState) : Prop where
  x : 0 ≤ mouse.x ∧ mouse.x < mouse.limitW
  y : 0 ≤ mouse.y ∧ mouse.y < mouse.limitH

theorem limited_inside (value limit : Int) (positive : 1 ≤ limit) :
    0 ≤ atLimit (belowZero value) limit ∧ atLimit (belowZero value) limit < limit := by
  rw [atLimit, belowZero]
  omega

theorem poll_byte_inside (mouse : MouseState) (b : UInt8) (inside : Inside mouse) : Inside (pollByte mouse b) := by
  have width : 1 ≤ mouse.limitW := by have x := inside.x; omega
  have height : 1 ≤ mouse.limitH := by have y := inside.y; omega
  rw [pollByte]
  by_cases status : mouse.packetIdx = 0
  · rw [if_pos status]
    by_cases tagged : b &&& 0x08 = 0x08
    · rw [if_pos tagged]
      exact ⟨inside.x, inside.y⟩
    · rw [if_neg tagged]
      exact inside
  · rw [if_neg status]
    by_cases second : mouse.packetIdx = 1
    · rw [if_pos second]
      exact ⟨inside.x, inside.y⟩
    · rw [if_neg second]
      exact ⟨limited_inside _ _ width, limited_inside _ _ height⟩

theorem poll_bytes_inside (mouse : MouseState) (bytes : List UInt8) (inside : Inside mouse) :
    Inside (bytes.foldl pollByte mouse) := by
  induction bytes generalizing mouse with
  | nil => exact inside
  | cons b bytes ih => exact ih (pollByte mouse b) (poll_byte_inside mouse b inside)

theorem step_inside (mouse : MouseState) (op : Op) (inside : Inside mouse) : Inside (mouseStep mouse op) := by
  obtain ⟨⟨low, high⟩, top, bottom⟩ := inside
  cases op with
  | init gpuWidth gpuHeight =>
      rw [mouseStep, mouseInit]
      by_cases again : mouse.initialized = true
      · rw [if_pos again]
        exact ⟨⟨low, high⟩, top, bottom⟩
      · rw [if_neg again]
        refine ⟨?_, ?_⟩
        · dsimp only
          omega
        · dsimp only
          omega
  | setBounds bounds =>
      have width := bounds.width
      have height := bounds.height
      rw [mouseStep, mouseSetBounds]
      refine ⟨?_, ?_⟩
      · dsimp only
        omega
      · dsimp only
        omega
  | poll bytes =>
      rw [mouseStep, mousePoll]
      by_cases on : mouse.initialized = true
      · rw [if_pos on]
        exact poll_bytes_inside mouse bytes ⟨⟨low, high⟩, top, bottom⟩
      · rw [if_neg on]
        exact ⟨⟨low, high⟩, top, bottom⟩

theorem always_inside (ops : List Op) : Inside (mouseAfter ops) := by
  have kept (mouse : MouseState) (inside : Inside mouse) : Inside (ops.foldl mouseStep mouse) := by
    induction ops generalizing mouse with
    | nil => exact inside
    | cons op ops ih => exact ih (mouseStep mouse op) (step_inside mouse op inside)
  exact kept staticMouse (by refine ⟨?_, ?_⟩ <;> decide)

-- What a packet says: bit 3 of its first byte is set, bits 4 and 5 are the signs of the movements, bits 6 and 7 say that
-- an axis has overflowed.
structure Packet where
  status : UInt8
  dx : UInt8
  dy : UInt8
  tagged : status &&& 0x08 = 0x08

def Packet.bytes (packet : Packet) : List UInt8 := [packet.status, packet.dx, packet.dy]

def nineBit (sign : Bool) (byte : UInt8) : Int := if sign then (byte.toNat : Int) - 256 else byte.toNat

def signX (status : UInt8) : Bool := status &&& 0x10 != 0
def signY (status : UInt8) : Bool := status &&& 0x20 != 0
def overflowX (status : UInt8) : Bool := status &&& 0x40 != 0
def overflowY (status : UInt8) : Bool := status &&& 0x80 != 0

def Packet.moveX (packet : Packet) : Int := if overflowX packet.status then 0 else nineBit (signX packet.status) packet.dx
def Packet.moveY (packet : Packet) : Int := if overflowY packet.status then 0 else nineBit (signY packet.status) packet.dy

def clamp (value limit : Int) : Int := max 0 (min value (limit - 1))

-- Downwards on the screen is negative in the packet.
def moved (bounds : Bounds) (position : Int × Int) (packet : Packet) : Int × Int :=
  (clamp (position.1 + packet.moveX) bounds.w, clamp (position.2 - packet.moveY) bounds.h)

def position (mouse : MouseState) : Int × Int := (mouse.x, mouse.y)

-- However the bytes are spread over the calls of mouse_poll.
def Follows (bounds : Bounds) (mouse : MouseState) (packets : List Packet) : Prop :=
  ∀ polls : List (List UInt8), polls.flatten = packets.flatMap Packet.bytes →
    position (polls.foldl mousePoll mouse) = packets.foldl (moved bounds) (position mouse)

-- One axis: the code takes bit 7 of the movement for its sign. That goes unseen where there is nowhere to move, or where
-- the packet says -256, the code 0 and the position is already at the edge.
def AxisSound (overflow sign : Bool) (byte : UInt8) (next edge limit : Int) (value : Int) : Prop :=
  overflow = false → next < 2 ^ 31 ∧
    ((sign = true ↔ 128 ≤ byte.toNat) ∨ limit = 1 ∨ sign = true ∧ byte.toNat = 0 ∧ value = edge)

def PacketSound (bounds : Bounds) (position : Int × Int) (packet : Packet) : Prop :=
  AxisSound (overflowX packet.status) (signX packet.status) packet.dx (position.1 + signedByte packet.dx) 0 bounds.w
      position.1 ∧
    AxisSound (overflowY packet.status) (signY packet.status) packet.dy (position.2 - signedByte packet.dy) (bounds.h - 1)
      bounds.h position.2

def PacketsSound (bounds : Bounds) : Int × Int → List Packet → Prop
  | _, [] => True
  | position, packet :: packets =>
      PacketSound bounds position packet ∧ PacketsSound bounds (moved bounds position packet) packets

theorem still_clamped (value limit : Int) (low : 0 ≤ value) (high : value < limit) (word : limit < 2 ^ 31) :
    atLimit (belowZero (wrapInt value)) limit = clamp value limit := by
  rw [atLimit, belowZero, wrapInt, clamp]
  omega

theorem right_move_iff (sign : Bool) (byte : UInt8) (value limit : Int) (low : 0 ≤ value) (high : value < limit)
    (word : limit < 2 ^ 31) :
    atLimit (belowZero (wrapInt (value + signedByte byte))) limit = clamp (value + nineBit sign byte) limit ↔
      value + signedByte byte < 2 ^ 31 ∧
        ((sign = true ↔ 128 ≤ byte.toNat) ∨ limit = 1 ∨ sign = true ∧ byte.toNat = 0 ∧ value = 0) := by
  have small := byte.toNat_lt
  rw [atLimit, belowZero, wrapInt, clamp, nineBit, signedByte]
  cases sign with
  | true =>
      simp only [if_true, true_iff, true_and]
      split <;> omega
  | false =>
      simp only [Bool.false_eq_true, if_false, false_iff, false_and, or_false]
      split <;> omega

theorem down_move_iff (sign : Bool) (byte : UInt8) (value limit : Int) (low : 0 ≤ value) (high : value < limit)
    (word : limit < 2 ^ 31) :
    atLimit (belowZero (wrapInt (value - signedByte byte))) limit = clamp (value - nineBit sign byte) limit ↔
      value - signedByte byte < 2 ^ 31 ∧
        ((sign = true ↔ 128 ≤ byte.toNat) ∨ limit = 1 ∨ sign = true ∧ byte.toNat = 0 ∧ value = limit - 1) := by
  have small := byte.toNat_lt
  rw [atLimit, belowZero, wrapInt, clamp, nineBit, signedByte]
  cases sign with
  | true =>
      simp only [if_true, true_iff, true_and]
      split <;> omega
  | false =>
      simp only [Bool.false_eq_true, if_false, false_iff, false_and, or_false]
      split <;> omega

theorem poll_byte_initialized (mouse : MouseState) (b : UInt8) : (pollByte mouse b).initialized = mouse.initialized := by
  rw [pollByte]
  by_cases first : mouse.packetIdx = 0
  · rw [if_pos first]
    by_cases tagged : b &&& 0x08 = 0x08
    · rw [if_pos tagged]
    · rw [if_neg tagged]
  · rw [if_neg first]
    by_cases second : mouse.packetIdx = 1
    · rw [if_pos second]
    · rw [if_neg second]
      rfl

theorem polls_flatten (mouse : MouseState) (polls : List (List UInt8)) (on : mouse.initialized = true) :
    polls.foldl mousePoll mouse = polls.flatten.foldl pollByte mouse := by
  have kept (bytes : List UInt8) (mouse : MouseState) :
      (bytes.foldl pollByte mouse).initialized = mouse.initialized := by
    induction bytes generalizing mouse with
    | nil => rfl
    | cons b bytes ih => exact (ih (pollByte mouse b)).trans (poll_byte_initialized mouse b)
  induction polls generalizing mouse with
  | nil => rfl
  | cons bytes polls ih =>
      rw [List.foldl_cons, List.flatten_cons, List.foldl_append, mousePoll, if_pos on]
      exact ih _ ((kept bytes mouse).trans on)

theorem packet_polled (mouse : MouseState) (packet : Packet) (between : mouse.packetIdx = 0) :
    packet.bytes.foldl pollByte mouse = packetDone { mouse with
      packet0 := packet.status, packet1 := packet.dx, packet2 := packet.dy, packetIdx := 0 } := by
  simp [Packet.bytes, pollByte, between, packet.tagged]

structure Between (bounds : Bounds) (mouse : MouseState) : Prop where
  idx : mouse.packetIdx = 0
  limitW : mouse.limitW = bounds.w
  limitH : mouse.limitH = bounds.h
  inside : Inside mouse

theorem packet_moves_iff (bounds : Bounds) (mouse : MouseState) (packet : Packet) (between : Between bounds mouse) :
    position (packet.bytes.foldl pollByte mouse) = moved bounds (position mouse) packet ↔
      PacketSound bounds (position mouse) packet := by
  obtain ⟨low, high⟩ := between.inside.x
  obtain ⟨top, bottom⟩ := between.inside.y
  have width := bounds.width.2
  have height := bounds.height.2
  rw [between.limitW] at high
  rw [between.limitH] at bottom
  rw [packet_polled mouse packet between.idx, packetDone, position, moved, Prod.mk.injEq, PacketSound, position]
  dsimp only
  rw [between.limitW, between.limitH, Packet.moveX, Packet.moveY, AxisSound, AxisSound]
  refine and_congr ?_ ?_
  · cases overflow : overflowX packet.status with
    | true =>
        rw [if_pos (by simpa [overflowX] using overflow), if_pos rfl, Int.add_zero]
        exact iff_of_true (still_clamped _ _ low high width) fun fits => by cases fits
    | false =>
        rw [if_neg (by simpa [overflowX] using overflow), if_neg Bool.false_ne_true, right_move_iff _ _ _ _ low high width]
        exact (imp_iff_right rfl).symm
  · cases overflow : overflowY packet.status with
    | true =>
        rw [if_pos (by simpa [overflowY] using overflow), if_pos rfl, Int.sub_zero]
        exact iff_of_true (still_clamped _ _ top bottom height) fun fits => by cases fits
    | false =>
        rw [if_neg (by simpa [overflowY] using overflow), if_neg Bool.false_ne_true, down_move_iff _ _ _ _ top bottom height]
        exact (imp_iff_right rfl).symm

theorem between_kept (bounds : Bounds) (mouse : MouseState) (packet : Packet) (between : Between bounds mouse) :
    Between bounds (packet.bytes.foldl pollByte mouse) := by
  have inside := poll_bytes_inside mouse packet.bytes between.inside
  rw [packet_polled mouse packet between.idx] at inside ⊢
  exact ⟨rfl, between.limitW, between.limitH, inside⟩

theorem packets_follow_iff (bounds : Bounds) (mouse : MouseState) (packets : List Packet) (between : Between bounds mouse)
    (on : mouse.initialized = true) :
    (∀ k, Follows bounds mouse (packets.take k)) ↔ PacketsSound bounds (position mouse) packets := by
  have whole (packets : List Packet) : Follows bounds mouse packets ↔
      position ((packets.flatMap Packet.bytes).foldl pollByte mouse) = packets.foldl (moved bounds) (position mouse) := by
    constructor
    · intro follows
      have once := follows [packets.flatMap Packet.bytes] (List.append_nil _)
      rw [polls_flatten mouse _ on] at once
      rwa [List.flatten_cons, List.flatten_nil, List.append_nil] at once
    · intro follows polls spread
      rw [polls_flatten mouse polls on, spread, follows]
  simp only [whole]
  clear whole on
  induction packets generalizing mouse with
  | nil => exact iff_of_true (fun k => by rw [List.take_nil]; rfl) trivial
  | cons packet packets ih =>
      have further := ih (packet.bytes.foldl pollByte mouse) (between_kept bounds mouse packet between)
      have first := packet_moves_iff bounds mouse packet between
      constructor
      · intro follows
        have here : position (packet.bytes.foldl pollByte mouse) = moved bounds (position mouse) packet := by
          have one := follows 1
          rw [List.take_succ_cons, List.take_zero, List.flatMap_cons, List.flatMap_nil, List.append_nil] at one
          exact one
        refine ⟨first.mp here, ?_⟩
        rw [← here]
        refine further.mp fun k => ?_
        have next := follows (k + 1)
        rw [List.take_succ_cons, List.flatMap_cons, List.foldl_append, List.foldl_cons, ← here] at next
        exact next
      · rintro ⟨sound, sounds⟩ k
        have here := first.mpr sound
        cases k with
        | zero => rfl
        | succ k =>
            rw [← here] at sounds
            rw [List.take_succ_cons, List.flatMap_cons, List.foldl_append, List.foldl_cons, ← here]
            exact further.mpr sounds k

theorem bounds_between (mouse : MouseState) (bounds : Bounds) (inside : Inside mouse) (idx : mouse.packetIdx = 0) :
    Between bounds (mouseSetBounds mouse bounds.w bounds.h) :=
  ⟨idx, rfl, rfl, step_inside mouse (.setBounds bounds) inside⟩

theorem mouse_follows_iff (ops : List Op) (bounds : Bounds) (packets : List Packet)
    (on : (mouseAfter ops).initialized = true) (idx : (mouseAfter ops).packetIdx = 0) :
    let mouse := mouseSetBounds (mouseAfter ops) bounds.w bounds.h
    ((∀ k, Follows bounds mouse (packets.take k)) ↔ PacketsSound bounds (position mouse) packets) ∧
      ∀ ops, Inside (mouseAfter ops) :=
  ⟨packets_follow_iff bounds _ packets (bounds_between _ bounds (always_inside ops) idx) on, always_inside⟩

def vgaBounds : Bounds := ⟨320, 200, by decide, by decide⟩

def smallPacket : Packet := ⟨0x08, 5, 3, by decide⟩

theorem mouse_follows_small : Follows vgaBounds (mouseSetBounds (mouseAfter [.init 0 0]) 320 200) [smallPacket] ∧
    Inside (mouseAfter [.init 0 0]) := by
  have follows := mouse_follows_iff [.init 0 0] vgaBounds [smallPacket] rfl rfl
  refine ⟨follows.1.mpr ⟨⟨fun _ => ?_, fun _ => ?_⟩, trivial⟩ 1, follows.2 _⟩
  · exact ⟨by decide, Or.inl (by decide)⟩
  · exact ⟨by decide, Or.inl (by decide)⟩

def widePacket : Packet := ⟨0x08, 200, 0, by decide⟩

theorem mouse_not_follows : ¬ ∀ ops bounds packets, (mouseAfter ops).initialized = true → (mouseAfter ops).packetIdx = 0 →
    Follows bounds (mouseSetBounds (mouseAfter ops) bounds.w bounds.h) packets ∧ Inside (mouseAfter ops) := by
  intro claimed
  have follows := (claimed [.init 0 0] vgaBounds [widePacket] rfl rfl).1 [widePacket.bytes] rfl
  exact absurd follows (by decide)

end RoDos.Mouse
