import RoDos.Base.Circular

set_option autoImplicit false

namespace RoDos.Ne2000

open Base

def rxStart : Nat := 0x46

def rxStop : Nat := 0x80

def rxPages : Nat := rxStop - rxStart

-- A frame as the card stores it. How many pages it takes is the card's affair, as long as it fits them.
structure Packet where
  status : UInt8
  data : List UInt8
  pages : Nat
  sized : 0 < data.length ∧ data.length ≤ 1514
  held : 4 + data.length ≤ 2 ^ 8 * pages

structure Nic where
  memory : Memory
  curr : Nat
  boundary : Nat
  prx : Bool
  remote : Nat

def nextPage (page n : Nat) : Nat := if page + n < rxStop then page + n else page + n - rxPages

-- The pages from CURR up to the one that BOUNDARY names.
def Nic.free (nic : Nic) : Nat := (nic.boundary + rxPages - nic.curr) % rxPages

def Nic.ringEmpty (nic : Nic) : Bool := nextPage nic.boundary 1 == nic.curr

-- Status, next page and length. The length counts the header.
def Packet.header (packet : Packet) (next : Nat) : List UInt8 :=
  [packet.status, UInt8.ofNat next, UInt8.ofNat (packet.data.length + 4), UInt8.ofNat ((packet.data.length + 4) / 2 ^ 8)]

-- A frame for which there is no room is lost.
def Nic.arrive (nic : Nic) (packet : Packet) : Nic :=
  if packet.pages ≤ nic.free then
    { nic with
      memory := writeRing (2 ^ 8 * rxStart) (2 ^ 8 * rxPages) nic.memory (2 ^ 8 * nic.curr)
        (packet.header (nextPage nic.curr packet.pages) ++ packet.data)
      curr := nextPage nic.curr packet.pages
      prx := true }
  else nic

-- A word of a remote read, and the card behind it.
def Nic.inw (nic : Nic) : List UInt8 × Nic :=
  ([nic.memory nic.remote, nic.memory (nic.remote + 1)],
    { nic with remote := ringWrap (2 ^ 8 * rxStart) (2 ^ 8 * rxPages) (nic.remote + 2) })

def page (k : Nat) : Nat := rxStart + k % rxPages

def place (k : Nat) : Nat := ringAddress (2 ^ 8 * rxStart) (2 ^ 8 * rxPages) k

def pagesOf (packets : List Packet) : Nat := (packets.map Packet.pages).sum

def BytesAt (memory : Memory) (k : Nat) (bytes : List UInt8) : Prop :=
  ∀ i (within : i < bytes.length), memory (place (k + i)) = bytes[i]

def Stored (memory : Memory) : Nat → List Packet → Prop
  | _, [] => True
  | head, packet :: packets =>
      BytesAt memory (2 ^ 8 * head) (packet.header (page (head + packet.pages)) ++ packet.data) ∧
        Stored memory (head + packet.pages) packets

-- The packets stand from the page behind BOUNDARY up to CURR, and never reach the page of BOUNDARY.
structure Ring (nic : Nic) (head : Nat) (packets : List Packet) : Prop where
  boundary : nic.boundary = page (head + (rxPages - 1))
  curr : nic.curr = page (head + pagesOf packets)
  room : pagesOf packets < rxPages
  stored : Stored nic.memory head packets

theorem rx_pages : rxPages = 58 := rfl

theorem page_bounds (k : Nat) : rxStart ≤ page k ∧ page k < rxStop := by
  unfold page rxPages rxStart rxStop
  omega

theorem next_page (k n : Nat) (short : n ≤ rxPages) : nextPage (page k) n = page (k + n) := by
  unfold nextPage page rxPages rxStart rxStop at *
  split <;> omega

theorem page_round (k : Nat) : page (k + rxPages) = page k := by rw [page, page, Nat.add_mod_right]

theorem place_round (k : Nat) : place (k + 2 ^ 8 * rxPages) = place k := ring_address_round _ _ k

theorem page_place (k : Nat) : 2 ^ 8 * page k = place (2 ^ 8 * k) := by
  rw [place, ringAddress, page, Nat.mul_mod_mul_left, Nat.mul_add]

theorem pages_positive (packet : Packet) : 0 < packet.pages := by
  have held := packet.held
  omega

theorem header_length (packet : Packet) (next : Nat) : (packet.header next).length = 4 := rfl

theorem pages_of_append (packets : List Packet) (packet : Packet) :
    pagesOf (packets ++ [packet]) = pagesOf packets + packet.pages := by
  rw [pagesOf, List.map_append, List.sum_append]
  rfl

theorem place_odd (k : Nat) (even : k % 2 = 0) : place k + 1 = place (k + 1) := by
  unfold place ringAddress rxPages rxStart rxStop
  omega

theorem place_data (head : Nat) : place (2 ^ 8 * head) + 4 = place (2 ^ 8 * head + 4) := by
  unfold place ringAddress rxPages rxStart rxStop
  omega

theorem bytes_at_append (memory : Memory) (k : Nat) (front back : List UInt8) (bytes : BytesAt memory k (front ++ back)) :
    BytesAt memory k front ∧ BytesAt memory (k + front.length) back := by
  constructor
  · intro i within
    rw [bytes i (by rw [List.length_append]; omega), List.getElem_append_left within]
  · intro i within
    rw [Nat.add_assoc, bytes (front.length + i) (by rw [List.length_append]; omega),
      List.getElem_append_right (Nat.le_add_right _ _)]
    congr 1
    omega

section
variable (nic : Nic) (k n : Nat) (even : k % 2 = 0) (words : n % 2 = 0) (here : nic.remote = place (k + n))
include even words here

theorem inw_remote : nic.inw.2.remote = place (k + (n + 2)) := by
  have inside : (k + n) % (2 ^ 8 * rxPages) + 2 ≤ 2 ^ 8 * rxPages := by
    unfold rxPages rxStart rxStop
    omega
  rw [Nic.inw, here]
  exact ring_wrap_next _ _ (k + n) 2 inside

theorem inw_bytes (image : List UInt8) (bytes : BytesAt nic.memory k image) (m : Nat) (most : m ≤ image.length) (more : n < m) :
    image.take n ++ nic.inw.1.take (m - n) = image.take (min (n + 2) m) := by
  have first : nic.memory nic.remote = image[n] := by rw [here, bytes n (by omega)]
  by_cases last : m = n + 1
  · subst last
    have one : nic.inw.1.take (n + 1 - n) = [image[n]] := by
      rw [Nat.add_sub_cancel_left, ← first]
      rfl
    rw [one, Nat.min_eq_right (by omega), List.take_append_getElem]
  · have second : nic.memory (nic.remote + 1) = image[n + 1] := by
      rw [here, place_odd _ (by omega), Nat.add_assoc, bytes (n + 1) (by omega)]
    have both : nic.inw.1.take (m - n) = [image[n]] ++ [image[n + 1]] := by
      rw [← first, ← second]
      exact List.take_of_length_le (show 2 ≤ m - n by omega)
    rw [both, Nat.min_eq_left (by omega), ← List.append_assoc, List.take_append_getElem, List.take_append_getElem]
end

theorem stored_congr (memory other : Memory) (packets : List Packet) (head : Nat)
    (same : ∀ k, 2 ^ 8 * head ≤ k → k < 2 ^ 8 * (head + pagesOf packets) → other (place k) = memory (place k))
    (stored : Stored memory head packets) : Stored other head packets := by
  induction packets generalizing head with
  | nil => trivial
  | cons packet packets ih =>
      have total : pagesOf (packet :: packets) = packet.pages + pagesOf packets := List.sum_cons
      have held := packet.held
      rw [total] at same
      refine ⟨fun i within => ?_, ih _ (fun k low high => same k (by omega) (by omega)) stored.2⟩
      rw [← stored.1 i within]
      rw [List.length_append, header_length] at within
      exact same _ (by omega) (by omega)

theorem stored_append (memory : Memory) (packets : List Packet) (packet : Packet) (head : Nat)
    (stored : Stored memory head packets)
    (last : BytesAt memory (2 ^ 8 * (head + pagesOf packets))
      (packet.header (page (head + pagesOf packets + packet.pages)) ++ packet.data)) :
    Stored memory head (packets ++ [packet]) := by
  induction packets generalizing head with
  | nil => exact ⟨last, trivial⟩
  | cons first packets ih =>
      have total : pagesOf (first :: packets) = first.pages + pagesOf packets := List.sum_cons
      rw [total, ← Nat.add_assoc] at last
      exact ⟨stored.1, ih _ stored.2 last⟩

section
variable (nic : Nic) (head : Nat) (packets : List Packet) (ring : Ring nic head packets)
include ring

theorem ring_boundary : 0x46 ≤ nic.boundary ∧ nic.boundary ≤ 0x7F := by
  have bounds := page_bounds (head + (rxPages - 1))
  rw [← ring.boundary, rxStart, rxStop] at bounds
  omega

theorem ring_first : nextPage nic.boundary 1 = page head := by
  rw [ring.boundary, next_page _ 1 (by decide), Nat.add_assoc, rx_pages]
  exact page_round head

theorem ring_empty_iff : nic.ringEmpty = true ↔ packets = [] := by
  rw [Nic.ringEmpty, beq_iff_eq, ring_first nic head packets ring, ring.curr]
  have room := ring.room
  cases packets with
  | nil => exact iff_of_true rfl rfl
  | cons packet rest =>
      have positive := pages_positive packet
      have total : pagesOf (packet :: rest) = packet.pages + pagesOf rest := List.sum_cons
      refine iff_of_false (fun same => ?_) (List.cons_ne_nil packet rest)
      unfold page rxPages rxStart rxStop at *
      omega

theorem ring_free : nic.free = rxPages - 1 - pagesOf packets := by
  have room := ring.room
  rw [Nic.free, ring.boundary, ring.curr]
  unfold page rxPages rxStart rxStop at *
  omega

theorem arrive_ring (packet : Packet) (fits : packet.pages ≤ nic.free) :
    Ring (nic.arrive packet) head (packets ++ [packet]) := by
  have room := ring.room
  have held := packet.held
  rw [ring_free nic head packets ring, rx_pages] at fits
  rw [rx_pages] at room
  have next : nextPage nic.curr packet.pages = page (head + pagesOf packets + packet.pages) := by
    rw [ring.curr, next_page _ _ (by rw [rx_pages]; omega)]
  have image : (packet.header (page (head + pagesOf packets + packet.pages)) ++ packet.data).length = 4 + packet.data.length := by
    rw [List.length_append, header_length]
  have size : 2 ^ 8 * rxPages = 14848 := rfl
  have written : (nic.arrive packet).memory = writeRing (2 ^ 8 * rxStart) (2 ^ 8 * rxPages) nic.memory
      (place (2 ^ 8 * (head + pagesOf packets))) (packet.header (page (head + pagesOf packets + packet.pages)) ++ packet.data) := by
    rw [Nic.arrive, if_pos (by rw [ring_free nic head packets ring, rx_pages]; exact fits)]
    dsimp only
    rw [next, ring.curr, page_place]
  have moved : (nic.arrive packet).curr = page (head + pagesOf packets + packet.pages) ∧ (nic.arrive packet).boundary = nic.boundary := by
    rw [Nic.arrive, if_pos (by rw [ring_free nic head packets ring, rx_pages]; exact fits)]
    exact ⟨next, rfl⟩
  constructor
  · rw [moved.2, ring.boundary]
  · rw [moved.1, pages_of_append, Nat.add_assoc]
  · rw [pages_of_append, rx_pages]
    omega
  · rw [written]
    refine stored_append _ _ _ _ (stored_congr nic.memory _ packets head (fun k low high => ?_) ring.stored) (fun i within => ?_)
    · rw [← place_round k]
      exact write_ring_outside _ _ _ _ _ _ (by rw [image, size]; omega) (by rw [size]; omega)
    · exact write_ring_inside _ _ _ _ _ _ (by rw [image, size]; omega) within

theorem consume_ring (packet : Packet) (rest : List Packet) (first : packets = packet :: rest) :
    Ring { nic with boundary := page (head + packet.pages + (rxPages - 1)) } (head + packet.pages) rest := by
  subst first
  have total : pagesOf (packet :: rest) = packet.pages + pagesOf rest := List.sum_cons
  refine ⟨rfl, ring.curr.trans ?_, Nat.lt_of_le_of_lt ?_ ring.room, ring.stored.2⟩
  · rw [total, Nat.add_assoc]
  · rw [total]
    exact Nat.le_add_left _ _
end

end RoDos.Ne2000
