import RoDos.Base.Runs
import RoDos.Ne2000.Ring
import Mathlib.Data.List.Forall2

set_option autoImplicit false

namespace RoDos.Ne2000

open Base

-- How far a call of ne2000_recv has come, and what it has read.
inductive Call where
  | idle
  | received (maxLen : Nat)
  | acknowledged (maxLen : Nat)
  | paged (maxLen curr : Nat)
  | header (maxLen curr boundary : Nat) (header : List UInt8)
  | data (maxLen next len : Nat) (buffer : List UInt8)

-- ringEmpty tells of the ring at the call's last access.
structure Answer where
  maxLen : Nat
  code : Int
  data : List UInt8
  ringEmpty : Bool

structure Station where
  nic : Nic
  call : Call
  answers : List Answer
  stored : List Packet

def Station.answer (station : Station) (nic : Nic) (maxLen : Nat) (code : Int) (data : List UInt8) : Station :=
  { station with nic := nic, call := .idle, answers := station.answers ++ [⟨maxLen, code, data, station.nic.ringEmpty⟩] }

-- The next access of a call to the card; with no call under way, the first of a new one.
def ne2000Recv (maxLen : Nat) (station : Station) : Station :=
  match station.call with
  | .idle =>
      if station.nic.prx then { station with call := .received maxLen } else station.answer station.nic maxLen 0 []
  | .received maxLen => { station with nic := { station.nic with prx := false }, call := .acknowledged maxLen }
  | .acknowledged maxLen => { station with call := .paged maxLen station.nic.curr }
  | .paged maxLen curr =>
      let boundary := (station.nic.boundary + 1) % 2 ^ 8
      let boundary := if rxStop ≤ boundary then rxStart else boundary
      if boundary = curr then station.answer station.nic maxLen 0 []
      else { station with nic := { station.nic with remote := 2 ^ 8 * boundary }, call := .header maxLen curr boundary [] }
  | .header maxLen curr boundary [_, next, low, high] =>
      let len := low.toNat + 2 ^ 8 * high.toNat
      if len < 4 ∨ 1518 < len then
        station.answer { station.nic with boundary := if rxStart < curr then curr - 1 else rxStop - 1 } maxLen (-1) []
      else
        let len := len - 4
        let len := if maxLen < len then maxLen else len
        { station with nic := { station.nic with remote := 2 ^ 8 * boundary + 4 }, call := .data maxLen next.toNat len [] }
  | .header maxLen curr boundary header =>
      { station with nic := station.nic.inw.2, call := .header maxLen curr boundary (header ++ station.nic.inw.1) }
  | .data maxLen next len buffer =>
      -- The last word gives one byte only when len is odd.
      if buffer.length < len then
        { station with
          nic := station.nic.inw.2
          call := .data maxLen next len (buffer ++ station.nic.inw.1.take (len - buffer.length)) }
      else
        station.answer { station.nic with boundary := if rxStart < next then next - 1 else rxStop - 1 } maxLen len buffer

inductive Event where
  | arrive (packet : Packet)
  | recv (maxLen : Nat)

def step (station : Station) : Event → Option Station
  | .arrive packet =>
      some { station with
        nic := station.nic.arrive packet
        stored := if packet.pages ≤ station.nic.free then station.stored ++ [packet] else station.stored }
  | .recv maxLen => some (ne2000Recv maxLen station)

-- The card and the driver behind ne2000_init.
def ne2000Init (memory : Memory) : Station := ⟨⟨memory, rxStart + 1, rxStart, false, 0⟩, .idle, [], []⟩

def Station.returned (station : Station) : List Answer := station.answers.filter fun answer => answer.code ≠ 0

-- A caller with less room than the packet gets its front.
def Returned (answer : Answer) (packet : Packet) : Prop :=
  answer.data = packet.data.take answer.maxLen ∧ answer.code = answer.data.length

structure Right (station : Station) : Prop where
  boundary : 0x46 ≤ station.nic.boundary ∧ station.nic.boundary ≤ 0x7F
  empty : ∀ answer ∈ station.answers, answer.code = 0 → answer.ringEmpty = true
  order : List.Forall₂ Returned station.returned (station.stored.take station.returned.length)
  -- Enough further accesses of calls with room return every packet, if no more arrive.
  drained : ∃ enough, ∀ maxLens : List Nat, (∀ maxLen ∈ maxLens, 0 < maxLen) → enough ≤ maxLens.length →
    List.Forall₂ Returned (maxLens.foldl (fun reached maxLen => ne2000Recv maxLen reached) station).returned
      (maxLens.foldl (fun reached maxLen => ne2000Recv maxLen reached) station).stored

-- A packet is stored while PRX is clear, and a call that finds PRX set has room.
def Meets (station : Station) : Event → Prop
  | .arrive packet => packet.pages ≤ station.nic.free → station.nic.prx = false
  | .recv maxLen => station.call = .idle → station.nic.prx = true → 0 < maxLen

def Call.owed : Call → Nat
  | .idle => 0
  | .received _ => 0
  | _ => 1

def Call.maxLen : Call → Option Nat
  | .idle => none
  | .received maxLen => some maxLen
  | .acknowledged maxLen => some maxLen
  | .paged maxLen _ => some maxLen
  | .header maxLen _ _ _ => some maxLen
  | .data maxLen _ _ _ => some maxLen

def Call.rank : Call → Nat
  | .idle => 0
  | .received _ => 1
  | .acknowledged _ => 2
  | .paged _ _ => 3
  | .header _ _ _ bytes => 4 + bytes.length
  | .data _ _ _ buffer => 9 + buffer.length

def CallSound (nic : Nic) (head : Nat) (packets : List Packet) : Call → Prop
  | .idle => True
  | .received _ => nic.prx = true
  | .acknowledged _ => True
  | .paged _ curr => curr ≠ page head
  | .header _ _ boundary header => boundary = page head ∧ header.length ≤ 4 ∧ header.length % 2 = 0 ∧
      ∃ packet rest, packets = packet :: rest ∧
        header = (packet.header (page (head + packet.pages))).take header.length ∧
        nic.remote = place (2 ^ 8 * head + header.length)
  | .data maxLen next len buffer => ∃ packet rest, packets = packet :: rest ∧ next = page (head + packet.pages) ∧
      len = min maxLen packet.data.length ∧ buffer.length ≤ len ∧ buffer = packet.data.take buffer.length ∧
      (buffer.length < len → buffer.length % 2 = 0 ∧ nic.remote = place (2 ^ 8 * head + 4 + buffer.length))

-- Every packet stored so far is gone or in the ring. PRX and the call account for one packet of it each; the excess is
-- in the ring unannounced.
structure Kept (station : Station) (head : Nat) (gone packets : List Packet) (excess : Nat) : Prop where
  ring : Ring station.nic head packets
  stored : station.stored = gone ++ packets
  account : packets.length = station.nic.prx.toNat + station.call.owed + excess
  call : CallSound station.nic head packets station.call
  fewer : station.returned.length ≤ gone.length

structure Sound (station : Station) (gone : List Packet) : Prop where
  returned : List.Forall₂ Returned station.returned gone
  empty : ∀ answer ∈ station.answers, answer.code = 0 → answer.ringEmpty = true
  room : station.call.maxLen ≠ some 0

def Lost (station : Station) (gone : List Packet) (excess : Nat) : Prop :=
  0 < excess ∨ station.returned.length < gone.length ∨ station.call.maxLen = some 0

-- What an access does: the call ends at once, or goes on, or takes the first packet.
inductive Accessed (station : Station) (maxLen head : Nat) (gone packets : List Packet) (excess : Nat) :
    Station → Nat → List Packet → List Packet → Prop where
  | waits (idle : station.call = .idle) (clear : station.nic.prx = false) :
      Accessed station maxLen head gone packets excess (station.answer station.nic maxLen 0 []) head gone packets
  | goes (nic : Nic) (call : Call) (kept : Kept { station with nic := nic, call := call } head gone packets excess)
      (later : station.call.rank < call.rank) (same : call.maxLen = some (station.call.maxLen.getD maxLen))
      (asked : station.call = .idle → station.nic.prx = true) :
      Accessed station maxLen head gone packets excess { station with nic := nic, call := call } head gone packets
  | takes (given : Nat) (packet : Packet) (rest : List Packet) (first : packets = packet :: rest)
      (asked : station.call.maxLen = some given) (owes : station.call.owed = 1) :
      Accessed station maxLen head gone packets excess
        (station.answer { station.nic with boundary := page (head + packet.pages + (rxPages - 1)) } given
          ((min given packet.data.length : Nat) : Int) (packet.data.take given))
        (head + packet.pages) (gone ++ [packet]) rest

section
variable (station : Station) (maxLen head : Nat) (gone packets : List Packet) (excess : Nat)
  (kept : Kept station head gone packets excess)
include kept

theorem kept_goes (nic : Nic) (call : Call) (memory : nic.memory = station.nic.memory) (curr : nic.curr = station.nic.curr)
    (boundary : nic.boundary = station.nic.boundary)
    (account : nic.prx.toNat + call.owed = station.nic.prx.toNat + station.call.owed) (sound : CallSound nic head packets call) :
    Kept { station with nic := nic, call := call } head gone packets excess := by
  have ring := kept.ring
  refine ⟨⟨boundary.trans ring.boundary, curr.trans ring.curr, ring.room, memory ▸ ring.stored⟩, kept.stored, ?_, sound, kept.fewer⟩
  rw [account]
  exact kept.account

omit kept in
theorem access_goes (known : Call) (given : Nat) (now : station.call = known) (asked : known.maxLen = some given) (nic : Nic) (call : Call)
    (going : Kept { station with nic := nic, call := call } head gone packets excess) (later : known.rank < call.rank)
    (same : call.maxLen = some given) :
    Accessed station maxLen head gone packets excess { station with nic := nic, call := call } head gone packets := by
  subst now
  refine .goes nic call going later ?_ fun idle => ?_
  · rw [asked]
    exact same
  · rw [idle] at asked
    exact absurd asked.symm (Option.some_ne_none given)

theorem kept_packet (owes : station.call.owed = 1) : ∃ packet rest, packets = packet :: rest := by
  have account := kept.account
  cases packets with
  | nil => rw [owes, List.length_nil] at account; omega
  | cons packet rest => exact ⟨packet, rest, rfl⟩

theorem recv_idle (idle : station.call = .idle) :
    Accessed station maxLen head gone packets excess (ne2000Recv maxLen station) head gone packets := by
  cases prx : station.nic.prx with
  | false =>
      rw [ne2000Recv, idle]
      dsimp only
      rw [prx, if_neg Bool.false_ne_true]
      exact .waits idle prx
  | true =>
      have going := kept_goes station head gone packets excess kept station.nic (.received maxLen) rfl rfl rfl
        (by rw [idle]; rfl) prx
      rw [ne2000Recv, idle]
      dsimp only
      rw [prx, if_pos rfl]
      refine .goes _ _ going ?_ ?_ fun _ => prx
      · rw [idle]
        exact Nat.one_pos
      · rw [idle]
        rfl

theorem recv_received (given : Nat) (call : station.call = .received given) :
    Accessed station maxLen head gone packets excess (ne2000Recv maxLen station) head gone packets := by
  have prx : station.nic.prx = true := by
    have sound := kept.call
    rw [call] at sound
    exact sound
  have going := kept_goes station head gone packets excess kept { station.nic with prx := false } (.acknowledged given)
    rfl rfl rfl (by rw [call, prx]; rfl) trivial
  rw [ne2000Recv, call]
  exact access_goes station maxLen head gone packets excess _ given call rfl _ _ going Nat.one_lt_two rfl

theorem recv_acknowledged (given : Nat) (call : station.call = .acknowledged given) :
    Accessed station maxLen head gone packets excess (ne2000Recv maxLen station) head gone packets := by
  obtain ⟨packet, rest, first⟩ := kept_packet station head gone packets excess kept (by rw [call]; rfl)
  have apart : station.nic.curr ≠ page head := by
    intro same
    have empty := (ring_empty_iff station.nic head packets kept.ring).mp (by
      rw [Nic.ringEmpty, ring_first station.nic head packets kept.ring, same, beq_self_eq_true])
    exact List.cons_ne_nil packet rest (first.symm.trans empty)
  have going := kept_goes station head gone packets excess kept station.nic (.paged given station.nic.curr)
    rfl rfl rfl (by rw [call]; rfl) apart
  rw [ne2000Recv, call]
  exact access_goes station maxLen head gone packets excess _ given call rfl _ _ going (Nat.lt_succ_self 2) rfl

theorem recv_paged (given curr : Nat) (call : station.call = .paged given curr) :
    Accessed station maxLen head gone packets excess (ne2000Recv maxLen station) head gone packets := by
  obtain ⟨packet, rest, first⟩ := kept_packet station head gone packets excess kept (by rw [call]; rfl)
  have apart : curr ≠ page head := by
    have sound := kept.call
    rw [call] at sound
    exact sound
  have behind : (if rxStop ≤ (station.nic.boundary + 1) % 2 ^ 8 then rxStart else (station.nic.boundary + 1) % 2 ^ 8) = page head := by
    have bounds := ring_boundary station.nic head packets kept.ring
    rw [← ring_first station.nic head packets kept.ring, nextPage, rxPages, rxStart, rxStop]
    split <;> split <;> omega
  have going := kept_goes station head gone packets excess kept { station.nic with remote := 2 ^ 8 * page head }
    (.header given curr (page head) []) rfl rfl rfl (by rw [call]; rfl)
    ⟨rfl, Nat.zero_le 4, rfl, packet, rest, first, rfl, page_place head⟩
  rw [ne2000Recv, call]
  dsimp only
  rw [behind, if_neg apart.symm]
  exact access_goes station maxLen head gone packets excess _ given call rfl _ _ going (Nat.lt_succ_self 3) rfl

theorem stored_first (packet : Packet) (rest : List Packet) (first : packets = packet :: rest) :
    BytesAt station.nic.memory (2 ^ 8 * head) (packet.header (page (head + packet.pages))) ∧
      BytesAt station.nic.memory (2 ^ 8 * head + 4) packet.data := by
  have stored := kept.ring.stored
  rw [first] at stored
  exact bytes_at_append _ _ _ _ stored.1

omit kept in
theorem recv_header_word (given curr boundary : Nat) (header : List UInt8) (call : station.call = .header given curr boundary header)
    (short : header.length < 4) : ne2000Recv maxLen station =
      { station with nic := station.nic.inw.2, call := .header given curr boundary (header ++ station.nic.inw.1) } := by
  rw [ne2000Recv, call]
  match header with
  | [] => rfl
  | [_] => rfl
  | [_, _] => rfl
  | [_, _, _] => rfl
  | _ :: _ :: _ :: _ :: _ => simp only [List.length_cons] at short; omega

omit kept in
theorem header_length_bytes (packet : Packet) : (UInt8.ofNat (packet.data.length + 4)).toNat +
    2 ^ 8 * (UInt8.ofNat ((packet.data.length + 4) / 2 ^ 8)).toNat = packet.data.length + 4 := by
  have sized := packet.sized
  rw [UInt8.toNat_ofNat', UInt8.toNat_ofNat']
  omega

omit kept in
theorem header_next_byte (k : Nat) : (UInt8.ofNat (page k)).toNat = page k := by
  have bounds := page_bounds k
  rw [rxStop] at bounds
  rw [UInt8.toNat_ofNat']
  omega

theorem recv_header (given curr boundary : Nat) (header : List UInt8) (call : station.call = .header given curr boundary header) :
    Accessed station maxLen head gone packets excess (ne2000Recv maxLen station) head gone packets := by
  have sound := kept.call
  rw [call] at sound
  obtain ⟨same, short, words, packet, rest, first, read, here⟩ := sound
  obtain ⟨image, _⟩ := stored_first station head gone packets excess kept packet rest first
  by_cases whole : header.length = 4
  · rw [whole] at read
    have start : 2 ^ 8 * page head + 4 = place (2 ^ 8 * head + 4) := (congrArg (· + 4) (page_place head)).trans (place_data head)
    have going := kept_goes station head gone packets excess kept { station.nic with remote := 2 ^ 8 * page head + 4 }
      (.data given (page (head + packet.pages)) (min given packet.data.length) []) rfl rfl rfl (by rw [call]; rfl)
      ⟨packet, rest, first, rfl, rfl, Nat.zero_le _, rfl, fun _ => ⟨rfl, start⟩⟩
    have moved : ne2000Recv maxLen station = { station with
        nic := { station.nic with remote := 2 ^ 8 * page head + 4 }
        call := .data given (page (head + packet.pages)) (min given packet.data.length) [] } := by
      have full : header = [packet.status, UInt8.ofNat (page (head + packet.pages)), UInt8.ofNat (packet.data.length + 4),
        UInt8.ofNat ((packet.data.length + 4) / 2 ^ 8)] := read
      have sized := packet.sized
      have least : (if given < packet.data.length then given else packet.data.length) = min given packet.data.length := by
        split <;> omega
      rw [ne2000Recv, call, same, full]
      dsimp only
      rw [header_length_bytes, if_neg (by omega), header_next_byte, Nat.add_sub_cancel, least]
    rw [moved]
    exact access_goes station maxLen head gone packets excess _ given call rfl _ _ going
      (Nat.lt_of_le_of_lt (Nat.add_le_add_left short 4) (Nat.lt_succ_self 8)) rfl
  · have more : header.length < 4 := by omega
    have length : (header ++ station.nic.inw.1).length = header.length + 2 := List.length_append
    have two : (header ++ station.nic.inw.1) = (packet.header (page (head + packet.pages))).take (header.length + 2) := by
      have next := inw_bytes station.nic (2 ^ 8 * head) header.length (by omega) words here _ image 4 (Nat.le_refl 4) more
      rw [← read, Nat.min_eq_left (by omega)] at next
      rw [← next, List.take_of_length_le (show 2 ≤ 4 - header.length by omega)]
    have going := kept_goes station head gone packets excess kept station.nic.inw.2
      (.header given curr boundary (header ++ station.nic.inw.1)) rfl rfl rfl (by rw [call]; rfl)
      ⟨same, by omega, by omega, packet, rest, first, by rw [length]; exact two, by
        rw [length]
        exact inw_remote station.nic (2 ^ 8 * head) header.length (by omega) words here⟩
    rw [recv_header_word station maxLen given curr boundary header call more]
    refine access_goes station maxLen head gone packets excess _ given call rfl _ _ going ?_ rfl
    rw [Call.rank, Call.rank, length]
    omega

theorem recv_data (given next len : Nat) (buffer : List UInt8) (call : station.call = .data given next len buffer) :
    ∃ last gone' packets', Accessed station maxLen head gone packets excess (ne2000Recv maxLen station) last gone' packets' := by
  have sound := kept.call
  rw [call] at sound
  obtain ⟨packet, rest, first, behind, length, within, read, here⟩ := sound
  obtain ⟨_, image⟩ := stored_first station head gone packets excess kept packet rest first
  by_cases more : buffer.length < len
  · obtain ⟨words, remote⟩ := here more
    have next' := inw_bytes station.nic (2 ^ 8 * head + 4) buffer.length (by omega) words remote _ image len (by omega) more
    rw [← read] at next'
    have longer : (buffer ++ station.nic.inw.1.take (len - buffer.length)).length = min (buffer.length + 2) len := by
      rw [next', List.length_take]
      omega
    have going := kept_goes station head gone packets excess kept station.nic.inw.2
      (.data given next len (buffer ++ station.nic.inw.1.take (len - buffer.length))) rfl rfl rfl (by rw [call]; rfl)
      ⟨packet, rest, first, behind, length, by omega, by rw [longer, next'], fun further => by
        rw [longer] at further ⊢
        rw [Nat.min_eq_left (by omega)]
        exact ⟨by omega, inw_remote station.nic (2 ^ 8 * head + 4) buffer.length (by omega) words remote⟩⟩
    refine ⟨head, gone, packets, ?_⟩
    rw [ne2000Recv, call]
    dsimp only
    rw [if_pos more]
    refine access_goes station maxLen head gone packets excess _ given call rfl _ _ going ?_ rfl
    rw [Call.rank, Call.rank, longer]
    omega
  · have full : buffer = packet.data.take given := by
      rw [read, show buffer.length = min given packet.data.length by omega]
      exact List.take_eq_take_min.symm
    have released : (if rxStart < next then next - 1 else rxStop - 1) = page (head + packet.pages + (rxPages - 1)) := by
      rw [behind]
      unfold page rxPages rxStart rxStop
      split <;> omega
    refine ⟨head + packet.pages, gone ++ [packet], rest, ?_⟩
    rw [ne2000Recv, call]
    dsimp only
    rw [if_neg more, released, full, length]
    exact .takes given packet rest first (by rw [call]; rfl) (by rw [call]; rfl)

theorem recv_cases : ∃ next gone' packets',
    Accessed station maxLen head gone packets excess (ne2000Recv maxLen station) next gone' packets' := by
  cases call : station.call with
  | idle => exact ⟨_, _, _, recv_idle station maxLen head gone packets excess kept call⟩
  | received given => exact ⟨_, _, _, recv_received station maxLen head gone packets excess kept given call⟩
  | acknowledged given => exact ⟨_, _, _, recv_acknowledged station maxLen head gone packets excess kept given call⟩
  | paged given curr => exact ⟨_, _, _, recv_paged station maxLen head gone packets excess kept given curr call⟩
  | header given curr boundary header =>
      exact ⟨_, _, _, recv_header station maxLen head gone packets excess kept given curr boundary header call⟩
  | data given next len buffer => exact recv_data station maxLen head gone packets excess kept given next len buffer call
end

theorem call_idle (call : Call) (known : call.maxLen = none) : call = .idle := by
  cases call with
  | idle => rfl
  | _ => exact absurd known (Option.some_ne_none _)

theorem call_announced (nic : Nic) (head : Nat) (packets : List Packet) (call : Call) (given : Nat)
    (asked : call.maxLen = some given) (sound : CallSound nic head packets call) : 0 < nic.prx.toNat + call.owed := by
  cases call with
  | idle => exact absurd asked.symm (Option.some_ne_none given)
  | received maxLen =>
      rw [show nic.prx = true from sound]
      exact Nat.one_pos
  | acknowledged maxLen => exact Nat.succ_pos _
  | paged maxLen curr => exact Nat.succ_pos _
  | header maxLen curr boundary header => exact Nat.succ_pos _
  | data maxLen next len buffer => exact Nat.succ_pos _

theorem answer_zero_returned (station : Station) (nic : Nic) (maxLen : Nat) (data : List UInt8) :
    (station.answer nic maxLen 0 data).returned = station.returned := by
  simp [Station.answer, Station.returned]

theorem answer_returned (station : Station) (nic : Nic) (maxLen : Nat) (code : Int) (data : List UInt8) (nonzero : code ≠ 0) :
    (station.answer nic maxLen code data).returned = station.returned ++ [⟨maxLen, code, data, station.nic.ringEmpty⟩] := by
  simp [Station.answer, Station.returned, nonzero]

theorem answer_returned_length (station : Station) (nic : Nic) (maxLen : Nat) (code : Int) (data : List UInt8) :
    (station.answer nic maxLen code data).returned.length ≤ station.returned.length + 1 := by
  by_cases zero : code = 0
  · rw [zero, answer_zero_returned]
    exact Nat.le_succ _
  · rw [answer_returned station nic maxLen code data zero, List.length_append]
    exact Nat.le_refl _

section
variable (station after : Station) (maxLen head next : Nat) (gone packets gone' packets' : List Packet) (excess : Nat)
  (kept : Kept station head gone packets excess)
  (accessed : Accessed station maxLen head gone packets excess after next gone' packets')
include kept accessed

theorem recv_kept : Kept after next gone' packets' excess := by
  have account := kept.account
  cases accessed with
  | waits idle clear =>
      refine ⟨kept.ring, kept.stored, ?_, trivial, ?_⟩
      · rw [account, idle]
        rfl
      · rw [answer_zero_returned]
        exact kept.fewer
  | goes nic call going later same asked => exact going
  | takes given packet rest first asked owes =>
      refine ⟨consume_ring station.nic head packets kept.ring packet packets' first, ?_, ?_, trivial, ?_⟩
      · rw [List.append_assoc, List.singleton_append, ← first]
        exact kept.stored
      · rw [first, owes, List.length_cons] at account
        dsimp only [Station.answer, Call.owed]
        omega
      · rw [List.length_append]
        exact Nat.le_trans (answer_returned_length _ _ _ _ _) (Nat.succ_le_succ kept.fewer)

theorem recv_sound (none' : excess = 0) (sound : Sound station gone)
    (room : station.call = .idle → station.nic.prx = true → 0 < maxLen) : Sound after gone' := by
  have account := kept.account
  have some' := sound.room
  cases accessed with
  | waits idle clear =>
      rw [idle, clear, none'] at account
      have empty : station.nic.ringEmpty = true :=
        (ring_empty_iff station.nic head packets kept.ring).mpr (List.eq_nil_of_length_eq_zero account)
      refine ⟨?_, fun answer member zero => ?_, (Option.some_ne_none 0).symm⟩
      · rw [answer_zero_returned]
        exact sound.returned
      · rcases List.mem_append.mp member with earlier | last
        · exact sound.empty answer earlier zero
        · rw [List.mem_singleton.mp last]
          exact empty
  | goes nic call going later same asked =>
      refine ⟨sound.returned, sound.empty, ?_⟩
      rw [same]
      cases known : station.call.maxLen with
      | none =>
          have idle := call_idle station.call known
          exact fun zero => Nat.ne_of_gt (room idle (asked idle)) (Option.some.inj zero)
      | some given => exact known ▸ some'
  | takes given packet rest first asked owes =>
      have sized := packet.sized
      rw [asked] at some'
      have positive : given ≠ 0 := fun zero => some' (congrArg some zero)
      have length : (packet.data.take given).length = min given packet.data.length := List.length_take
      have nonzero : ((min given packet.data.length : Nat) : Int) ≠ 0 := by omega
      refine ⟨?_, fun answer member zero => ?_, (Option.some_ne_none 0).symm⟩
      · rw [answer_returned _ _ _ _ _ nonzero]
        exact List.rel_append sound.returned (.cons ⟨rfl, congrArg Nat.cast length.symm⟩ .nil)
      · rcases List.mem_append.mp member with earlier | last
        · exact sound.empty answer earlier zero
        · rw [List.mem_singleton.mp last] at zero
          exact absurd zero nonzero

theorem recv_lost (lost : Lost station gone excess) : Lost after gone' excess := by
  have fewer := kept.fewer
  cases accessed with
  | waits idle clear =>
      rw [Lost, idle] at lost
      rw [Lost, answer_zero_returned]
      exact lost.imp id fun either => Or.inl (either.resolve_right (Option.some_ne_none 0).symm)
  | goes nic call going later same asked =>
      refine lost.imp id (Or.imp id fun zero => ?_)
      rw [same, zero]
      rfl
  | takes given packet rest first asked owes =>
      refine lost.imp id fun either => Or.inl ?_
      rw [List.length_append]
      by_cases zero : given = 0
      · rw [zero, Nat.zero_min]
        exact Nat.lt_succ_of_le (by rw [Nat.cast_zero, answer_zero_returned]; exact fewer)
      · rw [asked] at either
        have short := either.resolve_right fun same => zero (Option.some.inj same)
        exact Nat.lt_of_le_of_lt (answer_returned_length _ _ _ _ _) (Nat.succ_lt_succ short)

-- What is left to do shrinks with every access, until the ring is empty.
theorem recv_progress (none' : excess = 0) (bounded : station.call.rank < 2000) :
    packets' = [] ∨ 2000 * packets'.length + station.call.rank < 2000 * packets.length + after.call.rank := by
  have account := kept.account
  cases accessed with
  | waits idle clear =>
      rw [idle, clear, none'] at account
      exact Or.inl (List.eq_nil_of_length_eq_zero account)
  | goes nic call going later same asked => exact Or.inr (Nat.add_lt_add_left later _)
  | takes given packet rest first asked owes =>
      rw [first, List.length_cons]
      exact Or.inr (by omega)
end

section
variable (station : Station) (head : Nat) (gone packets : List Packet) (excess : Nat)
  (kept : Kept station head gone packets excess)
include kept

theorem kept_rank : station.call.rank < 2000 := by
  have sound := kept.call
  cases call : station.call with
  | idle => exact show 0 < 2000 by decide
  | received given => exact show 1 < 2000 by decide
  | acknowledged given => exact show 2 < 2000 by decide
  | paged given curr => exact show 3 < 2000 by decide
  | header given curr boundary header =>
      rw [call] at sound
      have short := sound.2.1
      dsimp only [Call.rank]
      omega
  | data given next len buffer =>
      rw [call] at sound
      obtain ⟨packet, _, _, _, length, within, _⟩ := sound
      have sized := packet.sized
      dsimp only [Call.rank]
      omega

theorem calls_lost (lost : Lost station gone excess) (maxLens : List Nat) : ¬ List.Forall₂ Returned
    (maxLens.foldl (fun reached maxLen => ne2000Recv maxLen reached) station).returned
    (maxLens.foldl (fun reached maxLen => ne2000Recv maxLen reached) station).stored := by
  induction maxLens generalizing station head gone packets with
  | nil =>
      intro all
      have length := all.length_eq
      have account := kept.account
      have sound := kept.call
      rw [List.foldl_nil, kept.stored, List.length_append] at length
      rcases lost with unannounced | fewer | zero
      · have := kept.fewer
        omega
      · omega
      · have fewer := kept.fewer
        have announced := call_announced station.nic head packets station.call 0 zero sound
        omega
  | cons maxLen maxLens ih =>
      obtain ⟨next, gone', packets', accessed⟩ := recv_cases station maxLen head gone packets excess kept
      exact ih _ next gone' packets' (recv_kept station _ maxLen head next gone packets gone' packets' excess kept accessed)
        (recv_lost station _ maxLen head next gone packets gone' packets' excess kept accessed lost)
end

theorem calls_drain (maxLens : List Nat) (room : ∀ maxLen ∈ maxLens, 0 < maxLen) (station : Station) (head : Nat)
    (gone packets : List Packet) (kept : Kept station head gone packets 0) (sound : Sound station gone)
    (enough : 2000 * packets.length ≤ maxLens.length + station.call.rank) : List.Forall₂ Returned
      (maxLens.foldl (fun reached maxLen => ne2000Recv maxLen reached) station).returned
      (maxLens.foldl (fun reached maxLen => ne2000Recv maxLen reached) station).stored := by
  have bounded := kept_rank station head gone packets 0 kept
  induction maxLens generalizing station head gone packets with
  | nil =>
      rw [List.length_nil] at enough
      have empty : packets = [] := List.eq_nil_of_length_eq_zero (by omega)
      rw [List.foldl_nil, kept.stored, empty, List.append_nil]
      exact sound.returned
  | cons maxLen maxLens ih =>
      obtain ⟨next, gone', packets', accessed⟩ := recv_cases station maxLen head gone packets 0 kept
      have kept' := recv_kept station _ maxLen head next gone packets gone' packets' 0 kept accessed
      have sound' := recv_sound station _ maxLen head next gone packets gone' packets' 0 kept accessed rfl sound
        fun _ _ => room maxLen List.mem_cons_self
      have fewer : 2000 * packets'.length ≤ maxLens.length + (ne2000Recv maxLen station).call.rank := by
        rw [List.length_cons] at enough
        rcases recv_progress station _ maxLen head next gone packets gone' packets' 0 kept accessed rfl bounded with empty | less
        · rw [empty]
          exact Nat.zero_le _
        · omega
      exact ih (fun later member => room later (List.mem_cons_of_mem _ member)) _ next gone' packets' kept' sound' fewer
        (kept_rank _ next gone' packets' 0 kept')

theorem arrive_kept (station : Station) (packet : Packet) (head : Nat) (gone packets : List Packet) (excess : Nat)
    (kept : Kept station head gone packets excess) (fits : packet.pages ≤ station.nic.free) :
    Kept { station with nic := station.nic.arrive packet, stored := station.stored ++ [packet] } head gone (packets ++ [packet])
      (excess + station.nic.prx.toNat) := by
  have ring := arrive_ring station.nic head packets kept.ring packet fits
  have account := kept.account
  have set : (station.nic.arrive packet).prx = true ∧ (station.nic.arrive packet).remote = station.nic.remote := by
    rw [Nic.arrive, if_pos fits]
    exact ⟨rfl, rfl⟩
  refine ⟨ring, ?_, ?_, ?_, kept.fewer⟩
  · rw [← List.append_assoc, ← kept.stored]
  · dsimp only
    rw [set.1, Bool.toNat_true, List.length_append, List.length_singleton]
    omega
  · have sound := kept.call
    dsimp only
    cases call : station.call with
    | idle => trivial
    | received given => exact set.1
    | acknowledged given => trivial
    | paged given curr =>
        rw [call] at sound
        exact sound
    | header given curr boundary header =>
        rw [call] at sound
        obtain ⟨same, short, words, first, rest, order, read, here⟩ := sound
        exact ⟨same, short, words, first, rest ++ [packet], by rw [order]; rfl, read, set.2.trans here⟩
    | data given next len buffer =>
        rw [call] at sound
        obtain ⟨first, rest, order, behind, length, within, read, here⟩ := sound
        exact ⟨first, rest ++ [packet], by rw [order]; rfl, behind, length, within, read,
          fun more => ⟨(here more).1, set.2.trans (here more).2⟩⟩

def Whole (station : Station) : Prop := ∃ head gone packets, Kept station head gone packets 0 ∧ Sound station gone

section
variable (station : Station)

theorem whole_not_lost (whole : Whole station) (head : Nat) (gone packets : List Packet) (excess : Nat)
    (kept : Kept station head gone packets excess) : ¬ Lost station gone excess := by
  obtain ⟨head', gone', packets', kept', sound⟩ := whole
  have returned := sound.returned.length_eq
  have fewer := kept.fewer
  have account := kept.account
  have account' := kept'.account
  have stored := congrArg List.length (kept.stored.symm.trans kept'.stored)
  rw [List.length_append, List.length_append] at stored
  rintro (unannounced | less | zero)
  · omega
  · omega
  · exact sound.room zero

theorem whole_right (whole : Whole station) : Right station := by
  obtain ⟨head, gone, packets, kept, sound⟩ := whole
  refine ⟨ring_boundary station.nic head packets kept.ring, sound.empty, ?_, 2000 * packets.length, fun maxLens room enough => ?_⟩
  · rw [kept.stored, sound.returned.length_eq, List.take_left]
    exact sound.returned
  · exact calls_drain maxLens room station head gone packets kept sound (Nat.le_add_right_of_le enough)

theorem right_whole (head : Nat) (gone packets : List Packet) (excess : Nat) (kept : Kept station head gone packets excess)
    (right : Right station) : Whole station := by
  have found : ¬ Lost station gone excess := by
    intro lost
    obtain ⟨enough, drained⟩ := right.drained
    refine calls_lost station head gone packets excess kept lost _
      (drained (List.replicate enough 1) (fun maxLen member => ?_) (Nat.le_of_eq List.length_replicate.symm))
    rw [List.eq_of_mem_replicate member]
    exact Nat.one_pos
  have none' : excess = 0 := Nat.eq_zero_of_not_pos fun unannounced => found (Or.inl unannounced)
  have length : station.returned.length = gone.length :=
    Nat.le_antisymm kept.fewer (Nat.le_of_not_lt fun less => found (Or.inr (Or.inl less)))
  have order := right.order
  rw [kept.stored, length, List.take_left] at order
  exact ⟨head, gone, packets, none' ▸ kept, order, right.empty, fun zero => found (Or.inr (Or.inr zero))⟩

theorem event_kept (event : Event) (reached : Station) (kept : ∃ head gone packets excess, Kept station head gone packets excess)
    (taken : step station event = some reached) : ∃ head gone packets excess, Kept reached head gone packets excess := by
  obtain ⟨head, gone, packets, excess, kept⟩ := kept
  cases event with
  | arrive packet =>
      cases taken
      by_cases fits : packet.pages ≤ station.nic.free
      · rw [if_pos fits]
        exact ⟨_, _, _, _, arrive_kept station packet head gone packets excess kept fits⟩
      · rw [if_neg fits, Nic.arrive, if_neg fits]
        exact ⟨head, gone, packets, excess, kept⟩
  | recv maxLen =>
      cases taken
      obtain ⟨next, gone', packets', accessed⟩ := recv_cases station maxLen head gone packets excess kept
      exact ⟨_, _, _, _, recv_kept station _ maxLen head next gone packets gone' packets' excess kept accessed⟩

theorem event_whole_iff (event : Event) (whole : Whole station) :
    Meets station event ↔ ∀ reached, step station event = some reached → Whole reached := by
  obtain ⟨head, gone, packets, kept, sound⟩ := whole
  constructor
  · intro meets reached taken
    cases event with
    | arrive packet =>
        cases taken
        by_cases fits : packet.pages ≤ station.nic.free
        · have arrived := arrive_kept station packet head gone packets 0 kept fits
          rw [show station.nic.prx = false from meets fits] at arrived
          rw [if_pos fits]
          exact ⟨head, gone, _, arrived, sound.returned, sound.empty, sound.room⟩
        · rw [if_neg fits, Nic.arrive, if_neg fits]
          exact ⟨head, gone, packets, kept, sound⟩
    | recv maxLen =>
        cases taken
        obtain ⟨next, gone', packets', accessed⟩ := recv_cases station maxLen head gone packets 0 kept
        exact ⟨_, _, _, recv_kept station _ maxLen head next gone packets gone' packets' 0 kept accessed,
          recv_sound station _ maxLen head next gone packets gone' packets' 0 kept accessed rfl sound meets⟩
  · intro all
    cases event with
    | arrive packet =>
        intro fits
        have arrived := arrive_kept station packet head gone packets 0 kept fits
        have whole := all _ rfl
        rw [if_pos fits] at whole
        have found := whole_not_lost _ whole head gone _ _ arrived
        cases prx : station.nic.prx with
        | false => rfl
        | true => exact absurd (Or.inl (by rw [prx]; exact Nat.one_pos)) found
    | recv maxLen =>
        intro idle prx
        obtain ⟨_, _, _, _, sound⟩ := all _ rfl
        have room := sound.room
        rw [ne2000Recv, idle, prx] at room
        exact Nat.pos_of_ne_zero fun zero => room (congrArg some zero)
end

theorem init_kept (memory : Memory) : Kept (ne2000Init memory) 1 [] [] 0 :=
  ⟨⟨rfl, rfl, by decide, trivial⟩, rfl, rfl, trivial, Nat.le_refl 0⟩

theorem init_whole (memory : Memory) : Whole (ne2000Init memory) :=
  ⟨1, [], [], init_kept memory, .nil, fun _ member => absurd member List.not_mem_nil, (Option.some_ne_none 0).symm⟩

theorem reached_kept (memory : Memory) (events : List Event) (station : Station)
    (run : runAll step (ne2000Init memory) events = some station) : ∃ head gone packets excess, Kept station head gone packets excess :=
  run_all_invariant step _ (fun state event reached kept taken => event_kept state event reached kept taken) _ station events
    ⟨1, [], [], 0, init_kept memory⟩ run

-- PRX is acknowledged once in a call, and a call takes one packet: a packet stored while PRX is set stays behind.
theorem ne2000_recv_iff (memory : Memory) (events : List Event) :
    (∀ prior station, prior <+: events → runAll step (ne2000Init memory) prior = some station → Right station) ↔
      Along step Meets (ne2000Init memory) events := by
  rw [← prefixes_iff_along step Whole Meets event_whole_iff (ne2000Init memory) (init_whole memory) events]
  constructor
  · intro right prior station within run
    obtain ⟨head, gone, packets, excess, kept⟩ := reached_kept memory prior station run
    exact right_whole station head gone packets excess kept (right prior station within run)
  · intro whole prior station within run
    exact whole_right station (whole prior station within run)

def frame : Packet := ⟨1, List.replicate 60 0xAA, 1, by decide, by decide⟩

def burst : List Event := [.arrive frame, .arrive frame] ++ List.replicate 39 (.recv 1514)

theorem ne2000_recv_not_right : ¬ ∀ memory events station, runAll step (ne2000Init memory) events = some station →
    Right station := by
  intro claimed
  have answered : (runAll step (ne2000Init fun _ => 0) burst).map
      (fun station => station.answers.all fun answer => answer.code ≠ 0 || answer.ringEmpty) = some false := by decide +kernel
  obtain ⟨station, run, failed⟩ := Option.map_eq_some_iff.mp answered
  have empty := (claimed (fun _ => 0) burst station run).empty
  have all : (station.answers.all fun answer => answer.code ≠ 0 || answer.ringEmpty) = true := by
    rw [List.all_eq_true]
    intro answer member
    by_cases zero : answer.code = 0
    · rw [empty answer member zero, Bool.or_true]
    · rw [decide_eq_true zero, Bool.true_or]
  exact Bool.false_ne_true (failed.symm.trans all)

end RoDos.Ne2000
