import Mathlib.Algebra.Ring.Nat
import RoDos.Net.Words

set_option autoImplicit false

namespace RoDos.Net

open Base Tcp

-- packet is the buffer of ip_send, buf the one of udp_send_packet and tcp_send_packet.
inductive Access where
  | packet (i : Nat)
  | buf (i : Nat)
  | data (i : Nat)

def bufferSize : Nat := 1500

def Access.Inside (len : Nat) : Access → Prop
  | .packet i => i < bufferSize
  | .buf i => i < bufferSize
  | .data i => i < len

def Access.throughBuf : Access → Access
  | .packet i => .packet i
  | .buf i => .buf i
  | .data i => .buf i

-- handed are the frames that netif_send is called with.
structure Outcome where
  accesses : List Access
  handed : List (List UInt8)
  code : Int

-- sendPacket says what the driver returns for a frame of so many bytes, behind what lies behind packet.
structure Environment where
  default : Option Interface
  cache : List ArpEntry
  sendPacket : Option (Nat → Int)
  behind : Nat → UInt8

def pktBufSize : Nat := 2048

def virtioNetHdrSize : Nat := 10

def wifiSend (initialized : Bool) (len : Nat) : Int :=
  if initialized = false ∨ len = 0 ∨ pktBufSize - virtioNetHdrSize < len then -1 else len

def netifCode (env : Environment) (len : Nat) : Int :=
  match env.sendPacket with
  | none => -1
  | some sendPacket => if len = 0 then -1 else sendPacket len

-- A driver that takes the frame reads all of it.
def netifSend (env : Environment) (frame : List UInt8) : Outcome where
  accesses := if netifCode env frame.length < 0 then [] else (List.range frame.length).map .packet
  handed := [frame]
  code := netifCode env frame.length

-- The length of the frame is a uint32_t.
def frameLength (len : Nat) : Nat := (34 + len) % 2 ^ 32

def ipSendCall (env : Environment) (destIp : UInt32) (protocol : UInt8) (data : Option (List UInt8)) : Outcome :=
  match env.default, data with
  | some iface, some data =>
      let frame := ipSend iface env.cache destIp protocol data env.behind
      let sent := netifSend env (frame.take (frameLength data.length))
      { sent with
        accesses := (List.range 34).map .packet ++
          (List.range (min data.length packetRoom)).flatMap (fun i => [.data i, .packet (34 + i)]) ++ sent.accesses }
  | _, _ => ⟨[], [], -1⟩

-- The accesses that build a datagram in buf, then those of ip_send.
def builtInBuf (own : List Access) (sent : Outcome) : Outcome where
  accesses := own ++ sent.accesses.map Access.throughBuf
  handed := sent.handed
  code := sent.code

def udpHeader (srcPort destPort : UInt16) (len : Nat) : List UInt8 :=
  bigEndian16 srcPort ++ bigEndian16 destPort ++ bigEndian16 (UInt16.ofNat (8 + len)) ++ [0, 0]

-- len is a uint16_t here.
def udpSendPacketCall (env : Environment) (destIp : UInt32) (destPort srcPort : UInt16) (data : List UInt8) : Outcome :=
  match env.default with
  | none => ⟨[], [], -1⟩
  | some _ =>
      let len := data.length % 65536
      builtInBuf ((List.range 8).map .buf ++ (List.range len).flatMap fun i => [.data i, .buf (8 + i)])
        (ipSendCall env destIp 17 (some (udpHeader srcPort destPort len ++ data.take len)))

-- The copy goes over the whole payload, the checksum and the frame over tcp_len bytes, a uint16_t.
def tcpSendPacketCall (env : Environment) (packet : Packet) : Outcome :=
  match env.default with
  | none => ⟨[], [], -1⟩
  | some iface =>
      let tcpLen := (20 + packet.payload.length) % 65536
      let unchecked := uncheckedSegment packet
      let checksum := tcpChecksum iface.ipAddr packet.destIp (unchecked.take tcpLen)
      builtInBuf ((List.range 20).map .buf ++
          (List.range packet.payload.length).flatMap (fun i => [.data i, .buf (20 + i)]) ++ (List.range tcpLen).map .buf)
        (ipSendCall env packet.destIp 6 (some ((storeField unchecked 16 checksum).take tcpLen)))

def WholeFrame (payload : List UInt8) (handed : List (List UInt8)) : Prop :=
  ∃ frame, handed = [frame] ∧ frame.length = 34 + payload.length ∧ totalLength frame = 20 + payload.length ∧
    frame.drop 34 = payload

-- len bytes of data are the caller's, payload is what the IP datagram is to carry.
structure SendsWhole (len : Nat) (payload : List UInt8) (outcome : Outcome) : Prop where
  inside : ∀ access ∈ outcome.accesses, access.Inside len
  sent : outcome.code < 0 ∨ WholeFrame payload outcome.handed

def Takes (env : Environment) (len : Nat) : Prop := 0 ≤ netifCode env len

theorem copy_inside (len place copied : Nat) (own : copied ≤ len) :
    (∀ access ∈ (List.range copied).flatMap (fun i => [.data i, .buf (place + i)]), Access.Inside len access) ↔
      copied = 0 ∨ place + copied ≤ bufferSize := by
  constructor
  · intro inside
    rcases Nat.eq_zero_or_pos copied with none | some'
    · exact Or.inl none
    · have last : (.buf (place + (copied - 1)) : Access) ∈
          (List.range copied).flatMap (fun i => [.data i, .buf (place + i)]) :=
        List.mem_flatMap.mpr ⟨copied - 1, List.mem_range.mpr (by omega), by simp⟩
      have bound : place + (copied - 1) < bufferSize := inside _ last
      exact Or.inr (by omega)
  · intro room access member
    obtain ⟨i, here, pair⟩ := List.mem_flatMap.mp member
    have below := List.mem_range.mp here
    rcases List.mem_pair.mp pair with rfl | rfl
    · exact below.trans_le own
    · rcases room with none | fits
      · omega
      · exact Nat.lt_of_lt_of_le (Nat.add_lt_add_left below place) fits

section
variable (env : Environment) (iface : Interface) (destIp : UInt32) (protocol : UInt8) (data : List UInt8)

theorem netif_send_inside (inside : Access → Prop) (places : ∀ i, inside (.packet i) ↔ i < bufferSize) (frame : List UInt8) :
    (∀ access ∈ (netifSend env frame).accesses, inside access) ↔ (Takes env frame.length → frame.length ≤ bufferSize) := by
  rw [netifSend, Takes]
  dsimp only
  by_cases refused : netifCode env frame.length < 0
  · rw [if_pos refused]
    exact iff_of_true nofun fun taken => absurd refused (Int.not_lt.mpr taken)
  · rw [if_neg refused, List.forall_mem_map]
    constructor
    · intro all _
      by_contra long
      have last := all bufferSize (List.mem_range.mpr (Nat.not_le.mp long))
      exact Nat.lt_irrefl bufferSize ((places bufferSize).mp last)
    · intro short i member
      exact (places i).mpr ((List.mem_range.mp member).trans_le (short (Int.not_lt.mp refused)))

def handedFrame (env : Environment) (iface : Interface) (destIp : UInt32) (protocol : UInt8) (data : List UInt8) : List UInt8 :=
  (ipSend iface env.cache destIp protocol data env.behind).take (frameLength data.length)

theorem sent_length : (ipSend iface env.cache destIp protocol data env.behind).length = 34 + data.length := by
  have split := congrArg List.length (sent_split iface env.cache destIp protocol data env.behind [])
  rw [List.append_nil] at split
  rw [split]
  simp only [List.length_append, (destMac _ _ _).six, iface.macAddr.six, List.append_nil, sent_payload_length]
  simp only [half_length, word_length, stored_length, List.length_cons, List.length_nil]
  omega

theorem handed_length : (handedFrame env iface destIp protocol data).length = frameLength data.length := by
  rw [handedFrame, List.length_take, sent_length]
  exact Nat.min_eq_left (Nat.mod_le _ _)

theorem frame_length_small (short : data.length ≤ packetRoom) : frameLength data.length = 34 + data.length := by
  have room : packetRoom = 1466 := rfl
  rw [frameLength, Nat.mod_eq_of_lt (by omega)]

theorem handed_all (short : data.length ≤ packetRoom) :
    handedFrame env iface destIp protocol data = ipSend iface env.cache destIp protocol data env.behind := by
  rw [handedFrame, frame_length_small data short, List.take_of_length_le]
  exact (sent_length env iface destIp protocol data).le

theorem sent_payload_all (short : data.length ≤ packetRoom) : sentPayload data env.behind = data := by
  rw [sentPayload, Nat.sub_eq_zero_of_le short, List.range_zero, List.map_nil, List.append_nil, List.take_of_length_le short]

theorem handed_whole (short : data.length ≤ packetRoom) : WholeFrame data [handedFrame env iface destIp protocol data] := by
  have room : packetRoom = 1466 := rfl
  have split := sent_split iface env.cache destIp protocol data env.behind []
  rw [List.append_nil, List.append_nil, sent_payload_all env data short] at split
  have twelve : ((destMac iface env.cache destIp).bytes ++ iface.macAddr.bytes).length = 12 := by
    rw [List.length_append, (destMac iface env.cache destIp).six, iface.macAddr.six]
  refine ⟨_, rfl, ?_, ?_, ?_⟩
  · rw [handed_all env iface destIp protocol data short, sent_length]
  · rw [handed_all env iface destIp protocol data short, totalLength, split]
    generalize (destMac iface env.cache destIp).bytes ++ iface.macAddr.bytes = front at twelve
    have value : (UInt16.ofNat (20 + data.length)).toNat = 20 + data.length :=
      UInt16.toNat_ofNat_of_lt' (Nat.lt_of_le_of_lt (Nat.add_le_add_left short 20) (by decide))
    have sixteen : (front ++ [0x08, 0x00, 0x45, 0]).length = 16 := by rw [List.length_append, twelve]; rfl
    have field (rest : List UInt8) := half_behind (front ++ [0x08, 0x00, 0x45, 0]) rest (UInt16.ofNat (20 + data.length))
    simp only [sixteen, value, List.append_assoc] at field ⊢
    exact field _
  · rw [handed_all env iface destIp protocol data short, split]
    generalize (destMac iface env.cache destIp).bytes ++ iface.macAddr.bytes = front at twelve
    have tail (rest : List UInt8) : (front ++ rest).drop (12 + 22) = rest.drop 22 := by
      rw [← twelve, List.drop_length_add_append]
    exact tail _

theorem whole_length (payload : List UInt8) (whole : WholeFrame payload [handedFrame env iface destIp protocol data]) :
    frameLength data.length = 34 + payload.length := by
  obtain ⟨frame, same, length, _⟩ := whole
  cases same
  rw [← length, handed_length]

variable (given : env.default = some iface)
include given

theorem ip_call_code : (ipSendCall env destIp protocol (some data)).code = netifCode env (frameLength data.length) := by
  unfold ipSendCall
  rw [given]
  exact congrArg (netifCode env) (handed_length env iface destIp protocol data)

theorem ip_call_handed :
    (ipSendCall env destIp protocol (some data)).handed = [handedFrame env iface destIp protocol data] := by
  unfold ipSendCall
  rw [given]
  rfl

theorem ip_call_inside (inside : Access → Prop) (places : ∀ i, inside (.packet i) ↔ i < bufferSize)
    (own : ∀ i < data.length, inside (.data i)) :
    (∀ access ∈ (ipSendCall env destIp protocol (some data)).accesses, inside access) ↔
      (Takes env (frameLength data.length) → frameLength data.length ≤ bufferSize) := by
  have room : packetRoom = 1466 := rfl
  have size : bufferSize = 1500 := rfl
  have length := handed_length env iface destIp protocol data
  have driver := netif_send_inside env inside places (handedFrame env iface destIp protocol data)
  rw [length] at driver
  unfold ipSendCall
  rw [given]
  dsimp only
  rw [List.forall_mem_append, List.forall_mem_append, List.forall_mem_map, ← handedFrame, driver]
  refine and_iff_right ⟨fun i member => (places i).mpr ?_, fun access member => ?_⟩
  · have below := List.mem_range.mp member
    omega
  · obtain ⟨i, here, pair⟩ := List.mem_flatMap.mp member
    have below := List.mem_range.mp here
    rcases List.mem_pair.mp pair with rfl | rfl
    · exact own i (by omega)
    · exact (places _).mpr (by omega)

omit given in
theorem carried_iff (outcome : Outcome) (payload : List UInt8) (len : Nat)
    (code : outcome.code = netifCode env (frameLength data.length))
    (handed : outcome.handed = [handedFrame env iface destIp protocol data])
    (inside : (∀ access ∈ outcome.accesses, access.Inside len) ↔
      (Takes env (frameLength data.length) → frameLength data.length ≤ bufferSize)) :
    SendsWhole len payload outcome ↔ (Takes env (frameLength data.length) →
      frameLength data.length ≤ bufferSize ∧ WholeFrame payload [handedFrame env iface destIp protocol data]) := by
  rw [Takes] at inside ⊢
  constructor
  · intro sends taken
    refine ⟨inside.mp sends.inside taken, ?_⟩
    rw [← handed]
    exact sends.sent.resolve_left (by rw [code]; exact Int.not_lt.mpr taken)
  · intro carried
    refine ⟨inside.mpr fun taken => (carried taken).1, ?_⟩
    rw [code, handed]
    by_cases refused : netifCode env (frameLength data.length) < 0
    · exact Or.inl refused
    · exact Or.inr (carried (Int.not_lt.mp refused)).2

theorem ip_sends_whole : SendsWhole data.length data (ipSendCall env destIp protocol (some data)) ↔
    (Takes env (frameLength data.length) → data.length ≤ packetRoom) := by
  have room : packetRoom = 1466 := rfl
  have size : bufferSize = 1500 := rfl
  rw [carried_iff env iface destIp protocol data _ data data.length
    (ip_call_code env iface destIp protocol data given) (ip_call_handed env iface destIp protocol data given)
    (ip_call_inside env iface destIp protocol data given (Access.Inside data.length) (fun _ => Iff.rfl) fun _ own => own)]
  refine forall_congr' fun _ => ⟨fun both => ?_, fun short => ⟨?_, handed_whole env iface destIp protocol data short⟩⟩
  · have length := whole_length env iface destIp protocol data data both.2
    omega
  · rw [frame_length_small data short]
    omega

theorem layered_iff (own : List Access) (payload : List UInt8) (len : Nat)
    (fits : (∀ access ∈ own, access.Inside len) → data.length ≤ bufferSize) :
    SendsWhole len payload (builtInBuf own (ipSendCall env destIp protocol (some data))) ↔
      (∀ access ∈ own, access.Inside len) ∧ (Takes env (34 + data.length) →
        34 + data.length ≤ bufferSize ∧ WholeFrame payload [handedFrame env iface destIp protocol data]) := by
  have size : bufferSize = 1500 := rfl
  have split : (∀ access ∈ (builtInBuf own (ipSendCall env destIp protocol (some data))).accesses, access.Inside len) ↔
      (∀ access ∈ own, access.Inside len) ∧
        ∀ access ∈ (ipSendCall env destIp protocol (some data)).accesses, access.throughBuf.Inside len := by
    rw [builtInBuf, List.forall_mem_append, List.forall_mem_map]
  by_cases built : ∀ access ∈ own, access.Inside len
  · have short := fits built
    have frame : frameLength data.length = 34 + data.length := Nat.mod_eq_of_lt (by omega)
    have through := ip_call_inside env iface destIp protocol data given (fun access => access.throughBuf.Inside len)
      (fun _ => Iff.rfl) fun i own => own.trans_le short
    rw [and_iff_right built] at split ⊢
    rw [carried_iff env iface destIp protocol data (builtInBuf own _) payload len (ip_call_code env iface destIp protocol data given)
      (ip_call_handed env iface destIp protocol data given) (split.trans through), frame]
  · exact iff_of_false (fun sends => built (split.mp sends.inside).1) fun both => built both.1
end

theorem udp_header_length (srcPort destPort : UInt16) (len : Nat) : (udpHeader srcPort destPort len).length = 8 := rfl

section
variable (env : Environment) (iface : Interface) (given : env.default = some iface)
include given

theorem udp_sends_whole (destIp : UInt32) (destPort srcPort : UInt16) (data : List UInt8) :
    SendsWhole data.length (udpHeader srcPort destPort data.length ++ data)
      (udpSendPacketCall env destIp destPort srcPort data) ↔
        data.length % 65536 ≤ 1492 ∧ (Takes env (42 + data.length % 65536) → data.length ≤ 1458) := by
  have size : bufferSize = 1500 := rfl
  rw [udpSendPacketCall, given]
  dsimp only
  generalize narrow : data.length % 65536 = len
  have own : len ≤ data.length := narrow ▸ Nat.mod_le _ _
  have carried : (udpHeader srcPort destPort len ++ data.take len).length = 8 + len := by
    rw [List.length_append, udp_header_length, List.length_take_of_le own]
  have built : (∀ access ∈ (List.range 8).map .buf ++ (List.range len).flatMap fun i => [.data i, .buf (8 + i)],
      Access.Inside data.length access) ↔ len ≤ 1492 := by
    rw [List.forall_mem_append, List.forall_mem_map, copy_inside data.length 8 len own]
    have header (i : Nat) (member : i ∈ List.range 8) : Access.Inside data.length (.buf i) :=
      (List.mem_range.mp member).trans (by decide)
    rw [and_iff_right header]
    omega
  have sum : 34 + (8 + len) = 42 + len := by omega
  rw [layered_iff env iface destIp 17 _ given _ _ data.length (fun room => by rw [carried]; have := built.mp room; omega),
    built, carried, sum]
  refine and_congr_right fun _ => forall_congr' fun _ => ⟨fun both => ?_, fun whole => ⟨by omega, ?_⟩⟩
  · have length := whole_length env iface destIp 17 _ _ both.2
    rw [carried, List.length_append, udp_header_length, frameLength] at length
    omega
  · have all : len = data.length := by omega
    rw [all, List.take_length]
    exact handed_whole env iface destIp 17 _ (by rw [List.length_append, udp_header_length, packetRoom]; omega)

omit given in
theorem unchecked_length (packet : Packet) : (uncheckedSegment packet).length = 20 + packet.payload.length := by
  simp only [uncheckedSegment, List.length_append, half_length, word_length, List.length_cons, List.length_nil]

theorem tcp_sends_whole (packet : Packet) :
    SendsWhole packet.payload.length (segmentOf iface.ipAddr packet) (tcpSendPacketCall env packet) ↔
      packet.payload.length ≤ 1480 ∧ (Takes env (54 + packet.payload.length) → packet.payload.length ≤ 1446) := by
  have size : bufferSize = 1500 := rfl
  have unchecked := unchecked_length packet
  rw [tcpSendPacketCall, given]
  dsimp only
  generalize narrow : (20 + packet.payload.length) % 65536 = tcpLen
  have below : tcpLen ≤ 20 + packet.payload.length := narrow ▸ Nat.mod_le _ _
  have carried (checksum : UInt16) : ((storeField (uncheckedSegment packet) 16 checksum).take tcpLen).length = tcpLen := by
    rw [List.length_take, store_field_length _ _ _ (by omega), unchecked, Nat.min_eq_left below]
  have built : (∀ access ∈ (List.range 20).map .buf ++
      (List.range packet.payload.length).flatMap (fun i => [.data i, .buf (20 + i)]) ++ (List.range tcpLen).map .buf,
      Access.Inside packet.payload.length access) ↔ packet.payload.length ≤ 1480 := by
    rw [List.forall_mem_append, List.forall_mem_append, List.forall_mem_map, List.forall_mem_map,
      copy_inside _ 20 _ (Nat.le_refl _)]
    constructor
    · rintro ⟨⟨_, room⟩, _⟩
      omega
    · intro short
      refine ⟨⟨fun i member => (List.mem_range.mp member).trans (by decide), by omega⟩, fun i member => ?_⟩
      have inside := List.mem_range.mp member
      exact inside.trans_le (by omega)
  rw [layered_iff env iface packet.destIp 6 _ given _ _ packet.payload.length
    (fun room => by rw [carried]; have := built.mp room; omega), built, carried]
  refine and_congr_right fun short => ?_
  have all : tcpLen = 20 + packet.payload.length := by omega
  have sum : 34 + (20 + packet.payload.length) = 54 + packet.payload.length := by omega
  have whole (checksum : UInt16) :
      (storeField (uncheckedSegment packet) 16 checksum).take tcpLen = storeField (uncheckedSegment packet) 16 checksum := by
    rw [List.take_of_length_le]
    rw [store_field_length _ _ _ (by omega), unchecked, all]
  rw [whole, all, sum, List.take_of_length_le unchecked.le, ← segmentOf]
  refine forall_congr' fun _ => ⟨fun both => by omega, fun room => ⟨by omega, ?_⟩⟩
  refine handed_whole env iface packet.destIp 6 _ ?_
  rw [segmentOf, store_field_length _ _ _ (by omega), unchecked, packetRoom]
  omega
end

def wifiEnvironment (default : Option Interface) (cache : List ArpEntry) (initialized : Bool) (behind : Nat → UInt8) :
    Environment := ⟨default, cache, some (wifiSend initialized), behind⟩

section
variable (default : Option Interface) (cache : List ArpEntry) (initialized : Bool) (behind : Nat → UInt8)

theorem wifi_takes (len : Nat) : Takes (wifiEnvironment default cache initialized behind) len ↔
    initialized = true ∧ len ≠ 0 ∧ len ≤ 2038 := by
  have refused (code : Int) (negative : code < 0) : ¬ 0 ≤ code := Int.not_le.mpr negative
  rw [Takes, netifCode, wifiEnvironment]
  dsimp only
  by_cases empty : len = 0
  · rw [if_pos empty]
    exact iff_of_false (refused _ (by decide)) fun both => both.2.1 empty
  rw [if_neg empty, wifiSend]
  by_cases refuses : initialized = false ∨ len = 0 ∨ pktBufSize - virtioNetHdrSize < len
  · rw [if_pos refuses]
    refine iff_of_false (refused _ (by decide)) fun both => ?_
    rcases refuses with off | none | long
    · rw [both.1] at off
      cases off
    · exact empty none
    · exact Nat.not_le.mpr long both.2.2
  · rw [if_neg refuses]
    rw [not_or, not_or, Bool.not_eq_false] at refuses
    exact iff_of_true (Int.natCast_nonneg len) ⟨refuses.1, empty, Nat.not_lt.mp refuses.2.2⟩

theorem refused_whole (len : Nat) (payload : List UInt8) : SendsWhole len payload ⟨[], [], -1⟩ :=
  ⟨nofun, Or.inl (by decide)⟩

theorem wifi_ip_whole (destIp : UInt32) (protocol : UInt8) (given : Option (List UInt8)) :
    SendsWhole (given.getD []).length (given.getD [])
        (ipSendCall (wifiEnvironment default cache initialized behind) destIp protocol given) ↔
      default = none ∨ given = none ∨ initialized = false ∨ (given.getD []).length ≤ 1466 ∨
        frameLength (given.getD []).length = 0 ∨ 2038 < frameLength (given.getD []).length := by
  cases default with
  | none => exact iff_of_true (refused_whole _ _) (Or.inl rfl)
  | some iface =>
      rw [or_iff_right (Option.some_ne_none iface)]
      cases given with
      | none => exact iff_of_true (refused_whole _ _) (Or.inl rfl)
      | some bytes =>
          rw [Option.getD_some, ip_sends_whole _ iface destIp protocol bytes rfl, wifi_takes, packetRoom,
            or_iff_right (Option.some_ne_none bytes)]
          cases initialized with
          | false => exact iff_of_true (fun taken => nomatch taken.1) (Or.inl rfl)
          | true =>
              have on : ¬ true = false := nofun
              rw [or_iff_right on, eq_self, true_and]
              omega

theorem wifi_udp_whole (destIp : UInt32) (destPort srcPort : UInt16) (data : List UInt8) :
    SendsWhole data.length (udpHeader srcPort destPort data.length ++ data)
        (udpSendPacketCall (wifiEnvironment default cache initialized behind) destIp destPort srcPort data) ↔
      default = none ∨ data.length % 65536 ≤ 1492 ∧ (initialized = true → data.length ≤ 1458) := by
  cases default with
  | none => exact iff_of_true (refused_whole _ _) (Or.inl rfl)
  | some iface =>
      rw [udp_sends_whole _ iface rfl, wifi_takes, or_iff_right (Option.some_ne_none iface)]
      refine and_congr_right fun fits => ?_
      have taken : initialized = true ∧ 42 + data.length % 65536 ≠ 0 ∧ 42 + data.length % 65536 ≤ 2038 ↔
          initialized = true := and_iff_left ⟨by omega, by omega⟩
      rw [taken]

theorem wifi_tcp_whole (packet : Packet) :
    SendsWhole packet.payload.length (segmentOf ((default.map Interface.ipAddr).getD 0) packet)
        (tcpSendPacketCall (wifiEnvironment default cache initialized behind) packet) ↔
      default = none ∨ packet.payload.length ≤ 1480 ∧ (initialized = true → packet.payload.length ≤ 1446) := by
  cases default with
  | none => exact iff_of_true (refused_whole _ _) (Or.inl rfl)
  | some iface =>
      rw [Option.map_some, Option.getD_some, tcp_sends_whole _ iface rfl, wifi_takes,
        or_iff_right (Option.some_ne_none iface)]
      refine and_congr_right fun fits => ?_
      have taken : initialized = true ∧ 54 + packet.payload.length ≠ 0 ∧ 54 + packet.payload.length ≤ 2038 ↔
          initialized = true := and_iff_left ⟨by omega, by omega⟩
      rw [taken]

theorem sends_whole_iff (destIp : UInt32) (protocol : UInt8) (given : Option (List UInt8)) (destPort srcPort : UInt16)
    (data : List UInt8) (packet : Packet) :
    (SendsWhole (given.getD []).length (given.getD [])
        (ipSendCall (wifiEnvironment default cache initialized behind) destIp protocol given) ↔
      default = none ∨ given = none ∨ initialized = false ∨ (given.getD []).length ≤ 1466 ∨
        frameLength (given.getD []).length = 0 ∨ 2038 < frameLength (given.getD []).length) ∧
    (SendsWhole data.length (udpHeader srcPort destPort data.length ++ data)
        (udpSendPacketCall (wifiEnvironment default cache initialized behind) destIp destPort srcPort data) ↔
      default = none ∨ data.length % 65536 ≤ 1492 ∧ (initialized = true → data.length ≤ 1458)) ∧
    (SendsWhole packet.payload.length (segmentOf ((default.map Interface.ipAddr).getD 0) packet)
        (tcpSendPacketCall (wifiEnvironment default cache initialized behind) packet) ↔
      default = none ∨ packet.payload.length ≤ 1480 ∧ (initialized = true → packet.payload.length ≤ 1446)) :=
  ⟨wifi_ip_whole default cache initialized behind destIp protocol given,
    wifi_udp_whole default cache initialized behind destIp destPort srcPort data,
    wifi_tcp_whole default cache initialized behind packet⟩
end

def largestPacket : Packet := ⟨0x0A000202, 80, 10007, 8, 501, flagPsh, 8192, List.replicate 1460 0⟩

theorem largest_not_whole : ¬ SendsWhole largestPacket.payload.length (segmentOf qemuInterface.ipAddr largestPacket)
    (tcpSendPacketCall (wifiEnvironment (some qemuInterface) [] true fun _ => 0) largestPacket) := by
  have length : largestPacket.payload.length = 1460 := List.length_replicate
  rw [tcp_sends_whole _ qemuInterface rfl, wifi_takes, length]
  intro sends
  exact absurd (sends.2 ⟨rfl, by decide, by decide⟩) (by decide)

end RoDos.Net
