import RoDos.Tcp.Checksum

set_option autoImplicit false

namespace RoDos.Tcp

open Base

structure Mac where
  bytes : List UInt8
  six : bytes.length = 6

structure ArpEntry where
  ip : UInt32
  mac : Mac
  valid : Bool

structure Interface where
  macAddr : Mac
  ipAddr : UInt32
  netmask : UInt32
  gateway : UInt32

def broadcast : Mac := ⟨List.replicate 6 0xFF, rfl⟩

def routerMac : Mac := ⟨[0x52, 0x55, 0x0A, 0x00, 0x02, 0x02], rfl⟩

def arpResolve (cache : List ArpEntry) (ipAddr : UInt32) : Option Mac :=
  (cache.find? fun entry => entry.valid && entry.ip = ipAddr).map ArpEntry.mac

def destMac (iface : Interface) (cache : List ArpEntry) (destIp : UInt32) : Mac :=
  if destIp &&& iface.netmask = iface.ipAddr &&& iface.netmask then (arpResolve cache destIp).getD broadcast
  else (arpResolve cache iface.gateway).getD routerMac

def ipHeader (srcIp destIp : UInt32) (protocol : UInt8) (len : Nat) : List UInt8 :=
  [0x45, 0] ++ bigEndian16 (UInt16.ofNat (20 + len)) ++ [0, 0, 0, 0, 64, protocol, 0, 0] ++ bigEndian srcIp ++
    bigEndian destIp

-- What packet[1500] has room for behind its headers.
def packetRoom : Nat := 1466

-- A longer payload is cut off, and the bytes that lie behind packet are sent in its place.
def ipSend (iface : Interface) (cache : List ArpEntry) (destIp : UInt32) (protocol : UInt8) (data : List UInt8)
    (behind : Nat → UInt8) : List UInt8 :=
  let header := ipHeader iface.ipAddr destIp protocol data.length
  (destMac iface cache destIp).bytes ++ iface.macAddr.bytes ++ [0x08, 0x00] ++ storeField header 10 (ipChecksum header) ++
    (data.take packetRoom ++ (List.range (data.length - packetRoom)).map behind)

-- icmp_process is not given the address that ip_receive has read.
inductive Received where
  | returned (code : Int)
  | arp (buffer : List UInt8)
  | upper (protocol : UInt8) (srcIp : UInt32) (payload : List UInt8)
deriving DecidableEq, Repr

def hasProcess (protocol : UInt8) : Bool := protocol = 1 ∨ protocol = 6 ∨ protocol = 17

def ipReceiveFrame (buffer : List UInt8) : Received :=
  if buffer.length < 14 then .returned (-1)
  else if buffer.getD 12 0 = 0x08 ∧ buffer.getD 13 0 = 0x06 then .arp buffer
  else if buffer.getD 12 0 ≠ 0x08 ∨ buffer.getD 13 0 ≠ 0x00 then .returned 0
  else if buffer.length < 34 then .returned (-1)
  else if hasProcess (buffer.getD 23 0) then
    .upper (buffer.getD 23 0) (fromBigEndian (buffer.drop 26)) (buffer.drop 34)
  else .returned 0

def ihlBytes (buffer : List UInt8) : Nat := (buffer.getD 14 0 % 16).toNat * 4

def totalLength (buffer : List UInt8) : Nat := 256 * (buffer.getD 16 0).toNat + (buffer.getD 17 0).toNat

structure Consistent (buffer : List UInt8) : Prop where
  ethertype : buffer.getD 12 0 = 0x08 ∧ buffer.getD 13 0 = 0x00
  version : buffer.getD 14 0 / 16 = 4
  minimal : 20 ≤ ihlBytes buffer
  header : ihlBytes buffer ≤ totalLength buffer
  whole : totalLength buffer ≤ buffer.length - 14

-- What the headers say about the datagram, in place of the length of the frame.
def ownPayload (buffer : List UInt8) : List UInt8 :=
  ((buffer.drop 14).drop (ihlBytes buffer)).take (totalLength buffer - ihlBytes buffer)

def HandsOwnPayload (buffer : List UInt8) : Prop :=
  ipReceiveFrame buffer =
    if hasProcess (buffer.getD 23 0) then .upper (buffer.getD 23 0) (fromBigEndian (buffer.drop 26)) (ownPayload buffer)
    else .returned 0

theorem receive_consistent (buffer : List UInt8) (consistent : Consistent buffer) : ipReceiveFrame buffer =
    if hasProcess (buffer.getD 23 0) then .upper (buffer.getD 23 0) (fromBigEndian (buffer.drop 26)) (buffer.drop 34)
    else .returned 0 := by
  obtain ⟨⟨high, low⟩, _, minimal, header, whole⟩ := consistent
  rw [ipReceiveFrame, if_neg (by omega), high, low, if_neg (by decide), if_neg (by decide), if_neg (by omega)]

theorem own_payload_length (buffer : List UInt8) (consistent : Consistent buffer) :
    (ownPayload buffer).length = totalLength buffer - ihlBytes buffer := by
  obtain ⟨_, _, minimal, header, whole⟩ := consistent
  simp only [ownPayload, List.length_take, List.length_drop]
  omega

theorem own_payload_iff (buffer : List UInt8) (consistent : Consistent buffer) :
    buffer.drop 34 = ownPayload buffer ↔ ihlBytes buffer = 20 ∧ totalLength buffer = buffer.length - 14 := by
  have own := own_payload_length buffer consistent
  obtain ⟨_, _, minimal, header, whole⟩ := consistent
  constructor
  · intro same
    have length := congrArg List.length same
    rw [own, List.length_drop] at length
    omega
  · rintro ⟨plain, unpadded⟩
    rw [ownPayload, plain, unpadded, List.drop_drop, List.take_of_length_le]
    rw [List.length_drop]
    omega

theorem from_big_endian (value : UInt32) (rest : List UInt8) : fromBigEndian (bigEndian value ++ rest) = value := by
  show ((value >>> 24).toUInt8.toUInt32 <<< 24) ||| ((value >>> 16).toUInt8.toUInt32 <<< 16) |||
    ((value >>> 8).toUInt8.toUInt32 <<< 8) ||| value.toUInt8.toUInt32 = value
  rw [← UInt32.toBitVec_inj]
  apply BitVec.eq_of_getLsbD_eq
  intro i inside
  have low : (8#32).toNat = 8 := rfl
  have middle : (16#32).toNat = 16 := rfl
  have high : (24#32).toNat = 24 := rfl
  simp only [UInt32.toBitVec_or, UInt32.toBitVec_shiftLeft, UInt8.toBitVec_toUInt32, UInt32.toBitVec_toUInt8,
    UInt32.toBitVec_shiftRight, BitVec.getLsbD_or, BitVec.getLsbD_setWidth, UInt32.toBitVec_ofNat, BitVec.reduceMod,
    BitVec.shiftLeft_eq', BitVec.ushiftRight_eq', BitVec.getLsbD_shiftLeft, BitVec.getLsbD_ushiftRight, low, middle, high]
  grind

theorem hands_own_payload (buffer : List UInt8) (consistent : Consistent buffer) : HandsOwnPayload buffer ↔
    (hasProcess (buffer.getD 23 0) = true → ihlBytes buffer = 20 ∧ totalLength buffer = buffer.length - 14) := by
  rw [HandsOwnPayload, receive_consistent buffer consistent]
  by_cases known : hasProcess (buffer.getD 23 0) = true
  · rw [if_pos known, if_pos known, ← own_payload_iff buffer consistent]
    constructor
    · intro same _
      injection same
    · intro same
      rw [same known]
  · rw [if_neg known, if_neg known]
    exact iff_of_true rfl fun claimed => absurd claimed known

section
variable (iface : Interface) (cache : List ArpEntry) (destIp : UInt32) (protocol : UInt8) (data : List UInt8)
  (behind : Nat → UInt8) (padding : List UInt8)

def sentPayload : List UInt8 := data.take packetRoom ++ (List.range (data.length - packetRoom)).map behind

theorem sent_split : ipSend iface cache destIp protocol data behind ++ padding =
    ((destMac iface cache destIp).bytes ++ iface.macAddr.bytes) ++ ([0x08, 0x00, 0x45, 0] ++
      bigEndian16 (UInt16.ofNat (20 + data.length)) ++ [0, 0, 0, 0, 64, protocol] ++
      stored (ipChecksum (ipHeader iface.ipAddr destIp protocol data.length)) ++
      (bigEndian iface.ipAddr ++ (bigEndian destIp ++ (sentPayload data behind ++ padding)))) := by
  have header (value : UInt16) : storeField (ipHeader iface.ipAddr destIp protocol data.length) 10 value =
      [0x45, 0] ++ bigEndian16 (UInt16.ofNat (20 + data.length)) ++ [0, 0, 0, 0, 64, protocol] ++ stored value ++
        bigEndian iface.ipAddr ++ bigEndian destIp := rfl
  simp only [ipSend, header, sentPayload, List.append_assoc]
  rfl

theorem sent_payload_length : (sentPayload data behind).length = data.length := by
  simp only [sentPayload, List.length_append, List.length_take, List.length_map, List.length_range]
  omega

theorem receive_sent : ipReceiveFrame (ipSend iface cache destIp protocol data behind ++ padding) =
    if hasProcess protocol then .upper protocol iface.ipAddr (sentPayload data behind ++ padding) else .returned 0 := by
  rw [sent_split]
  generalize macs : (destMac iface cache destIp).bytes ++ iface.macAddr.bytes = front
  have twelve : front.length = 12 := by
    rw [← macs, List.length_append, (destMac iface cache destIp).six, iface.macAddr.six]
  generalize payload : sentPayload data behind ++ padding = body
  generalize whole : [0x08, 0x00, 0x45, 0] ++ bigEndian16 (UInt16.ofNat (20 + data.length)) ++ [0, 0, 0, 0, 64, protocol] ++
    stored (ipChecksum (ipHeader iface.ipAddr destIp protocol data.length)) ++
    (bigEndian iface.ipAddr ++ (bigEndian destIp ++ body)) = rest
  have field (i : Nat) : (front ++ rest).getD (12 + i) 0 = rest.getD i 0 := twelve ▸ get_behind front rest i
  have tail (i : Nat) : (front ++ rest).drop (12 + i) = rest.drop i := by
    rw [← twelve, List.drop_length_add_append]
  have long : 22 ≤ rest.length := by
    rw [← whole]
    simp [bigEndian16, stored, bigEndian]
  have typeHigh : (front ++ rest).getD 12 0 = 0x08 := (field 0).trans (whole ▸ rfl)
  have typeLow : (front ++ rest).getD 13 0 = 0x00 := (field 1).trans (whole ▸ rfl)
  have kind : (front ++ rest).getD 23 0 = protocol := (field 11).trans (whole ▸ rfl)
  have source : fromBigEndian ((front ++ rest).drop 26) = iface.ipAddr := by
    rw [tail 14, ← whole]
    exact from_big_endian iface.ipAddr (bigEndian destIp ++ body)
  have upper : (front ++ rest).drop 34 = body := (tail 22).trans (whole ▸ rfl)
  rw [ipReceiveFrame, List.length_append, if_neg (by omega), typeHigh, typeLow, if_neg (by decide), if_neg (by decide),
    if_neg (by omega), kind, source, upper]

theorem sent_payload_iff : sentPayload data behind ++ padding = data ↔
    padding = [] ∧ data.drop packetRoom = (List.range (data.length - packetRoom)).map behind := by
  have length := sent_payload_length data behind
  constructor
  · intro same
    have lengths := congrArg List.length same
    rw [List.length_append, length] at lengths
    have none : padding = [] := List.length_eq_zero_iff.mp (by omega)
    rw [none, List.append_nil, sentPayload] at same
    have split := (List.take_append_drop packetRoom data).symm
    exact ⟨none, (List.append_cancel_left (same.trans split)).symm⟩
  · rintro ⟨none, rest⟩
    rw [none, List.append_nil, sentPayload, ← rest, List.take_append_drop]

theorem decodes_sent : ipReceiveFrame (ipSend iface cache destIp protocol data behind ++ padding) =
    .upper protocol iface.ipAddr data ↔ hasProcess protocol = true ∧ padding = [] ∧
      data.drop packetRoom = (List.range (data.length - packetRoom)).map behind := by
  rw [receive_sent, ← sent_payload_iff]
  by_cases known : hasProcess protocol = true
  · rw [if_pos known, Received.upper.injEq]
    simp [known]
  · rw [if_neg known]
    exact iff_of_false nofun fun claimed => known claimed.1
end

theorem datagrams_handed_on (buffer : List UInt8) (consistent : Consistent buffer) (iface : Interface)
    (cache : List ArpEntry) (destIp : UInt32) (protocol : UInt8) (data : List UInt8) (behind : Nat → UInt8)
    (padding : List UInt8) :
    (HandsOwnPayload buffer ↔
      (hasProcess (buffer.getD 23 0) = true → ihlBytes buffer = 20 ∧ totalLength buffer = buffer.length - 14)) ∧
    (ipReceiveFrame (ipSend iface cache destIp protocol data behind ++ padding) = .upper protocol iface.ipAddr data ↔
      hasProcess protocol = true ∧ padding = [] ∧
        data.drop packetRoom = (List.range (data.length - packetRoom)).map behind) :=
  ⟨hands_own_payload buffer consistent, decodes_sent iface cache destIp protocol data behind padding⟩

def qemuInterface : Interface := ⟨⟨[0x52, 0x54, 0, 0x12, 0x34, 0x56], rfl⟩, 0x0A00020F, 0xFFFFFF00, 0x0A000202⟩

def bareAck : List UInt8 :=
  ipSend qemuInterface [] 0x0A000202 6 (bareSegment 80 10007 8 501 flagAck) fun _ => 0

theorem bare_ack_consistent : Consistent bareAck ∧ Consistent (bareAck ++ List.replicate 6 0) :=
  ⟨⟨by decide +kernel, by decide +kernel, by decide +kernel, by decide +kernel, by decide +kernel⟩,
    ⟨by decide +kernel, by decide +kernel, by decide +kernel, by decide +kernel, by decide +kernel⟩⟩

theorem datagrams_handed_on_ack : HandsOwnPayload bareAck ∧
    ipReceiveFrame (ipSend qemuInterface [] 0x0A000202 6 [1, 2, 3] (fun _ => 0) ++ []) = .upper 6 0x0A00020F [1, 2, 3] := by
  have handed := datagrams_handed_on bareAck bare_ack_consistent.1 qemuInterface [] 0x0A000202 6 [1, 2, 3] (fun _ => 0) []
  exact ⟨handed.1.mpr fun _ => ⟨by decide +kernel, by decide +kernel⟩, handed.2.mpr ⟨by decide, rfl, by decide⟩⟩

-- The frame of the acknowledgement is padded to 60 bytes.
theorem datagrams_not_handed_on : ¬ ∀ buffer, Consistent buffer → HandsOwnPayload buffer := by
  intro claimed
  have handed := claimed (bareAck ++ List.replicate 6 0) bare_ack_consistent.2
  have padded := ((hands_own_payload _ bare_ack_consistent.2).mp handed (by decide +kernel)).2
  exact absurd padded (by decide +kernel)

end RoDos.Tcp
