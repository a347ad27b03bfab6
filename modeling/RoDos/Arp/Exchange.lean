import RoDos.Arp.Cache
import RoDos.Net.Words

set_option autoImplicit false

namespace RoDos.Arp

open Base Tcp Net

def ethTypeArp : UInt16 := 0x0806

def opRequest : UInt16 := 1

def opReply : UInt16 := 2

def macAt (buffer : List UInt8) (i : Nat) : Mac :=
  ⟨(List.range 6).map fun j => buffer.getD (i + j) 0, by rw [List.length_map, List.length_range]⟩

-- The fields behind the Ethernet header, at 14: opcode at 20, sender at 22 and 28, target at 32 and 38.
def buildReply (iface : Interface) (buffer : List UInt8) : List UInt8 :=
  (macAt buffer 22).bytes ++ iface.macAddr.bytes ++ stored (htons ethTypeArp) ++
    (stored (htons 1) ++ stored (htons 0x0800) ++ [6, 4] ++ stored (htons opReply)) ++ iface.macAddr.bytes ++
    stored32 (htonl iface.ipAddr) ++ (macAt buffer 22).bytes ++ stored32 (native32 buffer 28)

def arpProcess (default : Option Interface) (cache : ArpCache) (buffer : List UInt8) : ArpCache × List (List UInt8) × Int :=
  if buffer.length < 42 then (cache, [], -1)
  else
    match default with
    | none => (cache, [], -1)
    | some iface =>
        let opcode := htons (native16 buffer 20)
        if opcode = opRequest ∧ native32 buffer 38 = htonl iface.ipAddr then (cache, [buildReply iface buffer], 1)
        else if opcode = opReply then
          ((arpAddEntry cache (htonl (native32 buffer 28)) (some (macAt buffer 22))).1, [], 0)
        else (cache, [], 0)

structure ArpMessage where
  opcode : UInt16
  senderMac : Mac
  senderIp : UInt32
  targetMac : Mac
  targetIp : UInt32

def arpFrame (dest source : Mac) (message : ArpMessage) : List UInt8 :=
  dest.bytes ++ source.bytes ++ [0x08, 0x06] ++ ([0, 1, 8, 0, 6, 4] ++ bigEndian16 message.opcode) ++
    message.senderMac.bytes ++ bigEndian message.senderIp ++ message.targetMac.bytes ++ bigEndian message.targetIp

def requestOf (host : Interface) (dest targetMac : Mac) (targetIp : UInt32) : List UInt8 :=
  arpFrame dest host.macAddr ⟨opRequest, host.macAddr, host.ipAddr, targetMac, targetIp⟩

def answerOf (host asker : Interface) : List UInt8 :=
  arpFrame asker.macAddr host.macAddr ⟨opReply, host.macAddr, host.ipAddr, asker.macAddr, asker.ipAddr⟩

@[ext]
theorem mac_ext (one two : Mac) (same : one.bytes = two.bytes) : one = two := by
  cases one
  cases two
  cases same
  rfl

section
variable (front rest : List UInt8)

theorem mac_at (mac : Mac) : macAt (front ++ (mac.bytes ++ rest)) front.length = mac := by
  apply mac_ext
  refine List.ext_getElem ((macAt _ _).six.trans mac.six.symm) fun j here there => ?_
  simp only [macAt, List.getElem_map, List.getElem_range]
  rw [get_behind, List.getD_append _ _ _ _ there, List.getD_eq_getElem _ _ there]

theorem word_at (value : UInt32) : htonl (native32 (front ++ (bigEndian value ++ rest)) front.length) = value := by
  rw [htonl_native, List.drop_left, from_big_endian]

theorem half_at (value : UInt16) : htons (native16 (front ++ (bigEndian16 value ++ rest)) front.length) = value := by
  rw [← UInt16.toNat_inj, htons_native]
  exact half_behind front rest value
end

section
variable (dest source : Mac) (message : ArpMessage) (padding : List UInt8)

def framedHeader (dest source : Mac) : List UInt8 := dest.bytes ++ source.bytes ++ [0x08, 0x06, 0, 1, 8, 0, 6, 4]

theorem framed_header_length : (framedHeader dest source).length = 20 := by
  rw [framedHeader, List.length_append, List.length_append, dest.six, source.six]
  rfl

theorem frame_split : arpFrame dest source message ++ padding =
    framedHeader dest source ++ (bigEndian16 message.opcode ++ (message.senderMac.bytes ++ (bigEndian message.senderIp ++
      (message.targetMac.bytes ++ (bigEndian message.targetIp ++ padding))))) := by
  simp only [arpFrame, framedHeader, List.append_assoc, List.cons_append, List.nil_append]

theorem frame_opcode : htons (native16 (arpFrame dest source message ++ padding) 20) = message.opcode := by
  rw [frame_split, ← framed_header_length dest source, half_at]

theorem frame_sender : macAt (arpFrame dest source message ++ padding) 22 = message.senderMac := by
  have front : (framedHeader dest source ++ bigEndian16 message.opcode).length = 22 := by
    rw [List.length_append, framed_header_length]
    rfl
  rw [frame_split, ← List.append_assoc, ← front, mac_at]

theorem frame_sender_ip : htonl (native32 (arpFrame dest source message ++ padding) 28) = message.senderIp := by
  have front : (framedHeader dest source ++ bigEndian16 message.opcode ++ message.senderMac.bytes).length = 28 := by
    rw [List.length_append, List.length_append, framed_header_length, message.senderMac.six]
    rfl
  rw [frame_split, ← List.append_assoc, ← List.append_assoc, ← front, word_at]

theorem frame_target_ip : htonl (native32 (arpFrame dest source message ++ padding) 38) = message.targetIp := by
  have front : (framedHeader dest source ++ bigEndian16 message.opcode ++ message.senderMac.bytes ++
      bigEndian message.senderIp ++ message.targetMac.bytes).length = 38 := by
    rw [List.length_append, List.length_append, List.length_append, List.length_append, framed_header_length,
      message.senderMac.six, message.targetMac.six]
    rfl
  rw [frame_split, ← List.append_assoc, ← List.append_assoc, ← List.append_assoc, ← List.append_assoc, ← front, word_at]

theorem frame_length : 42 ≤ (arpFrame dest source message ++ padding).length := by
  simp only [frame_split, List.length_append, framed_header_length, message.senderMac.six, message.targetMac.six,
    half_length, word_length]
  omega

theorem frame_dispatched :
    ipReceiveFrame (arpFrame dest source message ++ padding) = .arp (arpFrame dest source message ++ padding) := by
  have long := frame_length dest source message padding
  have twelve : (dest.bytes ++ source.bytes).length = 12 := by rw [List.length_append, dest.six, source.six]
  have kind (i : Nat) (inside : i < 2) :
      (arpFrame dest source message ++ padding).getD (12 + i) 0 = ([0x08, 0x06] : List UInt8).getD i 0 := by
    rw [arpFrame, List.append_assoc, List.append_assoc, List.append_assoc, List.append_assoc, List.append_assoc,
      List.append_assoc, ← twelve, get_behind, List.getD_append _ _ _ _ inside]
  rw [ipReceiveFrame, if_neg (by omega), if_pos ⟨kind 0 Nat.two_pos, kind 1 Nat.one_lt_two⟩]

variable (host : Interface) (cache : ArpCache)

theorem reply_built : buildReply host (arpFrame dest source message ++ padding) =
    arpFrame message.senderMac host.macAddr ⟨opReply, host.macAddr, host.ipAddr, message.senderMac, message.senderIp⟩ := by
  have sender : stored32 (native32 (arpFrame dest source message ++ padding) 28) = bigEndian message.senderIp := by
    rw [← htonl_htonl (native32 _ 28), stored_htonl, frame_sender_ip]
  have header : stored (htons 1) ++ stored (htons 0x0800) ++ [6, 4] ++ stored (htons opReply) =
      [0, 1, 8, 0, 6, 4] ++ bigEndian16 opReply := by decide +kernel
  have kind : stored (htons ethTypeArp) = [0x08, 0x06] := by decide +kernel
  rw [buildReply, sender, stored_htonl, frame_sender, header, kind, arpFrame]

theorem frame_for_host : native32 (arpFrame dest source message ++ padding) 38 = htonl host.ipAddr ↔
    message.targetIp = host.ipAddr := by
  have target := frame_target_ip dest source message padding
  constructor
  · intro same
    rw [← target, same, htonl_htonl]
  · intro same
    rw [← same, ← target, htonl_htonl]

theorem process_frame : arpProcess (some host) cache (arpFrame dest source message ++ padding) =
    if message.opcode = opRequest ∧ message.targetIp = host.ipAddr then
      (cache, [arpFrame message.senderMac host.macAddr
        ⟨opReply, host.macAddr, host.ipAddr, message.senderMac, message.senderIp⟩], 1)
    else if message.opcode = opReply then ((arpAddEntry cache message.senderIp (some message.senderMac)).1, [], 0)
    else (cache, [], 0) := by
  have long := frame_length dest source message padding
  rw [arpProcess, if_neg (Nat.not_lt.mpr long)]
  simp only [frame_opcode, frame_for_host, reply_built, frame_sender, frame_sender_ip]
end

section
variable (host asker : Interface) (cache : ArpCache) (dest targetMac : Mac) (targetIp : UInt32) (padding : List UInt8)

theorem request_answered : arpProcess (some host) cache (requestOf asker dest targetMac host.ipAddr ++ padding) =
    (cache, [answerOf host asker], 1) := by
  rw [requestOf, process_frame, if_pos ⟨rfl, rfl⟩, answerOf]

theorem request_ignored (other : targetIp ≠ host.ipAddr) :
    arpProcess (some host) cache (requestOf asker dest targetMac targetIp ++ padding) = (cache, [], 0) := by
  have plain : opRequest ≠ opReply := by decide
  rw [requestOf, process_frame, if_neg fun both => other both.2, if_neg plain]

theorem answer_learnt : arpProcess (some asker) cache (answerOf host asker ++ padding) =
    ((arpAddEntry cache host.ipAddr (some host.macAddr)).1, [], 0) := by
  have plain : opReply ≠ opRequest := by decide
  rw [answerOf, process_frame, if_neg fun both => plain both.1, if_pos rfl]
end

theorem answer_resolves (cache : ArpCache) (ipAddr : UInt32) (macAddr : Mac)
    (unknown : arpResolve cache.entries ipAddr = none) :
    arpResolve (arpAddEntry cache ipAddr (some macAddr)).1.entries ipAddr = some macAddr := by
  rw [resolve_slots] at unknown ⊢
  rw [added_slots]
  exact find_slot_written _ _ _ _ (slot_inside cache) unknown

theorem requests_answered_once (a b : Interface) (cacheA cacheB : ArpCache) (dest targetMac : Mac) (targetIp : UInt32)
    (padding fill : List UInt8) :
    arpProcess (some a) cacheA (requestOf b dest targetMac a.ipAddr ++ padding) = (cacheA, [answerOf a b], 1) ∧
    (arpResolve cacheB.entries a.ipAddr = none →
      ∃ learnt, arpProcess (some b) cacheB (answerOf a b ++ fill) = (learnt, [], 0) ∧
        arpResolve learnt.entries a.ipAddr = some a.macAddr) ∧
    (targetIp ≠ a.ipAddr →
      arpProcess (some a) cacheA (requestOf b dest targetMac targetIp ++ padding) = (cacheA, [], 0)) :=
  ⟨request_answered a b cacheA dest targetMac padding,
    fun unknown => ⟨_, answer_learnt a b cacheB fill, answer_resolves cacheB a.ipAddr a.macAddr unknown⟩,
    request_ignored a b cacheA dest targetMac targetIp padding⟩

def routerInterface : Interface := ⟨routerMac, 0x0A000202, 0xFFFFFF00, 0x0A000202⟩

theorem requests_answered_once_router :
    ∃ learnt, arpProcess (some qemuInterface) emptyCache (answerOf routerInterface qemuInterface ++ []) = (learnt, [], 0) ∧
      arpResolve learnt.entries routerInterface.ipAddr = some routerMac :=
  (requests_answered_once routerInterface qemuInterface emptyCache emptyCache broadcast broadcast 0 [] []).2.1 rfl

end RoDos.Arp
