import RoDos.Net.Stack

set_option autoImplicit false

namespace RoDos.Net

open Base Tcp Arp Dhcp Dns

def msgDiscover : UInt8 := 1

-- dhcp_add_option for the type of the message, and END behind it.
def discoverOptions : List UInt8 :=
  let added := dhcpAddOption 0 optMsgType 1 [msgDiscover]
  (zeroOptions.store (added.1 ++ [(added.2, optEnd)])).bytes

def discoverIpHeader : List UInt8 :=
  [0x45, 0] ++ bigEndian16 580 ++ bigEndian16 0x1234 ++ [0, 0, 64, 17, 0, 0] ++ bigEndian 0 ++ bigEndian 0xFFFFFFFF

-- The transaction ID goes out as it lies in memory.
def discoverPacket (client : DhcpClient) (macAddr : Mac) : List UInt8 :=
  [1, 1, 6, 0] ++ stored32 client.xid ++ [0, 0] ++ bigEndian16 0x8000 ++ List.replicate 16 0 ++
    (macAddr.bytes ++ List.replicate 10 0) ++ List.replicate 192 0 ++ bigEndian 0x63825363 ++ discoverOptions

-- The frame that dhcp_discover hands to netif_send.
def dhcpDiscover (client : DhcpClient) : Option NetworkInterface → Option (List UInt8)
  | none => none
  | some iface =>
      some (broadcast.bytes ++ iface.macAddr.bytes ++ [8, 0] ++ storeField discoverIpHeader 10 (dhcpChecksum discoverIpHeader) ++
        (bigEndian16 68 ++ bigEndian16 67 ++ bigEndian16 560 ++ [0, 0]) ++ discoverPacket client iface.macAddr)

-- What a server's answer is made of: headers of any addresses, the reply with any options, and any bytes behind them.
structure Answer where
  front : List UInt8
  long : front.length = 34
  ip : front.getD 12 0 = 0x08 ∧ front.getD 13 0 = 0x00 ∧ front.getD 23 0 = 17
  checksum : UInt16
  header : Buffer 240
  options : Buffer optionsSize
  items : List Item
  room : (encoding items).length + 1 ≤ optionsSize
  behind : List UInt8
  fits : behind.length ≤ 1024

def Answer.udp (answer : Answer) : List UInt8 :=
  bigEndian16 67 ++ bigEndian16 68 ++ bigEndian16 (UInt16.ofNat (560 + answer.behind.length)) ++ bigEndian16 answer.checksum

def Answer.frame (answer : Answer) : List UInt8 :=
  answer.front ++ (answer.udp ++ packetWith answer.header answer.options answer.items answer.behind)

structure Answer.Offers (answer : Answer) (discover : List UInt8) : Prop where
  kind : (lastValue answer.items optMsgType).map (fun value => value.getD 0 0) = some dhcpOffer
  echo : native32 answer.header.bytes 4 = native32 discover 46

theorem native_stored (value : UInt32) : native32 (stored32 value) 0 = value := by
  have back : htonl (native32 (stored32 value) 0) = htonl value := by
    rw [htonl_native, ← htonl_htonl value, stored_htonl]
    exact (from_big_endian _ []).trans (htonl_htonl _).symm
  rw [← htonl_htonl (native32 (stored32 value) 0), back, htonl_htonl]

theorem discover_sealed : endAround (bigSum (storeField discoverIpHeader 10 (dhcpChecksum discoverIpHeader))) = 0xFFFF := by
  decide +kernel

section
variable (client : DhcpClient) (iface : NetworkInterface) (discover : List UInt8) (sent : dhcpDiscover client (some iface) = some discover)
include sent

theorem discover_split : discover = broadcast.bytes ++ iface.macAddr.bytes ++ [8, 0] ++
    storeField discoverIpHeader 10 (dhcpChecksum discoverIpHeader) ++
      (bigEndian16 68 ++ bigEndian16 67 ++ bigEndian16 560 ++ [0, 0]) ++ discoverPacket client iface.macAddr :=
  (Option.some.inj sent).symm

theorem discover_length : discover.length = 594 := by
  have options : discoverOptions.length = 312 := by decide +kernel
  have header : (storeField discoverIpHeader 10 (dhcpChecksum discoverIpHeader)).length = 20 := by decide +kernel
  have xid : (stored32 client.xid).length = 4 := rfl
  have packet : (discoverPacket client iface.macAddr).length = 552 := by
    simp only [discoverPacket, List.length_append, options, iface.macAddr.six, half_length, word_length, xid, List.length_replicate,
      List.length_cons, List.length_nil]
  rw [discover_split client iface discover sent]
  simp only [List.length_append, packet, header, broadcast.six, iface.macAddr.six, half_length, List.length_cons, List.length_nil]

omit sent in
theorem mac_bytes (mac : Mac) : ∃ a b c d e f, mac.bytes = [a, b, c, d, e, f] := by
  obtain ⟨bytes, six⟩ := mac
  match bytes, six with
  | [a, b, c, d, e, f], _ => exact ⟨a, b, c, d, e, f, rfl⟩

theorem discover_fields : (discover.getD 12 0, discover.getD 13 0, discover.getD 14 0, discover.getD 16 0, discover.getD 17 0) =
    (0x08, 0x00, 0x45, 2, 68) ∧ discover.getD 23 0 = 17 ∧ native32 discover 46 = client.xid := by
  obtain ⟨a, b, c, d, e, f, bytes⟩ := mac_bytes iface.macAddr
  rw [discover_split client iface discover sent, discoverPacket, bytes]
  exact ⟨rfl, rfl, native_stored client.xid⟩
end

theorem poll_frame_received (stack : Stack) (bytes : List UInt8) (some' : 0 < bytes.length) (fits : bytes.length ≤ rxRoom) :
    pollStep stack (.frame bytes) = receiveFrame (counted stack bytes) (loaded stack bytes) bytes := by
  have taken : ¬ (bytes = [] ∨ rxRoom < bytes.length) :=
    not_or.mpr ⟨List.ne_nil_of_length_pos some', Nat.not_lt.mpr fits⟩
  rw [pollStep, if_neg taken]
  rfl

section
variable (answer : Answer)

theorem half_word (front rest : List UInt8) (value : UInt16) :
    beWord (front ++ (bigEndian16 value ++ rest)) front.length = value.toNat := by
  rw [beWord, Nat.mul_comm]
  exact half_behind front rest value

theorem udp_length : answer.udp.length = 8 := rfl

theorem answer_length : answer.frame.length = 594 + answer.behind.length := by
  rw [Answer.frame, packetWith, List.length_append, List.length_append, List.length_append, List.length_append, answer.long,
    udp_length, answer.header.width, Buffer.width, optionsSize]
  omega

theorem udp_fields (rest : List UInt8) : beWord (answer.udp ++ rest) 0 = 67 ∧ beWord (answer.udp ++ rest) 2 = 68 ∧
    beWord (answer.udp ++ rest) 4 = 560 + answer.behind.length := by
  have short := answer.fits
  have size : (UInt16.ofNat (560 + answer.behind.length)).toNat = 560 + answer.behind.length :=
    UInt16.toNat_ofNat_of_lt' (Nat.lt_of_le_of_lt (Nat.add_le_add_left short 560) (by decide))
  rw [Answer.udp, List.append_assoc, List.append_assoc, List.append_assoc]
  refine ⟨half_word [] _ 67, half_word (bigEndian16 67) _ 68, ?_⟩
  have word := half_word (bigEndian16 67 ++ bigEndian16 68) (bigEndian16 answer.checksum ++ rest)
    (UInt16.ofNat (560 + answer.behind.length))
  rw [size] at word
  exact word

theorem answer_dispatched : ∃ srcIp, ipReceiveFrame answer.frame = .upper 17 srcIp (answer.frame.drop 34) := by
  have length := answer_length answer
  have get (i : Nat) (inside : i < 34) : answer.frame.getD i 0 = answer.front.getD i 0 :=
    front_get _ _ i (by rw [answer.long]; exact inside)
  obtain ⟨high, low, protocol⟩ := answer.ip
  rw [ipReceiveFrame, get 12 (by decide), get 13 (by decide), get 23 (by decide), high, low, protocol, if_neg (by omega),
    if_neg (by decide), if_neg (by decide), if_neg (by omega), if_pos (by decide)]
  exact ⟨_, rfl⟩

theorem answer_packet (more : List UInt8) : (answer.frame ++ more).drop 34 =
    answer.udp ++ packetWith answer.header answer.options answer.items (answer.behind ++ more) := by
  rw [Answer.frame, List.append_assoc, List.drop_left' answer.long, packetWith, packetWith]
  simp only [List.append_assoc]

variable (stack : Stack) (kind : (lastValue answer.items optMsgType).map (fun value => value.getD 0 0) = some dhcpOffer)
  (echo : native32 answer.header.bytes 4 = stack.client.xid)
include kind echo

theorem offer_processed (more : List UInt8) : dhcpProcess stack.client (some stack.iface)
    (some (packetWith answer.header answer.options answer.items (answer.behind ++ more)))
      (UInt32.ofNat ((560 + answer.behind.length + 2 ^ 32 - 8) % 2 ^ 32)) =
    (⟨stack.client.xid, yourAddress answer.header, (seen (parseStart stack.client) answer.items).serverIp⟩,
      some (offered stack.iface answer.header answer.items), 1) := by
  have short := answer.fits
  have length : (560 + answer.behind.length + 2 ^ 32 - 8) % 2 ^ 32 = 552 + answer.behind.length := by omega
  have full : 552 ≤ UInt32.ofNat (552 + answer.behind.length) := by
    rw [UInt32.le_iff_toNat_le, UInt32.toNat_ofNat_of_lt' (Nat.lt_of_le_of_lt (Nat.add_le_add_left short 552) (by decide))]
    exact Nat.le_add_right 552 _
  have offer : (seen (parseStart stack.client) answer.items).msgType = dhcpOffer := by rw [seen, kind]; rfl
  rw [length, process_seen stack.client stack.iface answer.header answer.options answer.items (answer.behind ++ more) answer.room _ full
    echo, if_pos offer]

theorem offer_polled : ∃ after, pollStep stack (.frame answer.frame) = some after ∧
    after.iface = offered stack.iface answer.header answer.items ∧ after.host = stack.host ∧ after.cache = stack.cache ∧
    after.replies = stack.replies ∧ after.lastDnsIp = stack.lastDnsIp := by
  have length := answer_length answer
  have short := answer.fits
  obtain ⟨srcIp, upper⟩ := answer_dispatched answer
  have processed := offer_processed answer stack kind echo (stack.rxBuffer.drop answer.frame.length)
  have packet : (loaded stack answer.frame).drop 34 = answer.udp ++ packetWith answer.header answer.options answer.items
      (answer.behind ++ stack.rxBuffer.drop answer.frame.length) := answer_packet answer _
  obtain ⟨source, dest, size⟩ := udp_fields answer (packetWith answer.header answer.options answer.items
    (answer.behind ++ stack.rxBuffer.drop answer.frame.length))
  have enough : ¬ (answer.frame.drop 34).length < 8 := by
    rw [List.length_drop]
    omega
  have received : pollStep stack (.frame answer.frame) =
      udpReceive (counted stack answer.frame) ((loaded stack answer.frame).drop 34) (answer.frame.drop 34).length := by
    rw [poll_frame_received stack answer.frame (by omega) (by rw [rxRoom]; omega), receiveFrame, upper]
    rfl
  have client : (counted stack answer.frame).client = stack.client := rfl
  have iface : (counted stack answer.frame).iface = stack.iface := rfl
  rw [received, udpReceive, if_neg enough, packet]
  dsimp only
  rw [if_pos ⟨source, dest⟩, size, List.drop_left' (udp_length answer), client, iface, processed]
  exact ⟨_, rfl, rfl, rfl, rfl, rfl, rfl⟩
end

theorem request_polled (stack : Stack) (asker : Interface) (dest targetMac : Mac) (padding : List UInt8)
    (fits : 42 + padding.length ≤ rxRoom) :
    ∃ later, pollStep stack (.frame (requestOf asker dest targetMac stack.iface.ipAddr ++ padding)) = some later ∧
      later.replies = stack.replies ++ [answerOf stack.iface.toInterface asker] := by
  generalize known : requestOf asker dest targetMac stack.iface.ipAddr ++ padding = frame
  have size : frame.length = 42 + padding.length := by
    rw [← known, requestOf, frame_split]
    simp only [List.length_append, framed_header_length, half_length, word_length, Mac.six]
    omega
  have arp : ipReceiveFrame frame = .arp frame := by
    rw [← known]
    exact frame_dispatched dest asker.macAddr _ padding
  have answered : arpProcess (some stack.iface.toInterface) stack.cache frame = (stack.cache, [answerOf stack.iface.toInterface asker], 1) := by
    rw [← known]
    exact request_answered stack.iface.toInterface asker stack.cache dest targetMac padding
  have received : pollStep stack (.frame frame) = some { counted stack frame with
      cache := (arpProcess (some stack.iface.toInterface) stack.cache frame).1
      replies := stack.replies ++ (arpProcess (some stack.iface.toInterface) stack.cache frame).2.1 } := by
    rw [poll_frame_received stack frame (by omega) (by omega), receiveFrame, arp]
    rfl
  rw [received, answered]
  exact ⟨_, rfl, rfl⟩

def Polled.Dhcp : Polled → Prop
  | .frame bytes => kindOf bytes = .dhcp
  | _ => False

theorem poll_keeps_iface (stack : Stack) (poll : Polled) (next : Stack) (other : ¬ poll.Dhcp)
    (taken : pollStep stack poll = some next) : next.iface = stack.iface := by
  cases poll with
  | nothing => cases taken; rfl
  | failed => cases taken; rfl
  | frame bytes =>
      cases poll_frame_cases stack next bytes taken with
      | other kind same => rw [same]; rfl
      | arp kind same => rw [same]; rfl
      | tcp srcIp packet kind host arrived same => rw [same]; rfl
      | dhcp kind done processed same => exact absurd kind other
      | dns kind stored parsed same => rw [same]; rfl

theorem discover_leads_to_answers (stack : Stack) (discover : List UInt8)
    (sent : dhcpDiscover stack.client (some stack.iface) = some discover) (answer : Answer) (offers : answer.Offers discover) :
    Consistent discover ∧ endAround (bigSum ((discover.drop 14).take 20)) = 0xFFFF ∧
    ∃ after, pollStep stack (.frame answer.frame) = some after ∧ after.iface = offered stack.iface answer.header answer.items ∧
      after.host = stack.host ∧ after.cache = stack.cache ∧ after.replies = stack.replies ∧ after.lastDnsIp = stack.lastDnsIp ∧
      ∀ (polls : List Polled) (reached : Stack), (∀ poll ∈ polls, ¬ poll.Dhcp) → runAll pollStep after polls = some reached →
        reached.iface = after.iface ∧ ∀ (asker : Interface) (dest targetMac : Mac) (padding : List UInt8),
          42 + padding.length ≤ rxRoom →
            ∃ later, pollStep reached (.frame (requestOf asker dest targetMac (yourAddress answer.header) ++ padding)) = some later ∧
              later.replies = reached.replies ++ [answerOf after.iface.toInterface asker] := by
  have length := discover_length stack.client stack.iface discover sent
  obtain ⟨fields, protocol, xid⟩ := discover_fields stack.client stack.iface discover sent
  simp only [Prod.mk.injEq] at fields
  obtain ⟨high, low, version, size, rest⟩ := fields
  refine ⟨?_, ?_, ?_⟩
  · have header : ihlBytes discover = 20 := by rw [ihlBytes, version]; rfl
    have total : totalLength discover = 580 := by rw [totalLength, size, rest]; rfl
    exact ⟨⟨high, low⟩, by rw [version]; rfl, by omega, by omega, by omega⟩
  · have front : (broadcast.bytes ++ stack.iface.macAddr.bytes ++ [8, 0]).length = 14 := by
      rw [List.length_append, List.length_append, broadcast.six, stack.iface.macAddr.six]
      rfl
    have header : (storeField discoverIpHeader 10 (dhcpChecksum discoverIpHeader)).length = 20 := by decide +kernel
    rw [discover_split stack.client stack.iface discover sent, List.append_assoc, List.append_assoc, List.drop_left' front,
      List.take_left' header]
    exact discover_sealed
  · obtain ⟨after, polled, iface, host, cache, replies, dns⟩ :=
      offer_polled answer stack offers.kind (offers.echo.trans xid)
    refine ⟨after, polled, iface, host, cache, replies, dns, fun polls reached others run => ?_⟩
    have kept := run_all_kept pollStep Stack.iface (¬ ·.Dhcp) poll_keeps_iface after reached polls others run
    have address : reached.iface.ipAddr = yourAddress answer.header := by rw [kept, iface, offered]
    refine ⟨kept, fun asker dest targetMac padding fits => ?_⟩
    obtain ⟨later, asked, answered⟩ := request_polled reached asker dest targetMac padding fits
    rw [address] at asked
    exact ⟨later, asked, by rw [answered, kept]⟩

def routerAnswer : Answer where
  front := broadcast.bytes ++ routerMac.bytes ++ [8, 0] ++ ipHeader 0x0A000202 0xFFFFFFFF 17 560
  long := by decide
  ip := by decide
  checksum := 0
  header := replyHeader
  options := zeroOptions
  items := [.option offerType, .option routerOption]
  room := by decide
  behind := []
  fits := by decide

def routerRequest : List UInt8 := requestOf routerInterface broadcast broadcast 0x0A00020F ++ []

theorem discover_leads_to_answers_router : ∃ after reached later, pollStep bootStack (.frame routerAnswer.frame) = some after ∧
    runAll pollStep after [.frame routerRequest, .nothing] = some reached ∧ pollStep reached (.frame routerRequest) = some later ∧
    later.replies = [answerOf after.iface.toInterface routerInterface, answerOf after.iface.toInterface routerInterface] := by
  have offers : routerAnswer.Offers (broadcast.bytes ++ unconfigured.macAddr.bytes ++ [8, 0] ++
      storeField discoverIpHeader 10 (dhcpChecksum discoverIpHeader) ++
        (bigEndian16 68 ++ bigEndian16 67 ++ bigEndian16 560 ++ [0, 0]) ++ discoverPacket expecting unconfigured.macAddr) :=
    ⟨by decide +kernel, by decide +kernel⟩
  have address : yourAddress routerAnswer.header = 0x0A00020F := by decide +kernel
  have asks : ∀ poll ∈ [Polled.frame routerRequest, .nothing], ¬ poll.Dhcp := by
    have arp : kindOf routerRequest = .arp := by decide +kernel
    exact List.forall_mem_cons.mpr ⟨fun dhcp => Kind.noConfusion (arp.symm.trans dhcp), List.forall_mem_singleton.mpr id⟩
  obtain ⟨_, _, after, polled, _, _, _, none', _, answers⟩ := discover_leads_to_answers bootStack _ rfl routerAnswer offers
  obtain ⟨_, first⟩ := answers [] after nofun rfl
  obtain ⟨reached, asked, answered⟩ := first routerInterface broadcast broadcast [] (by decide)
  rw [address] at asked
  have run : runAll pollStep after [.frame routerRequest, .nothing] = some reached := by
    rw [runAll, routerRequest, asked]
    rfl
  obtain ⟨_, second⟩ := answers _ reached asks run
  obtain ⟨later, again, both⟩ := second routerInterface broadcast broadcast [] (by decide)
  rw [address] at again
  refine ⟨after, reached, later, polled, run, again, ?_⟩
  rw [both, answered, none']
  rfl

end RoDos.Net
