import RoDos.Arp.Exchange
import RoDos.Dhcp.Routing
import RoDos.Dns.Model
import RoDos.Tcp.Socket

set_option autoImplicit false

namespace RoDos.Net

open Base Tcp Arp Dhcp Dns

structure Statistics where
  rxPackets : UInt64
  rxBytes : UInt64
  rxErrors : UInt64
deriving DecidableEq, Repr

-- What a call of recv_packet brings.
inductive Polled where
  | nothing
  | failed
  | frame (bytes : List UInt8)
deriving DecidableEq, Repr

-- The default interface with its counters, rx_buffer, and the variables of the protocols. replies are the frames that
-- arp_process has sent.
structure Stack where
  iface : NetworkInterface
  statistics : Statistics
  rxBuffer : List UInt8
  cache : ArpCache
  replies : List (List UInt8)
  host : Host
  client : DhcpClient
  lastDnsIp : UInt32

def udpReceive (stack : Stack) (packet : List UInt8) (len : Nat) : Option Stack :=
  if len < 8 then some stack
  else
    let payloadLen := (beWord packet 4 + 2 ^ 32 - 8) % 2 ^ 32
    if beWord packet 0 = 67 ∧ beWord packet 2 = 68 then
      let done := dhcpProcess stack.client (some stack.iface) (some (packet.drop 8)) (UInt32.ofNat payloadLen)
      some { stack with client := done.1, iface := done.2.1.getD stack.iface }
    else (udpProcess packet len).map fun stored => { stack with lastDnsIp := stored.getD stack.lastDnsIp }

-- buffer is rx_buffer with the frame at its start; icmp_process changes nothing.
def receiveFrame (stack : Stack) (buffer frame : List UInt8) : Option Stack :=
  match ipReceiveFrame frame with
  | .returned _ => some stack
  | .arp own =>
      let done := arpProcess (some stack.iface.toInterface) stack.cache own
      some { stack with cache := done.1, replies := stack.replies ++ done.2.1 }
  | .upper protocol srcIp payload =>
      if protocol = 6 then (arrive stack.host srcIp payload).map fun host => { stack with host := host }
      else if protocol = 17 then udpReceive stack (buffer.drop 34) payload.length
      else some stack

def rxRoom : Nat := 2048

-- netif_poll with a default interface. none where a walk leaves rx_buffer, and for what recv_packet does not return.
def pollStep (stack : Stack) : Polled → Option Stack
  | .nothing => some stack
  | .failed => some { stack with statistics := { stack.statistics with rxErrors := stack.statistics.rxErrors + 1 } }
  | .frame bytes =>
      if bytes = [] ∨ rxRoom < bytes.length then none
      else
        let buffer := bytes ++ stack.rxBuffer.drop bytes.length
        receiveFrame { stack with
          rxBuffer := buffer
          statistics := { stack.statistics with
            rxPackets := stack.statistics.rxPackets + 1, rxBytes := stack.statistics.rxBytes + UInt64.ofNat bytes.length } }
          buffer bytes

inductive Kind where
  | none
  | arp
  | tcp (srcIp : UInt32) (packet : List UInt8)
  | dhcp
  | dns
deriving DecidableEq, Repr

def kindOf (frame : List UInt8) : Kind :=
  match ipReceiveFrame frame with
  | .returned _ => .none
  | .arp _ => .arp
  | .upper protocol srcIp payload =>
      if protocol = 6 then .tcp srcIp payload
      else if protocol = 17 ∧ 8 ≤ payload.length then
        if beWord payload 0 = 67 ∧ beWord payload 2 = 68 then .dhcp else .dns
      else .none

structure OwnBytes (frame : List UInt8) : Prop where
  options : kindOf frame = .dhcp → 282 ≤ frame.length ∧ Laid 0 (received (frame.drop 42))
  records : kindOf frame = .dns → udpProcess (frame.drop 34) (frame.drop 34).length ≠ none

section
variable (front more : List UInt8)

theorem front_get (i : Nat) (inside : i < front.length) : (front ++ more).getD i 0 = front.getD i 0 :=
  List.getD_append _ _ _ _ inside

theorem front_native (i : Nat) (inside : i + 4 ≤ front.length) : native32 (front ++ more) i = native32 front i := by
  rw [native32, front_get front more i (by omega), front_get front more (i + 1) (by omega),
    front_get front more (i + 2) (by omega), front_get front more (i + 3) (by omega), native32]

theorem front_word (i : Nat) (inside : i + 2 ≤ front.length) : beWord (front ++ more) i = beWord front i := by
  rw [beWord, front_get front more i (by omega), front_get front more (i + 1) (by omega), beWord]

theorem front_address (enough : 4 ≤ front.length) : beAddress (front ++ more) = beAddress front := by
  rw [beAddress, front_get front more 0 (by omega), front_get front more 1 (by omega), front_get front more 2 (by omega),
    front_get front more 3 (by omega), beAddress]

theorem front_drop (i : Nat) (inside : i ≤ front.length) : (front ++ more).drop i = front.drop i ++ more :=
  List.drop_append_of_le_length inside
end

theorem parse_congr (options other : List UInt8) (i : Nat) (parsed : Parsed)
    (same : ∀ read ∈ (parseOptions options i parsed).2, other.getD read 0 = options.getD read 0) :
    parseOptions other i parsed = parseOptions options i parsed := by
  induction i, parsed using parseOptions.induct options with
  | case1 i parsed inside code stop =>
      rw [parse_stop options i parsed inside stop, List.forall_mem_singleton] at same
      rw [parse_stop options i parsed inside stop, parse_stop other i parsed inside (same.trans stop)]
  | case2 i parsed inside code more pad ih =>
      rw [parse_pad options i parsed inside pad, List.forall_mem_cons] at same
      rw [parse_pad options i parsed inside pad, parse_pad other i parsed inside (same.1.trans pad), ih same.2]
  | case3 i parsed inside code more used ih =>
      rw [parse_option options i parsed inside code rfl used more _ rfl, List.forall_mem_cons, List.forall_mem_cons,
        List.forall_mem_append] at same
      obtain ⟨first, size, loads, rest⟩ := same
      have taken : takeOption parsed code other (i + 2) = takeOption parsed code options (i + 2) := by
        have load (k : Nat) (near : k < loadSize code) : other.getD (i + 2 + k) 0 = options.getD (i + 2 + k) 0 :=
          loads _ (List.mem_range'_1.mpr ⟨Nat.le_add_right _ _, Nat.add_lt_add_left near _⟩)
        have word (four : loadSize code = 4) : native32 other (i + 2) = native32 options (i + 2) := by
          rw [native32, load 1 (by omega), load 2 (by omega), load 3 (by omega), native32]
          rw [show other.getD (i + 2) 0 = options.getD (i + 2) 0 from load 0 (by omega)]
        simp only [takeOption]
        split
        · rename_i type
          rw [show other.getD (i + 2) 0 = options.getD (i + 2) 0 from load 0 (by rw [type]; decide)]
        · split
          · rename_i server
            rw [word (by rw [server]; decide)]
          · split
            · rename_i subnet
              rw [word (by rw [subnet]; decide)]
            · split
              · rename_i router
                rw [word (by rw [router]; decide)]
              · split
                · rename_i dns
                  rw [word (by rw [dns]; decide)]
                · rfl
      have next : i + 2 + (other.getD (i + 1) 0).toNat = i + 2 + (options.getD (i + 1) 0).toNat := by rw [size]
      rw [parse_option options i parsed inside code rfl used more _ rfl,
        parse_option other i parsed inside code first used more _ next, taken, ih rest]
  | case4 i parsed past =>
      rw [parse_over options i parsed (Nat.not_lt.mp past), parse_over other i parsed (Nat.not_lt.mp past)]

theorem dhcp_own_bytes (client : DhcpClient) (iface : NetworkInterface) (own more : List UInt8) (len : UInt32)
    (enough : 240 ≤ own.length) (laid : Laid 0 (received own)) :
    dhcpProcess client (some iface) (some (own ++ more)) len = dhcpProcess client (some iface) (some own) len := by
  have parsed : parsedOptions client (own ++ more) = parsedOptions client own := by
    have front := received_front own more enough
    have room : min (own.length - 240) optionsSize ≤ ((own ++ more).drop 240).length := by
      rw [List.length_drop, List.length_append]
      exact (Nat.min_le_left _ _).trans (by omega)
    have inside := (reads_inside ((own ++ more).drop 240) _ room 0 (parseStart client)).mpr (by rw [← front]; exact laid)
    refine (parse_congr _ _ 0 _ fun read member => ?_).symm
    rw [front_drop own more 240 enough]
    refine (front_get _ more read ?_).symm
    rw [List.length_drop]
    exact (inside read member).trans_le (Nat.min_le_left _ _)
  rw [dhcpProcess, dhcpProcess, parsed, front_native own more 4 (by omega)]
  simp only [finishOffer, front_native own more 16 (by omega)]

section
variable (more : List UInt8)

theorem skip_name_front (skip : Nat) (p rest : List UInt8) (walked : skipName skip p = some rest) :
    skipName skip (p ++ more) = some (rest ++ more) := by
  induction p generalizing skip with
  | nil => cases skip <;> cases walked
  | cons byte p ih =>
      cases skip with
      | succ skip => exact ih skip walked
      | zero =>
          rw [skipName] at walked
          rw [List.cons_append, skipName]
          split at walked
          · rename_i root
            cases walked
            rw [if_pos root]
          · rename_i label
            rw [if_neg label]
            exact ih _ walked

-- A walk that stays in front of more is there too, unless nothing of the front is left to walk over.
def Follows (p other : List UInt8) : Prop := p = [] ∨ other = p ++ more

theorem follows_drop (p : List UInt8) (n : Nat) : Follows more (p.drop n) ((p ++ more).drop n) := by
  by_cases inside : n ≤ p.length
  · exact Or.inr (front_drop p more n inside)
  · exact Or.inl (List.drop_of_length_le (Nat.le_of_not_le inside))

theorem skip_questions_front (count : Nat) (p rest : List UInt8) (walked : skipQuestions count p = some rest) :
    ∃ other, skipQuestions count (p ++ more) = some other ∧ Follows more rest other := by
  induction count generalizing p with
  | zero =>
      cases walked
      exact ⟨_, rfl, Or.inr rfl⟩
  | succ count ih =>
      obtain ⟨name, skipped, further⟩ := Option.bind_eq_some_iff.mp walked
      rw [skipQuestions, skip_name_front more 0 p name skipped, Option.bind_some]
      rcases follows_drop more name 4 with gone | inside
      · rw [gone] at further
        cases count with
        | zero =>
            cases further
            exact ⟨_, rfl, Or.inl rfl⟩
        | succ count => cases further
      · rw [inside]
        exact ih _ further

theorem skip_owner_front (p record : List UInt8) (walked : skipOwner p = some record) :
    ∃ other, skipOwner (p ++ more) = some other ∧ Follows more record other := by
  cases p with
  | nil => cases walked
  | cons byte p =>
      rw [skipOwner] at walked
      rw [List.cons_append, skipOwner]
      split at walked
      · rename_i pointer
        cases walked
        rw [if_pos pointer]
        exact ⟨_, rfl, follows_drop more (byte :: p) 2⟩
      · rename_i labels
        rw [if_neg labels]
        exact ⟨_, skip_name_front more 0 (byte :: p) record walked, Or.inr rfl⟩

theorem parse_answers_front (count : Nat) (p other : List UInt8) (stored : Option UInt32) (follows : Follows more p other)
    (parsed : parseAnswers count p = some stored) : parseAnswers count other = some stored := by
  induction count generalizing p other with
  | zero => exact parsed
  | succ count ih =>
      obtain ⟨record, walked, read⟩ := Option.bind_eq_some_iff.mp parsed
      rcases follows with nothing | behind
      · rw [nothing] at walked
        cases walked
      obtain ⟨record', walked', follows⟩ := skip_owner_front more p record walked
      obtain ⟨long, read⟩ := Option.ite_none_left_eq_some.mp read
      rcases follows with nothing | behind'
      · rw [nothing] at long
        exact absurd (by decide) long
      have length : record'.length = record.length + more.length := by rw [behind', List.length_append]
      rw [behind, parseAnswers, walked', Option.bind_some, if_neg (by omega), behind', front_word record more 0 (by omega),
        front_word record more 8 (by omega)]
      split at read
      · rename_i address
        obtain ⟨whole, read⟩ := Option.ite_none_left_eq_some.mp read
        rw [if_pos address, if_neg (by rw [List.length_append]; omega), front_drop record more 10 (by omega),
          front_address _ more (by rw [List.length_drop]; omega)]
        exact read
      · rename_i other'
        rw [if_neg other']
        exact ih _ _ (follows_drop more record _) read

theorem dns_own_bytes (own : List UInt8) (stored : Option UInt32) (parsed : udpProcess own own.length = some stored) :
    udpProcess (own ++ more) own.length = some stored := by
  rw [udpProcess] at parsed ⊢
  split at parsed
  · rename_i short
    rw [if_pos short]
    exact parsed
  rename_i long
  rw [if_neg long, front_word own more 4 (by omega), front_word own more 0 (by omega)]
  dsimp only at parsed ⊢
  split at parsed
  · rename_i other
    rw [if_pos other]
    exact parsed
  rename_i query
  rw [if_neg query]
  obtain ⟨enough, parsed⟩ := Option.ite_none_left_eq_some.mp parsed
  obtain ⟨rest, walked, read⟩ := Option.bind_eq_some_iff.mp parsed
  rw [if_neg (by rw [List.length_append]; omega), front_word own more 12 (by omega), front_word own more 14 (by omega),
    front_drop own more 20 (by omega)]
  obtain ⟨other, walked', follows⟩ := skip_questions_front more _ _ rest walked
  rw [walked', Option.bind_some]
  exact parse_answers_front more _ rest other stored follows read
end

def loaded (stack : Stack) (bytes : List UInt8) : List UInt8 := bytes ++ stack.rxBuffer.drop bytes.length

-- The stack as ip_receive finds it.
def counted (stack : Stack) (bytes : List UInt8) : Stack :=
  { stack with
    rxBuffer := loaded stack bytes
    statistics := { stack.statistics with
      rxPackets := stack.statistics.rxPackets + 1, rxBytes := stack.statistics.rxBytes + UInt64.ofNat bytes.length } }

-- What a reply teaches; a request teaches nothing.
def learnFrame (cache : ArpCache) (frame : List UInt8) : ArpCache :=
  if 42 ≤ frame.length ∧ htons (native16 frame 20) = opReply then
    (arpAddEntry cache (htonl (native32 frame 28)) (some (macAt frame 22))).1
  else cache

def answersOf (iface : NetworkInterface) (frame : List UInt8) : List (List UInt8) :=
  if 42 ≤ frame.length ∧ htons (native16 frame 20) = opRequest ∧ native32 frame 38 = htonl iface.ipAddr then
    [buildReply iface.toInterface frame]
  else []

def dhcpLength (packet : List UInt8) : UInt32 := UInt32.ofNat ((beWord packet 4 + 2 ^ 32 - 8) % 2 ^ 32)

inductive Received' (stack next : Stack) (bytes : List UInt8) : Prop where
  | other (kind : kindOf bytes = .none) (same : next = counted stack bytes)
  | arp (kind : kindOf bytes = .arp) (same : next = { counted stack bytes with
      cache := learnFrame stack.cache bytes, replies := stack.replies ++ answersOf stack.iface bytes })
  | tcp (srcIp : UInt32) (packet : List UInt8) (kind : kindOf bytes = .tcp srcIp packet) (host : Host)
      (arrived : arrive stack.host srcIp packet = some host) (same : next = { counted stack bytes with host := host })
  | dhcp (kind : kindOf bytes = .dhcp) (done : DhcpClient × Option NetworkInterface × Int)
      (processed : dhcpProcess stack.client (some stack.iface) (some ((loaded stack bytes).drop 42))
        (dhcpLength (bytes.drop 34)) = done)
      (same : next = { counted stack bytes with client := done.1, iface := done.2.1.getD stack.iface })
  | dns (kind : kindOf bytes = .dns) (stored : Option UInt32)
      (parsed : udpProcess ((loaded stack bytes).drop 34) (bytes.drop 34).length = some stored)
      (same : next = { counted stack bytes with lastDnsIp := stored.getD stack.lastDnsIp })

theorem arp_process_parts (iface : NetworkInterface) (cache : ArpCache) (frame : List UInt8) :
    (arpProcess (some iface.toInterface) cache frame).1 = learnFrame cache frame ∧
      (arpProcess (some iface.toInterface) cache frame).2.1 = answersOf iface frame := by
  rw [arpProcess, learnFrame, answersOf]
  by_cases short : frame.length < 42
  · rw [if_pos short, if_neg (by omega), if_neg (by omega)]
    exact ⟨rfl, rfl⟩
  rw [if_neg short]
  dsimp only
  have long : 42 ≤ frame.length := Nat.not_lt.mp short
  by_cases request : htons (native16 frame 20) = opRequest ∧ native32 frame 38 = htonl iface.ipAddr
  · have apart : ¬ (42 ≤ frame.length ∧ htons (native16 frame 20) = opReply) := by
      rw [request.1]
      exact fun both => absurd both.2 (by decide)
    rw [if_pos request, if_neg apart, if_pos ⟨long, request⟩]
    exact ⟨rfl, rfl⟩
  · have none' : ¬ (42 ≤ frame.length ∧ htons (native16 frame 20) = opRequest ∧ native32 frame 38 = htonl iface.ipAddr) :=
      fun both => request both.2
    rw [if_neg request, if_neg none']
    by_cases reply : htons (native16 frame 20) = opReply
    · rw [if_pos reply, if_pos ⟨long, reply⟩]
      exact ⟨rfl, rfl⟩
    · rw [if_neg reply, if_neg (fun both => reply both.2)]
      exact ⟨rfl, rfl⟩

theorem upper_payload (bytes payload : List UInt8) (protocol : UInt8) (srcIp : UInt32)
    (upper : ipReceiveFrame bytes = .upper protocol srcIp payload) : payload = bytes.drop 34 ∧ 34 ≤ bytes.length := by
  rw [ipReceiveFrame] at upper
  split_ifs at upper
  cases upper
  exact ⟨rfl, by omega⟩

theorem arp_whole (bytes own : List UInt8) (arp : ipReceiveFrame bytes = .arp own) : own = bytes := by
  rw [ipReceiveFrame] at arp
  split_ifs at arp
  cases arp
  rfl

theorem udp_receive_cases (stack next : Stack) (bytes payload : List UInt8) (protocol : UInt8) (srcIp : UInt32)
    (received : ipReceiveFrame bytes = .upper protocol srcIp payload) (udp : protocol = 17)
    (taken : udpReceive (counted stack bytes) ((loaded stack bytes).drop 34) payload.length = some next) :
    Received' stack next bytes := by
  obtain ⟨own, long⟩ := upper_payload bytes payload protocol srcIp received
  have tcp : protocol ≠ 6 := by
    rw [udp]
    decide
  rw [udpReceive] at taken
  by_cases short : payload.length < 8
  · rw [if_pos short] at taken
    cases taken
    refine .other ?_ rfl
    rw [kindOf, received]
    dsimp only
    rw [if_neg tcp, if_neg (by omega)]
  · rw [if_neg short] at taken
    have front : (loaded stack bytes).drop 34 = payload ++ stack.rxBuffer.drop bytes.length := by
      rw [loaded, front_drop _ _ 34 long, own]
    have kind : kindOf bytes = if beWord payload 0 = 67 ∧ beWord payload 2 = 68 then .dhcp else .dns := by
      rw [kindOf, received]
      dsimp only
      rw [if_neg tcp, if_pos ⟨udp, by omega⟩]
    have ports : (beWord ((loaded stack bytes).drop 34) 0 = 67 ∧ beWord ((loaded stack bytes).drop 34) 2 = 68) ↔
        (beWord payload 0 = 67 ∧ beWord payload 2 = 68) := by
      rw [front, front_word _ _ 0 (by omega), front_word _ _ 2 (by omega)]
    have length : beWord ((loaded stack bytes).drop 34) 4 = beWord (bytes.drop 34) 4 := by
      rw [front, front_word _ _ 4 (by omega), own]
    by_cases dhcp : beWord payload 0 = 67 ∧ beWord payload 2 = 68
    · have whole : UInt32.ofNat ((beWord (bytes.drop 34) 4 + 2 ^ 32 - 8) % 2 ^ 32) = dhcpLength (bytes.drop 34) := rfl
      have client : (counted stack bytes).client = stack.client := rfl
      have iface : (counted stack bytes).iface = stack.iface := rfl
      have place : 34 + 8 = 42 := rfl
      dsimp only at taken
      rw [if_pos (ports.mpr dhcp), List.drop_drop, length, whole, client, iface, place] at taken
      generalize processed : dhcpProcess stack.client (some stack.iface) (some ((loaded stack bytes).drop 42))
        (dhcpLength (bytes.drop 34)) = done at taken
      exact .dhcp (kind.trans (if_pos dhcp)) done processed (Option.some.inj taken).symm
    · rw [if_neg (mt ports.mp dhcp)] at taken
      obtain ⟨stored, parsed, same⟩ := Option.map_eq_some_iff.mp taken
      exact .dns (kind.trans (if_neg dhcp)) stored (own ▸ parsed) same.symm

theorem poll_frame_cases (stack next : Stack) (bytes : List UInt8) (taken : pollStep stack (.frame bytes) = some next) :
    Received' stack next bytes := by
  obtain ⟨_, taken⟩ := Option.ite_none_left_eq_some.mp taken
  have taken : receiveFrame (counted stack bytes) (loaded stack bytes) bytes = some next := taken
  rw [receiveFrame] at taken
  cases received : ipReceiveFrame bytes with
  | returned code =>
      rw [received] at taken
      cases taken
      exact .other (by rw [kindOf, received]) rfl
  | arp own =>
      rw [received] at taken
      cases taken
      rw [arp_whole bytes own received]
      obtain ⟨cache, replies⟩ := arp_process_parts stack.iface stack.cache bytes
      exact .arp (by rw [kindOf, received])
        (congrArg₂ (fun cache replies => { counted stack bytes with cache := cache, replies := stack.replies ++ replies }) cache replies)
  | upper protocol srcIp payload =>
      rw [received] at taken
      dsimp only at taken
      by_cases tcp : protocol = 6
      · rw [if_pos tcp] at taken
        obtain ⟨host, arrived, same⟩ := Option.map_eq_some_iff.mp taken
        exact .tcp srcIp payload (by rw [kindOf, received]; exact if_pos tcp) host arrived same.symm
      rw [if_neg tcp] at taken
      by_cases udp : protocol = 17
      · rw [if_pos udp] at taken
        exact udp_receive_cases stack next bytes payload protocol srcIp received udp taken
      · rw [if_neg udp] at taken
        cases taken
        refine .other ?_ rfl
        rw [kindOf, received]
        dsimp only
        rw [if_neg tcp, if_neg (fun both => udp both.1)]

def Polled.own {α : Type} (pick : Kind → List UInt8 → Option α) : Polled → Option α
  | .frame bytes => pick (kindOf bytes) bytes
  | _ => none

def tcpSegment : Polled → Option (UInt32 × List UInt8) := Polled.own fun
  | .tcp srcIp packet, _ => some (srcIp, packet)
  | _, _ => none

def arpFrameOf : Polled → Option (List UInt8) := Polled.own fun
  | .arp, bytes => some bytes
  | _, _ => none

def localFrame : Polled → Option (List UInt8) := Polled.own fun
  | .arp, bytes => some bytes
  | .dhcp, bytes => some bytes
  | _, _ => none

def dnsFrame : Polled → Option (List UInt8) := Polled.own fun
  | .dns, bytes => some bytes
  | _, _ => none

structure Local where
  iface : NetworkInterface
  client : DhcpClient
  replies : List (List UInt8)

def serve (local' : Local) (frame : List UInt8) : Local :=
  if kindOf frame = .dhcp then
    let done := dhcpProcess local'.client (some local'.iface) (some (frame.drop 42)) (dhcpLength (frame.drop 34))
    { local' with client := done.1, iface := done.2.1.getD local'.iface }
  else { local' with replies := local'.replies ++ answersOf local'.iface frame }

def resolveFrame (lastDnsIp : UInt32) (frame : List UInt8) : Option UInt32 :=
  (udpProcess (frame.drop 34) (frame.drop 34).length).map fun stored => stored.getD lastDnsIp

def countPoll (statistics : Statistics) : Polled → Statistics
  | .nothing => statistics
  | .failed => { statistics with rxErrors := statistics.rxErrors + 1 }
  | .frame bytes => { statistics with
      rxPackets := statistics.rxPackets + 1, rxBytes := statistics.rxBytes + UInt64.ofNat bytes.length }

def Polled.Whole : Polled → Prop
  | .frame bytes => OwnBytes bytes
  | _ => True

def localOf (stack : Stack) : Local := ⟨stack.iface, stack.client, stack.replies⟩

section
variable (stack next : Stack) (poll : Polled) (taken : pollStep stack poll = some next)
include taken

theorem poll_tcp : (tcpSegment poll).elim (some stack.host) (fun segment => arrive stack.host segment.1 segment.2) = some next.host := by
  cases poll with
  | nothing => cases taken; rfl
  | failed => cases taken; rfl
  | frame bytes =>
      rw [tcpSegment, Polled.own]
      cases poll_frame_cases stack next bytes taken with
      | other kind same => rw [kind, same]; rfl
      | arp kind same => rw [kind, same]; rfl
      | tcp srcIp packet kind host arrived same => rw [kind, same]; exact arrived
      | dhcp kind done processed same => rw [kind, same]; rfl
      | dns kind stored parsed same => rw [kind, same]; rfl

theorem poll_arp : (arpFrameOf poll).elim (some stack.cache) (fun frame => some (learnFrame stack.cache frame)) = some next.cache := by
  cases poll with
  | nothing => cases taken; rfl
  | failed => cases taken; rfl
  | frame bytes =>
      rw [arpFrameOf, Polled.own]
      cases poll_frame_cases stack next bytes taken with
      | other kind same => rw [kind, same]; rfl
      | arp kind same => rw [kind, same]; rfl
      | tcp srcIp packet kind host arrived same => rw [kind, same]; rfl
      | dhcp kind done processed same => rw [kind, same]; rfl
      | dns kind stored parsed same => rw [kind, same]; rfl

theorem poll_counts : some (countPoll stack.statistics poll) = some next.statistics := by
  cases poll with
  | nothing => cases taken; rfl
  | failed => cases taken; rfl
  | frame bytes =>
      cases poll_frame_cases stack next bytes taken with
      | other kind same => rw [same]; rfl
      | arp kind same => rw [same]; rfl
      | tcp srcIp packet kind host arrived same => rw [same]; rfl
      | dhcp kind done processed same => rw [same]; rfl
      | dns kind stored parsed same => rw [same]; rfl

variable (whole : poll.Whole)
include whole

theorem poll_local : (localFrame poll).elim (some (localOf stack)) (fun frame => some (serve (localOf stack) frame)) = some (localOf next) := by
  cases poll with
  | nothing => cases taken; rfl
  | failed => cases taken; rfl
  | frame bytes =>
      rw [localFrame, Polled.own]
      cases poll_frame_cases stack next bytes taken with
      | other kind same => rw [kind, same]; rfl
      | arp kind same =>
          have arp : ¬ kindOf bytes = .dhcp := by rw [kind]; exact Kind.noConfusion
          rw [kind, same]
          show some (serve (localOf stack) bytes) = _
          rw [serve, if_neg arp]
          rfl
      | tcp srcIp packet kind host arrived same => rw [kind, same]; rfl
      | dhcp kind done processed same =>
          have own : 282 ≤ bytes.length ∧ Laid 0 (received (bytes.drop 42)) := OwnBytes.options whole kind
          have long : 240 ≤ (bytes.drop 42).length := by
            rw [List.length_drop]
            omega
          rw [loaded, front_drop _ _ 42 (by omega), dhcp_own_bytes _ _ _ _ _ long own.2] at processed
          have served : serve (localOf stack) bytes = ⟨done.2.1.getD stack.iface, done.1, stack.replies⟩ := by
            have again : dhcpProcess (localOf stack).client (some (localOf stack).iface) (some (bytes.drop 42))
                (dhcpLength (bytes.drop 34)) = done := processed
            rw [serve, if_pos kind, again]
            rfl
          rw [kind, same]
          exact congrArg some served
      | dns kind stored parsed same => rw [kind, same]; rfl

theorem poll_dns : (dnsFrame poll).elim (some stack.lastDnsIp) (resolveFrame stack.lastDnsIp) = some next.lastDnsIp := by
  cases poll with
  | nothing => cases taken; rfl
  | failed => cases taken; rfl
  | frame bytes =>
      rw [dnsFrame, Polled.own]
      cases poll_frame_cases stack next bytes taken with
      | other kind same => rw [kind, same]; rfl
      | arp kind same => rw [kind, same]; rfl
      | tcp srcIp packet kind host arrived same => rw [kind, same]; rfl
      | dhcp kind done processed same => rw [kind, same]; rfl
      | dns kind stored parsed same =>
          have own : udpProcess (bytes.drop 34) (bytes.drop 34).length ≠ none := OwnBytes.records whole kind
          obtain ⟨result, known⟩ := Option.ne_none_iff_exists'.mp own
          have long : 34 ≤ bytes.length := by
            by_contra short
            rw [kindOf, ipReceiveFrame] at kind
            split_ifs at kind
            all_goals first | cases kind | omega
          rw [loaded, front_drop _ _ 34 long, dns_own_bytes _ _ result known] at parsed
          cases parsed
          rw [kind, same]
          show resolveFrame stack.lastDnsIp bytes = _
          rw [resolveFrame, known]
          rfl
end

def framesOf (polls : List Polled) : List (List UInt8) := polls.filterMap fun
  | .frame bytes => some bytes
  | _ => none

def failures (polls : List Polled) : Nat := polls.countP fun poll => poll = .failed

theorem counts_sum (statistics : Statistics) (polls : List Polled) : polls.foldl countPoll statistics =
    ⟨statistics.rxPackets + UInt64.ofNat (framesOf polls).length,
      statistics.rxBytes + UInt64.ofNat ((framesOf polls).map List.length).sum,
      statistics.rxErrors + UInt64.ofNat (failures polls)⟩ := by
  induction polls generalizing statistics with
  | nil => simp [framesOf, failures]
  | cons poll polls ih =>
      rw [List.foldl_cons, ih]
      cases poll with
      | nothing => simp [countPoll, framesOf, failures]
      | failed => simp [countPoll, framesOf, failures, UInt64.ofNat_add, UInt64.add_assoc, UInt64.add_comm]
      | frame bytes => simp [countPoll, framesOf, failures, UInt64.ofNat_add, UInt64.add_assoc, UInt64.add_comm]

theorem frames_demultiplexed (stack after : Stack) (polls : List Polled) (run : runAll pollStep stack polls = some after) :
    runAll (fun host segment => arrive host segment.1 segment.2) stack.host (polls.filterMap tcpSegment) = some after.host ∧
    after.cache = (polls.filterMap arpFrameOf).foldl learnFrame stack.cache ∧
    after.statistics = ⟨stack.statistics.rxPackets + UInt64.ofNat (framesOf polls).length,
      stack.statistics.rxBytes + UInt64.ofNat ((framesOf polls).map List.length).sum,
      stack.statistics.rxErrors + UInt64.ofNat (failures polls)⟩ ∧
    ((∀ poll ∈ polls, poll.Whole) →
      localOf after = (polls.filterMap localFrame).foldl serve (localOf stack) ∧
      runAll resolveFrame stack.lastDnsIp (polls.filterMap dnsFrame) = some after.lastDnsIp) := by
  have any : ∀ poll ∈ polls, True := fun _ _ => trivial
  have host := run_all_part pollStep Stack.host tcpSegment (fun host segment => arrive host segment.1 segment.2) (fun _ => True)
    (fun state poll reached _ taken => poll_tcp state reached poll taken) stack after polls any run
  have cache := run_all_part pollStep Stack.cache arpFrameOf (fun cache frame => some (learnFrame cache frame)) (fun _ => True)
    (fun state poll reached _ taken => poll_arp state reached poll taken) stack after polls any run
  have counts := run_all_part pollStep Stack.statistics some (fun statistics poll => some (countPoll statistics poll)) (fun _ => True)
    (fun state poll reached _ taken => poll_counts state reached poll taken) stack after polls any run
  rw [run_all_total, Option.some.injEq] at cache counts
  rw [List.filterMap_some, counts_sum] at counts
  refine ⟨host, cache.symm, counts.symm, fun whole => ?_⟩
  have here := run_all_part pollStep localOf localFrame (fun local' frame => some (serve local' frame)) Polled.Whole
    (fun state poll reached own taken => poll_local state reached poll taken own) stack after polls whole run
  have dns := run_all_part pollStep Stack.lastDnsIp dnsFrame resolveFrame Polled.Whole
    (fun state poll reached own taken => poll_dns state reached poll taken own) stack after polls whole run
  rw [run_all_total, Option.some.injEq] at here
  exact ⟨here.symm, dns⟩

def bootStack : Stack :=
  ⟨unconfigured, ⟨0, 0, 0⟩, [], emptyCache, [], firstHost, expecting, 0⟩

def offerFrame : List UInt8 :=
  broadcast.bytes ++ routerMac.bytes ++ [8, 0] ++ ipHeader 0x0A000202 0xFFFFFFFF 17 560 ++ [0, 67, 0, 68, 2, 48, 0, 0] ++ bareOffer

def offerPolls : List Polled := [.failed, .frame (List.replicate 60 0), .frame offerFrame]

theorem two_whole (one two : List UInt8) (first : OwnBytes one) (second : OwnBytes two) :
    ∀ poll ∈ [Polled.failed, Polled.frame one, Polled.frame two], poll.Whole :=
  List.forall_mem_cons.mpr ⟨trivial, List.forall_mem_cons.mpr ⟨first, List.forall_mem_singleton.mpr second⟩⟩

theorem frames_demultiplexed_offer : ∃ after, runAll pollStep bootStack offerPolls = some after ∧
    after.statistics = ⟨2, 654, 1⟩ ∧ localOf after = serve (localOf bootStack) offerFrame := by
  have reached : (runAll pollStep bootStack offerPolls).isSome = true := by decide +kernel
  obtain ⟨after, run⟩ := Option.isSome_iff_exists.mp reached
  have kind : kindOf offerFrame = .dhcp := by decide +kernel
  have options : received (offerFrame.drop 42) = encoding [.option offerType] ++ optEnd :: List.replicate 308 0 := by decide +kernel
  have long : 282 ≤ offerFrame.length := by decide +kernel
  have other : kindOf (List.replicate 60 0) = .none := by decide +kernel
  have offer : OwnBytes offerFrame :=
    ⟨fun _ => ⟨long, options ▸ encoding_laid 0 _ _⟩, fun dns => Kind.noConfusion (kind.symm.trans dns)⟩
  have zeros : OwnBytes (List.replicate 60 0) :=
    ⟨fun dhcp => Kind.noConfusion (other.symm.trans dhcp), fun dns => Kind.noConfusion (other.symm.trans dns)⟩
  have whole := two_whole _ _ zeros offer
  obtain ⟨_, _, counts, parts⟩ := frames_demultiplexed bootStack after offerPolls run
  have own : offerPolls.filterMap localFrame = [offerFrame] := by decide +kernel
  obtain ⟨here, _⟩ := parts whole
  rw [own, List.foldl_cons, List.foldl_nil] at here
  exact ⟨after, run, counts.trans (by decide +kernel), here⟩

end RoDos.Net
