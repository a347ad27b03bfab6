import RoDos.Tcp.Window

set_option autoImplicit false

namespace RoDos.Tcp

open Base

-- isn is the sequence number of the SYN-ACK that opened the connection, finished says that a FIN was
-- accepted on it.
structure Exchange where
  host : Host
  isn : UInt32
  finished : Bool
deriving DecidableEq, Repr

def peerNumber (exchange : Exchange) (next : Host) : Event → UInt32
  | .segment _ packet =>
      if exchange.host.socket.tcb.state = .synSent ∧ next.socket.tcb.state = .established then
        fromBigEndian (packet.drop 4)
      else exchange.isn
  | _ => exchange.isn

def finAccepted (exchange : Exchange) : Event → Bool
  | .connect .. => false
  | .segment _ packet => exchange.finished ||
      decide (exchange.host.socket.tcb.state = .established ∧ 20 ≤ packet.length ∧
        hasFlag (packet.getD 13 0) flagFin = true)
  | _ => exchange.finished

def exchangeStep (exchange : Exchange) (event : Event) : Option Exchange :=
  (hostStep exchange.host event).map fun next => ⟨next, peerNumber exchange next event, finAccepted exchange event⟩

def ExchangeStep (exchange : Exchange) (event : Event) (next : Exchange) : Prop := exchangeStep exchange event = some next

def Powered (exchange : Exchange) : Prop := exchange = ⟨firstHost, 0, false⟩

def WholeHeader (_ : Exchange) : Event → Prop
  | .segment _ packet => headerLength packet ≤ packet.length
  | _ => True

instance (exchange : Exchange) : (event : Event) → Decidable (WholeHeader exchange event)
  | .segment _ packet => inferInstanceAs (Decidable (headerLength packet ≤ packet.length))
  | .connect .. | .syn _ | .giveUp | .receive _ | .send _ | .close => .isTrue trivial

def nextExpected (isn : UInt32) (tcb : Tcb) : UInt32 := isn + 1 + UInt32.ofNat tcb.rxBuffer.length

-- What a step sends, each segment with the rcv_nxt of the moment. Only data with a FIN makes two.
inductive Acknowledging (host next : Host) : Event → Prop where
  | silent (event : Event) (sent : next.sent = host.sent) : Acknowledging host next event
  | one (event : Event) (packet : Packet) (sent : next.sent = host.sent ++ [packet])
      (current : packet.ack = next.socket.tcb.rcvNxt) : Acknowledging host next event
  | dataAndFin (srcIp : UInt32) (packet : List UInt8) (taken : Tcb) (answers : List Answer) (data fin : Packet)
      (took : takeData host.socket.tcb packet = some (taken, answers)) (sent : next.sent = host.sent ++ [data, fin])
      (between : data.ack = taken.rcvNxt) (current : fin.ack = next.socket.tcb.rcvNxt) :
      Acknowledging host next (.segment srcIp packet)

theorem of_nat_seg_len (packet : List UInt8) (inside : headerLength packet ≤ packet.length) :
    UInt32.ofNat (segLen packet) = UInt32.ofNat (packet.drop (headerLength packet)).length := by
  apply UInt32.toNat_inj.mp
  rw [UInt32.toNat_ofNat', UInt32.toNat_ofNat', List.length_drop, segLen]
  omega

theorem take_data_counted (isn : UInt32) (tcb taken : Tcb) (packet : List UInt8) (acks : List Answer)
    (inside : headerLength packet ≤ packet.length) (counted : tcb.rcvNxt = nextExpected isn tcb)
    (took : takeData tcb packet = some (taken, acks)) :
    taken.rcvNxt = nextExpected isn taken ∧ taken.state = tcb.state ∧
      ((taken = tcb ∧ acks = []) ∨ acks = [⟨taken.sndNxt, taken.rcvNxt, flagAck⟩]) := by
  refine ⟨?_, take_data_state tcb taken packet acks took, ?_⟩
  all_goals rw [takeData] at took
  all_goals split at took
  · rw [if_neg (Nat.not_lt.mpr inside)] at took
    cases took
    rw [nextExpected, List.length_append, UInt32.ofNat_add, ← UInt32.add_assoc, ← of_nat_seg_len packet inside]
    exact congrArg (· + UInt32.ofNat (segLen packet)) counted
  · cases took
    exact counted
  · rw [if_neg (Nat.not_lt.mpr inside)] at took
    cases took
    exact Or.inr rfl
  · cases took
    exact Or.inl ⟨rfl, rfl⟩

theorem tcp_receive_number (tcb : Tcb) (maxLen : Nat) : (tcpReceive tcb maxLen).1.rcvNxt = tcb.rcvNxt := by
  rw [tcpReceive]
  split <;> rfl

structure Counting (exchange : Exchange) : Prop where
  connecting : ∀ retry, exchange.host.phase = .connecting retry → exchange.host.socket.tcb.rcvNxt = 0
  working : exchange.host.socket.tcb.state = .established → exchange.finished = false ∧
    exchange.host.socket.tcb.rcvNxt = nextExpected exchange.isn exchange.host.socket.tcb
  ended : exchange.finished = true → exchange.host.phase = .done ∧ exchange.host.socket.tcb.state = .closed ∧
    exchange.host.socket.tcb.rcvNxt = nextExpected exchange.isn exchange.host.socket.tcb + 1

theorem counting_closed (exchange : Exchange) (shut : exchange.host.socket.tcb.state ≠ .established)
    (unfinished : exchange.finished ≠ true)
    (zero : ∀ retry, exchange.host.phase = .connecting retry → exchange.host.socket.tcb.rcvNxt = 0) : Counting exchange :=
  ⟨zero, fun working => absurd working shut, fun finished => absurd finished unfinished⟩

theorem peer_number_kept (exchange : Exchange) (next : Host) (srcIp : UInt32) (packet : List UInt8)
    (open' : exchange.host.socket.tcb.state ≠ .synSent ∨ next.socket.tcb.state = exchange.host.socket.tcb.state) :
    peerNumber exchange next (.segment srcIp packet) = exchange.isn := by
  refine if_neg fun both => ?_
  rcases open' with other | same
  · exact other both.1
  · rw [same, both.1] at both
    cases both.2

section
variable (exchange : Exchange) (regular : Regular exchange.host)
include regular

variable (counting : Counting exchange)
include counting

theorem counting_segment (next : Host) (srcIp : UInt32) (packet : List UInt8)
    (inside : headerLength packet ≤ packet.length) (arrived : arrive exchange.host srcIp packet = some next) :
    Counting ⟨next, peerNumber exchange next (.segment srcIp packet), finAccepted exchange (.segment srcIp packet)⟩ ∧
      Acknowledging exchange.host next (.segment srcIp packet) := by
  obtain ⟨answers, processed, _, sent, phase⟩ := arrive_processed exchange.host next srcIp packet arrived
  cases processed with
  | ignored unseen same silent =>
      have quiet : finAccepted exchange (.segment srcIp packet) = exchange.finished := by
        rw [finAccepted, decide_eq_false (fun fin => unseen ⟨fin.1, fin.2.1⟩), Bool.or_false]
      have number := peer_number_kept exchange next srcIp packet (Or.inr (by rw [same]))
      rw [same, if_neg (fun both => both.1 both.2)] at phase
      rw [silent, List.map_nil, List.append_nil] at sent
      rw [quiet, number]
      exact ⟨⟨by rw [same, phase]; exact counting.connecting, by rw [same]; exact counting.working,
        by rw [same, phase]; exact counting.ended⟩, .silent _ sent⟩
  | opened waiting answered sentAck =>
      obtain ⟨empty, early⟩ := waiting_connecting exchange.host regular waiting
      have ready : next.socket.tcb.state = .established := by rw [answered]
      have open' : exchange.finished = false := by
        cases finished : exchange.finished with
        | false => rfl
        | true => exact absurd (counting.ended finished).1 early
      have quiet : finAccepted exchange (.segment srcIp packet) = false := by
        rw [finAccepted, open', waiting]
        rfl
      have number : peerNumber exchange next (.segment srcIp packet) = fromBigEndian (packet.drop 4) := by
        rw [peerNumber, if_pos ⟨waiting, ready⟩]
      have counted : next.socket.tcb.rcvNxt = nextExpected (fromBigEndian (packet.drop 4)) next.socket.tcb := by
        rw [answered, nextExpected, empty]
        exact (UInt32.add_zero _).symm
      rw [if_pos ⟨by rw [waiting]; nofun, ready⟩] at phase
      rw [quiet, number]
      refine ⟨⟨fun retry connecting => (nomatch phase.symm.trans connecting), fun _ => ⟨rfl, counted⟩, nofun⟩, ?_⟩
      exact .one _ _ (by rw [sent, sentAck]; rfl) rfl
  | kept working long open' took =>
      have finished := established_done exchange.host regular working
      obtain ⟨unfinished, counted⟩ := counting.working working
      obtain ⟨later, state, acks⟩ := take_data_counted _ _ _ _ _ inside counted took
      have quiet : finAccepted exchange (.segment srcIp packet) = false := by
        rw [finAccepted, unfinished, open']
        simp
      have number := peer_number_kept exchange next srcIp packet (Or.inl (by rw [working]; decide))
      rw [if_neg (fun both => both.1 working), finished] at phase
      rw [quiet, number]
      refine ⟨⟨fun retry connecting => (nomatch phase.symm.trans connecting), fun _ => ⟨rfl, later⟩, nofun⟩, ?_⟩
      rcases acks with ⟨_, none⟩ | one
      · exact .silent _ (by rw [sent, none, List.map_nil, List.append_nil])
      · exact .one _ _ (by rw [sent, one]; rfl) rfl
  | ended working long fin taken acks took shut sentAcks =>
      have finished := established_done exchange.host regular working
      obtain ⟨unfinished, counted⟩ := counting.working working
      obtain ⟨later, state, made⟩ := take_data_counted _ _ _ _ _ inside counted took
      have number := peer_number_kept exchange next srcIp packet (Or.inl (by rw [working]; decide))
      have closed : next.socket.tcb.state = .closed := by rw [shut]; rfl
      rw [if_neg (fun both => both.1 working), finished] at phase
      rw [number]
      refine ⟨⟨fun retry connecting => (nomatch phase.symm.trans connecting), fun open' => ?_,
        fun _ => ⟨phase, closed, ?_⟩⟩, ?_⟩
      · rw [closed] at open'
        cases open'
      · rw [shut]
        exact congrArg (· + 1) later
      · rcases made with ⟨_, none⟩ | one
        · exact .one _ _ (by rw [sent, sentAcks, none]; rfl) (by rw [shut]; rfl)
        · exact .dataAndFin _ _ taken acks _ _ took (by rw [sent, sentAcks, one]; rfl) rfl (by rw [shut]; rfl)

omit regular in
theorem counting_frame (next : Host) (phase : next.phase = exchange.host.phase)
    (number : next.socket.tcb.rcvNxt = exchange.host.socket.tcb.rcvNxt)
    (buffer : next.socket.tcb.rxBuffer = exchange.host.socket.tcb.rxBuffer)
    (opens : next.socket.tcb.state = .established → exchange.host.socket.tcb.state = .established)
    (shut : exchange.host.socket.tcb.state = .closed → next.socket.tcb.state = .closed) :
    Counting ⟨next, exchange.isn, exchange.finished⟩ := by
  have expected : nextExpected exchange.isn next.socket.tcb = nextExpected exchange.isn exchange.host.socket.tcb := by
    rw [nextExpected, buffer, nextExpected]
  refine ⟨?_, fun working => ?_, fun finished => ?_⟩
  · rw [phase, number]
    exact counting.connecting
  · rw [number, expected]
    exact counting.working (opens working)
  · obtain ⟨before, closed, counted⟩ := counting.ended finished
    rw [phase, number, expected]
    exact ⟨before, shut closed, counted⟩

theorem counting_step (event : Event) (next : Exchange) (whole : WholeHeader exchange event)
    (taken : exchangeStep exchange event = some next) :
    Counting next ∧ Acknowledging exchange.host next.host event := by
  obtain ⟨host, moved, same⟩ := Option.map_eq_some_iff.mp taken
  rw [← same]
  -- While tcp_connect waits no FIN has been taken.
  have unfinished (retry : Nat) (connecting : exchange.host.phase = .connecting retry) : exchange.finished ≠ true := by
    intro finished
    cases connecting.symm.trans (counting.ended finished).1
  cases host_step_cases exchange.host host event moved with
  | dialled _ _ _ _ _ _ finished made =>
      rw [made]
      exact ⟨counting_closed _ TcpState.noConfusion Bool.noConfusion fun _ _ => rfl, .silent _ rfl⟩
  | asked retry connecting made =>
      have zero := counting.connecting retry connecting
      rw [made]
      exact ⟨counting_closed _ TcpState.noConfusion (unfinished retry connecting) fun _ _ => zero, .one _ _ rfl zero.symm⟩
  | unasked retry connecting made =>
      have shut := connecting_not_established exchange.host regular retry connecting
      rw [made]
      exact ⟨counting_closed _ shut (unfinished retry connecting) fun _ _ => counting.connecting retry connecting,
        .silent _ rfl⟩
  | gaveUp connecting made =>
      rw [made]
      exact ⟨counting_closed _ TcpState.noConfusion (unfinished 5 connecting) fun _ => Phase.noConfusion, .silent _ rfl⟩
  | arrived srcIp packet arrived => exact counting_segment exchange regular counting host srcIp packet whole arrived
  | received maxLen finished made =>
      obtain ⟨state, buffer⟩ := tcp_receive_state exchange.host.socket.tcb maxLen
      have number := tcp_receive_number exchange.host.socket.tcb maxLen
      rw [made]
      exact ⟨counting_frame exchange counting _ rfl number buffer (fun working => state.symm.trans working)
        (fun shut => state.trans shut), .silent _ rfl⟩
  | carried data finished working made =>
      rw [made]
      exact ⟨counting_frame exchange counting _ rfl rfl rfl id id, .one _ _ rfl rfl⟩
  | closed finished working made =>
      rw [made]
      exact ⟨counting_frame exchange counting _ rfl rfl rfl (fun _ => working) (fun _ => rfl), .one _ _ rfl rfl⟩
  | refused data _ _ made =>
      rw [made]
      exact ⟨counting, .silent _ rfl⟩
  | unopened _ _ made =>
      rw [made]
      exact ⟨counting, .silent _ rfl⟩
end

theorem counting_run (exchange : Exchange) (run : Run Powered ExchangeStep WholeHeader exchange) :
    Regular exchange.host ∧ Counting exchange := by
  refine run_invariant (fun exchange => Regular exchange.host ∧ Counting exchange) (fun state boot => ?_)
    (fun state next event kept whole taken => ?_) exchange run
  · rw [boot]
    exact ⟨regular_idle firstHost rfl, nofun, nofun, nofun⟩
  · obtain ⟨host, moved, same⟩ := Option.map_eq_some_iff.mp taken
    refine ⟨?_, (counting_step state kept.1 kept.2 event next whole taken).1⟩
    rw [← same]
    exact regular_step state.host host event kept.1 moved

theorem acknowledged_is_received (exchange : Exchange) (run : Run Powered ExchangeStep WholeHeader exchange) :
    (exchange.host.socket.tcb.state = .established →
      exchange.host.socket.tcb.rcvNxt = nextExpected exchange.isn exchange.host.socket.tcb) ∧
    (exchange.finished = true →
      exchange.host.socket.tcb.rcvNxt = nextExpected exchange.isn exchange.host.socket.tcb + 1) ∧
    ∀ event next, WholeHeader exchange event → ExchangeStep exchange event next →
      Acknowledging exchange.host next.host event := by
  obtain ⟨regular, counting⟩ := counting_run exchange run
  exact ⟨fun working => (counting.working working).2, fun finished => (counting.ended finished).2.2,
    fun event next whole taken => (counting_step exchange regular counting event next whole taken).2⟩

def lastSegment : Event := .segment 0x0A000202 (bareSegment 80 10007 501 8 (flagFin ||| flagAck) ++ [104, 105])

theorem acknowledged_is_received_last : ∃ exchange, Run Powered ExchangeStep WholeHeader exchange ∧
    exchange.finished = true ∧ exchange.host.socket.tcb.rcvNxt = 504 := by
  have evaluated : (runAll (fun exchange event => if WholeHeader exchange event then exchangeStep exchange event else none)
      ⟨firstHost, 0, false⟩ (opening ++ [lastSegment])).any (fun exchange => exchange.finished = true ∧
        nextExpected exchange.isn exchange.host.socket.tcb + 1 = 504) = true := by decide +kernel
  obtain ⟨exchange, reached, finished⟩ := (Option.any_eq_true _ _).mp evaluated
  obtain ⟨finished, expected⟩ := of_decide_eq_true finished
  have run : Run Powered ExchangeStep WholeHeader exchange := by
    have start : Run Powered ExchangeStep WholeHeader ⟨firstHost, 0, false⟩ := .start _ rfl
    refine run_all_run _ (fun state event next taken => ?_) _ exchange _ start reached
    split at taken
    · exact ⟨‹_›, taken⟩
    · cases taken
  exact ⟨exchange, run, finished, ((acknowledged_is_received exchange run).2.1 finished).trans expected⟩

end RoDos.Tcp
