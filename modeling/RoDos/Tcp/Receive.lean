import RoDos.Tcp.Model

set_option autoImplicit false

namespace RoDos.Tcp

open Base

def packet (isn : UInt32) (segment : Segment) : List UInt8 :=
  tcpHeader isn segment ++ (segment.data ++ padding isn segment)

-- In an open connection the data taken is the next of the stream and ends with the frame, and a FIN
-- that brings none finds the whole stream received.
def InOrder (stream : List UInt8) (isn : UInt32) (connection : Connection) : NetOp → Prop
  | .poll segment => connection.tcb.state = .established →
      (accepts connection.tcb (packet isn segment) = true →
        segment.offset = connection.tcb.rxBuffer.length ∧ padding isn segment = []) ∧
      (hasFlag segment.flags flagFin = true → accepts connection.tcb (packet isn segment) = false →
        connection.tcb.rxBuffer.length = stream.length)
  | _ => True

structure Delivered (stream : List UInt8) (connection : Connection) : Prop where
  returned : connection.returned <+: stream
  closed : connection.closedByFin = true →
    connection.returned ++ connection.tcb.rxBuffer.drop connection.tcb.rxProcessed = stream

section
variable (stream : List UInt8) (isn : UInt32) (segment : Segment) (genuine : Genuine stream segment)
include genuine

theorem tcp_header_length : (tcpHeader isn segment).length = 20 + segment.options.length := by
  simp only [tcpHeader, bigEndian, List.length_append, List.length_cons, List.length_nil, genuine.ports, genuine.window]

theorem packet_length : (packet isn segment).length =
    20 + segment.options.length + (segment.data.length + (padding isn segment).length) := by
  rw [packet, List.length_append, List.length_append, tcp_header_length stream isn segment genuine]

theorem ip_receive_frame (tcb : Tcb) : ipReceive tcb (frame isn segment) =
    (tcpProcess tcb (packet isn segment)).map fun done => (done.1, done.2.1) := by
  have split : frame isn segment =
      segment.addresses ++ ([0x08, 0x00] ++ (segment.ipHeader ++ packet isn segment)) := by
    simp only [frame, unpadded, packet, List.append_assoc]
  have long : 34 ≤ (frame isn segment).length := by
    simp only [split, List.length_append, List.length_cons, List.length_nil, genuine.addresses, genuine.ipHeader]
    omega
  have link (i : Nat) : (frame isn segment).getD (12 + i) 0 =
      ([0x08, 0x00] ++ (segment.ipHeader ++ packet isn segment)).getD i 0 := by
    rw [split, ← genuine.addresses, get_behind]
  have protocol : (frame isn segment).getD 23 0 = 6 := by
    have ip := get_behind [0x08, 0x00] (segment.ipHeader ++ packet isn segment) 9
    have header : (segment.ipHeader ++ packet isn segment).getD 9 0 = segment.ipHeader.getD 9 0 :=
      List.getD_append _ _ _ _ (by rw [genuine.ipHeader]; decide)
    rw [link 11, ← genuine.protocol, ← header]
    exact ip
  have behind : (frame isn segment).drop 34 = packet isn segment := by
    rw [split, ← List.append_assoc, ← List.append_assoc]
    apply List.drop_left'
    simp [genuine.addresses, genuine.ipHeader]
  rw [ipReceive, if_neg (by omega), link 0, link 1, if_neg (by simp), if_neg (by omega), if_pos protocol, behind]

theorem packet_field (i : Nat) : (packet isn segment).getD (12 + i) 0 =
    ([UInt8.ofNat ((5 + segment.options.length / 4) * 16), segment.flags] ++
      (segment.window ++ (segment.options ++ (segment.data ++ padding isn segment)))).getD i 0 := by
  have front : (segment.ports ++ bigEndian (sequence isn segment) ++ bigEndian segment.ack).length = 12 := by
    simp [bigEndian, genuine.ports]
  have split : packet isn segment = (segment.ports ++ bigEndian (sequence isn segment) ++ bigEndian segment.ack) ++
      ([UInt8.ofNat ((5 + segment.options.length / 4) * 16), segment.flags] ++
        (segment.window ++ (segment.options ++ (segment.data ++ padding isn segment)))) := by
    simp only [packet, tcpHeader, List.append_assoc]
  rw [split, ← front, get_behind]

theorem packet_flags : (packet isn segment).getD 13 0 = segment.flags := packet_field stream isn segment genuine 1

theorem header_length : headerLength (packet isn segment) = 20 + segment.options.length := by
  have field : (packet isn segment).getD 12 0 = UInt8.ofNat ((5 + segment.options.length / 4) * 16) :=
    packet_field stream isn segment genuine 0
  have options := genuine.options
  have words := genuine.words
  rw [headerLength, field]
  generalize segment.options.length = length at options words
  have nibble : ∀ count < 11, (UInt8.ofNat ((5 + count) * 16) >>> 4).toNat = 5 + count := by decide
  rw [nibble (length / 4) (by omega)]
  omega

theorem packet_data : (packet isn segment).drop (headerLength (packet isn segment)) =
    segment.data ++ padding isn segment := by
  rw [header_length stream isn segment genuine, ← tcp_header_length stream isn segment genuine, packet, List.drop_left]

theorem take_data_packet (tcb : Tcb) : takeData tcb (packet isn segment) =
    if accepts tcb (packet isn segment) then
      some ({ tcb with
          rxBuffer := tcb.rxBuffer ++ (segment.data ++ padding isn segment), hasData := true
          rcvNxt := tcb.rcvNxt + UInt32.ofNat (segLen (packet isn segment)) },
        [⟨tcb.sndNxt, tcb.rcvNxt + UInt32.ofNat (segLen (packet isn segment)), flagAck⟩])
    else some (tcb, []) := by
  have length := packet_length stream isn segment genuine
  have header := header_length stream isn segment genuine
  rw [takeData, if_neg (by omega : ¬ (packet isn segment).length < headerLength (packet isn segment)),
    packet_data stream isn segment genuine]

def arrived (tcb : Tcb) : List UInt8 :=
  if accepts tcb (packet isn segment) then segment.data ++ padding isn segment else []
end

inductive Polled (isn : UInt32) (segment : Segment) (connection next : Connection) : Prop where
  | ignored (shut : connection.tcb.state ≠ .established) (same : next = connection)
  | opened (waiting : connection.tcb.state = .synSent) (buffer : next.tcb.rxBuffer = connection.tcb.rxBuffer)
      (processed : next.tcb.rxProcessed = connection.tcb.rxProcessed) (returned : next.returned = connection.returned)
      (closedByFin : next.closedByFin = connection.closedByFin) (phase : next.phase = .done)
  | taken (working : connection.tcb.state = .established)
      (buffer : next.tcb.rxBuffer = connection.tcb.rxBuffer ++ arrived isn segment connection.tcb)
      (processed : next.tcb.rxProcessed = connection.tcb.rxProcessed) (returned : next.returned = connection.returned)
      (fin : (hasFlag segment.flags flagFin = false ∧ next.tcb.state = .established ∧ next.phase = .done ∧
          next.closedByFin = connection.closedByFin) ∨
        (hasFlag segment.flags flagFin = true ∧ next.tcb.state = .closed ∧ next.phase = connection.phase ∧
          next.closedByFin = true))

theorem take_data_arrived (stream : List UInt8) (isn : UInt32) (segment : Segment) (genuine : Genuine stream segment)
    (tcb : Tcb) : ∃ taken answers, takeData tcb (packet isn segment) = some (taken, answers) ∧
      taken.rxBuffer = tcb.rxBuffer ++ arrived isn segment tcb ∧ taken.rxProcessed = tcb.rxProcessed ∧
      taken.state = tcb.state := by
  rw [take_data_packet stream isn segment genuine tcb, arrived]
  by_cases accepted : accepts tcb (packet isn segment) = true
  · rw [if_pos accepted, if_pos accepted]
    exact ⟨_, _, rfl, rfl, rfl, rfl⟩
  · rw [if_neg accepted, if_neg accepted, List.append_nil]
    exact ⟨_, _, rfl, rfl, rfl, rfl⟩

theorem poll_cases (stream : List UInt8) (isn : UInt32) (segment : Segment) (genuine : Genuine stream segment)
    (connection next : Connection) (taken : stepOp isn connection (.poll segment) = some next) :
    Polled isn segment connection next := by
  have long : ¬ (packet isn segment).length < 20 := by
    rw [packet_length stream isn segment genuine]
    omega
  simp only [stepOp, ip_receive_frame stream isn segment genuine, tcpProcess, if_neg long,
    packet_flags stream isn segment genuine, Option.map_map, Function.comp_def] at taken
  cases before : connection.tcb.state with
  | closed =>
      simp only [before, Option.map_some, Option.some.injEq, reduceCtorEq, if_false, false_and, decide_false,
        Bool.or_false] at taken
      exact .ignored (by simp [before]) taken.symm
  | finWait =>
      simp only [before, Option.map_some, Option.some.injEq, reduceCtorEq, if_false, false_and, decide_false,
        Bool.or_false] at taken
      exact .ignored (by simp [before]) taken.symm
  | synSent =>
      simp only [before, reduceCtorEq, false_and, decide_false, Bool.or_false] at taken
      by_cases answer : (hasFlag segment.flags flagSyn && hasFlag segment.flags flagAck) = true
      · rw [if_pos answer, Option.map_some, Option.some.injEq] at taken
        rw [← taken]
        exact .opened before rfl rfl rfl rfl (by simp)
      · rw [if_neg answer, Option.map_some, Option.some.injEq] at taken
        simp only [before, reduceCtorEq, if_false] at taken
        exact .ignored (by simp [before]) taken.symm
  | established =>
      obtain ⟨data, answers, took, buffer, processed, state⟩ := take_data_arrived stream isn segment genuine connection.tcb
      simp only [before, took, Option.map_some, Option.some.injEq] at taken
      by_cases ends : hasFlag segment.flags flagFin = true
      · simp only [ends, if_true] at taken
        rw [← taken]
        have shut : (takeFin data).1.state = .closed := rfl
        exact .taken before buffer processed rfl (Or.inr ⟨ends, shut, by simp [shut], by simp [shut]⟩)
      · simp only [ends, Bool.false_eq_true, if_false] at taken
        rw [← taken]
        have working : data.state = .established := state.trans before
        exact .taken before buffer processed rfl
          (Or.inl ⟨by simpa using ends, working, by simp [working], by simp [working]⟩)

structure InStep (stream : List UInt8) (connection : Connection) : Prop where
  received : connection.tcb.rxBuffer <+: stream
  processed : connection.tcb.rxProcessed ≤ connection.tcb.rxBuffer.length
  returned : connection.returned = connection.tcb.rxBuffer.take connection.tcb.rxProcessed
  working : connection.tcb.state = .established → connection.phase = .done
  ended : connection.closedByFin = true →
    connection.tcb.rxBuffer = stream ∧ connection.tcb.state = .closed ∧ connection.phase = .done

theorem tcp_receive_spec (tcb : Tcb) (maxLen : Nat) (processed : tcb.rxProcessed ≤ tcb.rxBuffer.length) :
    (tcpReceive tcb maxLen).1.rxBuffer = tcb.rxBuffer ∧ (tcpReceive tcb maxLen).1.state = tcb.state ∧
      (tcpReceive tcb maxLen).1.rxProcessed ≤ tcb.rxBuffer.length ∧
      tcb.rxBuffer.take tcb.rxProcessed ++ (tcpReceive tcb maxLen).2 =
        tcb.rxBuffer.take (tcpReceive tcb maxLen).1.rxProcessed := by
  rw [tcpReceive]
  by_cases empty : tcb.rxBuffer.length ≤ tcb.rxProcessed
  · rw [if_pos empty]
    exact ⟨rfl, rfl, processed, List.append_nil _⟩
  · rw [if_neg empty]
    refine ⟨rfl, rfl, ?_, List.take_add.symm⟩
    dsimp only
    split
    · omega
    · omega

theorem continue_stream (stream buffer data : List UInt8) (offset : Nat) (received : buffer <+: stream)
    (next : offset = buffer.length) (same : data = (stream.drop offset).take data.length) :
    buffer ++ data = stream.take (offset + data.length) := by
  have start : buffer = stream.take offset := next ▸ List.prefix_iff_eq_take.mp received
  rw [List.take_add, ← same, ← start]

theorem whole_stream (stream buffer : List UInt8) (received : buffer <+: stream) (length : buffer.length = stream.length) :
    buffer = stream := received.eq_of_length length

theorem poll_in_step (stream : List UInt8) (isn : UInt32) (segment : Segment) (connection next : Connection)
    (genuine : Genuine stream segment) (inv : InStep stream connection) (ordered : InOrder stream isn connection (.poll segment))
    (taken : stepOp isn connection (.poll segment) = some next) : InStep stream next := by
  cases poll_cases stream isn segment genuine connection next taken with
  | ignored shut same =>
      rw [same]
      exact inv
  | opened waiting buffer processed returned closedByFin phase =>
      refine ⟨buffer ▸ inv.received, ?_, ?_, fun _ => phase, fun closed => ?_⟩
      · rw [buffer, processed]
        exact inv.processed
      · rw [returned, buffer, processed]
        exact inv.returned
      · have before := (inv.ended (closedByFin ▸ closed)).2.1
        rw [waiting] at before
        cases before
  | taken working buffer processed returned fin =>
      obtain ⟨continues, last⟩ := ordered working
      have unclosed : connection.closedByFin = false := by
        by_cases closed : connection.closedByFin = true
        · have before := (inv.ended closed).2.1
          rw [working] at before
          cases before
        · exact Bool.not_eq_true _ ▸ closed
      have received : next.tcb.rxBuffer <+: stream ∧
          (hasFlag segment.flags flagFin = true → next.tcb.rxBuffer = stream) := by
        rw [buffer, arrived]
        by_cases accepted : accepts connection.tcb (packet isn segment) = true
        · obtain ⟨offset, whole⟩ := continues accepted
          have further := continue_stream stream connection.tcb.rxBuffer segment.data segment.offset inv.received offset
            genuine.data
          rw [if_pos accepted, whole, List.append_nil, further]
          refine ⟨⟨_, List.take_append_drop _ _⟩, fun ends => ?_⟩
          rw [genuine.fin ends, List.take_length]
        · rw [if_neg accepted, List.append_nil]
          refine ⟨inv.received, fun ends => ?_⟩
          exact whole_stream stream _ inv.received (last ends (Bool.not_eq_true _ ▸ accepted))
      have phase : connection.phase = .done := inv.working working
      refine ⟨received.1, ?_, ?_, ?_, fun closed => ?_⟩
      · rw [buffer, processed, List.length_append]
        exact Nat.le_trans inv.processed (Nat.le_add_right _ _)
      · rw [returned, buffer, processed, List.take_append_of_le_length inv.processed]
        exact inv.returned
      · intro established
        cases fin with
        | inl further => exact further.2.2.1
        | inr closing => exact closing.2.2.1.trans phase
      · cases fin with
        | inl further =>
            rw [further.2.2.2, unclosed] at closed
            cases closed
        | inr closing => exact ⟨received.2 closing.1, closing.2.1, closing.2.2.1.trans phase⟩

section
variable (stream : List UInt8) (isn : UInt32) (connection next : Connection) (inv : InStep stream connection)
include inv

theorem syn_in_step (sent : Bool) (done : stepOp isn connection (.syn sent) = some next) : InStep stream next := by
  cases phase : connection.phase with
  | done => simp [stepOp, phase] at done
  | connecting retry =>
      have unfinished : connection.phase ≠ .done := by simp [phase]
      simp only [stepOp, phase] at done
      split at done
      · cases done
        cases sent with
        | true =>
            exact ⟨inv.received, inv.processed, inv.returned, nofun,
              fun closed => absurd (inv.ended closed).2.2 unfinished⟩
        | false =>
            exact ⟨inv.received, inv.processed, inv.returned, fun working => absurd (inv.working working) unfinished,
              fun closed => absurd (inv.ended closed).2.2 unfinished⟩
      · cases done

theorem give_up_in_step (done : stepOp isn connection .giveUp = some next) : InStep stream next := by
  cases phase : connection.phase with
  | done => simp [stepOp, phase] at done
  | connecting retry =>
      simp only [stepOp, phase] at done
      split at done
      · cases done
        exact ⟨inv.received, inv.processed, inv.returned, nofun, fun closed => ⟨(inv.ended closed).1, rfl, rfl⟩⟩
      · cases done

theorem receive_in_step (maxLen : Nat) (done : stepOp isn connection (.receive maxLen) = some next) :
    InStep stream next := by
  simp only [stepOp] at done
  split at done
  · rename_i phase
    cases done
    obtain ⟨buffer, state, processed, copied⟩ := tcp_receive_spec connection.tcb maxLen inv.processed
    refine ⟨buffer ▸ inv.received, buffer ▸ processed, ?_, fun _ => phase, fun closed => ?_⟩
    · show connection.returned ++ _ = _
      rw [buffer, inv.returned]
      exact copied
    · obtain ⟨whole, shut, _⟩ := inv.ended closed
      exact ⟨buffer.trans whole, state.trans shut, phase⟩
  · cases done

theorem send_in_step (len : Nat) (done : stepOp isn connection (.send len) = some next) : InStep stream next := by
  simp only [stepOp] at done
  split at done
  · rename_i phase
    cases done
    rw [tcpSend]
    split
    · exact ⟨inv.received, inv.processed, inv.returned, fun _ => phase, inv.ended⟩
    · exact inv
  · cases done

theorem close_in_step (done : stepOp isn connection .close = some next) : InStep stream next := by
  simp only [stepOp] at done
  split at done
  · rename_i phase
    cases done
    rw [tcpClose]
    split
    · exact ⟨inv.received, inv.processed, inv.returned, nofun, fun closed => ⟨(inv.ended closed).1, rfl, phase⟩⟩
    · exact inv
  · cases done

theorem in_step (op : NetOp) (ordered : InOrder stream isn connection op)
    (taken : NetStep stream isn connection op next) : InStep stream next := by
  obtain ⟨genuine, done⟩ := taken
  cases op with
  | poll segment => exact poll_in_step stream isn segment connection next (genuine segment rfl) inv ordered done
  | syn sent => exact syn_in_step stream isn connection next inv sent done
  | giveUp => exact give_up_in_step stream isn connection next inv done
  | receive maxLen => exact receive_in_step stream isn connection next inv maxLen done
  | send len => exact send_in_step stream isn connection next inv len done
  | close => exact close_in_step stream isn connection next inv done
end

theorem dialled_in_step (stream : List UInt8) (connection : Connection) (dialled : Dialled connection) :
    InStep stream connection := by
  obtain ⟨tcb, ticks, rfl⟩ := dialled
  exact ⟨⟨stream, rfl⟩, Nat.le_refl _, rfl, nofun, nofun⟩

theorem returned_bytes_follow_stream (stream : List UInt8) (isn : UInt32) (connection : Connection)
    (run : Run Dialled (NetStep stream isn) (InOrder stream isn) connection) : Delivered stream connection := by
  have inv := run_invariant (InStep stream) (dialled_in_step stream)
    (fun state later op held ordered taken => in_step stream isn state later held op ordered taken) connection run
  refine ⟨?_, fun closed => ?_⟩
  · rw [inv.returned]
    have start := List.take_prefix connection.tcb.rxProcessed connection.tcb.rxBuffer
    exact start.trans inv.received
  · rw [inv.returned, List.take_append_drop]
    exact (inv.ended closed).1

def firstDial : Connection := ⟨dial ⟨.closed, 0, 0, [], 0, false⟩ 7, .connecting 0, [], false⟩

theorem first_dial_dialled : Dialled firstDial := ⟨_, _, rfl⟩

def plainSegment (flags : UInt8) (offset : Nat) (data : List UInt8) : Segment :=
  { addresses := List.replicate 12 2, ipHeader := [0x45, 0, 0, 0, 0, 0, 0, 0, 64, 6, 0, 0, 10, 0, 2, 2, 10, 0, 2, 15]
    ports := [0, 80, 0x27, 0x10], offset := offset, ack := 8, flags := flags, window := [0x20, 0, 0, 0, 0, 0]
    options := [], data := data }

theorem plain_genuine (stream : List UInt8) (flags : UInt8) (offset : Nat) (data : List UInt8)
    (inside : offset + data.length ≤ stream.length) (same : data = (stream.drop offset).take data.length)
    (syn : hasFlag flags flagSyn = true → offset = 0)
    (fin : hasFlag flags flagFin = true → offset + data.length = stream.length) (mtu : 54 + data.length ≤ 1514) :
    Genuine stream (plainSegment flags offset data) :=
  ⟨rfl, rfl, rfl, rfl, rfl, Nat.zero_le _, rfl, inside, same, syn, fin, mtu⟩

def synAck : Segment := plainSegment (flagSyn ||| flagAck) 0 []

theorem net_step (stream : List UInt8) (isn : UInt32) (connection next : Connection) (segment : Segment)
    (genuine : Genuine stream segment) (done : stepOp isn connection (.poll segment) = some next) :
    NetStep stream isn connection (.poll segment) next := by
  refine ⟨fun other same => ?_, done⟩
  cases same
  exact genuine

def greeting : List UInt8 := [72, 101, 108, 108, 111, 10]

theorem returned_bytes_follow_stream_greeting : ∃ connection : Connection, connection.closedByFin = true ∧
    connection.returned = greeting ∧ Delivered greeting connection := by
  have evaluated : (stepOp 0 firstDial (.syn true)).any (fun one => one.tcb.state = .synSent ∧
      (stepOp 0 one (.poll synAck)).any fun two =>
        two.tcb.rxBuffer = [] ∧ accepts two.tcb (packet 0 (plainSegment (flagAck ||| flagFin) 0 greeting)) = true ∧
          (stepOp 0 two (.poll (plainSegment (flagAck ||| flagFin) 0 greeting))).any fun three =>
            three.closedByFin = true ∧ (stepOp 0 three (.receive 100)).any fun four =>
              four.closedByFin = true ∧ four.returned = greeting) = true := by decide +kernel
  obtain ⟨one, first, reached⟩ := (Option.any_eq_true _ _).mp evaluated
  obtain ⟨waiting, reached⟩ := of_decide_eq_true reached
  obtain ⟨two, second, reached⟩ := (Option.any_eq_true _ _).mp reached
  obtain ⟨empty, accepted, reached⟩ := of_decide_eq_true reached
  obtain ⟨three, third, reached⟩ := (Option.any_eq_true _ _).mp reached
  obtain ⟨_, reached⟩ := of_decide_eq_true reached
  obtain ⟨four, fourth, reached⟩ := (Option.any_eq_true _ _).mp reached
  obtain ⟨closed, read⟩ := of_decide_eq_true reached
  have opening : Genuine greeting synAck :=
    plain_genuine greeting _ 0 [] (by decide) (by decide) (fun _ => rfl) (by decide) (by decide)
  have whole : Genuine greeting (plainSegment (flagAck ||| flagFin) 0 greeting) :=
    plain_genuine greeting _ 0 greeting (by decide) (by decide) (fun _ => rfl) (fun _ => rfl) (by decide)
  have shut : InOrder greeting 0 one (.poll synAck) := by
    intro working
    rw [waiting] at working
    cases working
  have ordered : InOrder greeting 0 two (.poll (plainSegment (flagAck ||| flagFin) 0 greeting)) := by
    refine fun _ => ⟨fun _ => ⟨?_, by decide⟩, fun _ refused => ?_⟩
    · rw [empty]
      rfl
    · rw [accepted] at refused
      cases refused
  have run : Run Dialled (NetStep greeting 0) (InOrder greeting 0) four :=
    .step three four (.receive 100)
      (.step two three _
        (.step one two _ (.step firstDial one (.syn true) (.start _ first_dial_dialled) trivial ⟨nofun, first⟩) shut
          (net_step greeting 0 one two synAck opening second))
        ordered (net_step greeting 0 two three _ whole third))
      trivial ⟨nofun, fourth⟩
  exact ⟨four, closed, read, returned_bytes_follow_stream greeting 0 four run⟩

-- A bare ACK is filled up to 60 bytes, and tcp_receive returns the six bytes of filling.
theorem returned_bytes_leave_stream : ¬ ∀ stream isn connection,
    Run Dialled (NetStep stream isn) (fun _ _ => True) connection → Delivered stream connection := by
  intro claimed
  have evaluated : (stepOp 0 firstDial (.syn true)).any (fun one => (stepOp 0 one (.poll synAck)).any fun two =>
      (stepOp 0 two (.poll (plainSegment flagAck 0 []))).any fun three =>
        (stepOp 0 three (.receive 100)).any fun four => four.returned = [0, 0, 0, 0, 0, 0]) = true := by decide +kernel
  obtain ⟨one, first, reached⟩ := (Option.any_eq_true _ _).mp evaluated
  obtain ⟨two, second, reached⟩ := (Option.any_eq_true _ _).mp reached
  obtain ⟨three, third, reached⟩ := (Option.any_eq_true _ _).mp reached
  obtain ⟨four, fourth, reached⟩ := (Option.any_eq_true _ _).mp reached
  have opening : Genuine greeting synAck :=
    plain_genuine greeting _ 0 [] (by decide) (by decide) (fun _ => rfl) (by decide) (by decide)
  have bare : Genuine greeting (plainSegment flagAck 0 []) :=
    plain_genuine greeting _ 0 [] (by decide) (by decide) (fun _ => rfl) (by decide) (by decide)
  have run : Run Dialled (NetStep greeting 0) (fun _ _ => True) four :=
    .step three four (.receive 100)
      (.step two three _
        (.step one two _ (.step firstDial one (.syn true) (.start _ first_dial_dialled) trivial ⟨nofun, first⟩) trivial
          (net_step greeting 0 one two synAck opening second))
        trivial (net_step greeting 0 two three _ bare third))
      trivial ⟨nofun, fourth⟩
  have start := (claimed greeting 0 four run).returned
  rw [of_decide_eq_true reached] at start
  exact absurd start (by decide)

end RoDos.Tcp
