import RoDos.Tcp.Socket

set_option autoImplicit false

namespace RoDos.Tcp

open Base

def lastWindow (host : Host) : Nat := (host.sent.getLast?.map fun packet => packet.windowSize.toNat).getD 0

def Conforming (host : Host) : Event → Prop
  | .segment _ packet => segLen packet ≤ lastWindow host
  | .connect .. => False
  | _ => True

def Appended (host : Host) : Event → Prop
  | .segment srcIp packet => host.socket.tcb.state = .established → 20 ≤ packet.length → 0 < segLen packet →
      ∀ next, hostStep host (.segment srcIp packet) = some next →
        next.socket.tcb.rxBuffer = host.socket.tcb.rxBuffer ++ packet.drop (headerLength packet)
  | _ => True

def NothingDropped (host : Host) (events : List Event) : Prop := Along hostStep Appended host events

def offeredBy (host : Host) : Event → Nat
  | .segment _ packet => if host.socket.tcb.state = .established ∧ 20 ≤ packet.length then segLen packet else 0
  | _ => 0

def dataOffered : Host → List Event → Nat
  | _, [] => 0
  | host, event :: events => offeredBy host event + ((hostStep host event).map fun next => dataOffered next events).getD 0

def HostStep (host : Host) (event : Event) (next : Host) : Prop := hostStep host event = some next

def Idle (host : Host) : Prop := host = firstHost

def JustOpened (opened : Host) : Prop :=
  ∃ host event, Run Idle HostStep (fun _ _ => True) host ∧ host.socket.tcb.state ≠ .established ∧
    hostStep host event = some opened ∧ opened.socket.tcb.state = .established

def ReadsAll (host : Host) : Event → Prop
  | .segment _ _ => host.socket.tcb.rxProcessed = host.socket.tcb.rxBuffer.length
  | _ => True

structure Regular (host : Host) : Prop where
  windows : ∀ packet ∈ host.sent, packet.windowSize = 8192
  connecting : ∀ retry, host.phase = .connecting retry →
    host.socket.tcb.rxBuffer = [] ∧ (host.socket.tcb.state = .closed ∨ host.socket.tcb.state = .synSent)
  finished : host.phase = .done → host.socket.tcb.state = .established ∨ host.socket.tcb.state = .closed

inductive Handled (tcb next : Tcb) (packet : List UInt8) (answers : List Answer) : Prop where
  | ignored (unseen : ¬ (tcb.state = .established ∧ 20 ≤ packet.length)) (same : next = tcb) (silent : answers = [])
  | opened (waiting : tcb.state = .synSent)
      (answered : next = { tcb with
        rcvNxt := fromBigEndian (packet.drop 4) + 1, sndNxt := fromBigEndian (packet.drop 8), state := .established })
      (sent : answers = [⟨next.sndNxt, next.rcvNxt, flagAck⟩])
  | kept (working : tcb.state = .established) (long : 20 ≤ packet.length) (open' : hasFlag (packet.getD 13 0) flagFin = false)
      (took : takeData tcb packet = some (next, answers))
  | ended (working : tcb.state = .established) (long : 20 ≤ packet.length)
      (fin : hasFlag (packet.getD 13 0) flagFin = true) (taken : Tcb) (acks : List Answer)
      (took : takeData tcb packet = some (taken, acks)) (shut : next = (takeFin taken).1)
      (sent : answers = acks ++ (takeFin taken).2)

theorem tcp_process_cases (tcb next : Tcb) (packet : List UInt8) (answers : List Answer) (code : Int)
    (done : tcpProcess tcb packet = some (next, answers, code)) : Handled tcb next packet answers := by
  rw [tcpProcess] at done
  by_cases short : packet.length < 20
  · rw [if_pos short] at done
    cases done
    exact .ignored (by omega) rfl rfl
  rw [if_neg short] at done
  cases state : tcb.state with
  | closed =>
      simp only [state] at done
      cases done
      exact .ignored (by simp [state]) rfl rfl
  | finWait =>
      simp only [state] at done
      cases done
      exact .ignored (by simp [state]) rfl rfl
  | synSent =>
      simp only [state] at done
      split at done
      · cases done
        exact .opened state rfl rfl
      · cases done
        exact .ignored (by simp [state]) rfl rfl
  | established =>
      simp only [state] at done
      obtain ⟨⟨taken, acks⟩, took, ended⟩ := Option.map_eq_some_iff.mp done
      cases fin : hasFlag (packet.getD 13 0) flagFin with
      | false =>
          rw [fin] at ended
          cases ended
          exact .kept state (Nat.le_of_not_lt short) fin took
      | true =>
          rw [fin] at ended
          cases ended
          exact .ended state (Nat.le_of_not_lt short) fin taken acks took rfl rfl

theorem arrive_processed (host next : Host) (srcIp : UInt32) (packet : List UInt8)
    (arrived : arrive host srcIp packet = some next) :
    ∃ answers, Handled host.socket.tcb next.socket.tcb packet answers ∧
      next.socket = { host.socket with tcb := next.socket.tcb } ∧
      next.sent = host.sent ++ answers.map (fun answer => tcpSendPacket host.socket answer.seq answer.ack answer.flags []) ∧
      next.phase =
        if host.socket.tcb.state ≠ .established ∧ next.socket.tcb.state = .established then .done else host.phase := by
  rw [arrive] at arrived
  split at arrived
  · cases arrived
  obtain ⟨⟨socket, packets, code⟩, processed, same⟩ := Option.map_eq_some_iff.mp arrived
  obtain ⟨⟨tcb, answers, returned⟩, done, filled⟩ := Option.map_eq_some_iff.mp processed
  cases filled
  rw [← same]
  exact ⟨answers, tcp_process_cases _ _ _ _ _ done, rfl, rfl, rfl⟩

inductive HostMove (host next : Host) : Event → Prop where
  | dialled (destIp : UInt32) (destPort : UInt16) (ownIp portTicks ticks : UInt32) (ready : Bool)
      (finished : host.phase = .done) (same : next = tcpConnect host destIp destPort ownIp portTicks ticks ready) :
      HostMove host next (.connect destIp destPort ownIp portTicks ticks ready)
  | asked (retry : Nat) (connecting : host.phase = .connecting retry)
      (same : next = { host with
        socket := { host.socket with tcb := { host.socket.tcb with state := .synSent } }
        phase := .connecting (retry + 1)
        sent := host.sent ++ [tcpSendPacket host.socket host.socket.tcb.sndNxt 0 flagSyn []] }) :
      HostMove host next (.syn true)
  | unasked (retry : Nat) (connecting : host.phase = .connecting retry)
      (same : next = { host with phase := .connecting (retry + 1) }) : HostMove host next (.syn false)
  | gaveUp (connecting : host.phase = .connecting 5)
      (same : next = { host with
        socket := { host.socket with tcb := { host.socket.tcb with state := .closed } }, phase := .done }) :
      HostMove host next .giveUp
  | arrived (srcIp : UInt32) (packet : List UInt8) (taken : arrive host srcIp packet = some next) :
      HostMove host next (.segment srcIp packet)
  | received (maxLen : Nat) (finished : host.phase = .done)
      (same : next = { host with
        socket := { host.socket with tcb := (tcpReceive host.socket.tcb maxLen).1 }
        returned := host.returned ++ (tcpReceive host.socket.tcb maxLen).2 }) : HostMove host next (.receive maxLen)
  | carried (data : List UInt8) (finished : host.phase = .done) (working : host.socket.tcb.state = .established)
      (same : next = { host with
        socket := { host.socket with
          tcb := { host.socket.tcb with sndNxt := host.socket.tcb.sndNxt + UInt32.ofNat data.length } }
        sent := host.sent ++
          [tcpSendPacket host.socket host.socket.tcb.sndNxt host.socket.tcb.rcvNxt (flagPsh ||| flagAck) data] }) :
      HostMove host next (.send data)
  | refused (data : List UInt8) (finished : host.phase = .done) (shut : host.socket.tcb.state ≠ .established)
      (same : next = host) : HostMove host next (.send data)
  | closed (finished : host.phase = .done) (working : host.socket.tcb.state = .established)
      (same : next = { host with
        socket := { host.socket with tcb := { host.socket.tcb with state := .closed } }
        sent := host.sent ++
          [tcpSendPacket host.socket host.socket.tcb.sndNxt host.socket.tcb.rcvNxt (flagFin ||| flagAck) []] }) :
      HostMove host next .close
  | unopened (finished : host.phase = .done) (shut : host.socket.tcb.state ≠ .established) (same : next = host) :
      HostMove host next .close

theorem send_syn_cases (host next : Host) (sent : Bool) (done : sendSyn host sent = some next) :
    HostMove host next (.syn sent) := by
  rw [sendSyn] at done
  cases phase : host.phase with
  | done =>
      simp only [phase] at done
      cases done
  | connecting retry =>
      simp only [phase] at done
      by_cases few : retry < 5
      · rw [if_pos few] at done
        cases sent with
        | true => exact .asked retry phase (Option.some.inj done).symm
        | false => exact .unasked retry phase (Option.some.inj done).symm
      · rw [if_neg few] at done
        cases done

theorem host_step_cases (host next : Host) (event : Event) (taken : hostStep host event = some next) :
    HostMove host next event := by
  cases event with
  | syn sent => exact send_syn_cases host next sent taken
  | segment srcIp packet => exact .arrived srcIp packet taken
  | giveUp =>
      obtain ⟨connecting, same⟩ := Option.ite_none_right_eq_some.mp taken
      exact .gaveUp connecting (Option.some.inj same).symm
  | connect destIp destPort ownIp portTicks ticks ready =>
      obtain ⟨finished, same⟩ := Option.ite_none_right_eq_some.mp taken
      exact .dialled destIp destPort ownIp portTicks ticks ready finished (Option.some.inj same).symm
  | receive maxLen =>
      obtain ⟨finished, same⟩ := Option.ite_none_right_eq_some.mp taken
      exact .received maxLen finished (Option.some.inj same).symm
  | send data =>
      obtain ⟨finished, same⟩ := Option.ite_none_right_eq_some.mp taken
      have moved := (Option.some.inj same).symm
      by_cases working : host.socket.tcb.state = .established
      · rw [sendData, if_pos working, tcpSend, if_pos working] at moved
        exact .carried data finished working moved
      · rw [sendData, if_neg working] at moved
        exact .refused data finished working moved
  | close =>
      obtain ⟨finished, same⟩ := Option.ite_none_right_eq_some.mp taken
      have moved := (Option.some.inj same).symm
      by_cases working : host.socket.tcb.state = .established
      · rw [closeSocket, if_pos working, tcpClose, if_pos working] at moved
        exact .closed finished working moved
      · rw [closeSocket, if_neg working] at moved
        exact .unopened finished working moved

inductive Arrived (packet : List UInt8) (host next : Host) : Prop where
  | ignored (unseen : ¬ (host.socket.tcb.state = .established ∧ 20 ≤ packet.length))
      (same : next.socket = host.socket) (phase : next.phase = host.phase)
  | opened (waiting : host.socket.tcb.state = .synSent) (ready : next.socket.tcb.state = .established)
      (buffer : next.socket.tcb.rxBuffer = host.socket.tcb.rxBuffer) (phase : next.phase = .done)
  | taken (working : host.socket.tcb.state = .established) (long : 20 ≤ packet.length)
      (state : next.socket.tcb.state = .established ∨ next.socket.tcb.state = .closed) (phase : next.phase = host.phase)
      (data : ∃ tcb answers, takeData host.socket.tcb packet = some (tcb, answers) ∧
        next.socket.tcb.rxBuffer = tcb.rxBuffer ∧ next.socket.tcb.rxProcessed = tcb.rxProcessed)

theorem take_data_state (tcb taken : Tcb) (packet : List UInt8) (answers : List Answer)
    (took : takeData tcb packet = some (taken, answers)) : taken.state = tcb.state := by
  rw [takeData] at took
  split at took
  · split at took
    · cases took
    · cases took
      rfl
  · cases took
    rfl

theorem arrive_cases (host next : Host) (srcIp : UInt32) (packet : List UInt8)
    (arrived : arrive host srcIp packet = some next) : Arrived packet host next := by
  obtain ⟨answers, handled, frame, _, phase⟩ := arrive_processed host next srcIp packet arrived
  cases handled with
  | ignored unseen same silent =>
      refine .ignored unseen (by rw [frame, same]) ?_
      rw [phase, same, if_neg fun both => both.1 both.2]
  | opened waiting answered sent =>
      have ready : next.socket.tcb.state = .established := by rw [answered]
      refine .opened waiting ready (by rw [answered]) ?_
      rw [phase, waiting, ready]
      exact if_pos ⟨by decide, rfl⟩
  | kept working long open' took =>
      have state := take_data_state _ _ _ _ took
      refine .taken working long (Or.inl (state.trans working)) ?_ ⟨_, _, took, rfl, rfl⟩
      rw [phase, if_neg fun both => both.1 working]
  | ended working long fin taken acks took shut sent =>
      refine .taken working long (Or.inr (by rw [shut]; rfl)) ?_ ⟨taken, acks, took, by rw [shut]; rfl, by rw [shut]; rfl⟩
      rw [phase, if_neg fun both => both.1 working]

theorem arrive_windows (host next : Host) (srcIp : UInt32) (packet : List UInt8)
    (windows : ∀ sent ∈ host.sent, sent.windowSize = 8192) (arrived : arrive host srcIp packet = some next) :
    ∀ sent ∈ next.sent, sent.windowSize = 8192 := by
  obtain ⟨answers, _, _, made, _⟩ := arrive_processed host next srcIp packet arrived
  intro sent member
  rw [made] at member
  rcases List.mem_append.mp member with old | new
  · exact windows sent old
  · obtain ⟨answer, _, rfl⟩ := List.mem_map.mp new
    rfl

theorem window_appended (packets : List Packet) (packet : Packet) (windows : ∀ sent ∈ packets, sent.windowSize = 8192)
    (window : packet.windowSize = 8192) : ∀ sent ∈ packets ++ [packet], sent.windowSize = 8192 := by
  intro sent member
  rcases List.mem_append.mp member with old | new
  · exact windows sent old
  · rw [List.mem_singleton.mp new]
    exact window

section
variable (host : Host) (regular : Regular host)
include regular

theorem connecting_not_established (retry : Nat) (connecting : host.phase = .connecting retry) :
    host.socket.tcb.state ≠ .established := by
  intro working
  have early := (regular.connecting retry connecting).2
  rw [working] at early
  rcases early with impossible | impossible <;> cases impossible

theorem established_done (working : host.socket.tcb.state = .established) : host.phase = .done := by
  cases phase : host.phase with
  | done => rfl
  | connecting retry => exact absurd working (connecting_not_established host regular retry phase)

theorem waiting_connecting (waiting : host.socket.tcb.state = .synSent) :
    host.socket.tcb.rxBuffer = [] ∧ host.phase ≠ .done := by
  cases phase : host.phase with
  | done =>
      have settled := regular.finished phase
      rw [waiting] at settled
      rcases settled with impossible | impossible <;> cases impossible
  | connecting retry => exact ⟨(regular.connecting retry phase).1, Phase.noConfusion⟩
end

theorem regular_arrive (host next : Host) (srcIp : UInt32) (packet : List UInt8) (regular : Regular host)
    (arrived : arrive host srcIp packet = some next) : Regular next := by
  have windows := arrive_windows host next srcIp packet regular.windows arrived
  cases arrive_cases host next srcIp packet arrived with
  | ignored unseen same phase =>
      exact ⟨windows, by rw [same, phase]; exact regular.connecting, by rw [same, phase]; exact regular.finished⟩
  | opened waiting ready buffer phase =>
      exact ⟨windows, fun retry connecting => (nomatch phase.symm.trans connecting), fun _ => Or.inl ready⟩
  | taken working long state phase data =>
      refine ⟨windows, fun retry connecting => ?_, fun _ => state⟩
      exact absurd working (connecting_not_established host regular retry (phase.symm.trans connecting))

theorem tcp_receive_state (tcb : Tcb) (maxLen : Nat) :
    (tcpReceive tcb maxLen).1.state = tcb.state ∧ (tcpReceive tcb maxLen).1.rxBuffer = tcb.rxBuffer := by
  rw [tcpReceive]
  split <;> exact ⟨rfl, rfl⟩

theorem regular_step (host next : Host) (event : Event) (regular : Regular host) (taken : HostStep host event next) :
    Regular next := by
  cases host_step_cases host next event taken with
  | dialled _ _ _ _ _ _ finished same =>
      rw [same]
      exact ⟨regular.windows, fun _ _ => ⟨rfl, Or.inl rfl⟩, fun _ => Or.inr rfl⟩
  | asked retry connecting same =>
      rw [same]
      exact ⟨window_appended _ _ regular.windows rfl,
        fun _ _ => ⟨(regular.connecting retry connecting).1, Or.inr rfl⟩, Phase.noConfusion⟩
  | unasked retry connecting same =>
      rw [same]
      exact ⟨regular.windows, fun _ _ => regular.connecting retry connecting, Phase.noConfusion⟩
  | gaveUp connecting same =>
      rw [same]
      exact ⟨regular.windows, fun _ => Phase.noConfusion, fun _ => Or.inr rfl⟩
  | arrived srcIp packet taken => exact regular_arrive host next srcIp packet regular taken
  | received maxLen finished same =>
      obtain ⟨state, _⟩ := tcp_receive_state host.socket.tcb maxLen
      rw [same]
      refine ⟨regular.windows, fun retry connecting => ?_, fun _ => ?_⟩
      · cases finished.symm.trans connecting
      · rw [state]
        exact regular.finished finished
  | carried data finished working same =>
      rw [same]
      refine ⟨window_appended _ _ regular.windows rfl, fun retry connecting => ?_, fun _ => Or.inl working⟩
      cases finished.symm.trans connecting
  | closed finished working same =>
      rw [same]
      refine ⟨window_appended _ _ regular.windows rfl, fun retry connecting => ?_, fun _ => Or.inr rfl⟩
      cases finished.symm.trans connecting
  | refused _ _ _ same => exact same ▸ regular
  | unopened _ _ same => exact same ▸ regular

theorem regular_idle (host : Host) (idle : Idle host) : Regular host := by
  rw [idle]
  exact ⟨nofun, nofun, fun _ => Or.inr rfl⟩

theorem regular_run (host : Host) (run : Run Idle HostStep (fun _ _ => True) host) : Regular host :=
  run_invariant Regular regular_idle (fun state next event regular _ taken => regular_step state next event regular taken)
    host run

theorem last_window_le (host : Host) (regular : Regular host) : lastWindow host ≤ 8192 := by
  rw [lastWindow]
  cases last : host.sent.getLast? with
  | none => exact Nat.zero_le _
  | some packet =>
      have window := regular.windows packet (List.mem_of_getLast? last)
      rw [Option.map_some, Option.getD_some, window]
      decide

theorem header_length_le (packet : List UInt8) : headerLength packet ≤ 60 := by
  have byte := (packet.getD 12 0).toNat_lt
  have nibble : (packet.getD 12 0 >>> 4).toNat = (packet.getD 12 0).toNat / 16 := by
    rw [UInt8.toNat_shiftRight, Nat.shiftRight_eq_div_pow]
    rfl
  rw [headerLength, nibble]
  omega

theorem seg_len_data (packet : List UInt8) (room : packet.length ≤ payloadRoom) (small : segLen packet ≤ 8192) :
    headerLength packet ≤ packet.length ∧ (packet.drop (headerLength packet)).length = segLen packet := by
  have header := header_length_le packet
  rw [payloadRoom] at room
  rw [segLen] at small
  rw [List.length_drop, segLen]
  omega

theorem take_data_room (tcb : Tcb) (packet : List UInt8) (small : segLen packet ≤ 8192)
    (filled : tcb.rxBuffer.length < rxBufferSize) :
    accepts tcb packet = true ↔ 0 < segLen packet ∧ tcb.rxBuffer.length + segLen packet < rxBufferSize := by
  have whole : (tcb.rxBuffer.length + segLen packet) % 2 ^ 32 = tcb.rxBuffer.length + segLen packet := by
    rw [rxBufferSize] at filled
    exact Nat.mod_eq_of_lt (by omega)
  rw [accepts, whole, decide_eq_true_iff]

inductive Kept (host next : Host) (event : Event) : Prop where
  | stored (appended : Appended host event) (phase : next.phase = .done)
      (length : next.socket.tcb.rxBuffer.length = host.socket.tcb.rxBuffer.length + offeredBy host event)
      (room : host.socket.tcb.rxBuffer.length + offeredBy host event < rxBufferSize)
  | dropped (lost : ¬ Appended host event)
      (full : rxBufferSize ≤ host.socket.tcb.rxBuffer.length + offeredBy host event)

section
variable (host next : Host) (regular : Regular host) (finished : host.phase = .done)
  (filled : host.socket.tcb.rxBuffer.length < rxBufferSize)
include filled

theorem kept_quiet (event : Event) (appended : Appended host event) (nothing : offeredBy host event = 0)
    (phase : next.phase = .done) (same : next.socket.tcb.rxBuffer = host.socket.tcb.rxBuffer) : Kept host next event := by
  refine .stored appended phase ?_ ?_
  · rw [same, nothing, Nat.add_zero]
  · rw [nothing, Nat.add_zero]
    exact filled

theorem kept_taken (srcIp : UInt32) (packet : List UInt8) (working : host.socket.tcb.state = .established)
    (long : 20 ≤ packet.length) (phase : next.phase = .done) (room : packet.length ≤ payloadRoom)
    (small : segLen packet ≤ 8192) (arrived : hostStep host (.segment srcIp packet) = some next)
    (data : ∃ tcb answers, takeData host.socket.tcb packet = some (tcb, answers) ∧
      next.socket.tcb.rxBuffer = tcb.rxBuffer ∧ next.socket.tcb.rxProcessed = tcb.rxProcessed) :
    Kept host next (.segment srcIp packet) := by
  have offered : offeredBy host (.segment srcIp packet) = segLen packet := by rw [offeredBy, if_pos ⟨working, long⟩]
  obtain ⟨inside, length⟩ := seg_len_data packet room small
  obtain ⟨tcb, answers, took, buffer, _⟩ := data
  rw [takeData] at took
  by_cases accepted : accepts host.socket.tcb packet = true
  · obtain ⟨_, fits⟩ := (take_data_room host.socket.tcb packet small filled).mp accepted
    rw [if_pos accepted, if_neg (Nat.not_lt.mpr inside)] at took
    cases took
    refine .stored (fun _ _ _ other same => ?_) phase ?_ (by rw [offered]; exact fits)
    · rw [Option.some.inj (same.symm.trans arrived), buffer]
    · rw [buffer, List.length_append, length, offered]
  · rw [if_neg accepted] at took
    cases took
    rw [take_data_room host.socket.tcb packet small filled, not_and] at accepted
    by_cases empty : segLen packet = 0
    · refine kept_quiet host next filled _ (fun _ _ positive => ?_) (offered.trans empty) phase buffer
      omega
    · have full := accepted (Nat.pos_of_ne_zero empty)
      refine .dropped (fun appended => ?_) (by rw [offered]; exact Nat.le_of_not_lt full)
      have longer := congrArg List.length (appended working long (Nat.pos_of_ne_zero empty) next arrived)
      rw [buffer, List.length_append, length] at longer
      omega

include regular finished

theorem kept_step (event : Event) (conforming : Conforming host event) (taken : hostStep host event = some next) :
    Kept host next event := by
  cases host_step_cases host next event taken with
  | dialled _ _ _ _ _ _ _ _ => exact conforming.elim
  | asked retry connecting _ => cases finished.symm.trans connecting
  | unasked retry connecting _ => cases finished.symm.trans connecting
  | gaveUp connecting _ => cases finished.symm.trans connecting
  | arrived srcIp packet arrived =>
      have small : segLen packet ≤ 8192 := Nat.le_trans conforming (last_window_le host regular)
      have room : packet.length ≤ payloadRoom := by
        rw [arrive] at arrived
        split at arrived
        · cases arrived
        · omega
      cases arrive_cases host next srcIp packet arrived with
      | ignored unseen same phase =>
          refine kept_quiet host next filled _ (fun working long => absurd ⟨working, long⟩ unseen) ?_
            (phase.trans finished) (by rw [same])
          rw [offeredBy, if_neg unseen]
      | opened waiting ready buffer phase => exact absurd finished (waiting_connecting host regular waiting).2
      | taken working long state phase data =>
          exact kept_taken host next filled srcIp packet working long (phase.trans finished) room small taken data
  | received maxLen _ same =>
      exact kept_quiet host next filled _ trivial rfl (by rw [same]; exact finished)
        (by rw [same]; exact (tcp_receive_state _ _).2)
  | carried data _ _ same => exact kept_quiet host next filled _ trivial rfl (by rw [same]; exact finished) (by rw [same])
  | refused data _ _ same => exact kept_quiet host next filled _ trivial rfl (by rw [same]; exact finished) (by rw [same])
  | closed _ _ same => exact kept_quiet host next filled _ trivial rfl (by rw [same]; exact finished) (by rw [same])
  | unopened _ _ same => exact kept_quiet host next filled _ trivial rfl (by rw [same]; exact finished) (by rw [same])
end

theorem nothing_dropped_from (host finish : Host) (events : List Event) (regular : Regular host)
    (finished : host.phase = .done) (filled : host.socket.tcb.rxBuffer.length < rxBufferSize)
    (conforming : Along hostStep Conforming host events) (done : runAll hostStep host events = some finish) :
    NothingDropped host events ↔ host.socket.tcb.rxBuffer.length + dataOffered host events < rxBufferSize := by
  induction events generalizing host with
  | nil => exact ⟨fun _ => filled, fun _ => trivial⟩
  | cons event events ih =>
      obtain ⟨next, taken, further⟩ := Option.bind_eq_some_iff.mp done
      obtain ⟨fits, later⟩ := conforming
      have offered : dataOffered host (event :: events) = offeredBy host event + dataOffered next events := by
        rw [dataOffered, taken]
        rfl
      have split : NothingDropped host (event :: events) ↔ Appended host event ∧ NothingDropped next events := by
        rw [NothingDropped, Along, taken]
        simp only [Option.some.injEq, forall_eq', NothingDropped]
      rw [offered, split]
      cases kept_step host next regular finished filled event fits taken with
      | stored appended phase length room =>
          have rest := ih next (regular_step host next event regular taken) phase (by rw [length]; exact room)
            (later next taken) further
          rw [rest, length, Nat.add_assoc]
          exact and_iff_right appended
      | dropped lost full =>
          exact ⟨fun kept => absurd kept.1 lost, fun small => by omega⟩

theorem just_opened (opened : Host) (opening : JustOpened opened) :
    Regular opened ∧ opened.phase = .done ∧ opened.socket.tcb.rxBuffer = [] := by
  obtain ⟨host, event, run, before, taken, working⟩ := opening
  have regular := regular_run host run
  have later := regular_step host opened event regular taken
  refine ⟨later, established_done opened later working, ?_⟩
  cases host_step_cases host opened event taken with
  | arrived srcIp packet arrived =>
      cases arrive_cases host opened srcIp packet arrived with
      | ignored unseen same _ =>
          rw [same] at working
          exact absurd working before
      | opened waiting ready buffer _ => rw [buffer, (waiting_connecting host regular waiting).1]
      | taken working' _ _ _ _ => exact absurd working' before
  | received maxLen _ same =>
      rw [same, (tcp_receive_state _ _).1] at working
      exact absurd working before
  | dialled _ _ _ _ _ _ _ same =>
      rw [same] at working
      cases working
  | asked _ _ same =>
      rw [same] at working
      cases working
  | gaveUp _ same =>
      rw [same] at working
      cases working
  | unasked _ _ same =>
      rw [same] at working
      exact absurd working before
  | carried _ _ working' _ => exact absurd working' before
  | closed _ working' _ => exact absurd working' before
  | refused _ _ _ same => exact absurd (same ▸ working) before
  | unopened _ _ same => exact absurd (same ▸ working) before

theorem segments_appended_iff (opened finish : Host) (events : List Event) (opening : JustOpened opened)
    (conforming : Along hostStep Conforming opened events) (done : runAll hostStep opened events = some finish) :
    NothingDropped opened events ↔ dataOffered opened events < rxBufferSize := by
  obtain ⟨regular, phase, empty⟩ := just_opened opened opening
  have counted := nothing_dropped_from opened finish events regular phase (by rw [empty]; decide) conforming done
  rw [empty, List.length_nil, Nat.zero_add] at counted
  exact counted

theorem opening_just_opened : ∃ opened : Host, JustOpened opened ∧ lastWindow opened = 8192 ∧
    opened.socket.tcb.rxProcessed = 0 ∧ runAll hostStep firstHost opening = some opened := by
  have evaluated : (runAll hostStep firstHost (opening.take 2)).any (fun host =>
      host.socket.tcb.state ≠ .established ∧ (hostStep host (.segment 0x0A000202
        (bareSegment 80 10007 500 8 (flagSyn ||| flagAck)))).any fun opened =>
          opened.socket.tcb.state = .established ∧ lastWindow opened = 8192 ∧ opened.socket.tcb.rxProcessed = 0 ∧
            runAll hostStep firstHost opening = some opened) = true := by decide +kernel
  obtain ⟨host, dialled, reached⟩ := (Option.any_eq_true _ _).mp evaluated
  obtain ⟨before, reached⟩ := of_decide_eq_true reached
  obtain ⟨opened, taken, reached⟩ := (Option.any_eq_true _ _).mp reached
  obtain ⟨working, window, processed, whole⟩ := of_decide_eq_true reached
  have run : Run Idle HostStep (fun _ _ => True) host :=
    run_all_run hostStep (fun _ _ _ moved => ⟨trivial, moved⟩) firstHost host _ (.start firstHost rfl) dialled
  exact ⟨opened, ⟨host, _, run, before, taken, working⟩, window, processed, whole⟩

def shortSegment : List UInt8 := bareSegment 80 10007 501 8 flagAck ++ [104, 105]

theorem segments_appended_short : ∃ opened : Host, JustOpened opened ∧
    dataOffered opened [.segment 0x0A000202 shortSegment, .receive 100] = 2 ∧
      NothingDropped opened [.segment 0x0A000202 shortSegment, .receive 100] := by
  obtain ⟨opened, opening, window, processed, whole⟩ := opening_just_opened
  have evaluated : (runAll hostStep firstHost RoDos.Tcp.opening).any (fun opened =>
      dataOffered opened [.segment 0x0A000202 shortSegment, .receive 100] = 2 ∧
        (runAll hostStep opened [.segment 0x0A000202 shortSegment, .receive 100]).isSome) = true := by decide +kernel
  rw [whole] at evaluated
  obtain ⟨offered, done⟩ := of_decide_eq_true evaluated
  obtain ⟨finish, done⟩ := Option.isSome_iff_exists.mp done
  have conforming : Along hostStep Conforming opened [.segment 0x0A000202 shortSegment, .receive 100] := by
    refine ⟨?_, fun _ _ => ⟨trivial, fun _ _ => trivial⟩⟩
    rw [Conforming, window]
    decide
  exact ⟨opened, opening, offered, (segments_appended_iff opened finish _ opening conforming done).mpr (by rw [offered]; decide)⟩

def fullPacket : List UInt8 := bareSegment 80 10007 501 8 flagAck ++ List.replicate 1460 120

def fullSegment : Event := .segment 0x0A000202 fullPacket

def fullSegments : Nat → List Event
  | 0 => [fullSegment]
  | count + 1 => fullSegment :: .receive 2000 :: fullSegments count

structure Reading (host : Host) (length : Nat) : Prop where
  finished : host.phase = .done
  working : host.socket.tcb.state = .established
  window : lastWindow host = 8192
  read : host.socket.tcb.rxProcessed = length
  length : host.socket.tcb.rxBuffer.length = length

theorem full_header : headerLength fullPacket = 20 := by decide +kernel

theorem full_length : fullPacket.length = 1480 := by decide +kernel

theorem full_seg_len : segLen fullPacket = 1460 := by
  rw [segLen, full_length, full_header]
  rfl

theorem full_flags : hasFlag (fullPacket.getD 13 0) flagFin = false := by decide +kernel

section
variable (host : Host) (length : Nat) (reading : Reading host length)
include reading

theorem full_conforming : Conforming host fullSegment := by
  show segLen fullPacket ≤ lastWindow host
  rw [full_seg_len, reading.window]
  decide

theorem full_reads : ReadsAll host fullSegment := reading.read.trans reading.length.symm

theorem full_offered : offeredBy host fullSegment = 1460 := by
  show (if host.socket.tcb.state = .established ∧ 20 ≤ fullPacket.length then segLen fullPacket else 0) = 1460
  rw [if_pos ⟨reading.working, by rw [full_length]; decide⟩, full_seg_len]

theorem full_taken : ∃ next, hostStep host fullSegment = some next ∧
    (length + 1460 < rxBufferSize → next.phase = .done ∧ next.socket.tcb.state = .established ∧
      lastWindow next = 8192 ∧ next.socket.tcb.rxProcessed = length ∧
        next.socket.tcb.rxBuffer.length = length + 1460) := by
  have room : ¬ payloadRoom < fullPacket.length := by rw [full_length]; decide
  have long : ¬ fullPacket.length < 20 := by rw [full_length]; decide
  have inside : ¬ fullPacket.length < headerLength fullPacket := by rw [full_length, full_header]; decide
  show ∃ next, arrive host 0x0A000202 fullPacket = some next ∧ _
  simp only [arrive, if_neg room, tcpProcessFrom, tcpProcess, if_neg long, reading.working, takeData, if_neg inside,
    full_flags]
  by_cases accepted : accepts host.socket.tcb fullPacket = true
  · simp only [if_pos accepted, Option.map_some, Option.some.injEq, exists_eq_left', Bool.false_eq_true, if_false]
    intro _
    refine ⟨by simp [reading.finished], trivial, ?_, reading.read, ?_⟩
    · rw [lastWindow, List.map_singleton, List.getLast?_append]
      rfl
    · rw [List.length_append, List.length_drop, full_length, full_header, reading.length]
  · simp only [if_neg accepted, Option.map_some, Option.some.injEq, exists_eq_left']
    intro fits
    refine absurd ?_ accepted
    rw [accepts, full_seg_len, reading.length, decide_eq_true_iff]
    rw [rxBufferSize] at fits ⊢
    omega

theorem full_round (room : length + 1460 < rxBufferSize) : ∃ one two, hostStep host fullSegment = some one ∧
    hostStep one (.receive 2000) = some two ∧ Reading two (length + 1460) := by
  obtain ⟨one, taken, kept⟩ := full_taken host length reading
  obtain ⟨finished, working, window, processed, filled⟩ := kept room
  have received : tcpReceive one.socket.tcb 2000 =
      ({ one.socket.tcb with rxProcessed := length + 1460, hasData := false },
        (one.socket.tcb.rxBuffer.drop length).take 1460) := by
    rw [tcpReceive, processed, filled, if_neg (by omega)]
    simp
  refine ⟨one, _, taken, by rw [hostStep, if_pos finished], ?_⟩
  simp only [received]
  exact ⟨finished, working, window, rfl, filled⟩
end

theorem full_segments_run (count length : Nat) (host : Host) (reading : Reading host length)
    (room : length + 1460 * count < rxBufferSize) :
    dataOffered host (fullSegments count) = 1460 * (count + 1) ∧ Along hostStep Conforming host (fullSegments count) ∧
      Along hostStep ReadsAll host (fullSegments count) ∧ ∃ finish, runAll hostStep host (fullSegments count) = some finish := by
  induction count generalizing host length with
  | zero =>
      obtain ⟨next, taken, _⟩ := full_taken host length reading
      refine ⟨?_, ⟨full_conforming host length reading, fun _ _ => trivial⟩,
        ⟨full_reads host length reading, fun _ _ => trivial⟩, next, ?_⟩
      · rw [fullSegments, dataOffered, full_offered host length reading, taken, Option.map_some, Option.getD_some,
          dataOffered]
      · simp only [fullSegments, runAll, taken, Option.bind_some]
  | succ count ih =>
      have here : length + 1460 < rxBufferSize := Nat.lt_of_le_of_lt (by omega) room
      have behind : length + 1460 + 1460 * count < rxBufferSize := Nat.lt_of_le_of_lt (by omega) room
      obtain ⟨one, two, taken, received, later⟩ := full_round host length reading here
      obtain ⟨offered, conforming, reads, finish, done⟩ := ih (length + 1460) two later behind
      have quiet : offeredBy one (.receive 2000) = 0 := rfl
      refine ⟨?_, ⟨full_conforming host length reading, fun next same => ?_⟩,
        ⟨full_reads host length reading, fun next same => ?_⟩, finish, ?_⟩
      · rw [fullSegments, dataOffered, full_offered host length reading, taken, Option.map_some, Option.getD_some,
          dataOffered, received, Option.map_some, Option.getD_some, offered, quiet]
        omega
      · cases taken.symm.trans same
        exact ⟨trivial, fun next same => Option.some.inj (received.symm.trans same) ▸ conforming⟩
      · cases taken.symm.trans same
        exact ⟨trivial, fun next same => Option.some.inj (received.symm.trans same) ▸ reads⟩
      · rw [fullSegments, runAll, taken, Option.bind_some, runAll, received, Option.bind_some]
        exact done

-- The twelfth full segment finds no room, although everything before it was read.
theorem segments_not_always_appended : ¬ ∀ opened, JustOpened opened → ∀ events finish,
    Along hostStep Conforming opened events → Along hostStep ReadsAll opened events →
      runAll hostStep opened events = some finish → NothingDropped opened events := by
  intro claimed
  obtain ⟨opened, opening, window, processed, _⟩ := opening_just_opened
  obtain ⟨regular, phase, empty⟩ := just_opened opened opening
  have working := opening.choose_spec.choose_spec.2.2.2
  obtain ⟨offered, conforming, reads, finish, done⟩ := full_segments_run 11 0 opened
    ⟨phase, working, window, processed, by rw [empty]; rfl⟩ (by decide)
  have kept := claimed opened opening _ finish conforming reads done
  rw [nothing_dropped_from opened finish _ regular phase (by rw [empty]; decide) conforming done, offered] at kept
  exact absurd kept (by rw [empty]; decide)

end RoDos.Tcp
