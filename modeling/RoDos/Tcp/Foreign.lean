import RoDos.Base.Erasure
import RoDos.Tcp.Socket

set_option autoImplicit false

namespace RoDos.Tcp

open Base

def portAt (packet : List UInt8) (i : Nat) : UInt16 :=
  ((packet.getD i 0).toUInt16 <<< 8) ||| (packet.getD (i + 1) 0).toUInt16

-- In SYN_SENT snd_nxt is still the sequence number of the SYN.
def isForeign (socket : Socket) (srcIp : UInt32) (packet : List UInt8) : Bool :=
  srcIp ≠ socket.remoteIp ∨ portAt packet 0 ≠ socket.remotePort ∨ portAt packet 2 ≠ socket.localPort ∨
    (socket.tcb.state = .synSent ∧ fromBigEndian (packet.drop 8) ≠ socket.tcb.sndNxt + 1)

def foreignEvent (host : Host) : Event → Bool
  | .segment srcIp packet => packet.length ≤ payloadRoom ∧ isForeign host.socket srcIp packet
  | _ => false

def LeavesAlone (socket : Socket) (srcIp : UInt32) (packet : List UInt8) : Prop :=
  ∃ code, tcpProcessFrom socket srcIp packet = some (socket, [], code)

-- What makes a segment harmless: no header, no connection, no SYN-ACK while one is awaited, and
-- neither data that finds room nor a FIN later on.
def Inert (tcb : Tcb) (packet : List UInt8) : Prop :=
  packet.length < 20 ∨
    match tcb.state with
    | .closed | .finWait => True
    | .synSent => ¬ (hasFlag (packet.getD 13 0) flagSyn && hasFlag (packet.getD 13 0) flagAck) = true
    | .established => accepts tcb packet = false ∧ hasFlag (packet.getD 13 0) flagFin = false

def InertEvent (host : Host) : Event → Prop
  | .segment _ packet => Inert host.socket.tcb packet
  | _ => True

section
variable (socket : Socket) (srcIp : UInt32) (packet : List UInt8)

theorem leaves_alone_process : LeavesAlone socket srcIp packet ↔ ∃ code, tcpProcess socket.tcb packet = some (socket.tcb, [], code) := by
  constructor
  · rintro ⟨code, done⟩
    obtain ⟨result, processed, same⟩ := Option.map_eq_some_iff.mp done
    obtain ⟨tcb, answers, returned⟩ := result
    simp only [Prod.mk.injEq, List.map_eq_nil_iff] at same
    obtain ⟨kept, none, _⟩ := same
    have tcbKept : tcb = socket.tcb := congrArg Socket.tcb kept
    exact ⟨returned, by rw [processed, tcbKept, none]⟩
  · rintro ⟨code, processed⟩
    exact ⟨code, by rw [tcpProcessFrom, processed]; rfl⟩

theorem established_leaves (tcb : Tcb) (working : tcb.state = .established) (long : ¬ packet.length < 20) :
    (∃ code, tcpProcess tcb packet = some (tcb, [], code)) ↔
      accepts tcb packet = false ∧ hasFlag (packet.getD 13 0) flagFin = false := by
  constructor
  · rintro ⟨code, processed⟩
    simp only [tcpProcess, if_neg long, working] at processed
    obtain ⟨taken, took, same⟩ := Option.map_eq_some_iff.mp processed
    by_cases ends : hasFlag (packet.getD 13 0) flagFin = true
    · rw [if_pos ends] at same
      have shut : (takeFin taken.1).1.state = tcb.state := congrArg (fun result => result.1.state) same
      rw [working] at shut
      cases shut
    · rw [if_neg ends] at same
      refine ⟨?_, Bool.not_eq_true _ ▸ ends⟩
      by_cases accepted : accepts tcb packet = true
      · have silent : taken.2 = [] := congrArg (fun result => result.2.1) same
        rw [takeData, if_pos accepted] at took
        split at took
        · cases took
        · cases took
          cases silent
      · exact Bool.not_eq_true _ ▸ accepted
  · rintro ⟨refused, open'⟩
    refine ⟨0, ?_⟩
    simp only [tcpProcess, if_neg long, working, takeData, refused, open', Bool.false_eq_true, if_false, Option.map_some]

theorem leaves_alone_iff : LeavesAlone socket srcIp packet ↔ Inert socket.tcb packet := by
  rw [leaves_alone_process]
  by_cases short : packet.length < 20
  · exact ⟨fun _ => Or.inl short, fun _ => ⟨-1, by rw [tcpProcess, if_pos short]⟩⟩
  have inert (condition : Prop) : packet.length < 20 ∨ condition ↔ condition := or_iff_right short
  cases state : socket.tcb.state with
  | closed =>
      simp only [Inert, state, or_true, iff_true]
      exact ⟨0, by simp only [tcpProcess, if_neg short, state]⟩
  | finWait =>
      simp only [Inert, state, or_true, iff_true]
      exact ⟨0, by simp only [tcpProcess, if_neg short, state]⟩
  | synSent =>
      simp only [Inert, state, inert]
      constructor
      · rintro ⟨code, processed⟩ answer
        simp only [tcpProcess, if_neg short, state, if_pos answer, Option.some.injEq, Prod.mk.injEq] at processed
        have opened := congrArg Tcb.state processed.1
        rw [state] at opened
        cases opened
      · intro unanswered
        exact ⟨0, by simp only [tcpProcess, if_neg short, state, if_neg unanswered]⟩
  | established =>
      simp only [Inert, state, inert]
      exact established_leaves packet socket.tcb state short
end

theorem arrive_same (host : Host) (srcIp : UInt32) (packet : List UInt8) (fits : packet.length ≤ payloadRoom) :
    arrive host srcIp packet = some host ↔ LeavesAlone host.socket srcIp packet := by
  rw [arrive, if_neg (Nat.not_lt.mpr fits)]
  constructor
  · intro same
    obtain ⟨⟨socket, packets, code⟩, processed, same⟩ := Option.map_eq_some_iff.mp same
    have kept : socket = host.socket := congrArg Host.socket same
    have silent : host.sent ++ packets = host.sent := congrArg Host.sent same
    rw [List.append_right_eq_self] at silent
    exact ⟨code, by rw [processed, kept, silent]⟩
  · rintro ⟨code, processed⟩
    simp [processed]

theorem host_step_foreign (host : Host) (event : Event) (foreign : foreignEvent host event = true) :
    hostStep host event = some host ↔ InertEvent host event := by
  cases event with
  | segment srcIp packet =>
      have fits : packet.length ≤ payloadRoom := (of_decide_eq_true foreign).1
      rw [hostStep, arrive_same host srcIp packet fits, leaves_alone_iff, InertEvent]
  | _ => cases foreign

theorem foreign_segments_harmless (host : Host) (events : List Event) :
    (∀ socket srcIp packet, isForeign socket srcIp packet = true →
      (LeavesAlone socket srcIp packet ↔ Inert socket.tcb packet)) ∧
    (Undisturbed hostStep foreignEvent host events ↔ AtForeign hostStep foreignEvent InertEvent host events) :=
  ⟨fun socket srcIp packet _ => leaves_alone_iff socket srcIp packet,
    (undisturbed_iff hostStep foreignEvent host events).trans
      (at_foreign_congr hostStep foreignEvent _ _ host_step_foreign host events)⟩

def strangerFin : Event := .segment 0x0A090909 (bareSegment 80 10007 900 8 (flagFin ||| flagAck))

def strangerAck : Event := .segment 0x0A090909 (bareSegment 80 10007 900 8 flagAck)

theorem foreign_segments_harmless_ack : ∃ host : Host, host.socket.tcb.state = .established ∧
    LeavesAlone host.socket 0x0A090909 (bareSegment 80 10007 900 8 flagAck) ∧
    Undisturbed hostStep foreignEvent host [strangerAck, .close] := by
  have evaluated : (runAll hostStep firstHost opening).any (fun host => host.socket.tcb.state = .established ∧
      isForeign host.socket 0x0A090909 (bareSegment 80 10007 900 8 flagAck) = true ∧
        foreignEvent host strangerAck = true) = true := by decide +kernel
  obtain ⟨host, _, reached⟩ := (Option.any_eq_true _ _).mp evaluated
  obtain ⟨working, foreign, stranger⟩ := of_decide_eq_true reached
  have inert : Inert host.socket.tcb (bareSegment 80 10007 900 8 flagAck) := by
    apply Or.inr
    rw [working]
    exact ⟨by simp [accepts, segLen, headerLength, bareSegment, bigEndian], by decide⟩
  have harmless := foreign_segments_harmless host [strangerAck, .close]
  refine ⟨host, working, (harmless.1 _ _ _ foreign).mpr inert, harmless.2.mpr ?_⟩
  have own : ¬ foreignEvent host .close = true := Bool.false_ne_true
  rw [AtForeign, if_pos stranger, AtForeign, if_neg own]
  exact ⟨inert, fun _ _ => trivial⟩

-- The FIN of another host closes the connection.
theorem foreign_segments_not_harmless : ¬ ∀ events, Undisturbed hostStep foreignEvent firstHost events := by
  intro claimed
  have undisturbed := claimed (opening ++ [strangerFin]) 4
  exact absurd undisturbed (by decide +kernel)

end RoDos.Tcp
