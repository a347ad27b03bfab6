import RoDos.Base.Runs
import RoDos.Net.Send

set_option autoImplicit false

namespace RoDos.Net

open Base Tcp

-- The uint32_t length as an int.
def asInt (len : Nat) : Int := if len < 2147483648 then len else len - 4294967296

def dataPacket (socket : Socket) (data : List UInt8) : Packet :=
  tcpSendPacket socket socket.tcb.sndNxt socket.tcb.rcvNxt (flagPsh ||| flagAck) data

-- With the outcome of tcp_send_packet, whose code tcp_send does not look at.
def tcpSendCall (env : Environment) (socket : Socket) (data : List UInt8) : Socket × Outcome × Int :=
  if socket.tcb.state = .established then
    ({ socket with tcb := tcpSend socket.tcb data.length }, tcpSendPacketCall env (dataPacket socket data), asInt data.length)
  else (socket, ⟨[], [], -1⟩, -1)

structure SendCall where
  env : Environment
  data : List UInt8

-- handed are the frames that the driver took, reported the bytes for which tcp_send returned no error.
structure Sender where
  socket : Socket
  handed : List (List UInt8)
  reported : List UInt8

def sendStep (sender : Sender) (call : SendCall) : Sender :=
  let done := tcpSendCall call.env sender.socket call.data
  { socket := done.1
    handed := if done.2.1.code < 0 then sender.handed else sender.handed ++ done.2.1.handed
    reported := if done.2.2 < 0 then sender.reported else sender.reported ++ call.data }

def SendStep (sender : Sender) (call : SendCall) (next : Sender) : Prop := next = sendStep sender call

def OpenAt (first : UInt32) (sender : Sender) : Prop :=
  sender.socket.tcb.state = .established ∧ sender.socket.tcb.sndNxt = first ∧ sender.handed = [] ∧ sender.reported = []

def segmentAt (frame : List UInt8) : UInt32 × List UInt8 := (fromBigEndian (frame.drop 38), frame.drop 54)

def InSequence : UInt32 → List (UInt32 × List UInt8) → Prop
  | _, [] => True
  | seq, segment :: rest => segment.1 = seq ∧ InSequence (seq + UInt32.ofNat segment.2.length) rest

structure Delivered (first : UInt32) (sender : Sender) : Prop where
  sequence : InSequence first (sender.handed.map segmentAt)
  whole : (sender.handed.map segmentAt).flatMap Prod.snd = sender.reported

structure Accounts (socket : Socket) (call : SendCall) : Prop where
  sent : 0 ≤ (tcpSendCall call.env socket call.data).2.1.code →
    (tcpSendCall call.env socket call.data).2.1.handed.map segmentAt = [(socket.tcb.sndNxt, call.data)] ∧
      0 ≤ (tcpSendCall call.env socket call.data).2.2
  failed : (tcpSendCall call.env socket call.data).2.1.code < 0 →
    (tcpSendCall call.env socket call.data).2.2 < 0 ∧
      (tcpSendCall call.env socket call.data).1.tcb.sndNxt = socket.tcb.sndNxt

structure SegmentTaken (call : SendCall) : Prop where
  ready : call.env.default ≠ none
  short : call.data.length ≤ 1446
  taken : Takes call.env (54 + call.data.length)

theorem in_sequence_snoc (seq : UInt32) (segments : List (UInt32 × List UInt8)) (segment : UInt32 × List UInt8)
    (before : InSequence seq segments)
    (next : segment.1 = seq + UInt32.ofNat (segments.flatMap Prod.snd).length) : InSequence seq (segments ++ [segment]) := by
  induction segments generalizing seq with
  | nil => exact ⟨next.trans (UInt32.add_zero seq), trivial⟩
  | cons head rest ih =>
      refine ⟨before.1, ih _ before.2 ?_⟩
      rw [next, List.flatMap_cons, List.length_append, UInt32.ofNat_add, UInt32.add_assoc]

theorem segment_at (ipAddr : UInt32) (packet : Packet) (frame : List UInt8)
    (carries : frame.drop 34 = segmentOf ipAddr packet) : segmentAt frame = (packet.seq, packet.payload) := by
  have seq : frame.drop 38 = (segmentOf ipAddr packet).drop 4 := by rw [← carries, List.drop_drop]
  have payload : frame.drop 54 = (segmentOf ipAddr packet).drop 20 := by rw [← carries, List.drop_drop]
  rw [segmentAt, seq, payload]
  exact congrArg₂ Prod.mk (from_big_endian packet.seq _) rfl

theorem tcp_call_code (env : Environment) (iface : Interface) (given : env.default = some iface) (packet : Packet)
    (short : packet.payload.length ≤ 1446) :
    (tcpSendPacketCall env packet).code = netifCode env (54 + packet.payload.length) := by
  have unchecked := unchecked_length packet
  have narrow : (20 + packet.payload.length) % 65536 = 20 + packet.payload.length := Nat.mod_eq_of_lt (by omega)
  rw [tcpSendPacketCall, given]
  dsimp only
  rw [builtInBuf, ip_call_code env iface _ _ _ given, narrow, List.length_take, store_field_length _ _ _ (by omega), unchecked,
    Nat.min_self, frameLength, Nat.mod_eq_of_lt (by omega)]
  congr 1
  omega

theorem as_int_counted (len : Nat) (short : len ≤ 1446) : ¬ asInt len < 0 := by
  rw [asInt, if_pos (by omega)]
  exact Int.not_lt.mpr (Int.natCast_nonneg len)

section
variable (socket : Socket) (call : SendCall)

theorem taken_call (taken : SegmentTaken call) : 0 ≤ (tcpSendPacketCall call.env (dataPacket socket call.data)).code ∧
    (tcpSendPacketCall call.env (dataPacket socket call.data)).handed.map segmentAt = [(socket.tcb.sndNxt, call.data)] := by
  obtain ⟨iface, given⟩ := Option.ne_none_iff_exists'.mp taken.ready
  have code := tcp_call_code call.env iface given (dataPacket socket call.data) taken.short
  have sends := (tcp_sends_whole call.env iface given (dataPacket socket call.data)).mpr
    ⟨taken.short.trans (by decide), fun _ => taken.short⟩
  have positive : 0 ≤ (tcpSendPacketCall call.env (dataPacket socket call.data)).code := by
    rw [code]
    exact taken.taken
  obtain ⟨frame, handed, _, _, carries⟩ := sends.sent.resolve_left (Int.not_lt.mpr positive)
  rw [handed, List.map_singleton, segment_at iface.ipAddr _ frame carries]
  exact ⟨positive, rfl⟩

theorem refused_call (short : call.data.length ≤ 1446) (refused : ¬ SegmentTaken call) :
    (tcpSendPacketCall call.env (dataPacket socket call.data)).code < 0 := by
  cases given : call.env.default with
  | none =>
      rw [tcpSendPacketCall, given]
      exact (by decide : (-1 : Int) < 0)
  | some iface =>
      rw [tcp_call_code call.env iface given (dataPacket socket call.data) short]
      refine Int.not_le.mp fun taken => refused ⟨?_, short, taken⟩
      rw [given]
      exact Option.some_ne_none iface

variable (opened : socket.tcb.state = .established)
include opened

theorem call_when_open : tcpSendCall call.env socket call.data =
    ({ socket with tcb := { socket.tcb with sndNxt := socket.tcb.sndNxt + UInt32.ofNat call.data.length } },
      tcpSendPacketCall call.env (dataPacket socket call.data), asInt call.data.length) := by
  rw [tcpSendCall, if_pos opened, tcpSend, if_pos opened]

theorem accounts_iff (short : call.data.length ≤ 1446) : Accounts socket call ↔ SegmentTaken call := by
  have counted := as_int_counted call.data.length short
  constructor
  · intro accounts
    by_contra refused
    have failed := accounts.failed
    rw [call_when_open socket call opened] at failed
    exact counted (failed (refused_call socket call short refused)).1
  · intro taken
    have sent := taken_call socket call taken
    refine ⟨fun _ => ?_, fun failed => ?_⟩
    · rw [call_when_open socket call opened]
      exact ⟨sent.2, Int.not_lt.mp counted⟩
    · rw [call_when_open socket call opened] at failed
      exact absurd sent.1 (Int.not_le.mpr failed)
end

structure Tiling (first : UInt32) (sender : Sender) : Prop where
  opened : sender.socket.tcb.state = .established
  next : sender.socket.tcb.sndNxt = first + UInt32.ofNat sender.reported.length
  delivered : Delivered first sender

theorem open_tiling (first : UInt32) (sender : Sender) (boot : OpenAt first sender) : Tiling first sender := by
  obtain ⟨opened, next, handed, reported⟩ := boot
  refine ⟨opened, ?_, ?_, ?_⟩
  · rw [next, reported]
    exact (UInt32.add_zero first).symm
  · rw [handed]
    exact trivial
  · rw [handed, reported]
    rfl

theorem step_tiling (first : UInt32) (sender next : Sender) (call : SendCall) (tiling : Tiling first sender)
    (taken : SegmentTaken call) (moved : SendStep sender call next) : Tiling first next := by
  have sent := taken_call sender.socket call taken
  have counted := as_int_counted call.data.length taken.short
  have after : next = ⟨{ sender.socket with
      tcb := { sender.socket.tcb with sndNxt := sender.socket.tcb.sndNxt + UInt32.ofNat call.data.length } },
      sender.handed ++ (tcpSendPacketCall call.env (dataPacket sender.socket call.data)).handed,
      sender.reported ++ call.data⟩ := by
    rw [moved, sendStep, call_when_open sender.socket call tiling.opened]
    dsimp only
    rw [if_neg (Int.not_lt.mpr sent.1), if_neg counted]
  have frames : next.handed.map segmentAt =
      sender.handed.map segmentAt ++ [(sender.socket.tcb.sndNxt, call.data)] := by
    rw [after, List.map_append, sent.2]
  refine ⟨?_, ?_, ?_, ?_⟩
  · rw [after]
    exact tiling.opened
  · rw [after]
    dsimp only
    rw [tiling.next, List.length_append, UInt32.ofNat_add, UInt32.add_assoc]
  · rw [frames]
    refine in_sequence_snoc first _ _ tiling.delivered.sequence ?_
    rw [tiling.delivered.whole]
    exact tiling.next
  · rw [frames, List.flatMap_append, tiling.delivered.whole, after, List.flatMap_singleton]

theorem sends_tile (first : UInt32) (sender : Sender)
    (run : Run (OpenAt first) SendStep (fun _ call => SegmentTaken call) sender) :
    Delivered first sender ∧
      ∀ call, call.data.length ≤ 1446 → (Accounts sender.socket call ↔ SegmentTaken call) := by
  have tiling := run_invariant (Tiling first) (open_tiling first)
    (fun state next call inv taken moved => step_tiling first state next call inv taken moved) sender run
  exact ⟨tiling.delivered, fun call short => accounts_iff sender.socket call tiling.opened short⟩

def openSender : Sender := ⟨⟨{ idleTcb with state := .established, sndNxt := 8 }, 0x0A00020F, 0x0A000202, 10007, 80⟩, [], []⟩

def callOver (initialized : Bool) : SendCall :=
  ⟨wifiEnvironment (some qemuInterface) [] initialized fun _ => 0, [1, 2, 3]⟩

theorem sends_tile_twice : Delivered 8 (sendStep (sendStep openSender (callOver true)) (callOver true)) := by
  have taken : SegmentTaken (callOver true) := ⟨nofun, by decide, (wifi_takes _ _ _ _ _).mpr ⟨rfl, by decide, by decide⟩⟩
  have run : Run (OpenAt 8) SendStep (fun _ call => SegmentTaken call)
      (sendStep (sendStep openSender (callOver true)) (callOver true)) :=
    .step _ _ _ (.step openSender _ _ (.start _ ⟨rfl, rfl, rfl, rfl⟩) taken rfl) taken rfl
  exact (sends_tile 8 _ run).1

-- The driver refuses the segment, and tcp_send reports its three bytes as sent.
theorem sends_do_not_tile :
    ¬ ∀ first sender, Run (OpenAt first) SendStep (fun _ _ => True) sender → Delivered first sender := by
  intro claimed
  have run : Run (OpenAt 8) SendStep (fun _ _ => True) (sendStep openSender (callOver false)) :=
    .step openSender _ _ (.start _ ⟨rfl, rfl, rfl, rfl⟩) trivial rfl
  have whole := (claimed 8 _ run).whole
  have refused : ¬ SegmentTaken (callOver false) := fun taken =>
    nomatch ((wifi_takes _ _ _ _ _).mp taken.taken).1
  have code := refused_call openSender.socket (callOver false) (by decide) refused
  have handed : (sendStep openSender (callOver false)).handed = [] := by
    rw [sendStep, call_when_open _ _ rfl]
    dsimp only
    rw [if_pos code]
    rfl
  have reported : (sendStep openSender (callOver false)).reported = [1, 2, 3] := by
    rw [sendStep, call_when_open _ _ rfl]
    rfl
  rw [handed, reported] at whole
  cases whole

end RoDos.Net
