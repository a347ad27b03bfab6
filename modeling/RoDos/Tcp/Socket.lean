import RoDos.Tcp.Model

set_option autoImplicit false

namespace RoDos.Tcp

open Base

def flagPsh : UInt8 := 0x08

structure Socket where
  tcb : Tcb
  localIp : UInt32
  remoteIp : UInt32
  localPort : UInt16
  remotePort : UInt16
deriving DecidableEq, Repr

structure Packet where
  destIp : UInt32
  destPort : UInt16
  srcPort : UInt16
  seq : UInt32
  ack : UInt32
  flags : UInt8
  windowSize : UInt16
  payload : List UInt8
deriving DecidableEq, Repr

-- The window is the same in every segment.
def tcpSendPacket (socket : Socket) (seq ack : UInt32) (flags : UInt8) (payload : List UInt8) : Packet :=
  ⟨socket.remoteIp, socket.remotePort, socket.localPort, seq, ack, flags, 8192, payload⟩

-- tcp_process is given the address a segment comes from and does not look at it, nor at the ports.
def tcpProcessFrom (socket : Socket) (_srcIp : UInt32) (packet : List UInt8) : Option (Socket × List Packet × Int) :=
  (tcpProcess socket.tcb packet).map fun done =>
    ({ socket with tcb := done.1 },
      done.2.1.map fun answer => tcpSendPacket socket answer.seq answer.ack answer.flags [], done.2.2)

-- sent are the segments sent so far, returned the bytes that tcp_receive handed out.
structure Host where
  socket : Socket
  phase : Phase
  sent : List Packet
  returned : List UInt8
deriving DecidableEq, Repr

-- The payload of one received frame fits the receive buffer of netif_poll behind 34 bytes of headers.
def payloadRoom : Nat := 2048 - 34

-- The calls of the application, tcp_connect in its steps (ready says that the interface is up and has
-- an address, sent that a SYN went out), and the arrival of a segment from any address.
inductive Event where
  | connect (destIp : UInt32) (destPort : UInt16) (ownIp portTicks ticks : UInt32) (ready : Bool)
  | syn (sent : Bool)
  | giveUp
  | segment (srcIp : UInt32) (packet : List UInt8)
  | receive (maxLen : Nat)
  | send (data : List UInt8)
  | close
deriving DecidableEq, Repr

def tcpConnect (host : Host) (destIp : UInt32) (destPort : UInt16) (ownIp portTicks ticks : UInt32) (ready : Bool) : Host :=
  { host with
    socket :=
      { tcb := dial host.socket.tcb ticks
        localIp := if ready then ownIp else host.socket.localIp
        remoteIp := destIp
        localPort := UInt16.ofNat (10000 + portTicks.toNat % 50000)
        remotePort := destPort }
    phase := if ready then .connecting 0 else .done }

def sendSyn (host : Host) (sent : Bool) : Option Host :=
  match host.phase with
  | .done => none
  | .connecting retry =>
      if retry < 5 then
        if sent then
          some { host with
            socket := { host.socket with tcb := { host.socket.tcb with state := .synSent } }
            phase := .connecting (retry + 1)
            sent := host.sent ++ [tcpSendPacket host.socket host.socket.tcb.sndNxt 0 flagSyn []] }
        else some { host with phase := .connecting (retry + 1) }
      else none

def connectFailed (host : Host) : Option Host :=
  if host.phase = .connecting 5 then
    some { host with
      socket := { host.socket with tcb := { host.socket.tcb with state := .closed } }, phase := .done }
  else none

-- tcp_connect returns as soon as the connection is established.
def arrive (host : Host) (srcIp : UInt32) (packet : List UInt8) : Option Host :=
  if payloadRoom < packet.length then none
  else
    (tcpProcessFrom host.socket srcIp packet).map fun done =>
      { host with
        socket := done.1
        phase := if host.socket.tcb.state ≠ .established ∧ done.1.tcb.state = .established then .done else host.phase
        sent := host.sent ++ done.2.1 }

def sendData (host : Host) (data : List UInt8) : Host :=
  if host.socket.tcb.state = .established then
    { host with
      socket := { host.socket with tcb := tcpSend host.socket.tcb data.length }
      sent := host.sent ++
        [tcpSendPacket host.socket host.socket.tcb.sndNxt host.socket.tcb.rcvNxt (flagPsh ||| flagAck) data] }
  else host

def closeSocket (host : Host) : Host :=
  if host.socket.tcb.state = .established then
    { host with
      socket := { host.socket with tcb := tcpClose host.socket.tcb }
      sent := host.sent ++
        [tcpSendPacket host.socket host.socket.tcb.sndNxt host.socket.tcb.rcvNxt (flagFin ||| flagAck) []] }
  else host

def hostStep (host : Host) : Event → Option Host
  | .connect destIp destPort ownIp portTicks ticks ready =>
      if host.phase = .done then some (tcpConnect host destIp destPort ownIp portTicks ticks ready) else none
  | .syn sent => sendSyn host sent
  | .giveUp => connectFailed host
  | .segment srcIp packet => arrive host srcIp packet
  | .receive maxLen =>
      if host.phase = .done then
        let result := tcpReceive host.socket.tcb maxLen
        some { host with
          socket := { host.socket with tcb := result.1 }, returned := host.returned ++ result.2 }
      else none
  | .send data => if host.phase = .done then some (sendData host data) else none
  | .close => if host.phase = .done then some (closeSocket host) else none

def idleTcb : Tcb := ⟨.closed, 0, 0, [], 0, false⟩

def firstHost : Host := ⟨⟨idleTcb, 0, 0, 0, 0⟩, .done, [], []⟩

def bareSegment (srcPort destPort : UInt16) (seq ack : UInt32) (flags : UInt8) : List UInt8 :=
  [(srcPort >>> 8).toUInt8, srcPort.toUInt8, (destPort >>> 8).toUInt8, destPort.toUInt8] ++ bigEndian seq ++
    bigEndian ack ++ [0x50, flags, 0x20, 0, 0, 0, 0, 0]

def opening : List Event :=
  [.connect 0x0A000202 80 0x0A00020F 7 7 true, .syn true,
    .segment 0x0A000202 (bareSegment 80 10007 500 8 (flagSyn ||| flagAck))]

end RoDos.Tcp
