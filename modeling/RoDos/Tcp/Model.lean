import Mathlib.Algebra.Ring.Nat
import RoDos.Base.CString
import RoDos.Base.Runs

set_option autoImplicit false

namespace RoDos.Tcp

open Base

inductive TcpState where
  | closed
  | synSent
  | established
  | finWait
deriving DecidableEq, Repr

def rxBufferSize : Nat := 16384
def flagFin : UInt8 := 0x01
def flagSyn : UInt8 := 0x02
def flagAck : UInt8 := 0x10

-- rxBuffer is the filled part of rx_buffer, so its length is rx_len. The addresses and ports
-- only say where the answers go.
structure Tcb where
  state : TcpState
  sndNxt : UInt32
  rcvNxt : UInt32
  rxBuffer : List UInt8
  rxProcessed : Nat
  hasData : Bool
deriving DecidableEq, Repr

-- What tcp_send_packet puts into the header of an answer without data.
structure Answer where
  seq : UInt32
  ack : UInt32
  flags : UInt8
deriving DecidableEq, Repr

def bigEndian (value : UInt32) : List UInt8 :=
  [(value >>> 24).toUInt8, (value >>> 16).toUInt8, (value >>> 8).toUInt8, value.toUInt8]

def fromBigEndian (bytes : List UInt8) : UInt32 :=
  ((bytes.getD 0 0).toUInt32 <<< 24) ||| ((bytes.getD 1 0).toUInt32 <<< 16) ||| ((bytes.getD 2 0).toUInt32 <<< 8) |||
    (bytes.getD 3 0).toUInt32

def hasFlag (flags flag : UInt8) : Bool := flags &&& flag ≠ 0

def headerLength (packet : List UInt8) : Nat := (packet.getD 12 0 >>> 4).toNat * 4

-- An unsigned difference: a header longer than the packet makes it huge.
def segLen (packet : List UInt8) : Nat := (packet.length + 2 ^ 32 - headerLength packet) % 2 ^ 32

-- Neither the sequence number nor what is already there plays a part.
def accepts (tcb : Tcb) (packet : List UInt8) : Bool :=
  0 < segLen packet ∧ (tcb.rxBuffer.length + segLen packet) % 2 ^ 32 < rxBufferSize

-- none when the copy runs out of both buffers.
def takeData (tcb : Tcb) (packet : List UInt8) : Option (Tcb × List Answer) :=
  if accepts tcb packet then
    if packet.length < headerLength packet then none
    else
      let filled := { tcb with
        rxBuffer := tcb.rxBuffer ++ packet.drop (headerLength packet), hasData := true
        rcvNxt := tcb.rcvNxt + UInt32.ofNat (segLen packet) }
      some (filled, [⟨filled.sndNxt, filled.rcvNxt, flagAck⟩])
  else some (tcb, [])

def takeFin (tcb : Tcb) : Tcb × List Answer :=
  ({ tcb with rcvNxt := tcb.rcvNxt + 1, state := .closed }, [⟨tcb.sndNxt, tcb.rcvNxt + 1, flagAck ||| flagFin⟩])

def tcpProcess (tcb : Tcb) (packet : List UInt8) : Option (Tcb × List Answer × Int) :=
  if packet.length < 20 then some (tcb, [], -1)
  else
    let seq := fromBigEndian (packet.drop 4)
    let ack := fromBigEndian (packet.drop 8)
    let flags := packet.getD 13 0
    match tcb.state with
    | .closed => some (tcb, [], 0)
    | .synSent =>
        if hasFlag flags flagSyn && hasFlag flags flagAck then
          some ({ tcb with rcvNxt := seq + 1, sndNxt := ack, state := .established }, [⟨ack, seq + 1, flagAck⟩], 1)
        else some (tcb, [], 0)
    | .established =>
        (takeData tcb packet).map fun taken =>
          if hasFlag flags flagFin then
            let ended := takeFin taken.1
            (ended.1, taken.2 ++ ended.2, 1)
          else (taken.1, taken.2, 0)
    | .finWait => some (tcb, [], 0)

-- What ip_receive does to the connection: the length of the frame counts, not the one in the IP header. The
-- result code, which no caller reads, is left out.
def ipReceive (tcb : Tcb) (buffer : List UInt8) : Option (Tcb × List Answer) :=
  if buffer.length < 14 then some (tcb, [])
  else if buffer.getD 12 0 ≠ 0x08 ∨ buffer.getD 13 0 ≠ 0x00 then some (tcb, [])
  else if buffer.length < 34 then some (tcb, [])
  else if buffer.getD 23 0 = 6 then (tcpProcess tcb (buffer.drop 34)).map fun done => (done.1, done.2.1)
  else some (tcb, [])

-- The copy of tcp_receive once it has stopped waiting.
def tcpReceive (tcb : Tcb) (maxLen : Nat) : Tcb × List UInt8 :=
  if tcb.rxBuffer.length ≤ tcb.rxProcessed then (tcb, [])
  else
    let available := tcb.rxBuffer.length - tcb.rxProcessed
    let toCopy := if maxLen < available then maxLen else available
    let processed := tcb.rxProcessed + toCopy
    ({ tcb with
        rxProcessed := processed
        hasData := if processed = tcb.rxBuffer.length then false else tcb.hasData },
      (tcb.rxBuffer.drop tcb.rxProcessed).take toCopy)

def tcpSend (tcb : Tcb) (len : Nat) : Tcb :=
  if tcb.state = .established then { tcb with sndNxt := tcb.sndNxt + UInt32.ofNat len } else tcb

def tcpClose (tcb : Tcb) : Tcb := if tcb.state = .established then { tcb with state := .closed } else tcb

-- The start of tcp_connect.
def dial (tcb : Tcb) (ticks : UInt32) : Tcb :=
  { tcb with state := .closed, sndNxt := ticks, rcvNxt := 0, rxBuffer := [], rxProcessed := 0, hasData := false }

-- tcp_connect sends up to five SYNs and waits after each of them.
inductive Phase where
  | connecting (retry : Nat)
  | done
deriving DecidableEq, Repr

-- returned are the bytes tcp_receive has handed out since, closedByFin says that a FIN closed the connection.
structure Connection where
  tcb : Tcb
  phase : Phase
  returned : List UInt8
  closedByFin : Bool
deriving DecidableEq, Repr

-- One frame of the peer, from the addresses of the Ethernet header to the data of the segment.
structure Segment where
  addresses : List UInt8
  ipHeader : List UInt8
  ports : List UInt8
  offset : Nat
  ack : UInt32
  flags : UInt8
  window : List UInt8
  options : List UInt8
  data : List UInt8
deriving DecidableEq, Repr

-- The SYN takes the first sequence number, byte i of the stream the i-th one behind it.
def sequence (isn : UInt32) (segment : Segment) : UInt32 :=
  isn + (if hasFlag segment.flags flagSyn then 0 else 1) + UInt32.ofNat segment.offset

def tcpHeader (isn : UInt32) (segment : Segment) : List UInt8 :=
  segment.ports ++ bigEndian (sequence isn segment) ++ bigEndian segment.ack ++
    [UInt8.ofNat ((5 + segment.options.length / 4) * 16), segment.flags] ++ segment.window ++ segment.options

def unpadded (isn : UInt32) (segment : Segment) : List UInt8 :=
  segment.addresses ++ [0x08, 0x00] ++ segment.ipHeader ++ (tcpHeader isn segment ++ segment.data)

-- Ethernet fills a short frame up to 60 bytes.
def padding (isn : UInt32) (segment : Segment) : List UInt8 := List.replicate (60 - (unpadded isn segment).length) 0

def frame (isn : UInt32) (segment : Segment) : List UInt8 := unpadded isn segment ++ padding isn segment

-- A segment the peer sends for its stream, with a FIN only at the end of it.
structure Genuine (stream : List UInt8) (segment : Segment) : Prop where
  addresses : segment.addresses.length = 12
  ipHeader : segment.ipHeader.length = 20
  protocol : segment.ipHeader.getD 9 0 = 6
  ports : segment.ports.length = 4
  window : segment.window.length = 6
  options : segment.options.length ≤ 40
  words : segment.options.length % 4 = 0
  inside : segment.offset + segment.data.length ≤ stream.length
  data : segment.data = (stream.drop segment.offset).take segment.data.length
  syn : hasFlag segment.flags flagSyn = true → segment.offset = 0
  fin : hasFlag segment.flags flagFin = true → segment.offset + segment.data.length = stream.length
  mtu : 54 + segment.options.length + segment.data.length ≤ 1514

inductive NetOp where
  | syn (sent : Bool)
  | giveUp
  | poll (segment : Segment)
  | receive (maxLen : Nat)
  | send (len : Nat)
  | close

def stepOp (isn : UInt32) (connection : Connection) : NetOp → Option Connection
  | .syn sent =>
      match connection.phase with
      | .connecting retry =>
          if retry < 5 then
            some { connection with
              tcb := if sent then { connection.tcb with state := .synSent } else connection.tcb
              phase := .connecting (retry + 1) }
          else none
      | .done => none
  | .giveUp =>
      match connection.phase with
      | .connecting retry =>
          if retry = 0 ∨ retry = 5 then
            some { connection with tcb := { connection.tcb with state := .closed }, phase := .done }
          else none
      | .done => none
  | .poll segment =>
      (ipReceive connection.tcb (frame isn segment)).map fun result =>
        { connection with
          tcb := result.1
          phase := if result.1.state = .established then .done else connection.phase
          closedByFin := connection.closedByFin ||
            decide (connection.tcb.state = .established ∧ result.1.state = .closed) }
  | .receive maxLen =>
      if connection.phase = .done then
        let result := tcpReceive connection.tcb maxLen
        some { connection with tcb := result.1, returned := connection.returned ++ result.2 }
      else none
  | .send len =>
      if connection.phase = .done then some { connection with tcb := tcpSend connection.tcb len } else none
  | .close =>
      if connection.phase = .done then some { connection with tcb := tcpClose connection.tcb } else none

-- A segment may arrive at any time and any number of times, or never.
def NetStep (stream : List UInt8) (isn : UInt32) (connection : Connection) (op : NetOp) (next : Connection) : Prop :=
  (∀ segment, op = .poll segment → Genuine stream segment) ∧ stepOp isn connection op = some next

def Dialled (connection : Connection) : Prop :=
  ∃ tcb ticks, connection = ⟨dial tcb ticks, .connecting 0, [], false⟩

end RoDos.Tcp
