import Mathlib.Algebra.Ring.Nat
import RoDos.Base.Ring
import RoDos.Base.Runs

set_option autoImplicit false

namespace RoDos.Virtio

open Base

def queueSize : Nat := 4
def pktBufSize : Nat := 2048
def netHeader : Nat := 10
def descWrite : Nat := 2

-- addr names the packet buffer that the descriptor leads to.
structure Descriptor where
  addr : Nat
  len : Nat
  flags : Nat
  next : Nat
deriving DecidableEq, Repr

-- The descriptors between two 16-bit indices of a ring with q cells in use.
def posted {α : Type} (q : Nat) (ring : Nat → α) (head tail : UInt16) : List α :=
  ringSlots q (2 ^ 16) ring head.toNat tail.toNat

def cell (q : Nat) (idx : UInt16) : Nat := idx.toNat % q

section
variable {α : Type} (q : Nat) (ring : Nat → α) (head tail : UInt16)

theorem posted_self : posted q ring head head = [] := ring_slots_empty q (2 ^ 16) ring head.toNat

theorem index_next : (head + 1).toNat = (head.toNat + 1) % 2 ^ 16 := UInt16.toNat_add head 1

variable (whole : q ∣ 2 ^ 16)
include whole

theorem posted_front (nonempty : head ≠ tail) :
    posted q ring head tail = ring (cell q head) :: posted q ring (head + 1) tail := by
  have apart : head.toNat ≠ tail.toNat := fun same => nonempty (UInt16.toNat_inj.mp same)
  rw [posted, ring_slots_front q (2 ^ 16) ring _ _ whole head.toNat_lt tail.toNat_lt apart, posted, index_next, cell]

theorem posted_spare (spare : (posted q ring head tail).length < q) (value : α) :
    posted q (Function.update ring (cell q tail) value) head tail = posted q ring head tail := by
  rw [posted, ring_slots_length] at spare
  exact ring_slots_spare q (2 ^ 16) ring _ _ whole head.toNat_lt tail.toNat_lt spare value

theorem posted_back (room : (posted q ring head tail).length + 1 < 2 ^ 16) :
    posted q ring head (tail + 1) = posted q ring head tail ++ [ring (cell q tail)] := by
  rw [posted, ring_slots_length] at room
  rw [posted, index_next, ring_slots_back q (2 ^ 16) ring _ _ whole head.toNat_lt tail.toNat_lt room, posted, cell]
end

-- Where a call of wifi_recv is; result is what it will return, none for a buffer without a packet.
inductive RxPc where
  | idle
  | found (maxLen : Nat)
  | holding (maxLen desc totalLen : Nat)
  | copied (maxLen desc : Nat) (result : Option (List UInt8))
  | slotted (maxLen desc : Nat) (result : Option (List UInt8))
deriving DecidableEq, Repr

-- The driver's variables, the memory it shares with the device, and what the device keeps for itself:
-- the index up to which it took entries and the descriptors it holds. delivered are the frames it
-- wrote, header included, returned the packets that wifi_recv gave back with the max_len of the call.
structure Rx where
  rxLastUsed : UInt16
  rxAvailIdx : UInt16
  rxDesc : Nat → Descriptor
  rxBuffers : Nat → List UInt8
  availRing : Nat → Nat
  availIdx : UInt16
  usedRing : Nat → Nat × Nat
  usedIdx : UInt16
  pc : RxPc
  outOfRange : Bool
  deviceIdx : UInt16
  taken : List Nat
  delivered : List (List UInt8)
  returned : List (Nat × List UInt8)

inductive RxOp where
  | call (maxLen : Nat)
  | fetch
  | copy
  | slot
  | publish
  | take
  | use (k : Nat) (frame : List UInt8)
deriving DecidableEq, Repr

def rxDescriptor (i : Nat) : Descriptor := ⟨i, pktBufSize, descWrite, 0⟩

-- The check of used_ring->idx, with the 16-bit difference.
def rxCall (rx : Rx) (maxLen : Nat) : Rx :=
  if maxLen = 0 then rx
  else if rx.usedIdx - rx.rxLastUsed = 0 then rx
  else { rx with pc := .found maxLen }

def rxFetch (q : Nat) (rx : Rx) (maxLen : Nat) : Rx :=
  let element := rx.usedRing (cell q rx.rxLastUsed)
  if queueSize ≤ element.1 then { rx with rxLastUsed := rx.rxLastUsed + 1, pc := .idle, outOfRange := true }
  else
    { rx with
      rxLastUsed := rx.rxLastUsed + 1
      rxDesc := Function.update rx.rxDesc element.1 (rxDescriptor element.1)
      pc := .holding maxLen element.1 element.2 }

def rxCopy (rx : Rx) (maxLen desc totalLen : Nat) : Rx :=
  if totalLen ≤ netHeader then { rx with pc := .copied maxLen desc none }
  else
    let pktLen := if maxLen < totalLen - netHeader then maxLen else totalLen - netHeader
    { rx with pc := .copied maxLen desc (some (((rx.rxBuffers desc).drop netHeader).take pktLen)) }

def rxPublish (rx : Rx) (maxLen : Nat) (result : Option (List UInt8)) : Rx :=
  { rx with
    rxAvailIdx := rx.rxAvailIdx + 1
    availIdx := rx.rxAvailIdx + 1
    pc := .idle
    returned := rx.returned ++ (result.map fun packet => (maxLen, packet)).toList }

-- The device writes the frame where the descriptor leads and then returns it with its length.
def rxUse (q : Nat) (rx : Rx) (k id : Nat) (frame : List UInt8) : Rx :=
  let addr := (rx.rxDesc id).addr
  { rx with
    rxBuffers := Function.update rx.rxBuffers addr (frame ++ (rx.rxBuffers addr).drop frame.length)
    usedRing := Function.update rx.usedRing (cell q rx.usedIdx) (id, frame.length)
    usedIdx := rx.usedIdx + 1
    taken := rx.taken.eraseIdx k
    delivered := rx.delivered ++ [frame] }

-- Each access of the driver to the shared memory is a step of its own; the device steps in between.
def rxStep (q : Nat) (rx : Rx) : RxOp → Option Rx
  | .call maxLen => if rx.pc = .idle then some (rxCall rx maxLen) else none
  | .fetch =>
      match rx.pc with
      | .found maxLen => some (rxFetch q rx maxLen)
      | _ => none
  | .copy =>
      match rx.pc with
      | .holding maxLen desc totalLen => some (rxCopy rx maxLen desc totalLen)
      | _ => none
  | .slot =>
      match rx.pc with
      | .copied maxLen desc result =>
          some { rx with
            availRing := Function.update rx.availRing (cell q rx.rxAvailIdx) desc, pc := .slotted maxLen desc result }
      | _ => none
  | .publish =>
      match rx.pc with
      | .slotted maxLen _ result => some (rxPublish rx maxLen result)
      | _ => none
  | .take =>
      if rx.deviceIdx = rx.availIdx then none
      else
        some { rx with
          deviceIdx := rx.deviceIdx + 1, taken := rx.taken ++ [rx.availRing (cell q rx.deviceIdx)] }
  | .use k frame =>
      if pktBufSize < frame.length then none else rx.taken[k]?.map fun id => rxUse q rx k id frame

def RxStep (q : Nat) (rx : Rx) (op : RxOp) (next : Rx) : Prop := rxStep q rx op = some next

-- What wifi_driver_init leaves; the packet buffers are not cleared.
def rxReady (buffers : Nat → List UInt8) : Rx :=
  { rxLastUsed := 0, rxAvailIdx := 4
    rxDesc := fun i => if i < queueSize then rxDescriptor i else ⟨0, 0, 0, 0⟩
    rxBuffers := buffers
    availRing := fun i => if i < queueSize then i else 0
    availIdx := 4, usedRing := fun _ => (0, 0), usedIdx := 0, pc := .idle, outOfRange := false
    deviceIdx := 0, taken := [], delivered := [], returned := [] }

def RxReady (rx : Rx) : Prop := ∃ buffers, rx = rxReady buffers

-- A queue size is a power of two, and the memory of the driver holds rings of up to 256 cells.
def RingSize (q : Nat) : Prop := ∃ k, k ≤ 8 ∧ q = 2 ^ k

def DeviceSize (q : Nat) : Prop := RingSize q ∧ queueSize ≤ q

theorem ring_size_whole (q : Nat) (size : RingSize q) : q ∣ 2 ^ 16 := by
  obtain ⟨k, small, rfl⟩ := size
  exact Nat.pow_dvd_pow 2 (Nat.le_trans small (by decide))

theorem ring_size_small (q : Nat) (size : RingSize q) : q ≤ 2 ^ 8 := by
  obtain ⟨k, small, rfl⟩ := size
  exact Nat.pow_le_pow_right (Nat.succ_pos 1) small

-- Where a call of wifi_send is, with the descriptor it uses and the frame it was given.
inductive TxPc where
  | idle
  | chosen (idx : Nat) (frame : List UInt8)
  | filled (idx : Nat) (frame : List UInt8)
  | described (idx : Nat) (frame : List UInt8)
  | slotted (idx : Nat) (frame : List UInt8)
deriving DecidableEq, Repr

-- The device numbers the entries it takes; held are those not returned in the used ring, which
-- the driver never reads. accepted are the frames wifi_send returned a length for, transmitted
-- what the device sent for which entry.
structure Tx where
  txFreeIdx : Nat
  txDesc : Nat → Descriptor
  txBuffers : Nat → List UInt8
  availRing : Nat → Nat
  availIdx : UInt16
  pc : TxPc
  deviceIdx : UInt16
  takenCount : Nat
  held : List (Nat × Nat)
  accepted : List (List UInt8)
  transmitted : List (Nat × List UInt8)

inductive TxOp where
  | send (frame : List UInt8)
  | fill
  | describe
  | slot
  | publish
  | take
  | complete (k : Nat)
deriving DecidableEq, Repr

def virtioNetHdr : List UInt8 := List.replicate netHeader 0

def txDescriptor (idx : Nat) (frame : List UInt8) : Descriptor := ⟨idx, netHeader + frame.length, 0, 0⟩

def sendable (frame : List UInt8) : Bool := 0 < frame.length ∧ frame.length ≤ pktBufSize - netHeader

def txFill (tx : Tx) (idx : Nat) (frame : List UInt8) : Tx :=
  { tx with
    txBuffers := Function.update tx.txBuffers idx
      (virtioNetHdr ++ frame ++ (tx.txBuffers idx).drop (netHeader + frame.length))
    pc := .filled idx frame }

-- The device reads what the descriptor leads to and then returns it.
def txComplete (tx : Tx) (k : Nat) (entry : Nat × Nat) : Tx :=
  let desc := tx.txDesc entry.1
  { tx with
    held := tx.held.eraseIdx k
    transmitted := tx.transmitted ++ [(entry.2, (tx.txBuffers desc.addr).take desc.len)] }

def txStep (q : Nat) (tx : Tx) : TxOp → Option Tx
  | .send frame =>
      if tx.pc = .idle then
        if sendable frame then
          some { tx with txFreeIdx := (tx.txFreeIdx + 1) % queueSize, pc := .chosen tx.txFreeIdx frame }
        else some tx
      else none
  | .fill =>
      match tx.pc with
      | .chosen idx frame => some (txFill tx idx frame)
      | _ => none
  | .describe =>
      match tx.pc with
      | .filled idx frame =>
          some { tx with
            txDesc := Function.update tx.txDesc idx (txDescriptor idx frame), pc := .described idx frame }
      | _ => none
  | .slot =>
      match tx.pc with
      | .described idx frame =>
          some { tx with
            availRing := Function.update tx.availRing (cell q tx.availIdx) idx, pc := .slotted idx frame }
      | _ => none
  | .publish =>
      match tx.pc with
      | .slotted _ frame =>
          some { tx with availIdx := tx.availIdx + 1, pc := .idle, accepted := tx.accepted ++ [frame] }
      | _ => none
  | .take =>
      if tx.deviceIdx = tx.availIdx then none
      else
        some { tx with
          deviceIdx := tx.deviceIdx + 1
          takenCount := tx.takenCount + 1
          held := tx.held ++ [(tx.availRing (cell q tx.deviceIdx), tx.takenCount)] }
  | .complete k => tx.held[k]?.map fun entry => txComplete tx k entry

def TxStep (q : Nat) (tx : Tx) (op : TxOp) (next : Tx) : Prop := txStep q tx op = some next

def txReady (buffers : Nat → List UInt8) : Tx :=
  { txFreeIdx := 0, txDesc := fun _ => ⟨0, 0, 0, 0⟩, txBuffers := buffers, availRing := fun _ => 0, availIdx := 0
    pc := .idle, deviceIdx := 0, takenCount := 0, held := [], accepted := [], transmitted := [] }

def TxReady (tx : Tx) : Prop := ∃ buffers, tx = txReady buffers

end RoDos.Virtio
