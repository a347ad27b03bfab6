import RoDos.Virtio.Model

set_option autoImplicit false

namespace RoDos.Virtio

def queueMemSize : Nat := 16384
def vringDescOffset : Nat := 0
def vringAvailOffset : Nat := 4096
def vringUsedOffset : Nat := 8192
def ringLength : Nat := 256
def rxQueue : UInt16 := 0
def txQueue : UInt16 := 1

-- What the driver and the device read and write in the memory of a queue.
inductive VringField where
  | descAddr (i : Nat)
  | descLen (i : Nat)
  | descFlags (i : Nat)
  | descNext (i : Nat)
  | availFlags
  | availIdx
  | availRing (i : Nat)
  | usedFlags
  | usedIdx
  | usedId (i : Nat)
  | usedLen (i : Nat)
deriving DecidableEq, Repr

-- The structs virtq_desc_t, virtq_avail_t and virtq_used_t, at the places the three parts start.
def fieldOffset (desc avail used : Nat) : VringField → Nat
  | .descAddr i => desc + 16 * i
  | .descLen i => desc + 16 * i + 8
  | .descFlags i => desc + 16 * i + 12
  | .descNext i => desc + 16 * i + 14
  | .availFlags => avail
  | .availIdx => avail + 2
  | .availRing i => avail + 4 + 2 * i
  | .usedFlags => used
  | .usedIdx => used + 2
  | .usedId i => used + 4 + 8 * i
  | .usedLen i => used + 8 + 8 * i

def driverOffset : VringField → Nat := fieldOffset vringDescOffset vringAvailOffset vringUsedOffset

def toBytes (width value : Nat) : List UInt8 := (List.range width).map fun k => UInt8.ofNat (value / 2 ^ (8 * k))

def store (memory : Nat → UInt8) (field : VringField) (width value : Nat) : Nat → UInt8 := fun place =>
  if driverOffset field ≤ place ∧ place < driverOffset field + width then
    (toBytes width value).getD (place - driverOffset field) 0
  else memory place

def storeDesc (memory : Nat → UInt8) (i : Nat) (descriptor : Descriptor) : Nat → UInt8 :=
  store (store (store (store memory (.descAddr i) 8 descriptor.addr) (.descLen i) 4 descriptor.len)
    (.descFlags i) 2 descriptor.flags) (.descNext i) 2 descriptor.next

inductive PortWrite where
  | outb (port : UInt16) (value : UInt8)
  | outw (port value : UInt16)
  | outl (port : UInt16) (value : UInt32)
deriving DecidableEq, Repr

-- Where the linker puts the arrays.
structure Image where
  rxBuffers : Nat → UInt32
  rxQueueMem : UInt32
  txQueueMem : UInt32

-- What the ports give: the answer of find_virtio_net, and of QUEUE_SIZE for each queue selected.
structure Device where
  ioBase : UInt16
  hostFeatures : UInt32
  mac : Nat → UInt8
  queueSize : UInt16 → UInt16

structure Driver where
  initialized : Bool
  ioBase : UInt16
  mac : List UInt8
  rxQueueMem : Nat → UInt8
  txQueueMem : Nat → UInt8
  rxQueueSize : UInt16
  txQueueSize : UInt16
  rxLastUsed : UInt16
  rxAvailIdx : UInt16
  txLastUsed : UInt16
  txFreeIdx : UInt16
  outs : List PortWrite

def initRxMem (image : Image) : Nat → UInt8 :=
  let described := (List.range queueSize).foldl
    (fun memory i => store (storeDesc memory i ⟨(image.rxBuffers i).toNat, pktBufSize, descWrite, 0⟩) (.availRing i) 2 i)
    (fun _ => 0)
  store (store described .availFlags 2 0) .availIdx 2 queueSize

def initTxMem : Nat → UInt8 :=
  let described := (List.range queueSize).foldl (fun memory i => storeDesc memory i ⟨0, 0, 0, 0⟩) (fun _ => 0)
  store (store described .availFlags 2 0) .availIdx 2 0

-- The size that the device reports is kept for the modulo and for nothing else.
def setupVirtqueue (device : Device) (ioBase queueIdx : UInt16) (queueMem : UInt32) : UInt16 × List PortWrite :=
  (device.queueSize queueIdx, [.outw (ioBase + 0x0E) queueIdx, .outl (ioBase + 0x08) (queueMem / 4096)])

def wifiDriverInit (image : Image) (device : Device) (driver : Driver) : Int × Driver :=
  if device.ioBase = 0 then (-1, { driver with ioBase := 0 })
  else
    let ioBase := device.ioBase
    let rx := setupVirtqueue device ioBase rxQueue image.rxQueueMem
    let tx := setupVirtqueue device ioBase txQueue image.txQueueMem
    (0, {
      initialized := true
      ioBase := ioBase
      mac := (List.range 6).map device.mac
      rxQueueMem := initRxMem image
      txQueueMem := initTxMem
      rxQueueSize := rx.1
      txQueueSize := tx.1
      rxLastUsed := 0
      rxAvailIdx := UInt16.ofNat queueSize
      txLastUsed := 0
      txFreeIdx := 0
      outs := driver.outs ++
        [.outb (ioBase + 0x12) 0, .outb (ioBase + 0x12) 1, .outb (ioBase + 0x12) 3,
          .outl (ioBase + 0x04) (device.hostFeatures &&& 0x20), .outb (ioBase + 0x12) 11] ++
        rx.2 ++ tx.2 ++ [.outb (ioBase + 0x12) 15, .outw (ioBase + 0x10) rxQueue] })

-- The index into a ring of the driver, none when the division traps.
def ringCell (size idx : UInt16) : Option Nat := if size = 0 then none else some (cell size.toNat idx)

-- The legacy layout for q entries, with 6 + 2q bytes of available ring and 6 + 8q bytes of used ring.
def alignUp (place alignment : Nat) : Nat := (place + alignment - 1) / alignment * alignment

def legacyAvail (q : Nat) : Nat := 16 * q

def legacyUsed (q : Nat) : Nat := alignUp (legacyAvail q + (6 + 2 * q)) 4096

def legacyEnd (q : Nat) : Nat := legacyUsed q + (6 + 8 * q)

def legacyOffset (q : Nat) : VringField → Nat := fieldOffset 0 (legacyAvail q) (legacyUsed q)

structure Placed (size : UInt16) : Prop where
  agrees : ∀ field, driverOffset field = legacyOffset size.toNat field
  inside : legacyEnd size.toNat ≤ queueMemSize
  indexed : ∀ idx, ∃ i, ringCell size idx = some i ∧ i < ringLength

def InitPlaces (image : Image) (device : Device) (driver : Driver) : Prop :=
  let done := wifiDriverInit image device driver
  done.1 ≠ 0 ∨ Placed done.2.rxQueueSize ∧ Placed done.2.txQueueSize

theorem placed_iff (size : UInt16) : Placed size ↔ size = 256 := by
  constructor
  · intro placed
    have avail : vringAvailOffset + 2 = legacyAvail size.toNat + 2 := placed.agrees .availIdx
    rw [vringAvailOffset, legacyAvail] at avail
    apply UInt16.toNat_inj.mp
    show size.toNat = 256
    omega
  · rintro rfl
    refine ⟨fun field => rfl, by decide, fun idx => ⟨_, rfl, Nat.mod_lt _ (by decide)⟩⟩

theorem init_places_iff (image : Image) (device : Device) (driver : Driver) :
    InitPlaces image device driver ↔
      device.ioBase = 0 ∨ device.queueSize rxQueue = 256 ∧ device.queueSize txQueue = 256 := by
  rw [InitPlaces, wifiDriverInit]
  by_cases missing : device.ioBase = 0
  · rw [if_pos missing]
    have failed : (-1 : Int) ≠ 0 := by decide
    exact iff_of_true (Or.inl failed) (Or.inl missing)
  · rw [if_neg missing]
    simp only [ne_eq, not_true_eq_false, false_or, missing]
    exact and_congr (placed_iff _) (placed_iff _)

def smallDevice : Device := ⟨0xC000, 0x20, fun _ => 0, fun _ => 128⟩

def linked : Image := ⟨fun i => UInt32.ofNat (0x200000 + 4096 * i), 0x210000, 0x214000⟩

def unloaded : Driver := ⟨false, 0, [], fun _ => 0, fun _ => 0, 256, 256, 0, 0, 0, 0, []⟩

theorem init_does_not_place : ¬ ∀ (image : Image) (device : Device) (driver : Driver),
    (∀ queue, (∃ k ≤ 15, (device.queueSize queue).toNat = 2 ^ k) ∨ device.queueSize queue = 0) →
      InitPlaces image device driver := by
  intro claimed
  rcases claimed linked smallDevice unloaded fun _ => Or.inl ⟨7, by decide, rfl⟩ with failed | ⟨placed, _⟩
  · exact failed rfl
  · exact absurd ((placed_iff 128).mp placed) (by decide)

end RoDos.Virtio
