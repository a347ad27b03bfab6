import Mathlib.Algebra.Ring.Nat
import Mathlib.Logic.Function.Basic
import RoDos.Base.Disk

set_option autoImplicit false

namespace RoDos.Ata

open Base

def ataPrimaryBase : Nat := 0x1F0
def ataPrimaryCtrl : Nat := 0x3F6
def ataSecondaryBase : Nat := 0x170
def ataSecondaryCtrl : Nat := 0x376

def ataRegData : Nat := 0x00
def ataRegSeccount : Nat := 0x02
def ataRegLbaLo : Nat := 0x03
def ataRegLbaMid : Nat := 0x04
def ataRegLbaHi : Nat := 0x05
def ataRegDrive : Nat := 0x06
def ataRegStatus : Nat := 0x07
def ataRegCommand : Nat := 0x07

def ataCmdReadPio : UInt8 := 0x20
def ataCmdWritePio : UInt8 := 0x30
def ataCmdCacheFlush : UInt8 := 0xE7

def ataSrBsy : UInt8 := 0x80
def ataSrDrq : UInt8 := 0x08
def ataSrErr : UInt8 := 0x01

-- What a drive shows for a command or a sector: the statuses while it is busy with it, and whether it fails.
structure Answer where
  busy : List UInt8
  fault : Bool
deriving DecidableEq, Repr

inductive Phase where
  | idle
  | transfer (writes : Bool) (lba left : Nat)
deriving DecidableEq, Repr

def Phase.inside (size : Nat) : Phase → Bool
  | .idle => true
  | .transfer _ lba _ => lba < size

def Phase.next : Phase → Phase
  | .idle => .idle
  | .transfer writes lba left => if left ≤ 1 then .idle else .transfer writes (lba + 1) (left - 1)

-- A drive of size sectors, and the answers that it gives in turn.
structure Drive where
  size : Nat
  disk : Disk
  phase : Phase
  error : Bool
  busy : List UInt8
  answers : Nat → Answer
  asked : Nat

-- The bits beside BSY mean nothing while it is set.
def Drive.status (drive : Drive) : UInt8 :=
  match drive.busy with
  | [] => 0x50 ||| (if drive.phase = .idle then 0 else ataSrDrq) ||| (if drive.error then ataSrErr else 0)
  | byte :: _ => ataSrBsy ||| byte

def Drive.polled (drive : Drive) (n : Nat) : Drive := { drive with busy := drive.busy.drop n }

def Drive.answer (drive : Drive) : Answer := drive.answers drive.asked

def Drive.proceed (drive : Drive) (phase : Phase) : Drive :=
  let good := !drive.answer.fault && phase.inside drive.size
  { drive with phase := if good then phase else .idle, error := !good, busy := drive.answer.busy, asked := drive.asked + 1 }

def Drive.reset (drive : Drive) : Drive :=
  { drive with phase := .idle, error := false, busy := drive.answer.busy, asked := drive.asked + 1 }

structure TaskFile where
  seccount : UInt8
  lbaLo : UInt8
  lbaMid : UInt8
  lbaHi : UInt8
  drive : UInt8
deriving DecidableEq, Repr

def TaskFile.lba (file : TaskFile) : Nat :=
  file.lbaLo.toNat + 2 ^ 8 * file.lbaMid.toNat + 2 ^ 16 * file.lbaHi.toNat + 2 ^ 24 * (file.drive &&& 0x0F).toNat

def TaskFile.sectors (file : TaskFile) : Nat := if file.seccount = 0 then 256 else file.seccount.toNat

def TaskFile.slave (file : TaskFile) : Bool := file.drive &&& 0x10 != 0

def Drive.command (drive : Drive) (file : TaskFile) (command : UInt8) : Drive :=
  if drive.busy ≠ [] then drive
  else if command = ataCmdCacheFlush then drive.proceed .idle
  else if file.drive &&& 0x40 = 0 then { drive with phase := .idle, error := true }
  else if command = ataCmdReadPio then drive.proceed (.transfer false file.lba file.sectors)
  else if command = ataCmdWritePio then drive.proceed (.transfer true file.lba file.sectors)
  else { drive with phase := .idle, error := true }

def Drive.insw (drive : Drive) : List UInt8 × Drive :=
  match drive.busy, drive.phase with
  | [], .transfer false lba _ => (drive.disk lba, drive.proceed drive.phase.next)
  | _, _ => (List.replicate 512 0xFF, drive)

-- A sector that the drive fails to write keeps what it held.
def Drive.outsw (drive : Drive) (bytes : List UInt8) : Drive :=
  match drive.busy, drive.phase with
  | [], .transfer true lba _ =>
      { drive.proceed drive.phase.next with
        disk := if drive.answer.fault then drive.disk else writeSector drive.disk ⟨lba, bytes⟩ }
  | _, _ => drive

-- absent is what the status port reads where no drive answers.
structure Channel where
  file : TaskFile
  drives : Bool → Option Drive
  absent : UInt8

def Channel.selected (channel : Channel) : Option Drive := channel.drives channel.file.slave

def Channel.put (channel : Channel) (drive : Drive) : Channel :=
  { channel with drives := Function.update channel.drives channel.file.slave (some drive) }

def Channel.status (channel : Channel) : UInt8 × Channel :=
  match channel.selected with
  | none => (channel.absent, channel)
  | some drive => (drive.status, channel.put (drive.polled 1))

inductive Reg where
  | data
  | seccount
  | lbaLo
  | lbaMid
  | lbaHi
  | drive
  | status
  | ctrl
deriving DecidableEq, Repr

def Channel.write (channel : Channel) (byte : UInt8) : Reg → Channel
  | .data => channel
  | .seccount => { channel with file := { channel.file with seccount := byte } }
  | .lbaLo => { channel with file := { channel.file with lbaLo := byte } }
  | .lbaMid => { channel with file := { channel.file with lbaMid := byte } }
  | .lbaHi => { channel with file := { channel.file with lbaHi := byte } }
  | .drive => { channel with file := { channel.file with drive := byte } }
  | .status =>
      match channel.selected with
      | none => channel
      | some drive => channel.put (drive.command channel.file byte)
  | .ctrl =>
      if byte &&& 0x04 = 0 then channel
      else
        { channel with
          file := { channel.file with drive := 0 }
          drives := fun slave => (channel.drives slave).map Drive.reset }

-- true is the secondary channel.
abbrev Bus := Bool → Channel

def ports : List (Nat × Bool × Reg) :=
  [(0x1F0, false, .data), (0x1F2, false, .seccount), (0x1F3, false, .lbaLo), (0x1F4, false, .lbaMid),
    (0x1F5, false, .lbaHi), (0x1F6, false, .drive), (0x1F7, false, .status), (0x3F6, false, .ctrl),
    (0x170, true, .data), (0x172, true, .seccount), (0x173, true, .lbaLo), (0x174, true, .lbaMid),
    (0x175, true, .lbaHi), (0x176, true, .drive), (0x177, true, .status), (0x376, true, .ctrl)]

structure Driver where
  ataInitialized : Bool
  ataBase : Nat
  ataCtrl : Nat
  ataDrive : Nat
deriving DecidableEq, Repr

def boot : Driver := ⟨false, ataPrimaryBase, ataPrimaryCtrl, 0⟩

structure System where
  driver : Driver
  bus : Bus

def System.withChannel (system : System) (secondary : Bool) (channel : Channel) : System :=
  { system with bus := Function.update system.bus secondary channel }

-- The task file is never read back: of the ports only the status and the alternate status are.
def System.inb (system : System) (port : Nat) : UInt8 × System :=
  match ports.lookup port with
  | some (secondary, .status) =>
      ((system.bus secondary).status.1, system.withChannel secondary (system.bus secondary).status.2)
  | some (secondary, .ctrl) =>
      ((system.bus secondary).status.1, system.withChannel secondary (system.bus secondary).status.2)
  | _ => (0xFF, system)

def System.outb (system : System) (port : Nat) (byte : UInt8) : System :=
  match ports.lookup port with
  | some (secondary, reg) => system.withChannel secondary ((system.bus secondary).write byte reg)
  | none => system

-- 256 words through the data port
def System.insw (system : System) (port : Nat) : List UInt8 × System :=
  match ports.lookup port with
  | some (secondary, .data) =>
      match (system.bus secondary).selected with
      | some drive => (drive.insw.1, system.withChannel secondary ((system.bus secondary).put drive.insw.2))
      | none => (List.replicate 512 0xFF, system)
  | _ => (List.replicate 512 0xFF, system)

def System.outsw (system : System) (port : Nat) (bytes : List UInt8) : System :=
  match ports.lookup port with
  | some (secondary, .data) =>
      match (system.bus secondary).selected with
      | some drive => system.withChannel secondary ((system.bus secondary).put (drive.outsw bytes))
      | none => system
  | _ => system

def ataDelay (system : System) : System :=
  (((system.inb system.driver.ataCtrl).2.inb system.driver.ataCtrl).2.inb system.driver.ataCtrl).2.inb
    system.driver.ataCtrl |>.2

def ataWaitReady : Nat → System → System × Int
  | 0, system => (system, -1)
  | timeout + 1, system =>
      let read := system.inb (system.driver.ataBase + ataRegStatus)
      if read.1 &&& ataSrBsy = 0 then (read.2, 0) else ataWaitReady timeout read.2

def ataWaitDrq : Nat → System → System × Int
  | 0, system => (system, -1)
  | timeout + 1, system =>
      let read := system.inb (system.driver.ataBase + ataRegStatus)
      if read.1 &&& ataSrErr ≠ 0 then (read.2, -1)
      else if read.1 &&& ataSrBsy = 0 ∧ read.1 &&& ataSrDrq ≠ 0 then (read.2, 0)
      else ataWaitDrq timeout read.2

def polls : Nat := 100000

def softReset (system : System) : System :=
  ataDelay ((ataDelay (system.outb system.driver.ataCtrl 0x04)).outb system.driver.ataCtrl 0x00)

def System.initialized (system : System) : System :=
  { system with driver := { system.driver with ataInitialized := true } }

def System.withDrive (system : System) (drive : Nat) : System :=
  { system with driver := { system.driver with ataDrive := drive } }

def probe (system : System) (select : UInt8) : UInt8 × System :=
  (ataDelay (system.outb (system.driver.ataBase + ataRegDrive) select)).inb (system.driver.ataBase + ataRegStatus)

-- ata_init behind the reset
def detect (system : System) : System × Int :=
  let master := probe system 0xA0
  if master.1 = 0 ∨ master.1 = 0xFF then
    let slave := probe (master.2.withDrive 1) 0xB0
    if slave.1 = 0 ∨ slave.1 = 0xFF then (slave.2, -1) else (slave.2.initialized, 0)
  else (master.2.initialized, 0)

def System.onSecondary (system : System) : System :=
  { system with driver := { system.driver with ataBase := ataSecondaryBase, ataCtrl := ataSecondaryCtrl } }

def ataInit (system : System) : System × Int :=
  if system.driver.ataInitialized then (system, 0)
  else
    let primary := ataWaitReady polls (softReset system)
    if primary.2 = 0 then detect primary.1
    else
      let secondary := ataWaitReady polls (softReset primary.1.onSecondary)
      if secondary.2 = 0 then detect secondary.1 else (secondary.1, -1)

-- What ata_read_sectors and ata_write_sectors send, from the drive selection to the command.
def sendCommand (system : System) (lba : Nat) (count command : UInt8) : System :=
  let base := system.driver.ataBase
  let select := UInt8.ofNat (0xE0 ||| system.driver.ataDrive <<< 4 ||| (lba >>> 24 &&& 0x0F))
  let selected := ataDelay (system.outb (base + ataRegDrive) select)
  ((((selected.outb (base + ataRegSeccount) count).outb (base + ataRegLbaLo) (UInt8.ofNat (lba &&& 0xFF))).outb
    (base + ataRegLbaMid) (UInt8.ofNat (lba >>> 8 &&& 0xFF))).outb (base + ataRegLbaHi) (UInt8.ofNat (lba >>> 16 &&& 0xFF))).outb
    (base + ataRegCommand) command

def readLoop : Nat → System → System × List (List UInt8) × Int
  | 0, system => (system, [], 0)
  | left + 1, system =>
      let waited := ataWaitDrq polls system
      if waited.2 ≠ 0 then (waited.1, [], -1)
      else
        let read := waited.1.insw (waited.1.driver.ataBase + ataRegData)
        let rest := readLoop left (ataDelay read.2)
        (rest.1, read.1 :: rest.2.1, rest.2.2)

def ataReadSectors (system : System) (lba : Nat) (count : UInt8) : System × List (List UInt8) × Int :=
  let started := ataInit system
  if started.2 ≠ 0 then (started.1, [], -1)
  else if count = 0 then (started.1, [], -1)
  else
    let ready := ataWaitReady polls started.1
    if ready.2 ≠ 0 then (ready.1, [], -1) else readLoop count.toNat (sendCommand ready.1 lba count ataCmdReadPio)

def writeLoop : List (List UInt8) → System → System × Int
  | [], system => (system, 0)
  | sector :: rest, system =>
      let waited := ataWaitDrq polls system
      if waited.2 ≠ 0 then (waited.1, -1)
      else
        let written := ataDelay (waited.1.outsw (waited.1.driver.ataBase + ataRegData) sector)
        let done := ataWaitReady polls written
        if done.2 ≠ 0 then (done.1, -1) else writeLoop rest done.1

def bufferSectors (buffer : Nat → UInt8) (count : Nat) : List (List UInt8) :=
  (List.range count).map fun i => (List.range 512).map fun j => buffer (512 * i + j)

def ataWriteSectors (system : System) (lba : Nat) (count : UInt8) (buffer : Nat → UInt8) : System × Int :=
  let started := ataInit system
  if started.2 ≠ 0 then (started.1, -1)
  else if count = 0 then (started.1, -1)
  else
    let ready := ataWaitReady polls started.1
    if ready.2 ≠ 0 then (ready.1, -1)
    else
      let written := writeLoop (bufferSectors buffer count.toNat) (sendCommand ready.1 lba count ataCmdWritePio)
      if written.2 ≠ 0 then (written.1, -1)
      else ((ataWaitReady polls (written.1.outb (written.1.driver.ataBase + ataRegCommand) ataCmdCacheFlush)).1, 0)

def diskReadLbaAta (system : System) (lba : Nat) (count : UInt8) : System × List (List UInt8) × Int :=
  ataReadSectors system lba count

def diskWriteLbaAta (system : System) (lba : Nat) (count : UInt8) (buffer : Nat → UInt8) : System × Int :=
  ataWriteSectors system lba count buffer

end RoDos.Ata
