import Mathlib.Tactic.Common

set_option autoImplicit false

namespace RoDos.Syscall

-- What the handlers ask of the rest of the kernel and of the ports.
inductive Call where
  | putsText (text : String)
  | puts (address : UInt32)
  | putc (c : UInt8)
  | cls
  | ioSetAttr (attr : UInt8)
  | getkeyBlock
  | getTicks
  | diskReadLba (lba count buffer : UInt32)
  | inb (port : UInt16)
  | outb (port : UInt16) (value : UInt8)
  | outw (port value : UInt16)
  | setShuttingDown
deriving DecidableEq, Repr

-- A call that never returns has no result.
abbrev Kernel (World : Type) := StateT World Option

section
variable {World : Type} (ask : Call → Kernel World UInt32)

def inb (port : UInt16) : Kernel World UInt8 := do return (← ask (.inb port)).toUInt8

def outb (port : UInt16) (value : UInt8) : Kernel World Unit := do
  let _ ← ask (.outb port value)

def getCmosReg (reg : UInt8) : Kernel World UInt32 := do
  outb ask 0x70 reg
  return (← inb ask 0x71).toUInt32

-- E_INVAL below 20 and above 20000; the delay loop only takes time.
def beep (freq : UInt32) : Kernel World UInt32 := do
  if freq < 20 ∨ 20000 < freq then return 1
  let divisor := 1193180 / freq
  outb ask 0x43 0xB6
  outb ask 0x42 (divisor &&& 0xFF).toUInt8
  outb ask 0x42 ((divisor >>> 8) &&& 0xFF).toUInt8
  let tmp ← inb ask 0x61
  outb ask 0x61 (tmp ||| 0x03)
  outb ask 0x61 (tmp &&& 0xFC)
  return 0

-- The reset over the keyboard controller, and the loop around hlt if that does nothing.
def halt : Kernel World UInt32 := fun _ => none

def syscallHandler (num arg1 arg2 arg3 : UInt32) : Kernel World UInt32 :=
  match num.toNat with
  | 0x01 => do
      if arg1 ≠ 0 then
        let _ ← ask (.puts arg1)
      return 0
  | 0x02 => do
      let _ ← ask (.putc (arg1 &&& 0xFF).toUInt8)
      return 0
  | 0x04 => ask .getkeyBlock
  | 0x05 => do
      let _ ← ask .cls
      return 0
  | 0x08 => do
      let _ ← ask (.ioSetAttr (arg1 &&& 0xFF).toUInt8)
      return 0
  | 0x1A | 0x1B => return 0
  | 0x1D => return -1
  | 0x1E => return -1
  | 0x1F => return 0
  | 0x44 => return 1
  | 0x50 => do
      let h ← getCmosReg ask 0x04
      let m ← getCmosReg ask 0x02
      let s ← getCmosReg ask 0x00
      return (h <<< 16) ||| (m <<< 8) ||| s
  | 0x51 => do
      let d ← getCmosReg ask 0x07
      let m ← getCmosReg ask 0x08
      let y ← getCmosReg ask 0x09
      return (d <<< 16) ||| (m <<< 8) ||| y
  | 0x52 => ask .getTicks
  | 0x61 => ask (.diskReadLba arg1 arg2 arg3)
  | 0x73 => do
      let _ ← ask (.putsText "[DEBUG] ")
      if arg1 ≠ 0 then
        let _ ← ask (.puts arg1)
      let _ ← ask (.putsText "\n")
      return 0
  | 0x71 => do
      let _ ← ask (.putsText "System shutting down...\n")
      let _ ← ask .setShuttingDown
      let _ ← ask (.outw 0x604 0x2000)
      let _ ← ask (.outw 0xB004 0x2000)
      halt
  | 0x72 => beep ask arg1
  | _ => return -1
end

structure Cpu where
  eax : UInt32
  ecx : UInt32
  edx : UInt32
  ebx : UInt32
  esp : UInt32
  ebp : UInt32
  esi : UInt32
  edi : UInt32
  cs : UInt16
  ds : UInt16
  es : UInt16
  fs : UInt16
  gs : UInt16
  eflags : UInt32
deriving DecidableEq, Repr

inductive Seg where
  | ds
  | es
  | fs
  | gs
deriving DecidableEq, Repr

inductive Instr where
  | pushImm (value : UInt32)
  | jmpIsrCommonStub
  | pushad
  | pushSeg (seg : Seg)
  | movAx (value : UInt16)
  | movSegAx (seg : Seg)
  | pushEsp
  | callIsrHandler
  | addEsp (slots : Nat)
  | popSeg (seg : Seg)
  | popad
  | iretd
deriving DecidableEq, Repr

-- addEsp counts the double words that it drops.
def isrCommonStub : List Instr :=
  [.pushad, .pushSeg .ds, .pushSeg .es, .pushSeg .fs, .pushSeg .gs, .movAx 0x10, .movSegAx .ds, .movSegAx .es,
    .pushEsp, .callIsrHandler, .addEsp 1, .popSeg .gs, .popSeg .fs, .popSeg .es, .popSeg .ds, .popad, .addEsp 2, .iretd]

def isrNoErr (vector : UInt32) : List Instr := [.pushImm 0, .pushImm vector, .jmpIsrCommonStub]

def syscallStub : List Instr := [.pushImm 0, .pushImm 0x80, .jmpIsrCommonStub]

-- The gates installed by init_interrupts, those of the IRQs aside.
def idt (vector : UInt8) : Option (List Instr) :=
  if vector = 0 then some (isrNoErr 0)
  else if vector = 13 then some (isrNoErr 13)
  else if vector = 0x80 then some syscallStub
  else none

inductive IsrPc where
  | entry
  | cli
  | hlt
deriving DecidableEq, Repr

-- What is still to be executed; a handler comes back to the rest of the stub.
inductive Position where
  | caller (eip : UInt32)
  | stub (rest : List Instr)
  | isrHandler (pc : IsrPc) (rest : List Instr)
deriving DecidableEq, Repr

-- The stack from esp upwards in double words; the segment stack and privilege never change.
structure Machine (World : Type) where
  cpu : Cpu
  stack : List UInt32
  position : Position
  world : World
  shuttingDown : Bool

def readSeg (cpu : Cpu) : Seg → UInt16
  | .ds => cpu.ds
  | .es => cpu.es
  | .fs => cpu.fs
  | .gs => cpu.gs

def writeSeg (cpu : Cpu) (value : UInt16) : Seg → Cpu
  | .ds => { cpu with ds := value }
  | .es => { cpu with es := value }
  | .fs => { cpu with fs := value }
  | .gs => { cpu with gs := value }

def generalRegisters (cpu : Cpu) : List UInt32 :=
  [cpu.eax, cpu.ecx, cpu.edx, cpu.ebx, cpu.esp, cpu.ebp, cpu.esi, cpu.edi]

def flagIf : UInt32 := 0x200

-- TF, IF, NT, RF and VM.
def gateFlags : UInt32 := 0x34300

section
variable {World : Type} (ask : Call → Kernel World UInt32)

def push (machine : Machine World) (value : UInt32) : Machine World :=
  { machine with cpu := { machine.cpu with esp := machine.cpu.esp - 4 }, stack := value :: machine.stack }

-- int with a vector of the table; the gates are interrupt gates.
def interrupt (machine : Machine World) (vector : UInt8) (eip : UInt32) : Option (Machine World) :=
  (idt vector).map fun handler =>
    let cpu := machine.cpu
    let framed := push (push (push machine cpu.eflags) cpu.cs.toUInt32) eip
    { framed with cpu := { framed.cpu with cs := 0x08, eflags := cpu.eflags &&& ~~~gateFlags }, position := .stub handler }

def execute (machine : Machine World) (rest : List Instr) : Instr → Option (Machine World)
  | .pushImm value => some { push machine value with position := .stub rest }
  | .jmpIsrCommonStub => some { machine with position := .stub isrCommonStub }
  | .pushad => some { (generalRegisters machine.cpu).foldl push machine with position := .stub rest }
  | .pushSeg seg => some { push machine (readSeg machine.cpu seg).toUInt32 with position := .stub rest }
  | .movAx value =>
      some { machine with
        cpu := { machine.cpu with eax := (machine.cpu.eax &&& 0xFFFF0000) ||| value.toUInt32 }, position := .stub rest }
  | .movSegAx seg =>
      some { machine with cpu := writeSeg machine.cpu machine.cpu.eax.toUInt16 seg, position := .stub rest }
  | .pushEsp => some { push machine machine.cpu.esp with position := .stub rest }
  | .callIsrHandler => some { machine with position := .isrHandler .entry rest }
  | .addEsp slots =>
      some { machine with
        cpu := { machine.cpu with esp := machine.cpu.esp + 4 * UInt32.ofNat slots }
        stack := machine.stack.drop slots
        position := .stub rest }
  | .popSeg seg =>
      match machine.stack with
      | value :: stack =>
          let cpu := { machine.cpu with esp := machine.cpu.esp + 4 }
          some { machine with cpu := writeSeg cpu value.toUInt16 seg, stack := stack, position := .stub rest }
      | _ => none
  | .popad =>
      match machine.stack with
      | edi :: esi :: ebp :: _ :: ebx :: edx :: ecx :: eax :: stack =>
          let esp := machine.cpu.esp + 32
          let cpu := { machine.cpu with eax, ecx, edx, ebx, esp, ebp, esi, edi }
          some { machine with cpu := cpu, stack := stack, position := .stub rest }
      | _ => none
  | .iretd =>
      match machine.stack with
      | eip :: cs :: eflags :: stack =>
          let cpu := { machine.cpu with esp := machine.cpu.esp + 12, cs := cs.toUInt16, eflags := eflags }
          some { machine with cpu := cpu, stack := stack, position := .caller eip }
      | _ => none

def haltMessage : String := "\nCPU EXCEPTION - SYSTEM HALTED\n"

-- With the interrupts off hlt waits for ever.
def isrHandler (machine : Machine World) (rest : List Instr) : IsrPc → Option (Machine World)
  | .entry =>
      if machine.shuttingDown = true then some { machine with position := .isrHandler .cli rest }
      else
        ((ask (.putsText haltMessage)).run machine.world).map fun result =>
          { machine with world := result.2, position := .isrHandler .cli rest }
  | .cli =>
      some { machine with
        cpu := { machine.cpu with eflags := machine.cpu.eflags &&& ~~~flagIf }, position := .isrHandler .hlt rest }
  | .hlt => some machine

-- The steps of an interrupt; the caller's own instructions are not among them.
def step (machine : Machine World) : Option (Machine World) :=
  match machine.position with
  | .caller _ => none
  | .stub [] => none
  | .stub (instr :: rest) => execute machine rest instr
  | .isrHandler pc rest => isrHandler ask machine rest pc

def runFor : Nat → Machine World → Option (Machine World)
  | 0, machine => some machine
  | n + 1, machine => (step ask machine).bind (runFor n)

end

-- The wrappers leave the other registers as their callers had them.
def syscall3 (cpu : Cpu) (num arg1 arg2 arg3 : UInt32) : Cpu :=
  { cpu with eax := num, ebx := arg1, ecx := arg2, edx := arg3 }

def syscall2 (cpu : Cpu) (num arg1 arg2 : UInt32) : Cpu := { cpu with eax := num, ebx := arg1, ecx := arg2 }

def syscall0 (cpu : Cpu) (num : UInt32) : Cpu := { cpu with eax := num }

def sysGetpid (cpu : Cpu) : Cpu := syscall0 cpu 0x44

def sysShutdown (cpu : Cpu) : Cpu := syscall0 cpu 0x71

def sysBeep (cpu : Cpu) (frequency duration : UInt32) : Cpu := syscall2 cpu 0x72 frequency duration

def sysReadSector (cpu : Cpu) (lba count buffer : UInt32) : Cpu := syscall3 cpu 0x61 lba count buffer

end RoDos.Syscall
