import RoDos.Base.CallStack
import RoDos.Base.Memory
import Mathlib.Data.List.FinRange
import Mathlib.Logic.Function.Basic

set_option autoImplicit false

namespace RoDos.Fat

open Base

structure Handle where
  firstCluster : Nat
  fileSize : Nat
  currentCluster : Nat
  position : Nat
  clusterBufferPtr : Nat
  clusterOffset : Nat
  flags : Nat
  reserved : Nat
deriving DecidableEq, Repr

-- A read of one sector stores its 512 bytes, or fails and stores nothing; the reads are counted. Below the words
-- pushed by its caller the call leaves anything on the stack.
structure Drive where
  sector : Nat → Nat → UInt8
  fails : Nat → Bool
  leaves : Nat → Nat

-- The .data words that the functions read and file_handle_area stand beside the byte memory.
structure FileSystem where
  mem : Memory
  handles : Fin 16 → Handle
  fileHandleArea : Nat
  bpbBytesPerSector : Nat
  fsFirstFatLba : Nat
  fsFirstRootLba : Nat
  fsRootDirSectors : Nat
  fsTempBufPtr : Nat
  clusterBufferPtr : Nat
  reads : Nat

structure Registers where
  eax : Nat
  ebx : Nat
  ecx : Nat
  edx : Nat
  esi : Nat
  edi : Nat
deriving DecidableEq, Repr

-- mov eax, -1 and mov eax, -2
def minusOne : Nat := 2 ^ 32 - 1
def minusTwo : Nat := 2 ^ 32 - 2

def storeSector (mem : Memory) (buffer : Nat) (sector : Nat → UInt8) : Memory :=
  fun address => if sub32 address buffer < 512 then sector (sub32 address buffer) else mem address

def loadHalf (mem : Memory) (address : Nat) : Nat :=
  (loadByte mem address).toNat + 2 ^ 8 * (loadByte mem (address + 1)).toNat

-- EBX is 1 in every call. The drive is given 28 bits of the LBA.
def readSectorLba (drive : Drive) (fs : FileSystem) (eax ecx : Nat) : FileSystem × Nat :=
  let counted := { fs with reads := fs.reads + 1 }
  if drive.fails fs.reads then (counted, minusOne)
  else ({ counted with mem := storeSector fs.mem ecx (drive.sector (eax % 2 ^ 28)) }, 0)

def maskEntry (edi eax : Nat) : Nat :=
  let entry := (if edi % 2 = 1 then eax / 2 ^ 4 else eax) % 2 ^ 12
  if 0xFF8 ≤ entry then 0xFFF else entry

-- The second read returns in EAX, where the word from the first sector stood.
def readFatEntry (drive : Drive) (fs : FileSystem) (eax : Nat) : FileSystem × Nat :=
  let offset := add32 (add32 eax eax) eax / 2
  let esi := offset % fs.bpbBytesPerSector
  let (first, status) :=
    readSectorLba drive fs (add32 (offset / fs.bpbBytesPerSector) fs.fsFirstFatLba) fs.fsTempBufPtr
  if status ≠ 0 then (first, 0)
  else if signed32 (add32 esi 1) < signed32 first.bpbBytesPerSector then
    (first, maskEntry eax (loadHalf first.mem (add32 first.fsTempBufPtr esi)))
  else
    let (second, status) := readSectorLba drive first (add32 first.fsFirstFatLba 1) first.fsTempBufPtr
    if status ≠ 0 then (second, 0)
    else (second, maskEntry eax (status ||| (loadByte second.mem second.fsTempBufPtr).toNat * 2 ^ 16))

-- The values of ECX and EBX until the signed tests end the loops.
def entryOffsets (fs : FileSystem) : List Nat :=
  (List.range (((signed32 fs.bpbBytesPerSector).toNat + 31) / 32)).map (32 * ·)

def rootSectors (fs : FileSystem) : List Nat := List.range (signed32 fs.fsRootDirSectors).toNat

def enterFrame (drive : Drive) (regs : Registers) : CallStack :=
  ((((CallStack.mk drive.leaves 0).push regs.ebx).push regs.ecx).push regs.edx).push regs.esi |>.push regs.edi

def leaveFrame (stack : CallStack) (eax : Nat) : Registers where
  eax := eax
  edi := stack.top
  esi := stack.pop.top
  edx := stack.pop.pop.top
  ecx := stack.pop.pop.pop.top
  ebx := stack.pop.pop.pop.pop.top

def copyLoop (mem : Memory) : Nat → Nat → Nat → List (Nat × Nat)
  | 0, _, _ => []
  | ecx + 1, esi, edi => (edi, loadWord mem esi) :: copyLoop mem ecx (add32 esi 4) (add32 edi 4)

-- The words stored in the caller's buffer, which is none of the memory read here, and the state of the loops.
structure Listing where
  stores : List (Nat × Nat)
  edi : Nat
  edx : Nat
  stack : CallStack

-- true stands for the jump to .done_list
def listEntries (mem : Memory) (esi : Nat) : List Nat → Listing → Listing × Bool
  | [], listing => (listing, false)
  | ecx :: rest, listing =>
      let al := loadByte mem (add32 esi ecx)
      if al = 0 then (listing, true)
      else if al = 0xE5 then listEntries mem esi rest listing
      else
        let pushed := ((listing.stack.push ecx).push esi).push listing.edi
        let copied := copyLoop mem 8 (add32 esi ecx) listing.edi
        listEntries mem esi rest
          ⟨listing.stores ++ copied, add32 pushed.top 32, add32 listing.edx 1, pushed.pop.pop.pop⟩

def listSectors (drive : Drive) : List Nat → FileSystem → Listing → FileSystem × Listing × Nat
  | [], fs, listing => (fs, listing, listing.edx)
  | ebx :: rest, fs, listing =>
      let (read, status) := readSectorLba drive fs (add32 fs.fsFirstRootLba ebx) fs.fsTempBufPtr
      let called := (((listing.stack.push ebx).push listing.edx).push listing.edi).call drive.leaves
      let back := { listing with edi := called.top, edx := called.pop.top, stack := called.pop.pop.pop }
      if status ≠ 0 then (read, back, minusOne)
      else
        match listEntries read.mem read.fsTempBufPtr (entryOffsets read) back with
        | (listing, true) => (read, listing, listing.edx)
        | (listing, false) => listSectors drive rest read listing

-- [ebp - 20] is the slot of the pushed EDI.
def fsListRoot (drive : Drive) (fs : FileSystem) (regs : Registers) : FileSystem × List (Nat × Nat) × Registers :=
  let stack := (enterFrame drive regs).store 20 regs.ebx
  let (fs, listing, eax) := listSectors drive (rootSectors fs) fs ⟨[], regs.eax, 0, stack⟩
  (fs, listing.stores, leaveFrame listing.stack eax)

-- repe cmpsb, whose last comparison decides the jump.
def compareBytes (mem : Memory) : Nat → Nat → Nat → Bool
  | 0, _, _ => true
  | ecx + 1, esi, edi =>
      if loadByte mem esi = loadByte mem edi then compareBytes mem ecx (add32 esi 1) (add32 edi 1) else false

inductive EntrySearch where
  | found (edx : Nat)
  | notFound
  | nextSector (edx : Nat) (stack : CallStack)

def findEntries (mem : Memory) (esi edi : Nat) : List Nat → Nat → CallStack → EntrySearch
  | [], edx, stack => .nextSector edx stack
  | ecx :: rest, edx, stack =>
      let al := loadByte mem (add32 esi ecx)
      if al = 0 then .notFound
      else if al = 0xE5 then findEntries mem esi edi rest (add32 edx 1) stack
      else
        let pushed := ((stack.push ecx).push esi).push edi
        if compareBytes mem 11 (pushed.load 24) (add32 esi ecx) then .found edx
        else findEntries mem esi edi rest (add32 edx 1) pushed.pop.pop.pop

def findSectors (drive : Drive) (edi : Nat) : List Nat → FileSystem → Nat → CallStack → FileSystem × Nat × CallStack
  | [], fs, _, stack => (fs, minusOne, stack)
  | ebx :: rest, fs, edx, stack =>
      let (read, status) := readSectorLba drive fs (add32 fs.fsFirstRootLba ebx) fs.fsTempBufPtr
      let called := ((stack.push ebx).push edx).call drive.leaves
      let back := called.pop.pop
      if status ≠ 0 then (read, minusTwo, back)
      else
        match findEntries read.mem read.fsTempBufPtr edi (entryOffsets read) called.top back with
        | .found edx => (read, edx, back)
        | .notFound => (read, minusOne, back)
        | .nextSector edx stack => findSectors drive edi rest read edx stack

-- [ebp - 24] lies below the five pushed words.
def fsFindFile (drive : Drive) (fs : FileSystem) (regs : Registers) : FileSystem × Registers :=
  let stack := (enterFrame drive regs).store 24 regs.eax
  let (fs, eax, stack) := findSectors drive regs.edi (rootSectors fs) fs 0 stack
  (fs, leaveFrame stack eax)

def freeHandle (fs : FileSystem) : Option (Fin 16) := (List.finRange 16).find? fun ebx => (fs.handles ebx).flags % 2 = 0

-- The last component is the word stored through out_handle. EAX is popped behind the read, so its status is lost, and
-- current_cluster is stored after EAX has been loaded with the size.
def fsOpen (drive : Drive) (fs : FileSystem) (regs : Registers) : FileSystem × Nat × Option Nat :=
  let (found, called) := fsFindFile drive fs regs
  if called.eax = minusOne then (found, minusOne, none)
  else
    match freeHandle found with
    | none => (found, minusTwo, none)
    | some ebx =>
        let (read, _) := readSectorLba drive found (add32 (called.eax / 2 ^ 4) found.fsFirstRootLba) found.fsTempBufPtr
        let esi := add32 read.fsTempBufPtr (called.eax % 2 ^ 4 * 32)
        let fileSize := loadWord read.mem (add32 esi 28)
        let filled : Handle :=
          ⟨loadHalf read.mem (add32 esi 26), fileSize, fileSize, 0, read.clusterBufferPtr, 0, 1, (read.handles ebx).reserved⟩
        ({ read with handles := Function.update read.handles ebx filled }, 0, some ebx)

-- Shifting the handle by 5 loses its high bits. Behind the 16 records the flags are a word of other memory, and none of
-- the .data words of the state stands at such an address.
def recordOf (eax : Nat) : Nat := eax * 2 ^ 5 % 2 ^ 32 / 2 ^ 5

def recordFlags (fs : FileSystem) (record : Nat) : Nat :=
  if inside : record < 16 then (fs.handles ⟨record, inside⟩).flags
  else loadWord fs.mem (add32 fs.fileHandleArea (record * 2 ^ 5) + 24)

def clearFlags (fs : FileSystem) (record : Nat) : FileSystem :=
  if inside : record < 16 then
    { fs with handles := Function.update fs.handles ⟨record, inside⟩ { fs.handles ⟨record, inside⟩ with flags := 0 } }
  else { fs with mem := storeWord fs.mem (add32 fs.fileHandleArea (record * 2 ^ 5) + 24) 0 }

def handleStruct (eax : Nat) : Option Nat := if 16 ≤ signed32 eax then none else some (recordOf eax)

-- The word stored through bytes_read is the second component.
def fsRead (fs : FileSystem) (eax : Nat) : Nat × Option Nat :=
  match handleStruct eax with
  | none => (minusOne, none)
  | some edi => if recordFlags fs edi % 2 = 0 then (minusOne, none) else (0, some 0)

def fsClose (fs : FileSystem) (eax : Nat) : FileSystem × Nat :=
  match handleStruct eax with
  | none => (fs, minusOne)
  | some edi => if recordFlags fs edi % 2 = 0 then (fs, minusOne) else (clearFlags fs edi, 0)

end RoDos.Fat
