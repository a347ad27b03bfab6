import Mathlib.Algebra.Ring.Nat
import RoDos.Base.Disk
import RoDos.Base.Runs
import RoDos.Fs.Model

set_option autoImplicit false

namespace RoDos.Fs

open Base

def fsDataStartLba : Nat := 500
def fsContentStartLba : Nat := 700
def fsCurdirLba : Nat := 499
def sectorSize : Nat := 512
def fsUserStartLba : Nat := fsDataStartLba + 128

def blankSector : List UInt8 := List.replicate sectorSize 0

def littleEndian (value : Nat) : List UInt8 :=
  [UInt8.ofNat value, UInt8.ofNat (value / 2 ^ 8), UInt8.ofNat (value / 2 ^ 16), UInt8.ofNat (value / 2 ^ 24)]

def fromLittleEndian (bytes : List UInt8) : Nat :=
  (bytes.getD 0 0).toNat + 2 ^ 8 * (bytes.getD 1 0).toNat + 2 ^ 16 * (bytes.getD 2 0).toNat +
    2 ^ 24 * (bytes.getD 3 0).toNat

def dirSector (currentDir : List UInt8) : List UInt8 := paddedTo sectorSize (currentDir.take 256)

-- The first 64 bytes of the structure: the name array, size, type and attr. The parent index
-- behind them is read by no command.
def entrySector (entry : FSEntry) : List UInt8 :=
  paddedTo sectorSize
    (paddedTo fsMaxFilename (entry.name.take fsMaxFilename) ++ littleEndian entry.size ++ [entry.type, entry.attr])

def userSector (user : UserEntry) : List UInt8 :=
  paddedTo sectorSize (paddedTo 32 (user.username.take 32) ++ user.passwordHash)

-- One call of disk_write_lba; required says whether its error ends the save.
inductive DiskAction where
  | write (write : Write) (required : Bool)
  | outOfBounds
deriving DecidableEq, Repr

def saveSlots (start limit : Nat) (sectors : List (List UInt8)) : List DiskAction :=
  (sectors.zipIdx.map fun slot => .write ⟨start + slot.2, slot.1⟩ true) ++
    (List.range' sectors.length (limit - sectors.length)).map fun i => .write ⟨start + i, blankSector⟩ false

-- Sizes stay far below the 2^32 - 511 from which on the sum would wrap.
def sectorsNeeded (size : Nat) : Nat := max 1 ((size + 511) / 512)

def contentLba (fileIdx s : Nat) : Nat := fsContentStartLba + fileIdx * 16 + s

def contentSector (content : FileContent) (s : Nat) : List UInt8 :=
  paddedTo sectorSize ((content.data.drop (s * 512)).take (min 512 (content.size - s * 512)))

def saveContentSector (content : FileContent) (s : Nat) : DiskAction :=
  if maxFileSize < s * 512 + min 512 (content.size - s * 512) then .outOfBounds
  else .write ⟨contentLba content.fileIdx s, contentSector content s⟩ true

def saveContent (content : FileContent) : List DiskAction :=
  (List.range (min 16 (sectorsNeeded content.size))).map (saveContentSector content) ++
    (List.range' (sectorsNeeded content.size) (16 - sectorsNeeded content.size)).map fun s =>
      .write ⟨contentLba content.fileIdx s, blankSector⟩ false

-- File slots are cleared up to 64 and user slots up to 5, whatever the maxima of the tables.
def saveActions (fs : FileSystem) : List DiskAction :=
  .write ⟨fsCurdirLba, dirSector fs.currentDir⟩ true ::
    (saveSlots fsDataStartLba 64 (fs.fsTable.map entrySector) ++
      (saveSlots fsUserStartLba 5 (fs.userTable.map userSector) ++ fs.fileContents.flatMap saveContent))

-- failing n says that the n-th write of the save reports an error.
def perform (failing : Nat → Bool) : Nat → Disk → List DiskAction → Option (Disk × Bool)
  | _, disk, [] => some (disk, true)
  | _, _, .outOfBounds :: _ => none
  | n, disk, .write write required :: rest =>
      if failing n then (if required then some (disk, false) else perform failing (n + 1) disk rest)
      else perform failing (n + 1) (writeSector disk write) rest

def fsSaveToDisk (failing : Nat → Bool) (fs : FileSystem) (disk : Disk) : Option (Disk × Bool) :=
  perform failing 0 disk (saveActions fs)

-- The directory loaded overwrites the one in memory from its start and leaves the rest of it.
def loadDir (sector currentDir : List UInt8) : List UInt8 :=
  if sector.getD 0 0 = 67 ∧ sector.getD 1 0 = colon then
    let stored := cString (sector.take 256)
    (stored ++ currentDir.drop stored.length).take 255
  else currentDir

-- A name without a NUL in its array runs on into the size and what follows it, up to the
-- reserved bytes, which are always zero.
def decodeEntry (sector : List UInt8) : FSEntry :=
  ⟨cString (sector.take 64), fromLittleEndian (sector.drop fsMaxFilename), sector.getD 60 0, sector.getD 61 0⟩

-- A user name without one runs on into the hash and the records behind.
def decodeUser (sector behind : List UInt8) : UserEntry :=
  ⟨cString (sector.take 64 ++ behind), (sector.drop 32).take 32⟩

-- An unreadable slot is skipped, the first empty one ends the table.
def loadTable (failing : Nat → Bool) (disk : Disk) : List Nat → List FSEntry
  | [] => []
  | i :: rest =>
      if failing (fsDataStartLba + i) then loadTable failing disk rest
      else if (disk (fsDataStartLba + i)).getD 0 0 = 0 then []
      else decodeEntry (disk (fsDataStartLba + i)) :: loadTable failing disk rest

-- An empty user slot is skipped as well.
def skipsUser (failing : Nat → Bool) (disk : Disk) (i : Nat) : Prop :=
  failing (fsUserStartLba + i) ∨ (disk (fsUserStartLba + i)).getD 0 0 = 0

instance (failing : Nat → Bool) (disk : Disk) (i : Nat) : Decidable (skipsUser failing disk i) :=
  inferInstanceAs (Decidable (_ ∨ _))

def userRecords (failing : Nat → Bool) (disk : Disk) (slots : List Nat) : List UInt8 :=
  (slots.filter fun i => ¬ skipsUser failing disk i).flatMap fun i => (disk (fsUserStartLba + i)).take 64

def loadUsers (failing : Nat → Bool) (disk : Disk) : List Nat → List UserEntry
  | [] => []
  | i :: rest =>
      if skipsUser failing disk i then loadUsers failing disk rest
      else decodeUser (disk (fsUserStartLba + i)) (userRecords failing disk rest) :: loadUsers failing disk rest

-- data holds the bytes read so far; an unreadable sector leaves no gap in it.
def loadData (failing : Nat → Bool) (disk : Disk) (fileIdx size : Nat) (data : List UInt8) : List Nat → List UInt8
  | [] => data
  | s :: rest =>
      if failing (contentLba fileIdx s) then loadData failing disk fileIdx size data rest
      else
        let toCopy := min 512 (size - data.length)
        loadData failing disk fileIdx size
          ((data ++ (disk (contentLba fileIdx s)).take toCopy).take maxFileSize) rest

def loadContent (failing : Nat → Bool) (disk : Disk) (entry : FSEntry) (i : Nat) : Option FileContent :=
  if 0 < entry.size ∧ entry.type = 0 then
    some ⟨i, entry.size, paddedTo maxFileSize
      (loadData failing disk i entry.size [] (List.range (min 16 (sectorsNeeded entry.size))))⟩
  else none

def loadContents (failing : Nat → Bool) (disk : Disk) (table : List FSEntry) : List FileContent :=
  (table.zipIdx.filterMap fun slot => loadContent failing disk slot.1 slot.2).take maxContents

-- fs_init_commands after a restart: the directory and the user in memory are the initial ones.
def fsInitCommands (failing : Nat → Bool) (disk : Disk) : FileSystem :=
  let table := loadTable failing disk (List.range 64)
  let users := loadUsers failing disk (List.range 5)
  { currentDir := if failing fsCurdirLba then rootDir else loadDir (disk fsCurdirLba) rootDir
    fsTable := table
    userTable := if users = [] then [rootUser] else users
    fileContents := loadContents failing disk table
    currentUser := ascii "root" }

theorem init_dir (failing : Nat → Bool) (disk : Disk) : (fsInitCommands failing disk).currentDir =
    if failing fsCurdirLba then rootDir else loadDir (disk fsCurdirLba) rootDir := rfl

theorem init_table (failing : Nat → Bool) (disk : Disk) :
    (fsInitCommands failing disk).fsTable = loadTable failing disk (List.range 64) := rfl

theorem init_users (failing : Nat → Bool) (disk : Disk) : (fsInitCommands failing disk).userTable =
    if loadUsers failing disk (List.range 5) = [] then [rootUser] else loadUsers failing disk (List.range 5) := rfl

structure Machine where
  fs : FileSystem
  disk : Disk

-- For a command failing counts the writes of its save, for a reboot it names the sectors read.
inductive FsOp where
  | command (command : Command) (failing : Nat → Bool)
  | reboot (failing : Nat → Bool)

def stepOp (machine : Machine) : FsOp → Option (Machine × Int)
  | .command command failing =>
      (runCommand machine.fs command).bind fun update =>
        if update.saves then
          (fsSaveToDisk failing update.fs machine.disk).map fun result =>
            (⟨update.fs, result.1⟩, if result.2 then update.code else update.failed)
        else some (⟨update.fs, machine.disk⟩, update.code)
  | .reboot failing => some (⟨fsInitCommands failing machine.disk, machine.disk⟩, 0)

def FsStep (machine : Machine) (op : FsOp) (next : Machine) : Prop := ∃ code, stepOp machine op = some (next, code)

structure Fresh (disk : Disk) : Prop where
  dir : (disk fsCurdirLba).getD 0 0 = 0
  files : ∀ i < 64, (disk (fsDataStartLba + i)).getD 0 0 = 0
  users : ∀ i < 5, (disk (fsUserStartLba + i)).getD 0 0 = 0
  sectors : ∀ lba, (disk lba).length = sectorSize

def never : Nat → Bool := fun _ => false

def Booted (machine : Machine) : Prop := Fresh machine.disk ∧ machine.fs = fsInitCommands never machine.disk

end RoDos.Fs
