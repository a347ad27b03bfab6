import RoDos.Base.Counted
import RoDos.Fs.Disk

set_option autoImplicit false

namespace RoDos.Fs

open Base

-- The owner and the size of a record; the stores into its data are listed by their places.
structure RecordHead where
  fileIdx : Nat
  size : Nat

def recordHead (content : FileContent) : RecordHead := ⟨content.fileIdx, content.size⟩

structure Tables where
  fsTable : Counted FSEntry
  userTable : Counted UserEntry
  fileContents : Counted RecordHead

inductive TableWrite where
  | fsTable (write : CellWrite FSEntry)
  | userTable (write : CellWrite UserEntry)
  | fileContents (write : CellWrite RecordHead)
  | data (record place : Nat)

def TableWrite.InTable : TableWrite → Prop
  | .fsTable write => write.InCells fsMaxFiles
  | .userTable write => write.InCells fsMaxUsers
  | .fileContents write => write.InCells maxContents
  | .data record place => record < maxContents ∧ place < maxFileSize

def Tables.store (tables : Tables) : TableWrite → Tables
  | .fsTable write => { tables with fsTable := tables.fsTable.store write }
  | .userTable write => { tables with userTable := tables.userTable.store write }
  | .fileContents write => { tables with fileContents := tables.fileContents.store write }
  | .data _ _ => tables

def Tables.storeAll (tables : Tables) (writes : List TableWrite) : Tables := writes.foldl Tables.store tables

structure Tables.Holds (tables : Tables) (fs : FileSystem) : Prop where
  files : tables.fsTable.Holds fs.fsTable
  users : tables.userTable.Holds fs.userTable
  contents : tables.fileContents.Holds (fs.fileContents.map recordHead)

structure Tables.Fits (tables : Tables) : Prop where
  files : tables.fsTable.Fits fsMaxFiles
  users : tables.userTable.Fits fsMaxUsers
  contents : tables.fileContents.Fits maxContents

def dataWrites (record length : Nat) : List TableWrite := (List.range length).map (.data record)

-- What each command stores, in the order of the source and as far as it gets.
def addWrites (fs : FileSystem) (entry : FSEntry) : List TableWrite :=
  (appendWrites fs.fsTable.length entry).map .fsTable

def createNamedWrites (type attr : UInt8) (fs : FileSystem) (args : List UInt8) : List TableWrite :=
  let name := token args
  if name = [] then []
  else if fsMaxFiles ≤ fs.fsTable.length then []
  else
    (fullPath fs.currentDir name).elim [] fun path =>
      if (findEntry fs path).isSome then [] else addWrites fs ⟨storedName path, 0, type, attr⟩

def removeFoundWrites (fs : FileSystem) (found : Option Nat) : List TableWrite :=
  match found with
  | some i => (removeWrites fs.fsTable.length i).map .fsTable
  | none => []

def rmdirWrites (fs : FileSystem) (args : List UInt8) : List TableWrite :=
  let name := token args
  if name = [] then [] else removeFoundWrites fs (findTyped fs name 1)

def delWrites (fs : FileSystem) (args : List UInt8) : List TableWrite :=
  let name := token args
  if name = [] then []
  else (fullPath fs.currentDir name).elim [] fun path => removeFoundWrites fs (findTyped fs path 0)

def sizeWrite (i size : Nat) : TableWrite := .fsTable (.change i fun entry => { entry with size := size })

-- A record that is not found is the one behind the last, counted before it is filled.
def slotWrites (fs : FileSystem) (fileIdx : Nat) (claim record : Nat → List TableWrite) : Option (List TableWrite) :=
  match findContent fs fileIdx with
  | some c => some (record c)
  | none =>
      let c := fs.fileContents.length
      if maxContents ≤ c then none else some (.fileContents (.count (c + 1)) :: claim c ++ record c)

def nanoRecordWrites (fileIdx size c : Nat) : List TableWrite :=
  dataWrites c maxFileSize ++ .fileContents (.change c fun _ => ⟨fileIdx, size⟩) :: dataWrites c size

def openWrites (fs : FileSystem) (found : Option Nat) (path : List UInt8) : List TableWrite :=
  if found = none then addWrites fs ⟨storedName path, 0, 0, 0x20⟩ else []

def undoWrites (fs : FileSystem) (found : Option Nat) : List TableWrite :=
  if found = none then [.fsTable (.count ((fs.fsTable.length + 1 : Int) - 1))] else []

def nanoWrites (fs : FileSystem) (args : List UInt8) (memory : Bool) (keys : List UInt16) : List TableWrite :=
  let name := token args
  if name = [] then []
  else
    (fullPath fs.currentDir name).elim [] fun path =>
      let found := findTyped fs path 0
      if found = none ∧ fsMaxFiles ≤ fs.fsTable.length then []
      else
        let fileIdx := found.getD fs.fsTable.length
        let created := openWrites fs found path
        let undone := undoWrites fs found
        if memory = false then created ++ undone
        else
          (nanoEdit (nanoLoad fs fileIdx) keys).elim created fun edited =>
            if edited.1 = true ∨ edited.2 = [] then created ++ undone
            else
              match slotWrites fs fileIdx (fun _ => []) (nanoRecordWrites fileIdx edited.2.length) with
              | none => created ++ undone
              | some record => created ++ (record ++ [sizeWrite fileIdx edited.2.length])

-- The loop runs to the stored size, whatever it is.
def copyContentWrites (fs : FileSystem) (src dst : Nat) : List TableWrite :=
  match fs.fileContents.find? fun content => content.fileIdx = src with
  | none => []
  | some content =>
      let c := fs.fileContents.length
      if c < maxContents then
        .fileContents (.change c fun _ => ⟨dst, content.size⟩) ::
          (dataWrites c content.size ++ [.fileContents (.count (c + 1))])
      else []

def copyWrites (fs : FileSystem) (args : List UInt8) : List TableWrite :=
  let src := token args
  let dst := secondToken args
  if src = [] ∨ dst = [] then []
  else
    match findTyped fs src 0 with
    | none => []
    | some i =>
        if fsMaxFiles ≤ fs.fsTable.length then []
        else
          let source := fs.fsTable.getD i ⟨[], 0, 0, 0⟩
          addWrites fs ⟨storedName dst, source.size, 0, source.attr⟩ ++ copyContentWrites fs i fs.fsTable.length

def moveWrites (fs : FileSystem) (args : List UInt8) : List TableWrite :=
  let src := token args
  let dst := secondToken args
  if src = [] ∨ dst = [] then []
  else
    match findEntry fs src with
    | some i => [.fsTable (.change i fun entry => { entry with name := storedName dst })]
    | none => []

def chmodWrites (fs : FileSystem) (args : List UInt8) : List TableWrite :=
  let mode := getToken (cString args) 16
  let name := (getToken mode.2 64).1
  if mode.1 = [] ∨ name = [] then []
  else
    match findEntry fs name with
    | some i => [.fsTable (.change i fun entry => { entry with attr := (strToInt mode.1).toUInt8 })]
    | none => []

def formatWrites (k : UInt16) : List TableWrite :=
  if k.toUInt8 = 89 ∨ k.toUInt8 = 121 then [.fsTable (.count 0), .fileContents (.count 0)] else []

def useraddWrites (fs : FileSystem) (args : List UInt8) : List TableWrite :=
  let username := userToken args
  if username = [] then []
  else if fsMaxUsers ≤ fs.userTable.length then []
  else if (findUser fs username).isSome then []
  else (appendWrites fs.userTable.length ⟨username, passwordHash username⟩).map .userTable

def userdelWrites (fs : FileSystem) (args : List UInt8) : List TableWrite :=
  let username := userToken args
  if username = [] then []
  else
    match findUser fs username with
    | some i => (removeWrites fs.userTable.length i).map .userTable
    | none => []

def passwdWrites (fs : FileSystem) (args : List UInt8) (keys : List UInt16) : List TableWrite :=
  let username := if userToken args = [] then fs.currentUser else userToken args
  match findUser fs username with
  | none => []
  | some i =>
      (readPassword [] keys).elim [] fun pwd =>
        [.userTable (.change i fun user => { user with passwordHash := passwordHash pwd })]

-- The new entry takes the cell that the count has just passed.
def saveFileContentWrites (fs : FileSystem) (filename data : List UInt8) : List TableWrite :=
  (contentPath fs filename).elim [] fun path =>
    let found := findEntry fs path
    if found = none ∧ fsMaxFiles ≤ fs.fsTable.length then []
    else
      let idx := found.getD fs.fsTable.length
      let created : List TableWrite :=
        if found = none then
          [.fsTable (.count (fs.fsTable.length + 1)), .fsTable (.change fs.fsTable.length fun _ => ⟨storedName path, 0, 0, 0⟩)]
        else []
      let kept := min data.length maxFileSize
      let claim (c : Nat) : List TableWrite := [.fileContents (.change c fun head => { head with fileIdx := idx })]
      let record (c : Nat) : List TableWrite :=
        dataWrites c kept ++ [.fileContents (.change c fun head => { head with size := kept })]
      created ++ sizeWrite idx data.length :: (slotWrites fs idx claim record).getD []

def wgetWrites (fs : FileSystem) (outputFile body : List UInt8) : List TableWrite :=
  let filename := (cString outputFile).take 63
  if filename = [] ∨ 1048576 < body.length then [] else saveFileContentWrites fs filename body

def commandWrites (fs : FileSystem) : Command → List TableWrite
  | .mkdir args => createNamedWrites 1 0x10 fs args
  | .touch args => createNamedWrites 0 0x20 fs args
  | .rmdir args => rmdirWrites fs args
  | .del args => delWrites fs args
  | .nano args memory keys => nanoWrites fs args memory keys
  | .copy args => copyWrites fs args
  | .move args => moveWrites fs args
  | .chmod args => chmodWrites fs args
  | .format k => formatWrites k
  | .useradd args => useraddWrites fs args
  | .userdel args => userdelWrites fs args
  | .passwd args keys => passwdWrites fs args keys
  | .wget outputFile body => wgetWrites fs outputFile body
  | .cd _ | .cat _ | .login _ | .logout => []

-- fs_init_commands first blanks every record, then loads the three tables.
def resetWrites : List TableWrite :=
  .fsTable (.count 0) :: .userTable (.count 0) :: .fileContents (.count 0) ::
    (List.range maxContents).flatMap fun c =>
      .fileContents (.change c fun _ => ⟨0, 0⟩) :: dataWrites c maxFileSize

-- The sum of the source wraps: a size from 2^32 - 511 on reads one sector.
def sectorsRead (size : Nat) : Nat := min 16 (max 1 ((size + 511) % 2 ^ 32 / 512))

def recordsWrites (failing : Nat → Bool) (disk : Disk) : Nat → List FileContent → List TableWrite
  | _, [] => []
  | c, content :: rest =>
      let read := loadData failing disk content.fileIdx content.size [] (List.range (sectorsRead content.size))
      (.fileContents (.change c fun _ => recordHead content) :: (dataWrites c maxFileSize ++ dataWrites c read.length)) ++
        .fileContents (.count (c + 1)) :: recordsWrites failing disk (c + 1) rest

def bootWrites (failing : Nat → Bool) (disk : Disk) : List TableWrite :=
  let table := loadTable failing disk (List.range 64)
  let users := loadUsers failing disk (List.range 5)
  resetWrites ++
    (.fsTable (.count 0) :: (fillWrites 0 table).map .fsTable) ++
    (.userTable (.count 0) :: (fillWrites 0 users).map .userTable) ++
    (.fileContents (.count 0) :: recordsWrites failing disk 0 (loadContents failing disk table)) ++
    (if users = [] then (appendWrites 0 rootUser).map .userTable else [])

-- The tables after a command: CAT stores nothing, however far it reads.
def tableEffect (fs : FileSystem) : Command → Option FileSystem
  | .cat _ => some fs
  | command => (runCommand fs command).map Update.fs

inductive TableOp where
  | boot (failing : Nat → Bool) (disk : Disk)
  | command (command : Command)

def tableStep (fs : FileSystem) : TableOp → Option FileSystem
  | .boot failing disk => some (fsInitCommands failing disk)
  | .command command => tableEffect fs command

def nameArrays (fs : FileSystem) : FileSystem :=
  { fs with
    fsTable := fs.fsTable.map fun entry => { entry with name := entry.name.take fsMaxFilename }
    userTable := fs.userTable.map fun user => { user with username := user.username.take 32 } }

-- A name without a NUL in its array changes with what is stored behind it, so only what stands in
-- the arrays is fixed by a step; how such a name reads on after it is left open.
def TableStep (fs : FileSystem) (op : TableOp) (next : FileSystem) : Prop :=
  ∃ stored, tableStep fs op = some stored ∧ nameArrays next = nameArrays stored

def opStores (fs : FileSystem) : TableOp → List TableWrite
  | .boot failing disk => bootWrites failing disk
  | .command command => commandWrites fs command

end RoDos.Fs
