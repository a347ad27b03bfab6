import RoDos.Tokens

set_option autoImplicit false

namespace RoDos.Fs

open Base

def fsMaxFiles : Nat := 128
def fsMaxUsers : Nat := 32
def fsMaxFilename : Nat := 56
def maxFileSize : Nat := 4096
def maxContents : Nat := 64

def backslash : UInt8 := 92
def colon : UInt8 := 58

-- Names are kept as the strings in their arrays; the tables end at their counts.
structure FSEntry where
  name : List UInt8
  size : Nat
  type : UInt8
  attr : UInt8
deriving DecidableEq, Repr

structure UserEntry where
  username : List UInt8
  passwordHash : List UInt8
deriving DecidableEq, Repr

structure FileContent where
  fileIdx : Nat
  size : Nat
  data : List UInt8
deriving DecidableEq, Repr

structure FileSystem where
  currentDir : List UInt8
  fsTable : List FSEntry
  userTable : List UserEntry
  fileContents : List FileContent
  currentUser : List UInt8
deriving DecidableEq, Repr

def rootDir : List UInt8 := ascii "C:\\"

-- char is signed, so a byte from 128 on is added with its sign extended.
def hashString (s : List UInt8) : UInt32 :=
  s.foldl (fun h byte => ((h <<< 5) + h) + (if byte < 128 then byte.toUInt32 else byte.toUInt32 - 256)) 5381

def passwordHash (s : List UInt8) : List UInt8 :=
  (List.range 32).map fun i => (hashString s >>> UInt32.ofNat (8 * (i % 4))).toUInt8

def rootUser : UserEntry := ⟨ascii "root", passwordHash (ascii "root")⟩

-- A command changes the tables and, if it saves, ends with fs_save_to_disk; failed is its
-- result when that save reports an error.
structure Update where
  fs : FileSystem
  saves : Bool
  code : Int
  failed : Int

def unsaved (fs : FileSystem) (code : Int) : Option Update := some ⟨fs, false, code, code⟩

def saved (fs : FileSystem) : Option Update := some ⟨fs, true, 0, 0⟩

def token (args : List UInt8) : List UInt8 := (getToken (cString args) 64).1

theorem token_no_nul (args : List UInt8) : ∀ byte ∈ token args, byte ≠ 0 :=
  fun byte member => c_string_no_nul args byte (get_token_subset _ _ byte member).1

def secondToken (args : List UInt8) : List UInt8 := (getToken (getToken (cString args) 64).2 64).1

-- none when the terminating NUL falls outside the 256 bytes of full_path.
def fullPath (currentDir name : List UInt8) : Option (List UInt8) :=
  if currentDir.length + name.length < 256 then some (currentDir ++ name) else none

def storedName (path : List UInt8) : List UInt8 := path.take (fsMaxFilename - 1)

def findEntry (fs : FileSystem) (name : List UInt8) : Option Nat :=
  fs.fsTable.findIdx? fun entry => entry.name = name

def findTyped (fs : FileSystem) (name : List UInt8) (type : UInt8) : Option Nat :=
  fs.fsTable.findIdx? fun entry => entry.name = name ∧ entry.type = type

def findContent (fs : FileSystem) (fileIdx : Nat) : Option Nat :=
  fs.fileContents.findIdx? fun content => content.fileIdx = fileIdx

def addEntry (fs : FileSystem) (entry : FSEntry) : FileSystem := { fs with fsTable := fs.fsTable ++ [entry] }

def setSize (fs : FileSystem) (i size : Nat) : FileSystem :=
  { fs with fsTable := fs.fsTable.modify i fun entry => { entry with size := size } }

-- MKDIR and TOUCH differ in the type and attribute they give and in the result for a name in use.
def createNamed (type attr : UInt8) (present : Int) (fs : FileSystem) (args : List UInt8) : Option Update :=
  let name := token args
  if name = [] then unsaved fs (-1)
  else if fsMaxFiles ≤ fs.fsTable.length then unsaved fs (-1)
  else
    (fullPath fs.currentDir name).bind fun path =>
      if (findEntry fs path).isSome then unsaved fs present
      else saved (addEntry fs ⟨storedName path, 0, type, attr⟩)

def cmdMkdir : FileSystem → List UInt8 → Option Update := createNamed 1 0x10 (-1)

def cmdTouch : FileSystem → List UInt8 → Option Update := createNamed 0 0x20 0

def removeAt (fs : FileSystem) (i : Nat) : FileSystem := { fs with fsTable := fs.fsTable.eraseIdx i }

def removeFound (fs : FileSystem) (found : Option Nat) : Option Update :=
  match found with
  | some i => saved (removeAt fs i)
  | none => unsaved fs (-1)

-- RMDIR compares its argument with the stored names as it is, without the current directory.
def cmdRmdir (fs : FileSystem) (args : List UInt8) : Option Update :=
  let name := token args
  if name = [] then unsaved fs (-1) else removeFound fs (findTyped fs name 1)

def cmdDel (fs : FileSystem) (args : List UInt8) : Option Update :=
  let name := token args
  if name = [] then unsaved fs (-1)
  else (fullPath fs.currentDir name).bind fun path => removeFound fs (findTyped fs path 0)

-- The search for the backslash starts before the last character.
def parentDir (currentDir : List UInt8) : List UInt8 :=
  let above := currentDir.dropLast.rdropWhile fun byte => byte ≠ backslash
  if 3 < currentDir.length ∧ above ≠ [] then above else currentDir

def withBackslash (path : List UInt8) : List UInt8 :=
  if path.getLast? = some backslash then path else path ++ [backslash]

def cmdCd (fs : FileSystem) (args : List UInt8) : Option Update :=
  let name := token args
  if name = [] then unsaved fs 0
  else if name = ascii ".." then saved { fs with currentDir := parentDir fs.currentDir }
  else
    (fullPath fs.currentDir name).bind fun path =>
      if (findTyped fs path 1).isSome then saved { fs with currentDir := withBackslash path }
      else unsaved fs (-1)

-- The bytes that CAT, NANO and COPY find for a table position; none when the stored size
-- leads outside the record.
def contentBytes (content : FileContent) : Option (List UInt8) :=
  if content.size ≤ maxFileSize then some (content.data.take content.size) else none

def contentOf (fs : FileSystem) (fileIdx : Nat) : Option (List UInt8) :=
  match fs.fileContents.find? fun content => content.fileIdx = fileIdx with
  | some content => contentBytes content
  | none => some []

-- CAT shows the content of a file with a size; it changes nothing.
def cmdCat (fs : FileSystem) (args : List UInt8) : Option (List UInt8 × Int) :=
  let name := token args
  if name = [] then some ([], -1)
  else
    (fullPath fs.currentDir name).bind fun path =>
      match findTyped fs path 0 with
      | none => some ([], -1)
      | some i =>
          if (fs.fsTable.getD i ⟨[], 0, 0, 0⟩).size = 0 then some ([], 0)
          else (contentOf fs i).map fun shown => (shown, 0)

-- The editing loop: none while the keys do not end it, else whether it was cancelled, and the text.
def nanoEdit (text : List UInt8) : List UInt16 → Option (Bool × List UInt8)
  | [] => none
  | k :: keys =>
      let key := k.toUInt8
      if key = 27 then some (false, text)
      else if key = 3 then some (true, text)
      else if key = 11 then nanoEdit [] keys
      else if key = 8 then nanoEdit text.dropLast keys
      else if 32 ≤ key ∧ key ≤ 126 then
        nanoEdit (if text.length < maxFileSize - 1 then text ++ [key] else text) keys
      else if key = 13 ∨ key = 10 then
        nanoEdit (if text.length < maxFileSize - 1 then text ++ [10] else text) keys
      else nanoEdit text keys

def nanoLoad (fs : FileSystem) (fileIdx : Nat) : List UInt8 :=
  match fs.fileContents.find? fun content => content.fileIdx = fileIdx with
  | some content => content.data.take (min content.size (maxFileSize - 1))
  | none => []

def paddedTo (length : Nat) (bytes : List UInt8) : List UInt8 := bytes ++ List.replicate (length - bytes.length) 0

-- Overwrites the record found for the position, or adds one; none when there is no room. What the place of a new
-- record held before is taken as zeros: no command reads behind the size.
def putContent (fs : FileSystem) (fileIdx : Nat) (data : List UInt8 → List UInt8) (size : Nat) : Option FileSystem :=
  match findContent fs fileIdx with
  | some c =>
      some { fs with fileContents := fs.fileContents.modify c fun content => ⟨fileIdx, size, data content.data⟩ }
  | none =>
      if maxContents ≤ fs.fileContents.length then none
      else
        some { fs with
          fileContents := fs.fileContents ++ [⟨fileIdx, size, data (List.replicate maxFileSize 0)⟩] }

-- A new entry is taken back on every path that does not save. memory says whether kmalloc has room.
def cmdNano (fs : FileSystem) (args : List UInt8) (memory : Bool) (keys : List UInt16) : Option Update :=
  let name := token args
  if name = [] then unsaved fs (-1)
  else
    (fullPath fs.currentDir name).bind fun path =>
      let found := findTyped fs path 0
      if found = none ∧ fsMaxFiles ≤ fs.fsTable.length then unsaved fs (-1)
      else
        let fileIdx := found.getD fs.fsTable.length
        let opened := if found = none then addEntry fs ⟨storedName path, 0, 0, 0x20⟩ else fs
        if memory = false then unsaved fs (-1)
        else
          (nanoEdit (nanoLoad fs fileIdx) keys).bind fun edited =>
            if edited.1 = true ∨ edited.2 = [] then unsaved fs 0
            else
              match putContent opened fileIdx (fun _ => paddedTo maxFileSize edited.2) edited.2.length with
              | none => unsaved fs (-1)
              | some written => some ⟨setSize written fileIdx edited.2.length, true, 0, -1⟩

-- The copy is made byte by byte up to the stored size.
def copyContent (fs : FileSystem) (src dst : Nat) : Option FileSystem :=
  match fs.fileContents.find? fun content => content.fileIdx = src with
  | none => some fs
  | some content =>
      if fs.fileContents.length < maxContents then
        (contentBytes content).map fun bytes =>
          { fs with fileContents := fs.fileContents ++ [⟨dst, content.size, paddedTo maxFileSize bytes⟩] }
      else some fs

def cmdCopy (fs : FileSystem) (args : List UInt8) : Option Update :=
  let src := token args
  let dst := secondToken args
  if src = [] ∨ dst = [] then unsaved fs (-1)
  else
    match findTyped fs src 0 with
    | none => unsaved fs (-1)
    | some i =>
        if fsMaxFiles ≤ fs.fsTable.length then unsaved fs (-1)
        else
          let source := fs.fsTable.getD i ⟨[], 0, 0, 0⟩
          let added := addEntry fs ⟨storedName dst, source.size, 0, source.attr⟩
          (copyContent added i fs.fsTable.length).bind saved

def renameAt (fs : FileSystem) (i : Nat) (name : List UInt8) : FileSystem :=
  { fs with fsTable := fs.fsTable.modify i fun entry => { entry with name := name } }

-- REN is MOVE.
def cmdMove (fs : FileSystem) (args : List UInt8) : Option Update :=
  let src := token args
  let dst := secondToken args
  if src = [] ∨ dst = [] then unsaved fs (-1)
  else
    match findEntry fs src with
    | some i => saved (renameAt fs i (storedName dst))
    | none => unsaved fs (-1)

def strToInt (s : List UInt8) : UInt32 :=
  (s.takeWhile fun byte => 48 ≤ byte ∧ byte ≤ 57).foldl (fun n byte => n * 10 + (byte - 48).toUInt32) 0

def cmdChmod (fs : FileSystem) (args : List UInt8) : Option Update :=
  let mode := getToken (cString args) 16
  let name := (getToken mode.2 64).1
  if mode.1 = [] ∨ name = [] then unsaved fs (-1)
  else
    match findEntry fs name with
    | some i =>
        saved { fs with
          fsTable := fs.fsTable.modify i fun entry => { entry with attr := (strToInt mode.1).toUInt8 } }
    | none => unsaved fs (-1)

def cmdFormat (fs : FileSystem) (k : UInt16) : Option Update :=
  if k.toUInt8 = 89 ∨ k.toUInt8 = 121 then saved { fs with fsTable := [], fileContents := [] } else unsaved fs 0

def findUser (fs : FileSystem) (username : List UInt8) : Option Nat :=
  fs.userTable.findIdx? fun user => user.username = username

def userToken (args : List UInt8) : List UInt8 := (getToken (cString args) 32).1

def cmdUseradd (fs : FileSystem) (args : List UInt8) : Option Update :=
  let username := userToken args
  if username = [] then unsaved fs (-1)
  else if fsMaxUsers ≤ fs.userTable.length then unsaved fs (-1)
  else if (findUser fs username).isSome then unsaved fs (-1)
  else saved { fs with userTable := fs.userTable ++ [⟨username, passwordHash username⟩] }

def cmdUserdel (fs : FileSystem) (args : List UInt8) : Option Update :=
  let username := userToken args
  if username = [] then unsaved fs (-1)
  else
    match findUser fs username with
    | some i => saved { fs with userTable := fs.userTable.eraseIdx i }
    | none => unsaved fs (-1)

def readPassword (pwd : List UInt8) : List UInt16 → Option (List UInt8)
  | [] => none
  | k :: keys =>
      let key := k.toUInt8
      if key = 13 ∨ key = 10 then some pwd
      else if key = 8 then readPassword pwd.dropLast keys
      else if 32 ≤ key ∧ key ≤ 126 ∧ pwd.length < 31 then readPassword (pwd ++ [key]) keys
      else readPassword pwd keys

def cmdPasswd (fs : FileSystem) (args : List UInt8) (keys : List UInt16) : Option Update :=
  let username := if userToken args = [] then fs.currentUser else userToken args
  match findUser fs username with
  | none => unsaved fs (-1)
  | some i =>
      (readPassword [] keys).bind fun pwd =>
        saved { fs with
          userTable := fs.userTable.modify i fun user => { user with passwordHash := passwordHash pwd } }

-- SU is LOGIN.
def cmdLogin (fs : FileSystem) (args : List UInt8) : Option Update :=
  let username := userToken args
  if username = [] then unsaved fs (-1)
  else
    match findUser fs username with
    | some _ => unsaved { fs with currentUser := username } 0
    | none => unsaved fs (-1)

def cmdLogout (fs : FileSystem) : Option Update := unsaved { fs with currentUser := ascii "root" } 0

def contentPath (fs : FileSystem) (filename : List UInt8) : Option (List UInt8) :=
  if filename.getD 1 0 = colon then some (filename.take 255) else fullPath fs.currentDir filename

-- The size of the entry is the whole length even when the record keeps only its first 4096 bytes.
def saveFileContent (fs : FileSystem) (filename data : List UInt8) : Option (FileSystem × Int) :=
  (contentPath fs filename).bind fun path =>
    let found := findEntry fs path
    if found = none ∧ fsMaxFiles ≤ fs.fsTable.length then some (fs, -1)
    else
      let idx := found.getD fs.fsTable.length
      let created := if found = none then addEntry fs ⟨storedName path, 0, 0, 0⟩ else fs
      let sized := setSize created idx data.length
      let kept := data.take maxFileSize
      match putContent sized idx (fun old => kept ++ old.drop kept.length) kept.length with
      | none => some (sized, -1)
      | some written => some (written, 0)

-- WGET once the body has arrived: its file name is a token of at most 63 bytes and never empty,
-- and the download buffer holds one megabyte.
def cmdWgetSave (fs : FileSystem) (outputFile body : List UInt8) : Option Update :=
  let filename := (cString outputFile).take 63
  if filename = [] ∨ 1048576 < body.length then none
  else
    (saveFileContent fs filename body).bind fun result =>
      if result.2 = 0 then saved result.1 else unsaved result.1 0

inductive Command where
  | mkdir (args : List UInt8)
  | rmdir (args : List UInt8)
  | touch (args : List UInt8)
  | del (args : List UInt8)
  | cd (args : List UInt8)
  | cat (args : List UInt8)
  | nano (args : List UInt8) (memory : Bool) (keys : List UInt16)
  | copy (args : List UInt8)
  | move (args : List UInt8)
  | chmod (args : List UInt8)
  | format (k : UInt16)
  | useradd (args : List UInt8)
  | userdel (args : List UInt8)
  | passwd (args : List UInt8) (keys : List UInt16)
  | login (args : List UInt8)
  | logout
  | wget (outputFile body : List UInt8)
deriving DecidableEq, Repr

-- none when the command reads or writes outside an array, or still waits for keys.
def runCommand (fs : FileSystem) : Command → Option Update
  | .mkdir args => cmdMkdir fs args
  | .rmdir args => cmdRmdir fs args
  | .touch args => cmdTouch fs args
  | .del args => cmdDel fs args
  | .cd args => cmdCd fs args
  | .cat args => (cmdCat fs args).bind fun shown => unsaved fs shown.2
  | .nano args memory keys => cmdNano fs args memory keys
  | .copy args => cmdCopy fs args
  | .move args => cmdMove fs args
  | .chmod args => cmdChmod fs args
  | .format k => cmdFormat fs k
  | .useradd args => cmdUseradd fs args
  | .userdel args => cmdUserdel fs args
  | .passwd args keys => cmdPasswd fs args keys
  | .login args => cmdLogin fs args
  | .logout => cmdLogout fs
  | .wget outputFile body => cmdWgetSave fs outputFile body

end RoDos.Fs
