import RoDos.Shell.LineEditing
import RoDos.Tokens

set_option autoImplicit false

namespace RoDos.Shell

open Base

inductive Handler where
  | cmdGuitest | cmdCalcGui | cmdWifitest | cmdNetstart | cmdHelp | cmdCls | cmdClear | cmdVer | cmdTime
  | cmdDate | cmdReboot | cmdShutdown | cmdHalt | cmdExit | cmdMkdir | cmdRmdir | cmdTouch | cmdDel | cmdRm
  | cmdDir | cmdLs | cmdCd | cmdPwd | cmdCat | cmdType | cmdNano | cmdCopy | cmdCp | cmdMove | cmdMv | cmdRen
  | cmdFind | cmdTree | cmdAttrib | cmdChmod | cmdVol | cmdLabel | cmdChkdsk | cmdFormat | cmdDiskpart
  | cmdFsck | cmdMount | cmdUmount | cmdSync | cmdFree | cmdDf | cmdDu | cmdLsblk | cmdFdisk | cmdBlkid
  | cmdReadsector | cmdUseradd | cmdUserdel | cmdPasswd | cmdUsers | cmdLogin | cmdLogout | cmdWhoami | cmdSu
  | cmdPs | cmdKill | cmdTop | cmdTasklist | cmdTaskkill | cmdMem | cmdUptime | cmdSysinfo | cmdUname
  | cmdHostname | cmdLscpu | cmdLspci | cmdDmesg | cmdColor | cmdEcho | cmdMode | cmdBeep | cmdCalc
  | cmdHexdump | cmdAscii | cmdHash | cmdPause | cmdSleep | cmdWifilogin | cmdWifistat | cmdWifidisconnect
  | cmdWifirescan | cmdWifisignal | cmdWifiap | cmdIpconfig | cmdPing | cmdNetmode | cmdWget | guiNotepad
  | guiPaint | guiFilebrowser | guiClock | guiSysinfo | cmdSudo | cmdPython | cmdWc | cmdHead | cmdTail
  | cmdGrep | cmdSort | cmdUniq | cmdCut | cmdDiff | cmdMore | cmdLess | cmdFile | cmdStat | cmdPath | cmdSet
  | cmdAlias | cmdHistory | cmdPrompt | cmdPrintenv | cmdExport | cmdSource | cmdWhich | cmdWhereis
deriving DecidableEq, Repr

def commands : List (String × Handler) :=
  [("GUITEST", .cmdGuitest), ("CALC-GUI", .cmdCalcGui), ("WIFITEST", .cmdWifitest), ("NETSTART", .cmdNetstart),
   ("HELP", .cmdHelp), ("?", .cmdHelp), ("CLS", .cmdCls), ("CLEAR", .cmdClear), ("VER", .cmdVer),
   ("VERSION", .cmdVer), ("TIME", .cmdTime), ("DATE", .cmdDate), ("REBOOT", .cmdReboot),
   ("SHUTDOWN", .cmdShutdown), ("HALT", .cmdHalt), ("EXIT", .cmdExit), ("MKDIR", .cmdMkdir),
   ("RMDIR", .cmdRmdir), ("TOUCH", .cmdTouch), ("DEL", .cmdDel), ("RM", .cmdRm), ("DIR", .cmdDir),
   ("LS", .cmdLs), ("CD", .cmdCd), ("PWD", .cmdPwd), ("CAT", .cmdCat), ("TYPE", .cmdType), ("NANO", .cmdNano),
   ("COPY", .cmdCopy), ("CP", .cmdCp), ("MOVE", .cmdMove), ("MV", .cmdMv), ("REN", .cmdRen), ("RENAME", .cmdRen),
   ("FIND", .cmdFind), ("TREE", .cmdTree), ("ATTRIB", .cmdAttrib), ("CHMOD", .cmdChmod), ("VOL", .cmdVol),
   ("LABEL", .cmdLabel), ("CHKDSK", .cmdChkdsk), ("FORMAT", .cmdFormat), ("DISKPART", .cmdDiskpart),
   ("FSCK", .cmdFsck), ("MOUNT", .cmdMount), ("UMOUNT", .cmdUmount), ("SYNC", .cmdSync), ("FREE", .cmdFree),
   ("DF", .cmdDf), ("DU", .cmdDu), ("LSBLK", .cmdLsblk), ("FDISK", .cmdFdisk), ("BLKID", .cmdBlkid),
   ("READSECTOR", .cmdReadsector), ("USERADD", .cmdUseradd), ("USERDEL", .cmdUserdel), ("PASSWD", .cmdPasswd),
   ("USERS", .cmdUsers), ("LOGIN", .cmdLogin), ("LOGOUT", .cmdLogout), ("WHOAMI", .cmdWhoami), ("SU", .cmdSu),
   ("PS", .cmdPs), ("KILL", .cmdKill), ("TOP", .cmdTop), ("TASKLIST", .cmdTasklist), ("TASKKILL", .cmdTaskkill),
   ("MEM", .cmdMem), ("UPTIME", .cmdUptime), ("SYSINFO", .cmdSysinfo), ("UNAME", .cmdUname),
   ("HOSTNAME", .cmdHostname), ("LSCPU", .cmdLscpu), ("LSPCI", .cmdLspci), ("DMESG", .cmdDmesg),
   ("COLOR", .cmdColor), ("ECHO", .cmdEcho), ("MODE", .cmdMode), ("BEEP", .cmdBeep), ("CALC", .cmdCalc),
   ("HEXDUMP", .cmdHexdump), ("ASCII", .cmdAscii), ("HASH", .cmdHash), ("PAUSE", .cmdPause),
   ("SLEEP", .cmdSleep), ("WIFILOGIN", .cmdWifilogin), ("WIFISTAT", .cmdWifistat),
   ("WIFIDISCONNECT", .cmdWifidisconnect), ("WIFIRESCAN", .cmdWifirescan), ("WIFISIGNAL", .cmdWifisignal),
   ("WIFIAP", .cmdWifiap), ("IPCONFIG", .cmdIpconfig), ("PING", .cmdPing), ("WIFITEST", .cmdWifitest),
   ("NETMODE", .cmdNetmode), ("WGET", .cmdWget), ("NOTEPAD", .guiNotepad), ("PAINT", .guiPaint),
   ("FILEBROWSER", .guiFilebrowser), ("BROWSER", .guiFilebrowser), ("CLOCK", .guiClock),
   ("SYSINFOGUI", .guiSysinfo), ("SUDO", .cmdSudo), ("PYTHON", .cmdPython), ("WC", .cmdWc), ("HEAD", .cmdHead),
   ("TAIL", .cmdTail), ("GREP", .cmdGrep), ("SORT", .cmdSort), ("UNIQ", .cmdUniq), ("CUT", .cmdCut),
   ("DIFF", .cmdDiff), ("MORE", .cmdMore), ("LESS", .cmdLess), ("FILE", .cmdFile), ("STAT", .cmdStat),
   ("PATH", .cmdPath), ("SET", .cmdSet), ("ALIAS", .cmdAlias), ("HISTORY", .cmdHistory), ("PROMPT", .cmdPrompt),
   ("PRINTENV", .cmdPrintenv), ("EXPORT", .cmdExport), ("SOURCE", .cmdSource), ("WHICH", .cmdWhich),
   ("WHEREIS", .cmdWhereis)]

inductive Dispatch where
  | empty
  | handler (func : Handler) (args : List UInt8)
  | unknown
deriving DecidableEq, Repr

-- The first entry of the table with that name.
def findCommand (name : List UInt8) : Option Handler :=
  (commands.find? fun command => ascii command.1 = name).map Prod.snd

-- empty stands for the result 0 without a call and unknown for the result -255.
def cmdDispatch (line : List UInt8) : Dispatch :=
  if line = [] then .empty
  else
    let token := getToken line 64
    match findCommand (token.1.map toUpper) with
    | some func => .handler func token.2
    | none => .unknown

-- shell_main upper-cases the whole line before it hands it on.
def dispatchLine (line : List UInt8) : Dispatch := cmdDispatch (cString (strupr line))

def firstWord (line : List UInt8) : List UInt8 := (getToken (cString line) 64).1

def restOfLine (line : List UInt8) : List UInt8 := (getToken (cString line) 64).2

def selectedHandler (line : List UInt8) : Option Handler := findCommand ((firstWord line).map toUpper)

def ArgumentsUnchanged (line : List UInt8) : Prop :=
  ∀ func, selectedHandler line = some func → dispatchLine line = .handler func (restOfLine line)

theorem to_upper_space (byte : UInt8) : isSpace (toUpper byte) = isSpace byte := by
  rw [toUpper]
  by_cases lower : isLower byte = true
  · obtain ⟨low, high, shifted⟩ := lower_shift byte lower
    have different (other value : UInt8) (word : other.toNat ≠ value.toNat) : ¬ other = value := fun same =>
      word (congrArg UInt8.toNat same)
    rw [if_pos lower]
    simp [isSpace, different byte 32 (by simp; omega), different byte 9 (by simp; omega),
      different (byte - 32) 32 (by simp [shifted]; omega), different (byte - 32) 9 (by simp [shifted]; omega)]
  · rw [if_neg lower]

theorem to_upper_twice (byte : UInt8) : toUpper (toUpper byte) = toUpper byte := by
  rw [to_upper_same]
  by_cases lower : isLower byte = true
  · obtain ⟨low, high, shifted⟩ := lower_shift byte lower
    rw [toUpper, if_pos lower]
    simp [isLower, UInt8.le_iff_toNat_le, shifted]
    omega
  · rw [toUpper, if_neg lower]
    simpa using lower

theorem find_command_not_empty : findCommand [] = none := by decide +kernel

theorem dispatch_line_upper (line : List UInt8) (func : Handler) (selected : selectedHandler line = some func) :
    dispatchLine line = .handler func ((restOfLine line).map toUpper) := by
  have typed : cString line ≠ [] := by
    intro nothing
    rw [selectedHandler, firstWord, nothing] at selected
    exact absurd selected (by simp [getToken, skipSpaces, find_command_not_empty])
  have upper : (cString line).map toUpper ≠ [] := by simpa using typed
  have twice : toUpper ∘ toUpper = toUpper := funext to_upper_twice
  rw [dispatchLine, strupr_string, cmdDispatch, if_neg upper, get_token_map toUpper to_upper_space]
  simp only [List.map_map, twice]
  rw [← firstWord, ← selectedHandler, selected]
  rfl

theorem arguments_unchanged_iff (line : List UInt8) :
    ArgumentsUnchanged line ↔
      (selectedHandler line ≠ none → ∀ byte ∈ restOfLine line, isLower byte = false) := by
  rw [ArgumentsUnchanged]
  cases selected : selectedHandler line with
  | none => simp
  | some func =>
      have dispatched := dispatch_line_upper line func selected
      constructor
      · intro unchanged _
        have same := unchanged func rfl
        rw [dispatched, Dispatch.handler.injEq, map_upper_same] at same
        exact same.2
      · intro upper other found
        cases found
        rw [dispatched, (map_upper_same _).mpr (upper (by simp))]

theorem arguments_changed : ¬ ∀ line, ArgumentsUnchanged line := by
  intro claimed
  have unchanged := claimed (ascii "echo hi") .cmdEcho (by decide +kernel)
  exact absurd unchanged (by decide +kernel)

end RoDos.Shell
