import RoDos.Fs.Model
import RoDos.Gui.Calculator
import RoDos.Tokens

set_option autoImplicit false

namespace RoDos.Shell

open Base Fs Gui

structure ProcessEntry where
  pid : UInt32
  name : List UInt8
  state : List UInt8
  memUsage : UInt32
  priority : UInt8
deriving DecidableEq

def firstProcesses : List ProcessEntry :=
  [⟨1, ascii "KERNEL", ascii "RUNNING", 128, 0⟩, ⟨2, ascii "SHELL", ascii "RUNNING", 64, 10⟩,
    ⟨3, ascii "NETSVC", ascii "SLEEPING", 32, 10⟩, ⟨4, ascii "DISPSVC", ascii "SLEEPING", 48, 15⟩]

-- The rows of the table in use. It is filled when it is found empty.
def ensureProcessesInit (table : List ProcessEntry) : List ProcessEntry := if table = [] then firstProcesses else table

-- char buf[32]; int_to_str(n, buf);
def numberText (n : Nat) : List UInt8 := cString (setAll (List.replicate 32 0) (intToStr n))

-- The text and the blanks up to a width; a longer text gets none.
def padded (width : Nat) (text : List UInt8) : List UInt8 := text ++ List.replicate (width - text.length) 32

def psRow (process : ProcessEntry) : List UInt8 :=
  padded 5 (numberText process.pid.toNat) ++ padded 16 process.name ++ padded 12 process.state ++
    padded 6 (numberText process.memUsage.toNat ++ ascii "K") ++ numberText process.priority.toNat ++ ascii "\n"

def psHeader : List UInt8 := ascii "PID  NAME            STATE       MEM   PRI\n" ++ ascii "---  ----            -----       ---   ---\n"

def topHeader : List UInt8 := ascii "RO-DOS Task Manager - Top Processes\n" ++ ascii "-----------------------------------\n"

structure ProcessReply where
  text : List UInt8
  table : List ProcessEntry
  code : Int

def cmdPs (table : List ProcessEntry) : ProcessReply :=
  let table := ensureProcessesInit table
  ⟨psHeader ++ table.flatMap psRow, table, 0⟩

-- TASKLIST is PS; TOP shows a title on a cleared screen first.
def cmdTop (table : List ProcessEntry) : ProcessReply := { cmdPs table with text := topHeader ++ (cmdPs table).text }

-- TASKKILL is KILL.
def cmdKill (table : List ProcessEntry) (args : List UInt8) : ProcessReply :=
  let pidStr := (getToken (cString args) 16).1
  if pidStr = [] then ⟨ascii "Usage: KILL <pid>\n", table, -1⟩
  else
    let pid := strToInt pidStr
    let table := ensureProcessesInit table
    if pid ≤ 2 then ⟨ascii "Error: Cannot kill critical system process (KERNEL/SHELL)\n", table, -1⟩
    else
      match table.findIdx? fun process => process.pid = pid with
      | none => ⟨ascii "Error: Process not found\n", table, -1⟩
      | some i =>
          let name := (table[i]?.map ProcessEntry.name).getD []
          ⟨ascii "Terminating process " ++ name ++ ascii " (PID " ++ pidStr ++ ascii ")...\n" ++ ascii "Process killed.\n",
            table.eraseIdx i, 0⟩

inductive ProcessCommand where
  | ps
  | top
  | kill (args : List UInt8)

def processReply (table : List ProcessEntry) : ProcessCommand → ProcessReply
  | .ps => cmdPs table
  | .top => cmdTop table
  | .kill args => cmdKill table args

def tableAfter (commands : List ProcessCommand) : List ProcessEntry :=
  commands.foldl (fun table command => (processReply table command).table) []

def ProcessCommand.target : ProcessCommand → Option UInt32
  | .ps => none
  | .top => none
  | .kill args =>
      let pidStr := (getToken (cString args) 16).1
      if pidStr = [] ∨ strToInt pidStr ≤ 2 then none else some (strToInt pidStr)

def survivors (commands : List ProcessCommand) : List ProcessEntry :=
  firstProcesses.filter fun process => some process.pid ∉ commands.map ProcessCommand.target

theorem erase_pid (table : List ProcessEntry) (distinct : (table.map ProcessEntry.pid).Nodup) (pid : UInt32) (i : Nat)
    (found : table.findIdx? (fun process => process.pid = pid) = some i) :
    table.eraseIdx i = table.filter fun process => process.pid ≠ pid := by
  induction table generalizing i with
  | nil => cases found
  | cons process table ih =>
      rw [List.map_cons, List.nodup_cons] at distinct
      rw [List.findIdx?_cons] at found
      by_cases first : process.pid = pid
      · rw [if_pos (decide_eq_true first)] at found
        cases found
        have rest : table.filter (fun process => process.pid ≠ pid) = table := by
          refine List.filter_eq_self.mpr fun other member => decide_eq_true fun same => distinct.1 ?_
          rw [first, ← same]
          exact List.mem_map_of_mem member
        rw [List.eraseIdx_cons_zero, List.filter_cons_of_neg (by simpa using first), rest]
      · rw [if_neg (by simpa using first), Option.map_eq_some_iff] at found
        obtain ⟨j, later, rfl⟩ := found
        rw [List.eraseIdx_cons_succ, List.filter_cons_of_pos (by simpa using first), ih distinct.2 j later]

theorem survivors_snoc (commands : List ProcessCommand) (command : ProcessCommand) :
    survivors (commands ++ [command]) = (survivors commands).filter fun process => some process.pid ≠ command.target := by
  rw [survivors, survivors, List.filter_filter]
  refine List.filter_congr fun process _ => ?_
  rw [List.map_append, List.map_singleton, ← Bool.decide_and]
  exact decide_eq_decide.mpr (by rw [List.mem_append, List.mem_singleton, not_or, and_comm])

theorem survivors_distinct (commands : List ProcessCommand) : ((survivors commands).map ProcessEntry.pid).Nodup :=
  List.Nodup.sublist (List.filter_sublist.map _) (show (firstProcesses.map ProcessEntry.pid).Nodup by decide)

theorem target_large (command : ProcessCommand) (pid : UInt32) (small : pid ≤ 2) : command.target ≠ some pid := by
  cases command with
  | ps => exact (Option.some_ne_none pid).symm
  | top => exact (Option.some_ne_none pid).symm
  | kill args =>
      rw [ProcessCommand.target]
      split
      · exact (Option.some_ne_none pid).symm
      · rename_i large
        intro same
        rw [Option.some.inj same] at large
        exact large (Or.inr small)

theorem survivors_some (commands : List ProcessCommand) : survivors commands ≠ [] := by
  have kernel : (⟨1, ascii "KERNEL", ascii "RUNNING", 128, 0⟩ : ProcessEntry) ∈ survivors commands := by
    refine List.mem_filter.mpr ⟨List.mem_cons_self, decide_eq_true fun targeted => ?_⟩
    obtain ⟨command, -, same⟩ := List.mem_map.mp targeted
    exact target_large command 1 (by decide) same
  exact List.ne_nil_of_mem kernel

theorem kill_reply (table : List ProcessEntry) (distinct : ((ensureProcessesInit table).map ProcessEntry.pid).Nodup) (args : List UInt8) :
    ensureProcessesInit (cmdKill table args).table =
      ensureProcessesInit ((ensureProcessesInit table).filter fun process => some process.pid ≠ (ProcessCommand.kill args).target) ∧
    ((cmdKill table args).code = 0 ↔ ∃ process ∈ ensureProcessesInit table, (ProcessCommand.kill args).target = some process.pid) := by
  have kept : ∀ rows : List ProcessEntry, (rows.filter fun process => some process.pid ≠ none) = rows := fun rows =>
    List.filter_eq_self.mpr fun process _ => decide_eq_true (Option.some_ne_none _)
  have twice : ensureProcessesInit (ensureProcessesInit table) = ensureProcessesInit table := by
    rw [ensureProcessesInit, ensureProcessesInit]
    split
    · exact if_neg (by decide)
    · rfl
  have failed : (-1 : Int) ≠ 0 := by decide
  rw [cmdKill, ProcessCommand.target]
  dsimp only
  by_cases blank : (getToken (cString args) 16).1 = []
  · rw [if_pos blank, if_pos (Or.inl blank), kept, twice]
    exact ⟨rfl, iff_of_false failed fun ⟨process, _, same⟩ => Option.some_ne_none process.pid same.symm⟩
  rw [if_neg blank]
  by_cases critical : strToInt (getToken (cString args) 16).1 ≤ 2
  · rw [if_pos critical, if_pos (Or.inr critical), kept]
    exact ⟨rfl, iff_of_false failed fun ⟨process, _, same⟩ => Option.some_ne_none process.pid same.symm⟩
  rw [if_neg critical, if_neg (not_or.mpr ⟨blank, critical⟩)]
  cases found : (ensureProcessesInit table).findIdx? fun process => process.pid = strToInt (getToken (cString args) 16).1 with
  | none =>
      rw [List.findIdx?_eq_none_iff] at found
      have absent : (ensureProcessesInit table).filter
          (fun process => some process.pid ≠ some (strToInt (getToken (cString args) 16).1)) = ensureProcessesInit table :=
        List.filter_eq_self.mpr fun process member => decide_eq_true fun same =>
          of_decide_eq_false (found process member) (Option.some.inj same)
      refine ⟨by rw [absent], iff_of_false failed fun ⟨process, member, same⟩ => ?_⟩
      · exact of_decide_eq_false (found process member) (Option.some.inj same).symm
  | some i =>
      have erased := erase_pid _ distinct _ i found
      obtain ⟨inside, here, -⟩ := List.findIdx?_eq_some_iff_getElem.mp found
      refine ⟨?_, iff_of_true rfl ⟨_, List.getElem_mem inside, congrArg some (of_decide_eq_true here).symm⟩⟩
      dsimp only
      rw [erased]
      refine congrArg ensureProcessesInit (List.filter_congr fun process _ => decide_eq_decide.mpr ?_)
      rw [Ne, Ne, Option.some_inj]

-- By induction on the commands: the table is the first one without the processes they have named.
theorem table_survivors (commands : List ProcessCommand) : ensureProcessesInit (tableAfter commands) = survivors commands := by
  induction commands using List.reverseRecOn with
  | nil => decide
  | append_singleton commands command ih =>
      have stays : ∀ rows : List ProcessEntry, rows ≠ [] → ensureProcessesInit rows = rows := fun rows some' => if_neg some'
      have others : command.target = none → survivors (commands ++ [command]) = survivors commands := by
        intro harmless
        rw [survivors_snoc, harmless]
        exact List.filter_eq_self.mpr fun process _ => decide_eq_true (Option.some_ne_none _)
      rw [tableAfter, List.foldl_append, ← tableAfter, List.foldl_cons, List.foldl_nil]
      cases command with
      | ps =>
          rw [others rfl, ← ih]
          exact stays (ensureProcessesInit (tableAfter commands)) (by rw [ih]; exact survivors_some commands)
      | top =>
          rw [others rfl, ← ih]
          exact stays (ensureProcessesInit (tableAfter commands)) (by rw [ih]; exact survivors_some commands)
      | kill args =>
          have reply := (kill_reply (tableAfter commands) (by rw [ih]; exact survivors_distinct commands) args).1
          rw [processReply, reply, ih, ← survivors_snoc]
          exact stays _ (survivors_some _)

theorem processes_follow_kills (commands : List ProcessCommand) (args : List UInt8) :
    (cmdPs (tableAfter commands)).text = psHeader ++ (survivors commands).flatMap psRow ∧
    firstProcesses.take 2 <+: survivors commands ∧
    ((cmdKill (tableAfter commands) args).code = 0 ↔
      (ProcessCommand.kill args).target ∈ [some 3, some 4] ∧
        (ProcessCommand.kill args).target ∉ commands.map ProcessCommand.target) := by
  have table := table_survivors commands
  refine ⟨by rw [cmdPs, table], ?_, ?_⟩
  · have here : ∀ pid : UInt32, pid ≤ 2 → some pid ∉ commands.map ProcessCommand.target := by
      intro pid small targeted
      obtain ⟨command, -, same⟩ := List.mem_map.mp targeted
      exact target_large command pid small same
    have system : ∀ process ∈ firstProcesses.take 2, process.pid ≤ 2 := by decide
    rw [survivors]
    refine List.IsPrefix.trans ?_ ((List.take_prefix 2 firstProcesses).filter _)
    rw [List.filter_eq_self.mpr fun process member => decide_eq_true (here process.pid (system process member))]
  · have pids : ∀ pid : UInt32, (∃ process ∈ firstProcesses, process.pid = pid) ↔ pid ∈ [1, 2, 3, 4] := by
      intro pid
      rw [← List.mem_map (f := ProcessEntry.pid), show firstProcesses.map ProcessEntry.pid = [1, 2, 3, 4] by decide]
    rw [(kill_reply (tableAfter commands) (by rw [table]; exact survivors_distinct commands) args).2, table]
    constructor
    · rintro ⟨process, member, same⟩
      obtain ⟨inside, untouched⟩ := List.mem_filter.mp member
      have listed := (pids process.pid).mp ⟨process, inside, rfl⟩
      have large := fun small => target_large (.kill args) process.pid small same
      rw [same]
      refine ⟨?_, of_decide_eq_true untouched⟩
      simp only [List.mem_cons, List.not_mem_nil, or_false] at listed
      rcases listed with first | second | third | fourth
      · exact (large (by rw [first]; decide)).elim
      · exact (large (by rw [second]; decide)).elim
      · rw [third]
        exact List.mem_cons_self
      · rw [fourth]
        exact List.mem_cons_of_mem _ List.mem_cons_self
    · rintro ⟨service, fresh⟩
      simp only [List.mem_cons, List.not_mem_nil, or_false] at service
      have known : ∃ pid, (ProcessCommand.kill args).target = some pid ∧ pid ∈ [1, 2, 3, 4] := by
        rcases service with third | fourth
        · exact ⟨3, third, by decide⟩
        · exact ⟨4, fourth, by decide⟩
      obtain ⟨pid, same, listed⟩ := known
      obtain ⟨process, inside, rfl⟩ := (pids pid).mpr listed
      exact ⟨process, List.mem_filter.mpr ⟨inside, decide_eq_true (same ▸ fresh)⟩, same⟩

end RoDos.Shell
