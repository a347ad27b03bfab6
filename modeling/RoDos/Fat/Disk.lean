import RoDos.Fat.Entries

set_option autoImplicit false

namespace RoDos.Fat

open Base

-- The status bytes in the order in which they are read, and the data of the sectors transferred in.
structure Ata where
  status : Nat → UInt8
  data : Nat → Nat → UInt8

def ataSectorCount : Nat := 0x1F2
def ataLbaLow : Nat := 0x1F3
def ataLbaMid : Nat := 0x1F4
def ataLbaHigh : Nat := 0x1F5
def ataDriveHead : Nat := 0x1F6
def ataCommand : Nat := 0x1F7

def hasErr (status : UInt8) : Bool := status &&& 0x01 != 0
def hasDrq (status : UInt8) : Bool := status &&& 0x08 != 0
def hasBsy (status : UInt8) : Bool := status &&& 0x80 != 0

inductive PortWrite where
  | outb (port : Nat) (byte : UInt8)
  | outsw (bytes : List UInt8)
deriving DecidableEq

def PortWrite.sector : PortWrite → Option (List UInt8)
  | .outb _ _ => none
  | .outsw bytes => some bytes

-- A polling loop: the polls it makes, the status it waits for, and whether ERR ends it.
structure Wait where
  polls : Nat
  awaits : UInt8 → Bool
  failsOnErr : Bool

def readDataWait : Wait := ⟨100000, fun status => !hasBsy status && hasDrq status, true⟩
def driveWait : Wait := ⟨1000000, fun status => !hasBsy status, false⟩
def writeDataWait : Wait := ⟨1000000, fun status => !hasBsy status && hasDrq status, true⟩

structure Waited where
  wait : Wait
  first : Nat
  timedOut : Bool

-- The state of one call. The writes stand behind the number of the status bytes read before them; the waits that can
-- report a timeout are recorded with the number of their first status.
structure Call where
  mem : Memory
  reads : Nat
  transfers : Nat
  writes : List (Nat × PortWrite)
  waits : List Waited

def Call.write (call : Call) (event : PortWrite) : Call := { call with writes := call.writes ++ [(call.reads, event)] }

def Call.outb (call : Call) (port byte : Nat) : Call := call.write (.outb port (UInt8.ofNat byte))

def Call.delay (call : Call) : Call := { call with reads := call.reads + 4 }

def Call.insw (drive : Ata) (call : Call) (bufPtr : Nat) : Call :=
  { call with mem := storeSector call.mem bufPtr (drive.data call.transfers), transfers := call.transfers + 1 }

def Call.outsw (call : Call) (bufPtr : Nat) : Call :=
  call.write (.outsw ((List.range 512).map fun i => loadByte call.mem (bufPtr + i)))

def Call.record (call : Call) (wait : Wait) (first : Nat) (timedOut : Bool) : Call :=
  { call with waits := call.waits ++ [⟨wait, first, timedOut⟩] }

-- The timeout behind the loop, or none where the loop returns -1. It is -1 when the test ends the loop, not a break.
def waitLoop (drive : Ata) (wait : Wait) : Nat → Call → Call × Option Int
  | 0, call => (call, some (-1))
  | timeout + 1, call =>
      let status := drive.status call.reads
      let read := { call with reads := call.reads + 1 }
      if wait.failsOnErr && hasErr status then (read, none)
      else if wait.awaits status then (read, some timeout)
      else waitLoop drive wait timeout read

-- false stands for return -1
def waitDrive (drive : Ata) (wait : Wait) (call : Call) : Call × Bool :=
  match waitLoop drive wait wait.polls call with
  | (after, none) => (after.record wait call.reads false, false)
  | (after, some timeout) =>
      if timeout ≤ 0 then (after.record wait call.reads true, false) else (after.record wait call.reads false, true)

def sendLba (call : Call) (lba count command : Nat) : Call :=
  ((((call.outb ataSectorCount count).outb ataLbaLow (lba &&& 0xFF)).outb ataLbaMid (lba >>> 8 &&& 0xFF)).outb ataLbaHigh
    (lba >>> 16 &&& 0xFF)).outb ataCommand command

def Call.selectDrive (call : Call) (lba : Nat) : Call := call.outb ataDriveHead (0xE0 ||| (lba >>> 24 &&& 0x0F))

def readSectors (drive : Ata) : Nat → Nat → Call → Call × Int
  | 0, _, call => (call, 0)
  | count + 1, bufPtr, call =>
      match waitDrive drive readDataWait call with
      | (waited, false) => (waited, -1)
      | (waited, true) => readSectors drive count (add32 bufPtr 512) (waited.insw drive bufPtr)

def diskReadLba (drive : Ata) (mem : Memory) (lba count buffer : Nat) : Call × Int :=
  let call := sendLba (Call.selectDrive ⟨mem, 0, 0, [], []⟩ lba) lba count 0x20
  readSectors drive count buffer call.delay

def writeSectors (drive : Ata) : Nat → Nat → Call → Call × Int
  | 0, _, call => (call, 0)
  | count + 1, bufPtr, call =>
      match waitDrive drive writeDataWait call with
      | (waited, false) => (waited, -1)
      | (waited, true) =>
          match waitDrive drive driveWait (waited.outsw bufPtr) with
          | (written, false) => (written, -1)
          | (written, true) => writeSectors drive count (add32 bufPtr 512) written

-- The timeout of the last loop is not looked at.
def flushCache (drive : Ata) (call : Call) : Call :=
  (waitLoop drive driveWait driveWait.polls (call.outb ataCommand 0xE7)).1

def diskWriteLba (drive : Ata) (mem : Memory) (lba count buffer : Nat) : Call × Int :=
  match waitDrive drive driveWait (Call.selectDrive ⟨mem, 0, 0, [], []⟩ lba) with
  | (waited, false) => (waited, -1)
  | (ready, true) =>
      match writeSectors drive count buffer (sendLba ready lba count 0x30).delay with
      | (written, 0) => (flushCache drive written, 0)
      | (written, code) => (written, code)

def Wait.fails (wait : Wait) (status : UInt8) : Bool := wait.failsOnErr && hasErr status

def Wait.stops (wait : Wait) (status : UInt8) : Bool := wait.fails status || wait.awaits status

structure MetAt (trace : Nat → UInt8) (wait : Wait) (first k : Nat) : Prop where
  allowed : k < wait.polls
  awaited : wait.awaits (trace (first + k)) = true
  sound : wait.fails (trace (first + k)) = false
  earlier : ∀ j < k, wait.stops (trace (first + j)) = false

def Waited.Honest (trace : Nat → UInt8) (waited : Waited) : Prop :=
  waited.timedOut = true → ∀ k < waited.wait.polls, waited.wait.awaits (trace (waited.first + k)) = false

def AllHonest (trace : Nat → UInt8) (waits : List Waited) : Prop := ∀ waited ∈ waits, waited.Honest trace

section
variable (drive : Ata) (wait : Wait)

theorem wait_loop_passes (k extra : Nat) (call : Call)
    (earlier : ∀ j < k, wait.stops (drive.status (call.reads + j)) = false) :
    waitLoop drive wait (extra + k) call = waitLoop drive wait extra { call with reads := call.reads + k } := by
  induction k generalizing call with
  | zero => rfl
  | succ k ih =>
      have stops := earlier 0 (Nat.succ_pos k)
      rw [Nat.add_zero, Wait.stops, Bool.or_eq_false_iff, Wait.fails] at stops
      have later := ih { call with reads := call.reads + 1 } fun j below => by
        have next := earlier (j + 1) (Nat.succ_lt_succ below)
        rw [Nat.add_comm j, ← Nat.add_assoc] at next
        exact next
      rw [← Nat.add_assoc, waitLoop, stops.1, stops.2, if_neg Bool.false_ne_true, if_neg Bool.false_ne_true, later,
        Nat.add_assoc, Nat.add_comm 1 k]

theorem wait_loop_runs_out (call : Call) (never : ∀ j < wait.polls, wait.stops (drive.status (call.reads + j)) = false) :
    waitLoop drive wait wait.polls call = ({ call with reads := call.reads + wait.polls }, some (-1)) := by
  have passes := wait_loop_passes drive wait wait.polls 0 call never
  rw [Nat.zero_add] at passes
  rw [passes, waitLoop]

theorem wait_loop_stops (call : Call) (k : Nat) (allowed : k < wait.polls)
    (stops : wait.stops (drive.status (call.reads + k)) = true)
    (earlier : ∀ j < k, wait.stops (drive.status (call.reads + j)) = false) :
    waitLoop drive wait wait.polls call = ({ call with reads := call.reads + k + 1 },
      if wait.fails (drive.status (call.reads + k)) = true then none else some ((wait.polls - k - 1 : Nat) : Int)) := by
  have passes := wait_loop_passes drive wait k (wait.polls - k - 1 + 1) call earlier
  have polls : wait.polls - k - 1 + 1 + k = wait.polls := by omega
  rw [polls] at passes
  rw [passes, waitLoop]
  dsimp only
  cases fails : wait.fails (drive.status (call.reads + k)) with
  | true =>
      rw [Wait.fails] at fails
      rw [fails]
      rfl
  | false =>
      rw [Wait.stops, fails, Bool.false_or] at stops
      rw [Wait.fails] at fails
      rw [fails, stops]
      rfl

theorem met_unique (trace : Nat → UInt8) (first k : Nat) (stops : wait.stops (trace (first + k)) = true)
    (earlier : ∀ j < k, wait.stops (trace (first + j)) = false) (other : Nat) (met : MetAt trace wait first other) : other = k := by
  have otherStops : wait.stops (trace (first + other)) = true := by rw [Wait.stops, met.awaited, Bool.or_true]
  rcases Nat.lt_trichotomy other k with below | same | above
  · exact absurd ((earlier other below).symm.trans otherStops) Bool.false_ne_true
  · exact same
  · exact absurd ((met.earlier k above).symm.trans stops) Bool.false_ne_true

theorem all_honest_recorded (trace : Nat → UInt8) (waits : List Waited) (waited : Waited) :
    AllHonest trace (waits ++ [waited]) ↔ AllHonest trace waits ∧ waited.Honest trace := by
  rw [AllHonest, List.forall_mem_append, AllHonest, List.forall_mem_singleton]

-- A wait goes on behind a status that comes before the last poll; the last poll is a timeout for the code.
theorem wait_drive_cases (call : Call) :
    (∃ k, MetAt drive.status wait call.reads k ∧ k + 1 < wait.polls ∧
      waitDrive drive wait call = (Call.record { call with reads := call.reads + k + 1 } wait call.reads false, true)) ∨
    ((∀ k, MetAt drive.status wait call.reads k → k + 1 = wait.polls) ∧
      ∃ after, waitDrive drive wait call = (after, false) ∧ (AllHonest drive.status after.waits ↔
        AllHonest drive.status call.waits ∧ ∀ k, ¬ MetAt drive.status wait call.reads k)) := by
  by_cases stopped : ∃ k, k < wait.polls ∧ wait.stops (drive.status (call.reads + k)) = true
  case neg =>
    have never (j : Nat) (below : j < wait.polls) : wait.stops (drive.status (call.reads + j)) = false :=
      Bool.eq_false_iff.mpr fun stops => stopped ⟨j, below, stops⟩
    have unmet (k : Nat) (met : MetAt drive.status wait call.reads k) : False := by
      have stops := never k met.allowed
      rw [Wait.stops, met.awaited, Bool.or_true] at stops
      cases stops
    have silent (k : Nat) (below : k < wait.polls) : wait.awaits (drive.status (call.reads + k)) = false :=
      (Bool.or_eq_false_iff.mp (never k below)).2
    refine Or.inr ⟨fun k met => (unmet k met).elim,
      Call.record { call with reads := call.reads + wait.polls } wait call.reads true, ?_, ?_⟩
    · rw [waitDrive, wait_loop_runs_out drive wait call never]
      exact if_pos (by decide)
    · rw [Call.record, all_honest_recorded]
      exact and_congr_right fun _ => iff_of_true (fun _ => silent) unmet
  case pos =>
    obtain ⟨allowed, stops⟩ := Nat.find_spec stopped
    have earlier (j : Nat) (below : j < Nat.find stopped) : wait.stops (drive.status (call.reads + j)) = false :=
      Bool.eq_false_iff.mpr fun other => Nat.find_min stopped below ⟨below.trans allowed, other⟩
    generalize Nat.find stopped = k at allowed stops earlier
    have run := wait_loop_stops drive wait call k allowed stops earlier
    have unique := met_unique wait drive.status call.reads k stops earlier
    cases fails : wait.fails (drive.status (call.reads + k)) with
    | true =>
        have unmet (other : Nat) (met : MetAt drive.status wait call.reads other) : False := by
          have sound := met.sound
          rw [unique other met, fails] at sound
          cases sound
        rw [if_pos fails] at run
        refine Or.inr ⟨fun other met => (unmet other met).elim, _, by rw [waitDrive, run], ?_⟩
        rw [Call.record, all_honest_recorded]
        exact and_congr_right fun _ => iff_of_true (fun reported => by cases reported) unmet
    | false =>
        rw [if_neg (by rw [fails]; exact Bool.false_ne_true)] at run
        have awaited := stops
        rw [Wait.stops, fails, Bool.false_or] at awaited
        have met : MetAt drive.status wait call.reads k := ⟨allowed, awaited, fails, earlier⟩
        by_cases before : k + 1 < wait.polls
        · refine Or.inl ⟨k, met, before, ?_⟩
          rw [waitDrive, run]
          exact if_neg (by omega)
        · refine Or.inr ⟨fun other met => by rw [unique other met]; omega,
            Call.record { call with reads := call.reads + k + 1 } wait call.reads true, ?_, ?_⟩
          · rw [waitDrive, run]
            exact if_pos (by omega)
          · rw [Call.record, all_honest_recorded]
            refine and_congr_right fun _ => iff_of_false (fun honest => ?_) fun unmet => unmet k met
            exact absurd ((honest rfl k allowed).symm.trans awaited) Bool.false_ne_true
end

def Reaches (trace : Nat → UInt8) : List Wait → Nat → Nat → Prop
  | [], first, stop => stop = first
  | wait :: rest, first, stop => ∃ k, MetAt trace wait first k ∧ k + 1 < wait.polls ∧ Reaches trace rest (first + k + 1) stop

def Timely (trace : Nat → UInt8) : List Wait → Nat → Prop
  | [], _ => True
  | wait :: rest, first => ∀ k, MetAt trace wait first k → k + 1 < wait.polls ∧ Timely trace rest (first + k + 1)

theorem timely_met_iff (trace : Nat → UInt8) (wait : Wait) (rest : List Wait) (first k : Nat) (met : MetAt trace wait first k)
    (before : k + 1 < wait.polls) : Timely trace (wait :: rest) first ↔ Timely trace rest (first + k + 1) := by
  have stops : wait.stops (trace (first + k)) = true := by rw [Wait.stops, met.awaited, Bool.or_true]
  constructor
  · exact fun timely => (timely k met).2
  · intro timely other otherMet
    cases met_unique wait trace first k stops met.earlier other otherMet
    exact ⟨before, timely⟩

theorem timely_unmet_iff (trace : Nat → UInt8) (wait : Wait) (rest : List Wait) (first : Nat)
    (last : ∀ k, MetAt trace wait first k → k + 1 = wait.polls) :
    Timely trace (wait :: rest) first ↔ ∀ k, ¬ MetAt trace wait first k := by
  constructor
  · intro timely k met
    have below := (timely k met).1
    have same := last k met
    omega
  · exact fun unmet k met => absurd met (unmet k)

theorem reaches_met_iff (trace : Nat → UInt8) (wait : Wait) (rest : List Wait) (first k stop : Nat)
    (met : MetAt trace wait first k) (before : k + 1 < wait.polls) :
    Reaches trace (wait :: rest) first stop ↔ Reaches trace rest (first + k + 1) stop := by
  have stops : wait.stops (trace (first + k)) = true := by rw [Wait.stops, met.awaited, Bool.or_true]
  constructor
  · rintro ⟨other, otherMet, _, reaches⟩
    cases met_unique wait trace first k stops met.earlier other otherMet
    exact reaches
  · exact fun reaches => ⟨k, met, before, reaches⟩

theorem reaches_unmet (trace : Nat → UInt8) (wait : Wait) (rest : List Wait) (first stop : Nat)
    (last : ∀ k, MetAt trace wait first k → k + 1 = wait.polls) : ¬ Reaches trace (wait :: rest) first stop := by
  rintro ⟨k, met, before, _⟩
  have same := last k met
  omega

theorem read_sectors_honest_iff (drive : Ata) (count bufPtr : Nat) (call : Call) :
    AllHonest drive.status (readSectors drive count bufPtr call).1.waits ↔
      AllHonest drive.status call.waits ∧ Timely drive.status (List.replicate count readDataWait) call.reads := by
  induction count generalizing bufPtr call with
  | zero => exact (and_iff_left trivial).symm
  | succ count ih =>
      rw [readSectors, List.replicate_succ]
      rcases wait_drive_cases drive readDataWait call with ⟨k, met, before, run⟩ | ⟨last, after, run, honest⟩
      · rw [run, timely_met_iff _ _ _ _ k met before]
        dsimp only
        rw [ih, Call.insw, Call.record, all_honest_recorded, and_assoc]
        exact and_congr_right fun _ => and_iff_right fun reported => by cases reported
      · rw [run, timely_unmet_iff _ _ _ _ last]
        exact honest

theorem met_idle (trace : Nat → UInt8) (first k : Nat) (met : MetAt trace driveWait first k) :
    hasBsy (trace (first + k)) = false := Bool.not_eq_true' _ ▸ met.awaited

def sectorBytes (mem : Memory) (buffer i : Nat) : List UInt8 :=
  (List.range 512).map fun j => loadByte mem (buffer + 512 * i + j)

def sectorWaits : Nat → List Wait
  | 0 => []
  | count + 1 => writeDataWait :: driveWait :: sectorWaits count

structure Sent (trace : Nat → UInt8) (first last : Nat) (entry : Nat × PortWrite) (later : List (Nat × PortWrite)) : Prop where
  from' : first < entry.1
  requested : writeDataWait.awaits (trace (entry.1 - 1)) = true
  settled : ∃ i, entry.1 ≤ i ∧ i < last ∧ hasBsy (trace i) = false ∧ ∀ other ∈ later, entry.1 < other.1 → i < other.1

structure Written (trace : Nat → UInt8) (count bufPtr : Nat) (call after : Call) : Prop where
  mem : after.mem = call.mem
  reads : call.reads ≤ after.reads
  honest : AllHonest trace after.waits ↔ AllHonest trace call.waits
  sent : ∃ added, after.writes = call.writes ++ added ∧
    added.map (fun entry => entry.2.sector) = (List.range count).map (fun i => some (sectorBytes call.mem bufPtr i)) ∧
    ∀ entry ∈ added, Sent trace call.reads after.reads entry added

theorem next_sector_bytes (mem : Memory) (buffer i : Nat) :
    sectorBytes mem (add32 buffer 512) i = sectorBytes mem buffer (i + 1) := by
  refine List.map_congr_left fun j _ => ?_
  have address : buffer + 512 + (512 * i + j) = buffer + 512 * (i + 1) + j := by omega
  rw [Nat.add_assoc, load_added, address]

theorem written_behind (trace : Nat → UInt8) (count bufPtr k : Nat) (call sent written after : Call)
    (sentReads : sent.reads = call.reads + k + 1) (requested : writeDataWait.awaits (trace (call.reads + k)) = true)
    (next : ∃ j, written.reads = sent.reads + j + 1 ∧ hasBsy (trace (sent.reads + j)) = false)
    (mem : written.mem = call.mem)
    (writes : written.writes = call.writes ++ [(sent.reads, .outsw (sectorBytes call.mem bufPtr 0))])
    (kept : AllHonest trace written.waits ↔ AllHonest trace call.waits)
    (rest : Written trace count (add32 bufPtr 512) written after) : Written trace (count + 1) bufPtr call after := by
  obtain ⟨j, writtenReads, idle⟩ := next
  obtain ⟨added, appended, sectors, each⟩ := rest.sent
  have reads := rest.reads
  refine ⟨rest.mem.trans mem, by omega, rest.honest.trans kept,
    (sent.reads, .outsw (sectorBytes call.mem bufPtr 0)) :: added, ?_, ?_, ?_⟩
  · rw [appended, writes, List.append_assoc, List.singleton_append]
  · rw [List.map_cons, sectors, mem, List.range_succ_eq_map, List.map_cons, List.map_map]
    exact congrArg (_ :: ·) (List.map_congr_left fun i _ => congrArg some (next_sector_bytes call.mem bufPtr i))
  · intro entry member
    rcases List.mem_cons.mp member with rfl | tail
    · refine ⟨by dsimp only; omega, ?_, sent.reads + j, Nat.le_add_right _ _, by omega, idle, ?_⟩
      · dsimp only
        rw [sentReads, Nat.add_sub_cancel]
        exact requested
      · intro other otherMember above
        rcases List.mem_cons.mp otherMember with rfl | later
        · exact absurd above (Nat.lt_irrefl _)
        · have behind := (each other later).from'
          omega
    · have behind := (each entry tail).from'
      obtain ⟨i, low, high, quiet, ahead⟩ := (each entry tail).settled
      refine ⟨by omega, (each entry tail).requested, i, low, high, quiet, fun other otherMember above => ?_⟩
      rcases List.mem_cons.mp otherMember with rfl | later
      · dsimp only at above
        omega
      · exact ahead other later above

theorem write_sectors_cases (drive : Ata) (count bufPtr : Nat) (call : Call) :
    (Timely drive.status (sectorWaits count) call.reads ∧
      ∃ after, writeSectors drive count bufPtr call = (after, 0) ∧ Written drive.status count bufPtr call after ∧
        ∀ stop, Reaches drive.status (sectorWaits count) call.reads stop ↔ stop = after.reads) ∨
    ((∀ stop, ¬ Reaches drive.status (sectorWaits count) call.reads stop) ∧
      ∃ after, writeSectors drive count bufPtr call = (after, -1) ∧ (AllHonest drive.status after.waits ↔
        AllHonest drive.status call.waits ∧ Timely drive.status (sectorWaits count) call.reads)) := by
  induction count generalizing bufPtr call with
  | zero =>
      refine Or.inl ⟨trivial, call, rfl, ⟨rfl, Nat.le_refl _, Iff.rfl, [], ?_, rfl, ?_⟩, fun _ => Iff.rfl⟩
      · rw [List.append_nil]
      · exact fun entry member => absurd member List.not_mem_nil
  | succ count ih =>
      rw [writeSectors, sectorWaits]
      rcases wait_drive_cases drive writeDataWait call with ⟨k, met, before, run⟩ | ⟨last, after, run, honest⟩
      case inr =>
        refine Or.inr ⟨fun stop => reaches_unmet _ _ _ _ _ last, after, by rw [run], ?_⟩
        rw [timely_unmet_iff _ _ _ _ last]
        exact honest
      case inl =>
        rw [run, timely_met_iff _ _ _ _ k met before]
        simp only [reaches_met_iff _ _ _ _ k _ met before]
        generalize sentEq : (Call.record { call with reads := call.reads + k + 1 } writeDataWait call.reads false).outsw bufPtr =
          sent
        have reads : sent.reads = call.reads + k + 1 := by rw [← sentEq]; rfl
        have waits : AllHonest drive.status sent.waits ↔ AllHonest drive.status call.waits := by
          rw [← sentEq]
          exact (all_honest_recorded _ _ _).trans (and_iff_left fun reported => by cases reported)
        rw [← reads]
        rcases wait_drive_cases drive driveWait sent with ⟨j, done, early, run⟩ | ⟨last, after, run, honest⟩
        case inr =>
          refine Or.inr ⟨fun stop => reaches_unmet _ _ _ _ _ last, after, by rw [run], ?_⟩
          rw [timely_unmet_iff _ _ _ _ last, honest, waits]
        case inl =>
          rw [run, timely_met_iff _ _ _ _ j done early]
          simp only [reaches_met_iff _ _ _ _ j _ done early]
          generalize writtenEq : Call.record { sent with reads := sent.reads + j + 1 } driveWait sent.reads false = written
          have next : written.reads = sent.reads + j + 1 := by rw [← writtenEq]; rfl
          have kept : AllHonest drive.status written.waits ↔ AllHonest drive.status call.waits := by
            rw [← writtenEq, ← waits]
            exact (all_honest_recorded _ _ _).trans (and_iff_left fun reported => by cases reported)
          rw [← next]
          rcases ih (add32 bufPtr 512) written with ⟨timely, after, run, rest, reaches⟩ | ⟨unreached, after, run, honest⟩
          case inr =>
            refine Or.inr ⟨unreached, after, run, ?_⟩
            rw [honest, kept]
          case inl =>
            refine Or.inl ⟨timely, after, run, ?_, reaches⟩
            refine written_behind drive.status count bufPtr k call sent written after reads met.awaited
              ⟨j, next, ?_⟩ ?_ ?_ kept rest
            · exact met_idle _ _ _ done
            · rw [← writtenEq, ← sentEq]
              rfl
            · rw [← writtenEq, ← sentEq]
              rfl

theorem flush_cache_cases (drive : Ata) (call : Call) :
    (∃ k, MetAt drive.status driveWait call.reads k ∧
      flushCache drive call = { call.outb ataCommand 0xE7 with reads := call.reads + k + 1 }) ∨
    ((∀ k < driveWait.polls, hasBsy (drive.status (call.reads + k)) = true) ∧
      flushCache drive call = { call.outb ataCommand 0xE7 with reads := call.reads + driveWait.polls }) := by
  have stops (status : UInt8) : driveWait.stops status = !hasBsy status := rfl
  by_cases stopped : ∃ k, k < driveWait.polls ∧ driveWait.stops (drive.status (call.reads + k)) = true
  · obtain ⟨allowed, idle⟩ := Nat.find_spec stopped
    have earlier (j : Nat) (below : j < Nat.find stopped) : driveWait.stops (drive.status (call.reads + j)) = false :=
      Bool.eq_false_iff.mpr fun other => Nat.find_min stopped below ⟨below.trans allowed, other⟩
    refine Or.inl ⟨Nat.find stopped, ⟨allowed, idle, rfl, earlier⟩, ?_⟩
    rw [flushCache, wait_loop_stops drive driveWait (call.outb ataCommand 0xE7) _ allowed idle earlier]
    rfl
  · have never (j : Nat) (below : j < driveWait.polls) : driveWait.stops (drive.status (call.reads + j)) = false :=
      Bool.eq_false_iff.mpr fun idle => stopped ⟨j, below, idle⟩
    refine Or.inr ⟨fun k below => ?_, ?_⟩
    · have busy := never k below
      rw [stops, Bool.not_eq_false'] at busy
      exact busy
    · rw [flushCache, wait_loop_runs_out drive driveWait (call.outb ataCommand 0xE7) never]
      rfl

theorem flush_cache_met (drive : Ata) (call : Call) (k : Nat) (met : MetAt drive.status driveWait call.reads k) :
    flushCache drive call = { call.outb ataCommand 0xE7 with reads := call.reads + k + 1 } := by
  have stops : driveWait.stops (drive.status (call.reads + k)) = true := met.awaited
  rcases flush_cache_cases drive call with ⟨other, otherMet, final⟩ | ⟨busy, _⟩
  · rw [final, met_unique driveWait drive.status call.reads k stops met.earlier other otherMet]
  · exact absurd ((met_idle _ _ _ met).symm.trans (busy k met.allowed)) Bool.false_ne_true

theorem sector_data (mem : Memory) (buffer count : Nat) (added : List (Nat × PortWrite))
    (sectors : added.map (fun entry => entry.2.sector) = (List.range count).map fun i => some (sectorBytes mem buffer i)) :
    added.filterMap (fun entry => entry.2.sector) = (List.range count).map (sectorBytes mem buffer) ∧
      ∀ entry ∈ added, entry.2.sector.isSome = true := by
  constructor
  · have ids := congrArg (List.filterMap id) sectors
    rw [List.filterMap_map, List.filterMap_map] at ids
    exact ids.trans (congrFun List.filterMap_eq_map _)
  · intro entry member
    obtain ⟨i, _, same⟩ := List.mem_map.mp (sectors ▸ List.mem_map_of_mem member)
    rw [← same]
    rfl

theorem mem_three (front added : List (Nat × PortWrite)) (last entry : Nat × PortWrite) (member : entry ∈ front ++ added ++ [last]) :
    entry ∈ front ∨ entry ∈ added ∨ entry = last := by
  rw [List.append_assoc, List.mem_append, List.mem_append, List.mem_singleton] at member
  exact member

def writeCommand : PortWrite := .outb ataCommand 0x30
def flushCommand : PortWrite := .outb ataCommand 0xE7

structure Persisted (trace : Nat → UInt8) (mem : Memory) (count buffer : Nat) (call : Call) : Prop where
  sectors : call.writes.filterMap (fun entry => entry.2.sector) = (List.range count).map (sectorBytes mem buffer)
  commands : writeCommand ∈ call.writes.map Prod.snd ∧ flushCommand ∈ call.writes.map Prod.snd
  requested : ∀ entry ∈ call.writes, entry.2.sector.isSome = true →
    ∃ i, entry.1 = i + 1 ∧ hasBsy (trace i) = false ∧ hasDrq (trace i) = true
  settled : ∀ entry ∈ call.writes, entry.2.sector.isSome = true ∨ entry.2 = flushCommand →
    ∃ i, entry.1 ≤ i ∧ i < call.reads ∧ hasBsy (trace i) = false ∧ ∀ other ∈ call.writes, entry.1 < other.1 → i < other.1
  sound : ∀ entry ∈ call.writes, entry.2 = writeCommand → ∀ i, entry.1 ≤ i → i < call.reads → hasErr (trace i) = false

def WriteRight (drive : Ata) (mem : Memory) (lba count buffer : Nat) : Prop :=
  let result := diskWriteLba drive mem lba count buffer
  (result.2 = 0 → Persisted drive.status mem count buffer result.1) ∧ AllHonest drive.status result.1.waits

def ReadRight (drive : Ata) (mem : Memory) (lba count buffer : Nat) : Prop :=
  AllHonest drive.status (diskReadLba drive mem lba count buffer).1.waits

def Flushed (trace : Nat → UInt8) (issued first : Nat) : Prop :=
  ∃ k, MetAt trace driveWait first k ∧ ∀ i, issued ≤ i → i ≤ first + k → hasErr (trace i) = false

structure WriteTimely (trace : Nat → UInt8) (count : Nat) : Prop where
  selected : Timely trace [driveWait] 0
  sectors : ∀ issued, Reaches trace [driveWait] 0 issued → Timely trace (sectorWaits count) (issued + 4)
  flushed : ∀ issued, Reaches trace [driveWait] 0 issued → ∀ first, Reaches trace (sectorWaits count) (issued + 4) first →
    Flushed trace issued first

structure CommandSent (mem : Memory) (issued : Nat) (call : Call) : Prop where
  mem : call.mem = mem
  reads : call.reads = issued + 4
  command : (issued, writeCommand) ∈ call.writes
  entries : ∀ entry ∈ call.writes, entry.1 ≤ issued ∧ entry.2.sector = none ∧ entry.2 ≠ flushCommand ∧
    (entry.2 = writeCommand → entry.1 = issued)

section
variable (drive : Ata) (mem : Memory) (count buffer issued : Nat) (opened written : Call) (open' : CommandSent mem issued opened)
  (sent : Written drive.status count buffer opened written)
include open' sent

theorem flushed_of_persisted (persisted : Persisted drive.status mem count buffer (flushCache drive written)) :
    Flushed drive.status issued written.reads := by
  obtain ⟨added, appended, _, _⟩ := sent.sent
  rcases flush_cache_cases drive written with ⟨k, met, flushed⟩ | ⟨busy, flushed⟩
  · rw [flushed] at persisted
    refine ⟨k, met, fun i from' until' => ?_⟩
    have command : (issued, writeCommand) ∈ written.writes := by
      rw [appended]
      exact List.mem_append_left _ open'.command
    exact persisted.sound (issued, writeCommand) (List.mem_append_left _ command) rfl i from' (Nat.lt_succ_of_le until')
  · rw [flushed] at persisted
    obtain ⟨i, low, high, idle, _⟩ := persisted.settled (written.reads, flushCommand)
      (List.mem_append_right _ (List.mem_singleton.mpr rfl)) (Or.inr rfl)
    dsimp only at low high
    have same := busy (i - written.reads) (by omega)
    rw [Nat.add_sub_cancel' low, idle] at same
    cases same

theorem flushed_settled (added : List (Nat × PortWrite))
    (each : ∀ entry ∈ added, Sent drive.status opened.reads written.reads entry added) (k : Nat)
    (met : MetAt drive.status driveWait written.reads k) (entry : Nat × PortWrite)
    (member : entry ∈ opened.writes ++ added ++ [(written.reads, flushCommand)])
    (kind : entry.2.sector.isSome = true ∨ entry.2 = flushCommand) :
    ∃ i, entry.1 ≤ i ∧ i < written.reads + k + 1 ∧ hasBsy (drive.status i) = false ∧
      ∀ other ∈ opened.writes ++ added ++ [(written.reads, flushCommand)], entry.1 < other.1 → i < other.1 := by
  have reads := sent.reads
  have opening := open'.reads
  have stamps (other : Nat × PortWrite) (later : other ∈ added) : other.1 < written.reads := by
    obtain ⟨i, low, high, _⟩ := (each other later).settled
    omega
  rcases mem_three _ _ _ entry member with header | sent' | rfl
  · rcases kind with data | flush
    · rw [(open'.entries entry header).2.1] at data
      cases data
    · exact absurd flush (open'.entries entry header).2.2.1
  · obtain ⟨i, low, high, idle, ahead⟩ := (each entry sent').settled
    have from' := (each entry sent').from'
    refine ⟨i, low, by omega, idle, fun other otherMember above => ?_⟩
    rcases mem_three _ _ _ other otherMember with header | later | rfl
    · have early := (open'.entries other header).1
      omega
    · exact ahead other later above
    · exact high
  · refine ⟨written.reads + k, Nat.le_add_right _ _, Nat.lt_succ_self _, met_idle _ _ _ met, fun other otherMember above => ?_⟩
    rcases mem_three _ _ _ other otherMember with header | later | rfl
    · have early := (open'.entries other header).1
      dsimp only at above
      omega
    · have before := stamps other later
      dsimp only at above
      omega
    · exact absurd above (Nat.lt_irrefl _)

theorem persisted_of_flushed (flushed : Flushed drive.status issued written.reads) :
    Persisted drive.status mem count buffer (flushCache drive written) := by
  obtain ⟨k, met, sound⟩ := flushed
  obtain ⟨added, appended, sectors, each⟩ := sent.sent
  have opening := open'.reads
  have final := flush_cache_met drive written k met
  obtain ⟨data, isSector⟩ := sector_data opened.mem buffer count added sectors
  have writes : (flushCache drive written).writes = opened.writes ++ added ++ [(written.reads, flushCommand)] := by
    rw [final, ← appended]
    rfl
  have ends : (flushCache drive written).reads = written.reads + k + 1 := by rw [final]
  refine ⟨?_, ⟨?_, ?_⟩, ?_, ?_, ?_⟩ <;> rw [writes]
  · have none' : opened.writes.filterMap (fun entry => entry.2.sector) = [] :=
      List.filterMap_eq_nil_iff.mpr fun entry member => (open'.entries entry member).2.1
    rw [List.filterMap_append, List.filterMap_append, none', data, open'.mem, List.nil_append]
    exact List.append_nil _
  · rw [List.append_assoc, List.map_append]
    exact List.mem_append_left _ (List.mem_map_of_mem open'.command)
  · rw [List.map_append]
    exact List.mem_append_right _ (List.mem_singleton.mpr rfl)
  · intro entry member data
    rcases mem_three _ _ _ entry member with header | sent' | rfl
    · rw [(open'.entries entry header).2.1] at data
      cases data
    · have request := (each entry sent').requested
      have from' := (each entry sent').from'
      exact ⟨entry.1 - 1, by omega, by simpa [writeDataWait] using request⟩
    · cases data
  · rw [ends]
    exact flushed_settled drive mem count buffer issued opened written open' sent added each k met
  · intro entry member command i from' until'
    rw [ends] at until'
    rcases mem_three _ _ _ entry member with header | sent' | rfl
    · rw [(open'.entries entry header).2.2.2 command] at from'
      exact sound i from' (Nat.le_of_lt_succ until')
    · have data := isSector entry sent'
      rw [command] at data
      cases data
    · cases command
end

theorem command_opened (call : Call) (lba count : Nat) (only : call.writes = [(0, .outb ataDriveHead (UInt8.ofNat
    (0xE0 ||| (lba >>> 24 &&& 0x0F))))]) : CommandSent call.mem call.reads (sendLba call lba count 0x30).delay := by
  refine ⟨rfl, rfl, List.mem_append_right _ (List.mem_singleton.mpr rfl), fun entry member => ?_⟩
  simp only [sendLba, Call.outb, Call.write, Call.delay, only, List.mem_append, List.mem_singleton] at member
  rcases member with ((((rfl | rfl) | rfl) | rfl) | rfl) | rfl
  all_goals simp [PortWrite.sector, flushCommand, writeCommand, ataSectorCount, ataLbaLow, ataLbaMid, ataLbaHigh, ataDriveHead,
    ataCommand]

theorem flush_cache_waits (drive : Ata) (call : Call) : (flushCache drive call).waits = call.waits := by
  rcases flush_cache_cases drive call with ⟨k, _, flushed⟩ | ⟨_, flushed⟩
  · rw [flushed]
    rfl
  · rw [flushed]
    rfl

theorem write_timely_iff (trace : Nat → UInt8) (count k : Nat) (met : MetAt trace driveWait 0 k)
    (before : k + 1 < driveWait.polls) : WriteTimely trace count ↔ Timely trace (sectorWaits count) (k + 1 + 4) ∧
      ∀ first, Reaches trace (sectorWaits count) (k + 1 + 4) first → Flushed trace (k + 1) first := by
  have selected : Timely trace [driveWait] 0 := (timely_met_iff trace driveWait [] 0 k met before).mpr trivial
  have reaches (issued : Nat) : Reaches trace [driveWait] 0 issued ↔ issued = k + 1 := by
    rw [reaches_met_iff trace driveWait [] 0 k issued met before, Nat.zero_add]
    exact Iff.rfl
  constructor
  · exact fun timely => ⟨timely.sectors _ ((reaches _).mpr rfl), timely.flushed _ ((reaches _).mpr rfl)⟩
  · rintro ⟨sectors, flushed⟩
    refine ⟨selected, fun issued reached => ?_, fun issued reached => ?_⟩
    · rw [(reaches issued).mp reached]
      exact sectors
    · rw [(reaches issued).mp reached]
      exact flushed

theorem disk_write_iff (drive : Ata) (mem : Memory) (lba count buffer : Nat) :
    WriteRight drive mem lba count buffer ↔ WriteTimely drive.status count := by
  rw [WriteRight, diskWriteLba]
  generalize startEq : Call.selectDrive ⟨mem, 0, 0, [], []⟩ lba = start
  have reads : start.reads = 0 := by rw [← startEq]; rfl
  have fresh : AllHonest drive.status start.waits := by
    rw [← startEq]
    exact fun _ member => absurd member List.not_mem_nil
  rcases wait_drive_cases drive driveWait start with ⟨k, met, before, run⟩ | ⟨last, after, run, honest⟩
  case inr =>
    rw [run]
    refine (and_iff_right fun code => absurd code (show ¬ (-1 : Int) = 0 by decide)).trans ?_
    rw [honest, and_iff_right fresh, reads]
    rw [reads] at last
    constructor
    · intro unmet
      refine ⟨(timely_unmet_iff _ _ _ _ last).mpr unmet, fun issued reached => ?_, fun issued reached => ?_⟩
      · exact absurd reached (reaches_unmet _ _ _ _ _ last)
      · exact absurd reached (reaches_unmet _ _ _ _ _ last)
    · exact fun timely => (timely_unmet_iff _ _ _ _ last).mp timely.selected
  case inl =>
    rw [reads, Nat.zero_add] at run
    rw [reads] at met
    rw [run, write_timely_iff drive.status count k met before]
    generalize readyEq : Call.record { start with reads := k + 1 } driveWait 0 false = ready
    have opened := command_opened ready lba count (by rw [← readyEq, ← startEq]; rfl)
    have kept : AllHonest drive.status ready.waits := by
      rw [← readyEq, Call.record, all_honest_recorded]
      exact ⟨fresh, fun reported => by cases reported⟩
    have issued : ready.reads = k + 1 := by rw [← readyEq]; rfl
    have mem' : ready.mem = mem := by rw [← readyEq, ← startEq]; rfl
    rw [issued, mem'] at opened
    dsimp only
    generalize openedEq : (sendLba ready lba count 0x30).delay = call at opened
    have calm : AllHonest drive.status call.waits := by rw [← openedEq]; exact kept
    rw [← opened.reads]
    rcases write_sectors_cases drive count buffer call with ⟨timely, after, run, sent, reaches⟩ | ⟨unreached, after, run, honest⟩
    · rw [run]
      simp only [reaches, forall_eq]
      rw [flush_cache_waits, sent.honest, and_iff_left calm, and_iff_right timely]
      constructor
      · exact fun done => flushed_of_persisted drive mem count buffer (k + 1) call after opened sent (done trivial)
      · exact fun flushed _ => persisted_of_flushed drive mem count buffer (k + 1) call after opened sent flushed
    · rw [run]
      refine (and_iff_right fun code => absurd code (show ¬ (-1 : Int) = 0 by decide)).trans ?_
      refine (honest.trans (and_iff_right calm)).trans (and_iff_left fun first reached => ?_).symm
      exact absurd reached (unreached first)

theorem disk_read_iff (drive : Ata) (mem : Memory) (lba count buffer : Nat) :
    ReadRight drive mem lba count buffer ↔ Timely drive.status (List.replicate count readDataWait) 4 :=
  (read_sectors_honest_iff drive count buffer _).trans (and_iff_right fun _ member => absurd member List.not_mem_nil)

theorem disk_right_iff (drive : Ata) (mem : Memory) (lba count buffer : Nat) :
    (WriteRight drive mem lba count buffer ↔ WriteTimely drive.status count) ∧
      (ReadRight drive mem lba count buffer ↔ Timely drive.status (List.replicate count readDataWait) 4) :=
  ⟨disk_write_iff drive mem lba count buffer, disk_read_iff drive mem lba count buffer⟩

def failingDrive : Ata := ⟨fun i => if i = 6 then 0x41 else 0x58, fun _ _ => 0⟩

theorem met_first (trace : Nat → UInt8) (wait : Wait) (first : Nat) (allowed : 0 < wait.polls)
    (awaited : wait.awaits (trace first) = true) (sound : wait.fails (trace first) = false) : MetAt trace wait first 0 :=
  ⟨allowed, awaited, sound, fun _ below => absurd below (Nat.not_lt_zero _)⟩

theorem disk_write_hides_error : ¬ ∀ drive mem lba count buffer,
    WriteRight drive mem lba count buffer ∧ ReadRight drive mem lba count buffer := by
  intro claimed
  have timely := (disk_write_iff failingDrive (fun _ => 0) 0 1 0).mp (claimed _ _ _ _ _).1
  have selected : Reaches failingDrive.status [driveWait] 0 1 :=
    ⟨0, met_first _ _ _ (by decide) (by decide) (by decide), by decide, rfl⟩
  have sent : Reaches failingDrive.status (sectorWaits 1) 5 7 :=
    ⟨0, met_first _ _ _ (by decide) (by decide) (by decide), by decide,
      0, met_first _ _ _ (by decide) (by decide) (by decide), by decide, rfl⟩
  obtain ⟨k, _, sound⟩ := timely.flushed 1 selected 7 sent
  exact absurd (sound 6 (by decide) (by omega)) (by decide)

end RoDos.Fat
