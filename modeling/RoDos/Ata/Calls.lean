import RoDos.Ata.Transfers

set_option autoImplicit false

namespace RoDos.Ata

open Base

inductive Op where
  | read (lba : Nat) (count : UInt8)
  | write (lba : Nat) (count : UInt8) (buffer : Nat → UInt8)

-- data is what a read has stored to the buffer.
structure Reply where
  data : List (List UInt8)
  code : Int
deriving DecidableEq, Repr

def perform (system : System) : Op → System × Reply
  | .read lba count =>
      let call := diskReadLbaAta system lba count
      (call.1, ⟨call.2.1, call.2.2⟩)
  | .write lba count buffer =>
      let call := diskWriteLbaAta system lba count buffer
      (call.1, ⟨[], call.2⟩)

def serve (disk : Disk) : Op → Disk × Reply
  | .read lba count => (disk, ⟨sectorsAt disk lba count.toNat, 0⟩)
  | .write lba count buffer => (writeAll disk (writesFrom lba (bufferSectors buffer count.toNat)), ⟨[], 0⟩)

def Op.Fits (size : Nat) : Op → Prop
  | .read lba count => count ≠ 0 ∧ lba + count.toNat ≤ size
  | .write lba count _ => count ≠ 0 ∧ lba + count.toNat ≤ size

-- What can be said of any drive: a read changes nothing and brings a front of the sectors, all of them where it returns 0;
-- a write stores a front of the buffer, all of it but perhaps the last sector where it returns 0.
def Accounts (disk : Disk) : Op → Reply → Disk → Prop
  | .read lba count, reply, after =>
      after = disk ∧ (reply.code = 0 ∧ reply.data = sectorsAt disk (lba % 2 ^ 28) count.toNat ∨
        reply.code = -1 ∧ reply.data <+: sectorsAt disk (lba % 2 ^ 28) count.toNat)
  | .write lba count buffer, reply, after =>
      ∃ k ≤ count.toNat, after = writeAll disk ((writesFrom (lba % 2 ^ 28) (bufferSectors buffer count.toNat)).take k) ∧
        (reply.code = 0 ∧ count.toNat ≤ k + 1 ∨ reply.code = -1)

theorem accounts_refused (disk : Disk) (op : Op) : Accounts disk op ⟨[], -1⟩ disk := by
  cases op with
  | read lba count => exact ⟨rfl, Or.inr ⟨rfl, List.nil_prefix⟩⟩
  | write lba count buffer => exact ⟨0, Nat.zero_le _, rfl, Or.inr rfl⟩

structure Addressed (system : System) (secondary slave : Bool) (drive : Drive) : Prop where
  initialized : system.driver.ataInitialized = true
  on : On system.driver secondary
  bit : system.driver.ataDrive = slave.toNat
  selects : (system.bus secondary).file.slave = slave
  home : (system.bus secondary).drives slave = some drive

theorem addressed_placed (system : System) (secondary slave : Bool) (drive next : Drive) (file : TaskFile)
    (addressed : Addressed system secondary slave drive) (selects : file.slave = slave) :
    Addressed (system.placed secondary slave file next) secondary slave next := by
  refine ⟨addressed.initialized, addressed.on, addressed.bit, ?_, ?_⟩
  · rw [placed_file_here, selects]
  · exact placed_home ..

section
variable (drive : Drive) (file : TaskFile) (command : UInt8)

theorem command_same : drive.Same (drive.command file command) ∧ (drive.command file command).disk = drive.disk := by
  rw [Drive.command]
  split_ifs <;> exact ⟨⟨rfl, rfl⟩, rfl⟩

theorem command_prompt (prompt : drive.Prompt) : (drive.command file command).Prompt := by
  rw [Drive.command]
  split_ifs
  · exact prompt
  · exact proceed_prompt drive _ prompt
  · exact ⟨prompt.quiet, prompt.answers⟩
  · exact proceed_prompt drive _ prompt
  · exact proceed_prompt drive _ prompt
  · exact ⟨prompt.quiet, prompt.answers⟩

structure Begun (writes : Bool) (lba left : Nat) (drive begun : Drive) : Prop where
  same : drive.Same begun
  disk : begun.disk = drive.disk
  moving : Moving begun writes lba left
  prompt : drive.Prompt → begun.Prompt
  offers : drive.Prompt → lba + left ≤ drive.size → Offers begun writes lba left

theorem command_begun (slave writes : Bool) (lba : Nat) (count : UInt8) (sent : Sent slave lba count file) (some' : count ≠ 0)
    (ready : drive.busy = []) (which : command = if writes then ataCmdWritePio else ataCmdReadPio) :
    Begun writes (lba % 2 ^ 28) count.toNat drive (drive.command file command) := by
  have sectors : file.sectors = count.toNat := by
    rw [TaskFile.sectors, sent.count]
    exact if_neg some'
  have taken : drive.command file command = drive.proceed (.transfer writes (lba % 2 ^ 28) count.toNat) := by
    rw [Drive.command, if_neg (not_not.mpr ready), which]
    cases writes
    · rw [if_neg (by decide), if_neg sent.lbaMode, if_pos (by decide), sent.lba, sectors]
    · rw [if_neg (by decide), if_neg sent.lbaMode, if_neg (by decide), if_pos (by decide), sent.lba, sectors]
  obtain ⟨same, disk⟩ := command_same drive file command
  refine ⟨same, disk, ?_, command_prompt drive file command, ?_⟩
  · rw [taken]
    exact (proceed_phase drive _).imp_left And.left
  · intro prompt fits
    rw [taken]
    refine ⟨fits, fun more => proceed_good drive _ prompt (decide_eq_true ?_)⟩
    exact Nat.lt_of_lt_of_le (Nat.lt_add_of_pos_right more) fits
end

structure Called (drive next : Drive) (op : Op) (reply : Reply) : Prop where
  same : drive.Same next
  accounts : Accounts drive.disk op reply next.disk
  prompt : drive.Prompt → drive.size ≤ 2 ^ 28 → op.Fits drive.size → next.Prompt ∧ serve drive.disk op = (next.disk, reply)

theorem fits_lba (lba size : Nat) (count : UInt8) (fits : count ≠ 0 ∧ lba + count.toNat ≤ size) (small : size ≤ 2 ^ 28) :
    lba % 2 ^ 28 = lba := by
  have some' : 0 < count.toNat := UInt8.lt_iff_toNat_lt.mp (UInt8.pos_iff_ne_zero.mpr fits.1)
  exact Nat.mod_eq_of_lt (by omega)

theorem called_then (drive written next : Drive) (op : Op) (reply : Reply) (called : Called drive written op reply)
    (same : written.Same next) (disk : next.disk = written.disk) (further : written.Prompt → next.Prompt) :
    Called drive next op reply := by
  refine ⟨⟨same.size.trans called.same.size, same.answers.trans called.same.answers⟩, ?_, fun prompt small fits => ?_⟩
  · rw [disk]
    exact called.accounts
  · obtain ⟨quiet, served⟩ := called.prompt prompt small fits
    rw [disk]
    exact ⟨further quiet, served⟩

theorem buffer_sectors_length (buffer : Nat → UInt8) (count : Nat) : (bufferSectors buffer count).length = count := by
  rw [bufferSectors, List.length_map, List.length_range]

section
variable (system : System) (secondary slave : Bool) (sent : TaskFile) (selects : sent.slave = slave) (on : On system.driver secondary)
include selects on

theorem write_begun (drive writing : Drive) (n lba : Nat) (count : UInt8) (buffer : Nat → UInt8)
    (begun : Begun true (lba % 2 ^ 28) count.toNat (drive.polled n) writing) : ∃ written code,
    writeLoop (bufferSectors buffer count.toNat) (system.placed secondary slave sent writing) =
      (system.placed secondary slave sent written, code) ∧ Called drive written (.write lba count buffer) ⟨[], code⟩ := by
  have length := buffer_sectors_length buffer count.toNat
  obtain ⟨written, code, loop, wrote⟩ := write_loop_placed system secondary slave sent selects on
    (bufferSectors buffer count.toNat) (lba % 2 ^ 28) writing (by rw [length]; exact begun.moving)
  refine ⟨written, code, loop, ⟨wrote.same.size.trans begun.same.size, wrote.same.answers.trans begun.same.answers⟩, ?_, ?_⟩
  · obtain ⟨k, within, disk, reported⟩ := wrote.disk
    rw [length] at within reported
    rw [begun.disk] at disk
    exact ⟨k, within, disk, reported⟩
  · intro prompt small fits
    have quiet := polled_prompt drive n prompt
    have inside := fits_lba lba drive.size count fits small
    have done := wrote.prompt (begun.prompt quiet) (by rw [length]; exact begun.offers quiet (by rw [inside]; exact fits.2))
    rw [inside, begun.disk] at done
    obtain ⟨fine, further, stored⟩ := done
    refine ⟨further, ?_⟩
    rw [fine, stored]
    rfl

theorem flush_placed (drive : Drive) : ∃ next,
    (ataWaitReady polls ((system.placed secondary slave sent drive).outb
      ((system.placed secondary slave sent drive).driver.ataBase + ataRegCommand) ataCmdCacheFlush)).1 =
        system.placed secondary slave sent next ∧
      drive.Same next ∧ next.disk = drive.disk ∧ (drive.Prompt → next.Prompt) := by
  obtain ⟨same, disk⟩ := command_same drive sent ataCmdCacheFlush
  obtain ⟨n, waited⟩ := wait_ready_placed system secondary slave sent selects on polls (drive.command sent ataCmdCacheFlush)
  rw [placed_driver, on.base, command_placed _ _ _ _ _ selects]
  refine ⟨(drive.command sent ataCmdCacheFlush).polled n, ?_, ⟨same.size, same.answers⟩, disk, fun prompt =>
    polled_prompt _ n (command_prompt drive sent _ prompt)⟩
  rcases waited with settled | slow
  · rw [settled.1]
  · rw [slow.1]

end

section
variable (system : System) (secondary slave : Bool) (drive : Drive) (addressed : Addressed system secondary slave drive)
include addressed

theorem init_addressed : ataInit system = (system, 0) := by
  rw [ataInit]
  exact if_pos addressed.initialized

theorem ready_addressed : ∃ file n, file.slave = slave ∧
    ((ataWaitReady polls system = (system.placed secondary slave file (drive.polled n), 0) ∧ (drive.polled n).busy = []) ∨
      (ataWaitReady polls system = (system.placed secondary slave file (drive.polled n), -1) ∧ ¬ drive.Prompt)) := by
  obtain ⟨n, waited⟩ := wait_ready_placed system secondary slave (system.bus secondary).file addressed.selects
    addressed.on polls drive
  rw [placed_eq system secondary slave (system.bus secondary).file drive addressed.home rfl] at waited
  refine ⟨(system.bus secondary).file, n, addressed.selects, waited.imp_right fun slow => ⟨slow.1, fun prompt => ?_⟩⟩
  exact absurd prompt.quiet.1 (Nat.not_lt.mpr slow.2)

theorem read_addressed (lba : Nat) (count : UInt8) : ∃ file next data code,
    ataReadSectors system lba count = (system.placed secondary slave file next, data, code) ∧ file.slave = slave ∧
      Called drive next (.read lba count) ⟨data, code⟩ := by
  rw [ataReadSectors, init_addressed system secondary slave drive addressed]
  dsimp only
  rw [if_neg (not_not.mpr rfl)]
  by_cases none' : count = 0
  · refine ⟨(system.bus secondary).file, drive, [], -1, ?_, addressed.selects, ⟨rfl, rfl⟩, accounts_refused _ _,
      fun _ _ fits => absurd none' fits.1⟩
    rw [if_pos none', placed_eq system secondary slave _ drive addressed.home rfl]
  · rw [if_neg none']
    obtain ⟨file, n, selects, ready | slow⟩ := ready_addressed system secondary slave drive addressed
    · rw [ready.1]
      dsimp only
      obtain ⟨sent, right, run⟩ := send_placed system secondary slave file addressed.on addressed.bit (drive.polled n) ready.2
        lba count ataCmdReadPio
      have begun := command_begun (drive.polled n) sent ataCmdReadPio slave false lba count right none' ready.2 rfl
      rw [if_neg (not_not.mpr rfl), run]
      generalize (drive.polled n).command sent ataCmdReadPio = reading at begun
      obtain ⟨next, data, code, loop, read⟩ := read_loop_placed system secondary slave sent right.selects addressed.on
        count.toNat (lba % 2 ^ 28) reading begun.moving
      have told := read.data
      rw [begun.disk] at told
      refine ⟨sent, next, data, code, loop, right.selects,
        ⟨read.same.size.trans begun.same.size, read.same.answers.trans begun.same.answers⟩,
        ⟨read.disk.trans begun.disk, told⟩, ?_⟩
      intro prompt small fits
      have quiet := polled_prompt drive n prompt
      have inside := fits_lba lba drive.size count fits small
      obtain ⟨fine, further⟩ := read.prompt (begun.prompt quiet) (begun.offers quiet (by rw [inside]; exact fits.2))
      refine ⟨further, ?_⟩
      rw [fine, serve, read.disk.trans begun.disk]
      rcases told with ⟨_, all⟩ | ⟨failed, _⟩
      · rw [all, inside]
        rfl
      · rw [fine] at failed
        cases failed
    · rw [slow.1]
      exact ⟨file, drive.polled n, [], -1, if_pos (show (-1 : Int) ≠ 0 by decide), selects,
        ⟨rfl, rfl⟩, accounts_refused _ _, fun prompt _ _ => absurd prompt slow.2⟩

theorem write_addressed (lba : Nat) (count : UInt8) (buffer : Nat → UInt8) : ∃ file next code,
    ataWriteSectors system lba count buffer = (system.placed secondary slave file next, code) ∧ file.slave = slave ∧
      Called drive next (.write lba count buffer) ⟨[], code⟩ := by
  rw [ataWriteSectors, init_addressed system secondary slave drive addressed]
  dsimp only
  rw [if_neg (not_not.mpr rfl)]
  by_cases none' : count = 0
  · refine ⟨(system.bus secondary).file, drive, -1, ?_, addressed.selects, ⟨rfl, rfl⟩, accounts_refused _ _,
      fun _ _ fits => absurd none' fits.1⟩
    rw [if_pos none', placed_eq system secondary slave _ drive addressed.home rfl]
  · rw [if_neg none']
    obtain ⟨file, n, selects, ready | slow⟩ := ready_addressed system secondary slave drive addressed
    · rw [ready.1]
      dsimp only
      obtain ⟨sent, right, run⟩ := send_placed system secondary slave file addressed.on addressed.bit (drive.polled n) ready.2
        lba count ataCmdWritePio
      have begun := command_begun (drive.polled n) sent ataCmdWritePio slave true lba count right none' ready.2 rfl
      obtain ⟨written, code, loop, called⟩ := write_begun system secondary slave sent right.selects addressed.on drive _ n lba
        count buffer begun
      rw [if_neg (not_not.mpr rfl), run, loop]
      dsimp only
      by_cases fine : code = 0
      · obtain ⟨next, flushed, same, disk, further⟩ := flush_placed system secondary slave sent right.selects addressed.on written
        rw [if_neg (not_not.mpr fine), flushed]
        rw [fine] at called
        exact ⟨sent, next, 0, rfl, right.selects, called_then drive written next _ _ called same disk further⟩
      · rw [if_pos fine]
        have failed : code = -1 := by
          obtain ⟨_, _, _, reported⟩ := called.accounts
          exact reported.elim (fun zero => absurd zero.1 fine) id
        rw [failed] at called
        exact ⟨sent, written, -1, rfl, right.selects, called⟩
    · rw [slow.1]
      exact ⟨file, drive.polled n, -1, if_pos (show (-1 : Int) ≠ 0 by decide), selects,
        ⟨rfl, rfl⟩, accounts_refused _ _, fun prompt _ _ => absurd prompt slow.2⟩

theorem perform_addressed (op : Op) : ∃ file next reply, perform system op = (system.placed secondary slave file next, reply) ∧
    file.slave = slave ∧ Called drive next op reply := by
  cases op with
  | read lba count =>
      obtain ⟨file, next, data, code, run, selects, called⟩ := read_addressed system secondary slave drive addressed lba count
      refine ⟨file, next, ⟨data, code⟩, ?_, selects, called⟩
      rw [perform, diskReadLbaAta, run]
  | write lba count buffer =>
      obtain ⟨file, next, code, run, selects, called⟩ :=
        write_addressed system secondary slave drive addressed lba count buffer
      refine ⟨file, next, ⟨[], code⟩, ?_, selects, called⟩
      rw [perform, diskWriteLbaAta, run]
end

end RoDos.Ata
