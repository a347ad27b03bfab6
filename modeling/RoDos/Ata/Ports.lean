import RoDos.Ata.Model

set_option autoImplicit false

namespace RoDos.Ata

open Base

def baseOf (secondary : Bool) : Nat := if secondary then ataSecondaryBase else ataPrimaryBase

def ctrlOf (secondary : Bool) : Nat := if secondary then ataSecondaryCtrl else ataPrimaryCtrl

structure On (driver : Driver) (secondary : Bool) : Prop where
  base : driver.ataBase = baseOf secondary
  ctrl : driver.ataCtrl = ctrlOf secondary

def System.placed (system : System) (secondary slave : Bool) (file : TaskFile) (drive : Drive) : System :=
  system.withChannel secondary
    { system.bus secondary with file := file, drives := Function.update (system.bus secondary).drives slave (some drive) }

theorem status_port (secondary : Bool) : ports.lookup (baseOf secondary + ataRegStatus) = some (secondary, .status) := by
  cases secondary <;> rfl

theorem ctrl_port (secondary : Bool) : ports.lookup (ctrlOf secondary) = some (secondary, .ctrl) := by
  cases secondary <;> rfl

theorem data_port (secondary : Bool) : ports.lookup (baseOf secondary + ataRegData) = some (secondary, .data) := by
  cases secondary <;> rfl

section
variable (system : System) (secondary slave : Bool) (file other : TaskFile) (drive next : Drive)

theorem placed_driver : (system.placed secondary slave file drive).driver = system.driver := rfl

theorem channel_here (channel : Channel) : (system.withChannel secondary channel).bus secondary = channel :=
  Function.update_self ..

theorem channel_elsewhere (channel : Channel) (different : Bool) (elsewhere : different ≠ secondary) :
    (system.withChannel secondary channel).bus different = system.bus different := Function.update_of_ne elsewhere ..

theorem placed_channel : (system.placed secondary slave file drive).bus secondary =
    { system.bus secondary with file := file, drives := Function.update (system.bus secondary).drives slave (some drive) } :=
  Function.update_self ..

theorem placed_home : ((system.placed secondary slave file drive).bus secondary).drives slave = some drive := by
  simp only [placed_channel, Function.update_self]

theorem placed_file_here : ((system.placed secondary slave file drive).bus secondary).file = file := by rw [placed_channel]

theorem placed_eq (home : (system.bus secondary).drives slave = some drive) (same : (system.bus secondary).file = file) :
    system.placed secondary slave file drive = system := by
  simp only [System.placed, System.withChannel, ← same, ← home, Function.update_eq_self]

theorem placed_selected (selects : file.slave = slave) :
    ((system.placed secondary slave file drive).bus secondary).selected = some drive := by
  rw [Channel.selected, placed_file_here, selects, placed_home]

theorem placed_put (selects : file.slave = slave) :
    (system.placed secondary slave file drive).withChannel secondary
        (((system.placed secondary slave file drive).bus secondary).put next) =
      system.placed secondary slave file next := by
  rw [placed_channel, Channel.put]
  simp only [System.placed, System.withChannel, Function.update_idem, selects]

theorem placed_file : (system.placed secondary slave file drive).withChannel secondary
      { (system.placed secondary slave file drive).bus secondary with file := other } =
    system.placed secondary slave other drive := by
  rw [placed_channel]
  simp only [System.placed, System.withChannel, Function.update_idem]

theorem status_placed (selects : file.slave = slave) :
    (system.placed secondary slave file drive).inb (baseOf secondary + ataRegStatus) =
      (drive.status, system.placed secondary slave file (drive.polled 1)) := by
  rw [System.inb, status_port]
  dsimp only
  rw [Channel.status, placed_selected _ _ _ _ _ selects]
  dsimp only
  rw [placed_put _ _ _ _ _ _ selects]

theorem alternate_placed (selects : file.slave = slave) :
    (system.placed secondary slave file drive).inb (ctrlOf secondary) =
      (drive.status, system.placed secondary slave file (drive.polled 1)) := by
  rw [System.inb, ctrl_port]
  dsimp only
  rw [Channel.status, placed_selected _ _ _ _ _ selects]
  dsimp only
  rw [placed_put _ _ _ _ _ _ selects]

theorem polled_polled (n m : Nat) : (drive.polled n).polled m = drive.polled (n + m) := by
  rw [Drive.polled, Drive.polled, Drive.polled, List.drop_drop]

theorem delay_placed (selects : file.slave = slave) (on : On system.driver secondary) :
    ataDelay (system.placed secondary slave file drive) = system.placed secondary slave file (drive.polled 4) := by
  rw [ataDelay, placed_driver, on.ctrl]
  simp only [alternate_placed _ _ _ _ _ selects, polled_polled]

theorem command_placed (selects : file.slave = slave) (command : UInt8) :
    (system.placed secondary slave file drive).outb (baseOf secondary + ataRegCommand) command =
      system.placed secondary slave file (drive.command file command) := by
  rw [System.outb, show ataRegCommand = ataRegStatus from rfl, status_port]
  dsimp only
  rw [Channel.write, placed_selected _ _ _ _ _ selects]
  dsimp only
  rw [placed_put _ _ _ _ _ _ selects, placed_channel]

theorem insw_placed (selects : file.slave = slave) :
    (system.placed secondary slave file drive).insw (baseOf secondary + ataRegData) =
      (drive.insw.1, system.placed secondary slave file drive.insw.2) := by
  rw [System.insw, data_port]
  dsimp only
  rw [placed_selected _ _ _ _ _ selects]
  dsimp only
  rw [placed_put _ _ _ _ _ _ selects]

theorem outsw_placed (selects : file.slave = slave) (bytes : List UInt8) :
    (system.placed secondary slave file drive).outsw (baseOf secondary + ataRegData) bytes =
      system.placed secondary slave file (drive.outsw bytes) := by
  rw [System.outsw, data_port]
  dsimp only
  rw [placed_selected _ _ _ _ _ selects]
  dsimp only
  rw [placed_put _ _ _ _ _ _ selects]

theorem register_placed (reg : Nat) (field : Reg) (port : ports.lookup (baseOf secondary + reg) = some (secondary, field))
    (byte : UInt8)
    (stores : ((system.placed secondary slave file drive).bus secondary).write byte field =
      { (system.placed secondary slave file drive).bus secondary with file := other }) :
    (system.placed secondary slave file drive).outb (baseOf secondary + reg) byte =
      system.placed secondary slave other drive := by
  rw [System.outb, port]
  dsimp only
  rw [stores, placed_file]
end

-- The statuses of a drive that is busy for less than the polls allowed, without an error among them.
def Quiet (timeout : Nat) (busy : List UInt8) : Prop := busy.length < timeout ∧ ∀ byte ∈ busy, byte &&& ataSrErr = 0

section
variable (drive : Drive)

theorem ready_status (ready : drive.busy = []) : drive.status =
    0x50 ||| (if drive.phase = .idle then 0 else ataSrDrq) ||| (if drive.error then ataSrErr else 0) := by
  rw [Drive.status, ready]

theorem ready_not_busy (ready : drive.busy = []) : drive.status &&& ataSrBsy = 0 := by
  rw [ready_status drive ready]
  cases drive.error <;> split <;> rfl

theorem ready_drq_iff (ready : drive.busy = []) : drive.status &&& ataSrDrq ≠ 0 ↔ drive.phase ≠ .idle := by
  rw [ready_status drive ready]
  by_cases idle : drive.phase = .idle
  · rw [if_pos idle]
    cases drive.error <;> exact iff_of_false (fun some' => some' rfl) fun other => other idle
  · rw [if_neg idle]
    cases drive.error <;> exact iff_of_true (by decide) idle

theorem ready_err_iff (ready : drive.busy = []) : drive.status &&& ataSrErr ≠ 0 ↔ drive.error = true := by
  rw [ready_status drive ready]
  cases drive.error <;> split <;> decide

theorem ready_answers (ready : drive.busy = []) : ¬ (drive.status = 0 ∨ drive.status = 0xFF) := by
  rw [ready_status drive ready]
  cases drive.error <;> split <;> decide

variable (byte : UInt8) (rest : List UInt8) (busy : drive.busy = byte :: rest)
include busy

theorem busy_status : drive.status = ataSrBsy ||| byte := by rw [Drive.status, busy]

theorem busy_busy : drive.status &&& ataSrBsy ≠ 0 := by
  intro clear
  have both : drive.status &&& ataSrBsy = ataSrBsy := by
    rw [busy_status drive byte rest busy, UInt8.and_comm]
    refine UInt8.toNat_inj.mp (Nat.eq_of_testBit_eq fun i => ?_)
    rw [UInt8.toNat_and, UInt8.toNat_or, Nat.testBit_and, Nat.testBit_or]
    cases ataSrBsy.toNat.testBit i <;> rfl
  rw [both] at clear
  cases clear

theorem busy_err (clean : byte &&& ataSrErr = 0) : drive.status &&& ataSrErr = 0 := by
  rw [busy_status drive byte rest busy]
  exact UInt8.toNat_inj.mp (by
    have none' := congrArg UInt8.toNat clean
    rw [UInt8.toNat_and] at none'
    rw [UInt8.toNat_and, UInt8.toNat_or, Nat.and_or_distrib_right, none']
    rfl)

theorem polled_one : (drive.polled 1).busy = rest := by rw [Drive.polled, busy]; rfl
end

section
variable (system : System) (secondary slave : Bool) (file : TaskFile) (selects : file.slave = slave)
  (on : On system.driver secondary)
include selects on

-- By induction on the polls that are left: each takes one status off the busy ones.
theorem wait_ready_placed (timeout : Nat) (drive : Drive) : ∃ n,
    (ataWaitReady timeout (system.placed secondary slave file drive) = (system.placed secondary slave file (drive.polled n), 0) ∧
      (drive.polled n).busy = []) ∨
    (ataWaitReady timeout (system.placed secondary slave file drive) = (system.placed secondary slave file (drive.polled n), -1) ∧
      timeout ≤ drive.busy.length) := by
  induction timeout generalizing drive with
  | zero => exact ⟨0, Or.inr ⟨rfl, Nat.zero_le _⟩⟩
  | succ timeout ih =>
      rw [ataWaitReady, placed_driver, on.base, status_placed _ _ _ _ _ selects]
      cases busy : drive.busy with
      | nil =>
          refine ⟨1, Or.inl ⟨if_pos (ready_not_busy drive busy), ?_⟩⟩
          rw [Drive.polled, busy]
          rfl
      | cons byte rest =>
          rw [if_neg (busy_busy drive byte rest busy)]
          obtain ⟨n, done | late⟩ := ih (drive.polled 1)
          · refine ⟨1 + n, Or.inl ?_⟩
            rw [← polled_polled]
            exact done
          · refine ⟨1 + n, Or.inr ?_⟩
            rw [← polled_polled]
            refine ⟨late.1, ?_⟩
            have short := late.2
            rw [polled_one drive byte rest busy] at short
            exact Nat.succ_le_succ short

theorem wait_drq_placed (timeout : Nat) (drive : Drive) : ∃ n,
    (ataWaitDrq timeout (system.placed secondary slave file drive) = (system.placed secondary slave file (drive.polled n), 0) ∧
      (drive.polled n).busy = [] ∧ drive.phase ≠ .idle ∧ drive.error = false) ∨
    (ataWaitDrq timeout (system.placed secondary slave file drive) = (system.placed secondary slave file (drive.polled n), -1) ∧
      ¬ (Quiet timeout drive.busy ∧ drive.phase ≠ .idle ∧ drive.error = false)) := by
  induction timeout generalizing drive with
  | zero => exact ⟨0, Or.inr ⟨rfl, fun quiet => absurd quiet.1.1 (Nat.not_lt_zero _)⟩⟩
  | succ timeout ih =>
      rw [ataWaitDrq, placed_driver, on.base, status_placed _ _ _ _ _ selects]
      cases busy : drive.busy with
      | nil =>
          have err := ready_err_iff drive busy
          have drq := ready_drq_iff drive busy
          have ready : (drive.polled 1).busy = [] := by rw [Drive.polled, busy]; rfl
          by_cases failed : drive.error = true
          · refine ⟨1, Or.inr ⟨if_pos (err.mpr failed), fun quiet => ?_⟩⟩
            exact Bool.false_ne_true (quiet.2.2.symm.trans failed)
          · rw [if_neg (mt err.mp failed)]
            by_cases idle : drive.phase = .idle
            · rw [if_neg fun both => drq.mp both.2 idle]
              obtain ⟨n, done | late⟩ := ih (drive.polled 1)
              · exact absurd idle done.2.2.1
              · refine ⟨1 + n, Or.inr ⟨?_, fun quiet => quiet.2.1 idle⟩⟩
                rw [← polled_polled]
                exact late.1
            · exact ⟨1, Or.inl ⟨if_pos ⟨ready_not_busy drive busy, drq.mpr idle⟩, ready, idle, Bool.eq_false_iff.mpr failed⟩⟩
      | cons byte rest =>
          by_cases failed : drive.status &&& ataSrErr = 0
          · rw [if_neg (not_not.mpr failed), if_neg fun both => busy_busy drive byte rest busy both.1]
            obtain ⟨n, done | late⟩ := ih (drive.polled 1)
            · refine ⟨1 + n, Or.inl ?_⟩
              rw [← polled_polled]
              exact done
            · refine ⟨1 + n, Or.inr ?_⟩
              rw [← polled_polled]
              refine ⟨late.1, fun quiet => late.2 ⟨?_, quiet.2⟩⟩
              rw [polled_one drive byte rest busy]
              exact ⟨Nat.lt_of_succ_lt_succ quiet.1.1, fun other member => quiet.1.2 other (List.mem_cons_of_mem _ member)⟩
          · refine ⟨1, Or.inr ⟨if_pos failed, fun quiet => failed ?_⟩⟩
            exact busy_err drive byte rest busy (quiet.1.2 byte List.mem_cons_self)
end

def driveSelect (slave : Bool) (high : Nat) : UInt8 := UInt8.ofNat (0xE0 ||| slave.toNat <<< 4 ||| high)

theorem drive_select_bits (high : Nat) (nibble : high < 16) (slave : Bool) :
    (driveSelect slave high &&& 0x10 != 0) = slave ∧ driveSelect slave high &&& 0x40 ≠ 0 ∧
      (driveSelect slave high &&& 0x0F).toNat = high := by
  revert high slave
  decide

section
variable (system : System) (secondary slave : Bool) (file : TaskFile) (selects : file.slave = slave)
  (on : On system.driver secondary)

structure Sent (slave : Bool) (lba : Nat) (count : UInt8) (file : TaskFile) : Prop where
  selects : file.slave = slave
  lba : file.lba = lba % 2 ^ 28
  count : file.seccount = count
  lbaMode : file.drive &&& 0x40 ≠ 0

theorem port_of (reg : Nat) (field : Reg) (primary : ports.lookup (baseOf false + reg) = some (false, field))
    (other : ports.lookup (baseOf true + reg) = some (true, field)) :
    ports.lookup (baseOf secondary + reg) = some (secondary, field) := by
  cases secondary
  · exact primary
  · exact other

include on in
theorem send_placed (bit : system.driver.ataDrive = slave.toNat) (drive : Drive) (ready : drive.busy = []) (lba : Nat)
    (count command : UInt8) : ∃ sent, Sent slave lba count sent ∧
      sendCommand (system.placed secondary slave file drive) lba count command =
        system.placed secondary slave sent (drive.command sent command) := by
  have high : lba >>> 24 &&& 0x0F = lba / 2 ^ 24 % 2 ^ 4 := by
    rw [Nat.shiftRight_eq_div_pow]
    exact Nat.and_two_pow_sub_one_eq_mod _ 4
  have low (n : Nat) : (UInt8.ofNat (n &&& 0xFF)).toNat = n % 2 ^ 8 := by
    rw [show n &&& 0xFF = n % 2 ^ 8 from Nat.and_two_pow_sub_one_eq_mod n 8]
    exact Nat.mod_mod _ _
  obtain ⟨bits, mode, nibble⟩ := drive_select_bits (lba / 2 ^ 24 % 2 ^ 4) (Nat.mod_lt _ (by decide)) slave
  refine ⟨⟨count, UInt8.ofNat (lba &&& 0xFF), UInt8.ofNat (lba >>> 8 &&& 0xFF), UInt8.ofNat (lba >>> 16 &&& 0xFF),
    driveSelect slave (lba / 2 ^ 24 % 2 ^ 4)⟩, ⟨bits, ?_, rfl, mode⟩, ?_⟩
  · rw [TaskFile.lba, low, low, low, nibble, Nat.shiftRight_eq_div_pow, Nat.shiftRight_eq_div_pow]
    omega
  · have selected : ({ file with drive := driveSelect slave (lba / 2 ^ 24 % 2 ^ 4) } : TaskFile).slave = slave := bits
    have still : drive.polled 4 = drive := by rw [Drive.polled, ready, List.drop_nil, ← ready]
    rw [sendCommand, placed_driver, on.base, bit, high,
      register_placed _ _ _ _ { file with drive := driveSelect slave (lba / 2 ^ 24 % 2 ^ 4) } _ ataRegDrive .drive
        (port_of secondary _ _ rfl rfl) _ (by rw [placed_channel]; rfl),
      delay_placed _ _ _ _ _ selected on, still,
      register_placed _ _ _ _ { file with drive := driveSelect slave (lba / 2 ^ 24 % 2 ^ 4), seccount := count } _
        ataRegSeccount .seccount (port_of secondary _ _ rfl rfl) _ (by rw [placed_channel]; rfl),
      register_placed _ _ _ _ _ _ ataRegLbaLo .lbaLo (port_of secondary _ _ rfl rfl) _ (by rw [placed_channel]; rfl),
      register_placed _ _ _ _ _ _ ataRegLbaMid .lbaMid (port_of secondary _ _ rfl rfl) _ (by rw [placed_channel]; rfl),
      register_placed _ _ _ _ _ _ ataRegLbaHi .lbaHi (port_of secondary _ _ rfl rfl) _ (by rw [placed_channel]; rfl),
      command_placed]
    exact bits
end

end RoDos.Ata
