import RoDos.Ata.Calls

set_option autoImplicit false

namespace RoDos.Ata

open Base

def System.disk (system : System) (secondary slave : Bool) : Option Disk := ((system.bus secondary).drives slave).map Drive.disk

structure Framed (system next : System) : Prop where
  disk : ∀ secondary slave, next.disk secondary slave = system.disk secondary slave
  absent : ∀ secondary, (next.bus secondary).absent = (system.bus secondary).absent

structure Kept (system next : System) : Prop where
  driver : next.driver = system.driver
  framed : Framed system next

structure Still (system next : System) : Prop where
  kept : Kept system next
  file : ∀ secondary, (next.bus secondary).file = (system.bus secondary).file

theorem framed_refl (system : System) : Framed system system := ⟨fun _ _ => rfl, fun _ => rfl⟩

theorem framed_trans (system next last : System) (first : Framed system next) (second : Framed next last) :
    Framed system last :=
  ⟨fun secondary slave => (second.disk secondary slave).trans (first.disk secondary slave),
    fun secondary => (second.absent secondary).trans (first.absent secondary)⟩

theorem kept_refl (system : System) : Kept system system := ⟨rfl, framed_refl system⟩

theorem kept_trans (system next last : System) (first : Kept system next) (second : Kept next last) : Kept system last :=
  ⟨second.driver.trans first.driver, framed_trans _ _ _ first.framed second.framed⟩

theorem still_refl (system : System) : Still system system := ⟨kept_refl system, fun _ => rfl⟩

theorem still_trans (system next last : System) (first : Still system next) (second : Still next last) : Still system last :=
  ⟨kept_trans _ _ _ first.kept second.kept, fun secondary => (second.file secondary).trans (first.file secondary)⟩

section
variable (system : System) (secondary : Bool) (channel : Channel)

theorem with_channel_kept (absent : channel.absent = (system.bus secondary).absent)
    (disks : ∀ slave, (channel.drives slave).map Drive.disk = system.disk secondary slave) :
    Kept system (system.withChannel secondary channel) := by
  refine ⟨rfl, fun other slave => ?_, fun other => ?_⟩
  · by_cases here : other = secondary
    · subst here
      rw [System.disk, channel_here, disks]
    · rw [System.disk, channel_elsewhere _ _ _ _ here, System.disk]
  · by_cases here : other = secondary
    · subst here
      rw [channel_here, absent]
    · rw [channel_elsewhere _ _ _ _ here]

theorem put_kept (drive next : Drive) (selected : (system.bus secondary).selected = some drive) (disk : next.disk = drive.disk) :
    Kept system (system.withChannel secondary ((system.bus secondary).put next)) := by
  refine with_channel_kept system secondary _ rfl fun slave => ?_
  rw [Channel.put, System.disk]
  dsimp only
  by_cases here : slave = (system.bus secondary).file.slave
  · rw [here, Function.update_self, show (system.bus secondary).drives _ = some drive from selected]
    exact congrArg some disk
  · rw [Function.update_of_ne here]

theorem status_still : Still system (system.withChannel secondary (system.bus secondary).status.2) := by
  rw [Channel.status]
  cases selected : (system.bus secondary).selected with
  | none =>
      rw [System.withChannel, Function.update_eq_self]
      exact still_refl system
  | some drive =>
      refine ⟨put_kept system secondary drive _ selected rfl, fun other => ?_⟩
      by_cases here : other = secondary
      · subst here
        rw [channel_here]
        rfl
      · rw [channel_elsewhere _ _ _ _ here]

theorem inb_still (port : Nat) : Still system (system.inb port).2 := by
  rw [System.inb]
  split
  · exact status_still system _
  · exact status_still system _
  · exact still_refl system

theorem delay_still : Still system (ataDelay system) :=
  still_trans _ _ _ (still_trans _ _ _ (still_trans _ _ _ (inb_still _ _) (inb_still _ _)) (inb_still _ _)) (inb_still _ _)

theorem wait_ready_still (timeout : Nat) : Still system (ataWaitReady timeout system).1 := by
  induction timeout generalizing system with
  | zero => exact still_refl system
  | succ timeout ih =>
      rw [ataWaitReady]
      split
      · exact inb_still system _
      · exact still_trans _ _ _ (inb_still system _) (ih _)

theorem outb_kept (port : Nat) (byte : UInt8) : Kept system (system.outb port byte) := by
  rw [System.outb]
  split
  · next secondary reg _ =>
      cases reg with
      | status =>
          rw [Channel.write]
          cases selected : (system.bus secondary).selected with
          | none => exact with_channel_kept system secondary _ rfl fun _ => rfl
          | some drive => exact put_kept system secondary drive _ selected (command_same drive _ byte).2
      | ctrl =>
          rw [Channel.write]
          split
          · exact with_channel_kept system secondary _ rfl fun _ => rfl
          · refine with_channel_kept system secondary _ rfl fun slave => ?_
            rw [Option.map_map]
            rfl
      | data => exact with_channel_kept system secondary _ rfl fun _ => rfl
      | seccount => exact with_channel_kept system secondary _ rfl fun _ => rfl
      | lbaLo => exact with_channel_kept system secondary _ rfl fun _ => rfl
      | lbaMid => exact with_channel_kept system secondary _ rfl fun _ => rfl
      | lbaHi => exact with_channel_kept system secondary _ rfl fun _ => rfl
      | drive => exact with_channel_kept system secondary _ rfl fun _ => rfl
  · exact kept_refl system

theorem soft_reset_kept : Kept system (softReset system) :=
  kept_trans _ _ _ (kept_trans _ _ _ (kept_trans _ _ _ (outb_kept _ _ _) (delay_still _).kept) (outb_kept _ _ _)) (delay_still _).kept
end

section
variable (system : System) (secondary : Bool)

theorem drive_write (byte : UInt8) : system.outb (baseOf secondary + ataRegDrive) byte =
    system.withChannel secondary
      { system.bus secondary with file := { (system.bus secondary).file with drive := byte } } := by
  rw [System.outb, port_of secondary ataRegDrive .drive rfl rfl]
  rfl

section
variable (none' : (system.bus secondary).selected = none)
include none'

theorem status_absent : (system.bus secondary).status = ((system.bus secondary).absent, system.bus secondary) := by
  rw [Channel.status, none']

theorem inb_absent : system.inb (baseOf secondary + ataRegStatus) = ((system.bus secondary).absent, system) := by
  rw [System.inb, status_port]
  dsimp only
  rw [status_absent system secondary none', System.withChannel, Function.update_eq_self]

theorem delay_absent (on : On system.driver secondary) : ataDelay system = system := by
  have read : system.inb (ctrlOf secondary) = ((system.bus secondary).absent, system) := by
    rw [System.inb, ctrl_port]
    dsimp only
    rw [status_absent system secondary none', System.withChannel, Function.update_eq_self]
  rw [ataDelay, on.ctrl]
  simp only [read]

theorem wait_ready_absent (on : On system.driver secondary) (timeout : Nat) : ataWaitReady (timeout + 1) system =
    (system, if (system.bus secondary).absent &&& ataSrBsy = 0 then 0 else -1) := by
  induction timeout with
  | zero =>
      rw [ataWaitReady, on.base, inb_absent system secondary none']
      split_ifs <;> rfl
  | succ timeout ih =>
      rw [ataWaitReady, on.base, inb_absent system secondary none', ih]
      split_ifs <;> rfl
end

variable (on : On system.driver secondary)
include on

theorem reset_taken : (system.outb system.driver.ataCtrl 0x04).bus secondary =
    { system.bus secondary with
      file := { (system.bus secondary).file with drive := 0 }
      drives := fun slave => ((system.bus secondary).drives slave).map Drive.reset } := by
  rw [on.ctrl, System.outb, ctrl_port]
  dsimp only
  rw [channel_here, Channel.write, if_neg (by decide)]

theorem reset_over : system.outb system.driver.ataCtrl 0x00 = system := by
  rw [on.ctrl, System.outb, ctrl_port]
  dsimp only
  rw [Channel.write, if_pos (by decide), System.withChannel, Function.update_eq_self]

theorem soft_reset_eq : softReset system = ataDelay (ataDelay (system.outb system.driver.ataCtrl 0x04)) := by
  have kept := kept_trans _ _ _ (outb_kept system system.driver.ataCtrl 0x04) (delay_still _).kept
  have over' := reset_over (ataDelay (system.outb system.driver.ataCtrl 0x04)) secondary (by rw [kept.driver]; exact on)
  rw [kept.driver] at over'
  rw [softReset, over']

theorem reset_selects : ((softReset system).bus secondary).file.slave = false := by
  rw [soft_reset_eq system secondary on, (delay_still _).file, (delay_still _).file, reset_taken system secondary on]
  exact show ((0 : UInt8) &&& 0x10 != 0) = false by decide

theorem reset_master (drive : Drive) (master : (system.bus secondary).drives false = some drive) :
    ((softReset system).bus secondary).drives false = some (drive.reset.polled 8) := by
  have driver := (outb_kept system system.driver.ataCtrl 0x04).driver
  have taken := reset_taken system secondary on
  rw [soft_reset_eq system secondary on]
  generalize system.outb system.driver.ataCtrl 0x04 = reset at driver taken
  have selects : (reset.bus secondary).file.slave = false := by
    rw [taken]
    exact show ((0 : UInt8) &&& 0x10 != 0) = false by decide
  have home : (reset.bus secondary).drives false = some drive.reset := by
    rw [taken]
    exact congrArg (Option.map Drive.reset) master
  have there : On reset.driver secondary := by
    rw [driver]
    exact on
  rw [← placed_eq reset secondary false (reset.bus secondary).file drive.reset home rfl,
    delay_placed _ _ _ _ _ selects there, delay_placed _ _ _ _ _ selects there, placed_home, polled_polled]
end

-- A port that no drive answers floats low or high.
def Floats (system : System) : Prop := ∀ secondary, (system.bus secondary).absent = 0 ∨ (system.bus secondary).absent = 0xFF

structure Searching (system : System) (secondary : Bool) : Prop where
  initialized : system.driver.ataInitialized = false
  on : On system.driver secondary
  drive : system.driver.ataDrive = 0 ∨
    system.driver.ataDrive = 1 ∧ system.disk secondary false = none ∧ (system.bus secondary).absent &&& ataSrBsy = 0

theorem disk_none_iff (system : System) (secondary slave : Bool) :
    system.disk secondary slave = none ↔ (system.bus secondary).drives slave = none := Option.map_eq_none_iff

theorem searching_framed (system next : System) (secondary : Bool) (searching : Searching system secondary)
    (kept : Kept system next) : Searching next secondary := by
  refine ⟨?_, ?_, ?_⟩
  · rw [kept.driver]
    exact searching.initialized
  · rw [kept.driver]
    exact searching.on
  · rw [kept.driver, kept.framed.disk, kept.framed.absent]
    exact searching.drive

theorem floats_framed (system next : System) (floats : Floats system) (framed : Framed system next) : Floats next :=
  fun secondary => by
    rw [framed.absent]
    exact floats secondary

def Detected (result : System × Int) : Prop :=
  result.2 = 0 ∧ (∃ secondary slave drive, Addressed result.1 secondary slave drive) ∨
    result.2 = -1 ∧ ∃ secondary, Searching result.1 secondary

theorem addressed_found (system : System) (secondary slave : Bool) (file : TaskFile) (drive : Drive)
    (on : On system.driver secondary) (bit : system.driver.ataDrive = slave.toNat) (selects : file.slave = slave) :
    Addressed (system.placed secondary slave file drive).initialized secondary slave drive := by
  refine ⟨rfl, ⟨on.base, on.ctrl⟩, bit, ?_, ?_⟩
  · exact (congrArg TaskFile.slave (placed_file_here system secondary slave file drive)).trans selects
  · exact placed_home system secondary slave file drive

section
variable (system : System) (secondary : Bool) (searching : Searching system secondary)

include searching in
theorem drive_bit (drive : Drive) (master : (system.bus secondary).drives false = some drive) : system.driver.ataDrive = 0 := by
  refine searching.drive.resolve_right fun tried => ?_
  have none' := (disk_none_iff system secondary false).mp tried.2.1
  rw [master] at none'
  cases none'

theorem select_drive (slave : Bool) (drive : Drive) (byte : UInt8) (home : (system.bus secondary).drives slave = some drive) :
    system.outb (baseOf secondary + ataRegDrive) byte =
      system.placed secondary slave { (system.bus secondary).file with drive := byte } drive := by
  have here := placed_eq system secondary slave (system.bus secondary).file drive home rfl
  have written := register_placed system secondary slave (system.bus secondary).file
    { (system.bus secondary).file with drive := byte } drive ataRegDrive .drive (port_of secondary _ _ rfl rfl) byte
    (by rw [placed_channel]; rfl)
  rw [here] at written
  exact written

theorem probe_kept (select : UInt8) : Kept system (probe system select).2 :=
  kept_trans _ _ _ (kept_trans _ _ _ (outb_kept _ _ _) (delay_still _).kept) (inb_still _ _).kept

theorem detect_framed : Framed system (detect system).1 := by
  have master := (probe_kept system 0xA0).framed
  have slave := (probe_kept ((probe system 0xA0).2.withDrive 1) 0xB0).framed
  have both : Framed system (probe ((probe system 0xA0).2.withDrive 1) 0xB0).2 :=
    framed_trans system ((probe system 0xA0).2.withDrive 1) _ ⟨master.disk, master.absent⟩ slave
  rw [detect]
  dsimp only
  split_ifs
  · exact both
  · exact ⟨both.disk, both.absent⟩
  · exact ⟨master.disk, master.absent⟩

theorem probe_absent (slave : Bool) (select : UInt8) (bits : (select &&& 0x10 != 0) = slave)
    (gone : (system.bus secondary).drives slave = none) (on : On system.driver secondary) :
    (probe system select).1 = (system.bus secondary).absent := by
  have kept := outb_kept system (baseOf secondary + ataRegDrive) select
  have unselected : ((system.outb (baseOf secondary + ataRegDrive) select).bus secondary).selected = none := by
    rw [drive_write, channel_here, Channel.selected]
    exact (congrArg (system.bus secondary).drives bits).trans gone
  rw [probe, on.base, delay_absent _ secondary unselected (by rw [kept.driver]; exact on), inb_absent _ secondary unselected]
  exact kept.framed.absent secondary

theorem probe_placed (slave : Bool) (select : UInt8) (bits : (select &&& 0x10 != 0) = slave) (drive : Drive)
    (home : (system.bus secondary).drives slave = some drive) (on : On system.driver secondary) : ∃ file, file.slave = slave ∧
      probe system select = ((drive.polled 4).status, system.placed secondary slave file (drive.polled 5)) := by
  have selects : ({ (system.bus secondary).file with drive := select } : TaskFile).slave = slave := bits
  refine ⟨{ (system.bus secondary).file with drive := select }, selects, ?_⟩
  rw [probe, on.base, select_drive system secondary slave drive select home, delay_placed _ _ _ _ _ selects on,
    status_placed _ _ _ _ _ selects, polled_polled]

include searching

theorem detect_master (drive : Drive) (master : (system.bus secondary).drives false = some drive) (ready : drive.busy = []) :
    ∃ file, detect system = ((system.placed secondary false file drive).initialized, 0) ∧
      Addressed (system.placed secondary false file drive).initialized secondary false drive := by
  have still (n : Nat) : drive.polled n = drive := by rw [Drive.polled, ready, List.drop_nil, ← ready]
  obtain ⟨file, selects, probed⟩ := probe_placed system secondary false 0xA0 (by decide) drive master searching.on
  refine ⟨file, ?_, addressed_found system secondary false file drive searching.on
    (drive_bit system secondary searching drive master) selects⟩
  rw [detect, probed, still, still]
  exact if_neg (ready_answers drive ready)

theorem detect_slave (none' : (system.bus secondary).drives false = none) (low : (system.bus secondary).absent = 0) :
    ((detect system).2 = 0 ∧ ∃ drive, Addressed (detect system).1 secondary true drive) ∨
      ((detect system).2 = -1 ∧ Searching (detect system).1 secondary) := by
  have kept := probe_kept system 0xA0
  have next := searching_framed system _ secondary searching kept
  have gone : (probe system 0xA0).2.disk secondary false = none := by
    rw [kept.framed.disk]
    exact (disk_none_iff system secondary false).mpr none'
  have float : ((probe system 0xA0).2.bus secondary).absent = 0 := by
    rw [kept.framed.absent]
    exact low
  have tried : Searching ((probe system 0xA0).2.withDrive 1) secondary :=
    ⟨next.initialized, ⟨next.on.base, next.on.ctrl⟩, Or.inr ⟨rfl, gone, (congrArg (· &&& ataSrBsy) float).trans rfl⟩⟩
  have later := probe_kept ((probe system 0xA0).2.withDrive 1) 0xB0
  rw [detect, probe_absent system secondary false 0xA0 (by decide) none' searching.on, if_pos (Or.inl low)]
  dsimp only
  split
  · exact Or.inr ⟨rfl, searching_framed _ _ secondary tried later⟩
  · next answers =>
      refine Or.inl ⟨rfl, ?_⟩
      cases slave : (((probe system 0xA0).2.withDrive 1).bus secondary).drives true with
      | none =>
          rw [probe_absent _ secondary true 0xB0 (by decide) slave tried.on] at answers
          exact absurd (Or.inl float) answers
      | some drive =>
          obtain ⟨file, selects, probed⟩ := probe_placed _ secondary true 0xB0 (by decide) drive slave tried.on
          rw [probed]
          exact ⟨_, addressed_found _ secondary true file _ tried.on rfl selects⟩
end

theorem reset_detects (system : System) (secondary : Bool) (searching : Searching system secondary) (floats : Floats system) :
    ((ataWaitReady polls (softReset system)).2 = 0 ∧ Detected (detect (ataWaitReady polls (softReset system)).1)) ∨
      ((ataWaitReady polls (softReset system)).2 = -1 ∧ system.driver.ataDrive = 0) := by
  have kept := soft_reset_kept system
  have selects := reset_selects system secondary searching.on
  have next := searching_framed system _ secondary searching kept
  have afloat := floats_framed system _ floats kept.framed
  rw [← kept.driver]
  generalize softReset system = reset at selects next afloat
  cases master : (reset.bus secondary).drives false with
  | none =>
      have unselected : (reset.bus secondary).selected = none := (congrArg (reset.bus secondary).drives selects).trans master
      rw [show polls = 99999 + 1 from rfl, wait_ready_absent reset secondary unselected next.on]
      rcases afloat secondary with low | high
      · rw [low, if_pos (show (0 : UInt8) &&& ataSrBsy = 0 by decide)]
        refine Or.inl ⟨rfl, ?_⟩
        rcases detect_slave reset secondary next master low with ⟨fine, drive, addressed⟩ | ⟨failed, still⟩
        · exact Or.inl ⟨fine, secondary, true, drive, addressed⟩
        · exact Or.inr ⟨failed, secondary, still⟩
      · rw [high, if_neg (show ¬ (0xFF : UInt8) &&& ataSrBsy = 0 by decide)]
        refine Or.inr ⟨rfl, next.drive.resolve_right fun tried => ?_⟩
        rw [high] at tried
        exact absurd tried.2.2 (by decide)
  | some drive =>
      have still := wait_ready_still reset polls
      obtain ⟨n, ready | slow⟩ := wait_ready_placed reset secondary false (reset.bus secondary).file selects next.on polls drive
      · rw [placed_eq reset secondary false _ drive master rfl] at ready
        rw [ready.1] at still ⊢
        obtain ⟨file, found, addressed⟩ := detect_master _ secondary (searching_framed _ _ secondary next still.kept) _
          (placed_home ..) ready.2
        refine Or.inl ⟨rfl, Or.inl ⟨?_, secondary, false, drive.polled n, ?_⟩⟩
        · rw [found]
        · rw [found]
          exact addressed
      · rw [placed_eq reset secondary false _ drive master rfl] at slow
        rw [slow.1]
        exact Or.inr ⟨rfl, drive_bit reset secondary next drive master⟩

theorem init_detects (system : System) (secondary : Bool) (searching : Searching system secondary) (floats : Floats system) :
    Framed system (ataInit system).1 ∧ Detected (ataInit system) := by
  have kept := kept_trans _ _ _ (soft_reset_kept system) (wait_ready_still (softReset system) polls).kept
  have first := reset_detects system secondary searching floats
  have started := searching_framed system _ secondary searching kept
  rw [ataInit, searching.initialized, if_neg Bool.false_ne_true]
  dsimp only
  rcases first with ⟨fine, detected⟩ | ⟨late, bit⟩
  · rw [if_pos fine]
    exact ⟨framed_trans _ _ _ kept.framed (detect_framed _), detected⟩
  · rw [if_neg (by rw [late]; decide)]
    rw [← kept.driver] at bit
    generalize (ataWaitReady polls (softReset system)).1 = waited at kept started bit
    have moved : Searching waited.onSecondary true := ⟨started.initialized, ⟨rfl, rfl⟩, Or.inl bit⟩
    have framed : Framed system waited.onSecondary := ⟨kept.framed.disk, kept.framed.absent⟩
    have again := kept_trans _ _ _ (soft_reset_kept waited.onSecondary) (wait_ready_still _ polls).kept
    rcases reset_detects waited.onSecondary true moved (floats_framed system _ floats framed) with ⟨fine, detected⟩ | ⟨late, _⟩
    · rw [if_pos fine]
      exact ⟨framed_trans _ _ _ framed (framed_trans _ _ _ again.framed (detect_framed _)), detected⟩
    · rw [if_neg (by rw [late]; decide)]
      exact ⟨framed_trans _ _ _ framed again.framed, Or.inr ⟨rfl, true, searching_framed _ _ true moved again⟩⟩

end RoDos.Ata
