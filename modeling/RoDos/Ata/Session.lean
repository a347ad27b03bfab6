import RoDos.Ata.Detect

set_option autoImplicit false

namespace RoDos.Ata

open Base

def performAll : System → List Op → System × List Reply
  | system, [] => (system, [])
  | system, op :: ops =>
      let call := perform system op
      let rest := performAll call.1 ops
      (rest.1, call.2 :: rest.2)

def serveAll : Disk → List Op → Disk × List Reply
  | disk, [] => (disk, [])
  | disk, op :: ops =>
      let call := serve disk op
      let rest := serveAll call.1 ops
      (rest.1, call.2 :: rest.2)

def Account : Disk → List Op → List Reply → Disk → Prop
  | disk, [], [], after => after = disk
  | disk, op :: ops, reply :: replies, after => ∃ next, Accounts disk op reply next ∧ Account next ops replies after
  | _, _, _, _ => False

def Elsewhere (system next : System) (secondary slave : Bool) : Prop :=
  ∀ other side, (other, side) ≠ (secondary, slave) → next.disk other side = system.disk other side

theorem placed_elsewhere (system : System) (secondary slave : Bool) (file : TaskFile) (drive : Drive) :
    Elsewhere system (system.placed secondary slave file drive) secondary slave := by
  intro other side different
  rw [System.disk, System.disk]
  by_cases same : other = secondary
  · subst same
    have elsewhere : side ≠ slave := fun here => different (by rw [here])
    simp only [placed_channel, Function.update_of_ne elsewhere]
  · rw [System.placed, channel_elsewhere _ _ _ _ same]

theorem init_performs (system : System) (secondary slave : Bool) (drive : Drive) (fine : (ataInit system).2 = 0)
    (addressed : Addressed (ataInit system).1 secondary slave drive) (op : Op) :
    perform system op = perform (ataInit system).1 op := by
  have again := init_addressed _ secondary slave drive addressed
  cases op with
  | read lba count =>
      rw [perform, perform, diskReadLbaAta, diskReadLbaAta, ataReadSectors, ataReadSectors, again, fine]
  | write lba count buffer =>
      rw [perform, perform, diskWriteLbaAta, diskWriteLbaAta, ataWriteSectors, ataWriteSectors, again, fine]

theorem init_refuses (system : System) (failed : (ataInit system).2 = -1) (op : Op) :
    perform system op = ((ataInit system).1, ⟨[], -1⟩) := by
  have nonzero : (ataInit system).2 ≠ 0 := by rw [failed]; decide
  cases op with
  | read lba count =>
      rw [perform, diskReadLbaAta, ataReadSectors]
      dsimp only
      rw [if_pos nonzero]
  | write lba count buffer =>
      rw [perform, diskWriteLbaAta, ataWriteSectors]
      dsimp only
      rw [if_pos nonzero]

theorem addressed_accounts (ops : List Op) (system : System) (secondary slave : Bool) (drive : Drive)
    (addressed : Addressed system secondary slave drive) : ∃ after,
    (performAll system ops).1.disk secondary slave = some after ∧
      Account drive.disk ops (performAll system ops).2 after ∧ Elsewhere system (performAll system ops).1 secondary slave := by
  induction ops generalizing system drive with
  | nil => exact ⟨drive.disk, congrArg (Option.map Drive.disk) addressed.home, rfl, fun _ _ _ => rfl⟩
  | cons op ops ih =>
      obtain ⟨file, next, reply, run, selects, called⟩ := perform_addressed system secondary slave drive addressed op
      obtain ⟨after, disk, account, elsewhere⟩ := ih _ next
        (addressed_placed system secondary slave drive next file addressed selects)
      rw [performAll, run]
      exact ⟨after, disk, ⟨next.disk, called.accounts, account⟩, fun other side different =>
        (elsewhere other side different).trans (placed_elsewhere system secondary slave file next other side different)⟩

theorem searching_accounts (ops : List Op) (system : System) (secondary : Bool) (searching : Searching system secondary)
    (floats : Floats system) :
    (Framed system (performAll system ops).1 ∧ ∀ reply ∈ (performAll system ops).2, reply = ⟨[], -1⟩) ∨
      ∃ secondary slave disk after, system.disk secondary slave = some disk ∧
        (performAll system ops).1.disk secondary slave = some after ∧ Account disk ops (performAll system ops).2 after ∧
        Elsewhere system (performAll system ops).1 secondary slave := by
  induction ops generalizing system secondary with
  | nil => exact Or.inl ⟨framed_refl system, fun _ member => absurd member List.not_mem_nil⟩
  | cons op ops ih =>
      obtain ⟨framed, ⟨fine, other, slave, drive, addressed⟩ | ⟨failed, other, still⟩⟩ :=
        init_detects system secondary searching floats
      · have moved : performAll system (op :: ops) = performAll (ataInit system).1 (op :: ops) := by
          rw [performAll, performAll, init_performs system other slave drive fine addressed]
        obtain ⟨after, disk, account, elsewhere⟩ := addressed_accounts (op :: ops) _ other slave drive addressed
        have start : system.disk other slave = some drive.disk := by
          rw [← framed.disk]
          exact congrArg (Option.map Drive.disk) addressed.home
        rw [moved]
        exact Or.inr ⟨other, slave, drive.disk, after, start, disk, account, fun secondary side different =>
          (elsewhere secondary side different).trans (framed.disk secondary side)⟩
      · rw [performAll, init_refuses system failed]
        dsimp only
        rcases ih _ other still (floats_framed system _ floats framed) with ⟨kept, refused⟩ |
          ⟨place, slave, disk, after, start, finish, account, elsewhere⟩
        · refine Or.inl ⟨framed_trans _ _ _ framed kept, fun reply member => ?_⟩
          rcases List.mem_cons.mp member with here | later
          · exact here
          · exact refused reply later
        · rw [framed.disk] at start
          exact Or.inr ⟨place, slave, disk, after, start, finish, ⟨disk, accounts_refused disk op, account⟩,
            fun secondary side different => (elsewhere secondary side different).trans (framed.disk secondary side)⟩

def sampleDrive (busy : List UInt8) : Drive :=
  ⟨100, fun _ => List.replicate 512 0, .idle, false, busy, fun _ => ⟨busy, false⟩, 0⟩

def sampleBus (side absent : Bool) (busy : List UInt8) : Bus
  | false => ⟨⟨0, 0, 0, 0, 0⟩, fun slave => if slave = side then some (sampleDrive busy) else none, if absent then 0xFF else 0⟩
  | true => ⟨⟨0, 0, 0, 0, 0⟩, fun _ => none, 0xFF⟩

def sampleOps : List Op := [.write 5 1 fun _ => 7, .read 5 1]

theorem calls_accounted (bus : Bus) (floats : Floats ⟨boot, bus⟩) (ops : List Op) :
    (Framed ⟨boot, bus⟩ (performAll ⟨boot, bus⟩ ops).1 ∧ ∀ reply ∈ (performAll ⟨boot, bus⟩ ops).2, reply = ⟨[], -1⟩) ∨
      ∃ secondary slave disk after, System.disk ⟨boot, bus⟩ secondary slave = some disk ∧
        (performAll ⟨boot, bus⟩ ops).1.disk secondary slave = some after ∧
        Account disk ops (performAll ⟨boot, bus⟩ ops).2 after ∧
        Elsewhere ⟨boot, bus⟩ (performAll ⟨boot, bus⟩ ops).1 secondary slave :=
  searching_accounts ops ⟨boot, bus⟩ false ⟨rfl, ⟨rfl, rfl⟩, Or.inl rfl⟩ floats

theorem calls_accounted_slave :
    (Framed ⟨boot, sampleBus true false [0x01]⟩ (performAll ⟨boot, sampleBus true false [0x01]⟩ sampleOps).1 ∧
      ∀ reply ∈ (performAll ⟨boot, sampleBus true false [0x01]⟩ sampleOps).2, reply = ⟨[], -1⟩) ∨
      ∃ secondary slave disk after, System.disk ⟨boot, sampleBus true false [0x01]⟩ secondary slave = some disk ∧
        (performAll ⟨boot, sampleBus true false [0x01]⟩ sampleOps).1.disk secondary slave = some after ∧
        Account disk sampleOps (performAll ⟨boot, sampleBus true false [0x01]⟩ sampleOps).2 after ∧
        Elsewhere ⟨boot, sampleBus true false [0x01]⟩ (performAll ⟨boot, sampleBus true false [0x01]⟩ sampleOps).1 secondary
          slave := by
  refine calls_accounted (sampleBus true false [0x01]) (fun secondary => ?_) sampleOps
  cases secondary
  · exact Or.inl rfl
  · exact Or.inr rfl

theorem served_addressed (ops : List Op) (system : System) (secondary slave : Bool) (drive : Drive)
    (addressed : Addressed system secondary slave drive) (prompt : drive.Prompt) (small : drive.size ≤ 2 ^ 28)
    (fits : ∀ op ∈ ops, op.Fits drive.size) :
    (performAll system ops).2 = (serveAll drive.disk ops).2 ∧
      (performAll system ops).1.disk secondary slave = some (serveAll drive.disk ops).1 := by
  induction ops generalizing system drive with
  | nil => exact ⟨rfl, congrArg (Option.map Drive.disk) addressed.home⟩
  | cons op ops ih =>
      obtain ⟨file, next, reply, run, selects, called⟩ := perform_addressed system secondary slave drive addressed op
      obtain ⟨further, served⟩ := called.prompt prompt small (fits op List.mem_cons_self)
      have later := ih _ next (addressed_placed system secondary slave drive next file addressed selects) further
        (by rw [called.same.size]; exact small)
        (fun other member => by rw [called.same.size]; exact fits other (List.mem_cons_of_mem _ member))
      rw [performAll, serveAll, run, served]
      exact ⟨congrArg (reply :: ·) later.1, later.2⟩

theorem reset_prompt (drive : Drive) (prompt : drive.Prompt) : drive.reset.Prompt :=
  ⟨(prompt.answers drive.asked).1, prompt.answers⟩

theorem init_master (system : System) (secondary : Bool) (searching : Searching system secondary) (drive : Drive)
    (master : (system.bus secondary).drives false = some drive) (prompt : drive.Prompt) : ∃ next,
    (ataInit system).2 = 0 ∧ Addressed (ataInit system).1 secondary false next ∧ next.Prompt ∧ drive.Same next ∧
      next.disk = drive.disk := by
  have kept := soft_reset_kept system
  have after := searching_framed system _ secondary searching kept
  have selects := reset_selects system secondary searching.on
  have home := reset_master system secondary searching.on drive master
  have ready := polled_prompt drive.reset 8 (reset_prompt drive prompt)
  have still := wait_ready_still (softReset system) polls
  rw [ataInit, searching.initialized, if_neg Bool.false_ne_true]
  dsimp only
  generalize softReset system = reset at kept after selects home still
  obtain ⟨n, done | slow⟩ := wait_ready_placed reset secondary false (reset.bus secondary).file selects after.on polls
    (drive.reset.polled 8)
  · rw [placed_eq reset secondary false _ _ home rfl] at done
    rw [done.1] at still ⊢
    obtain ⟨file, found, addressed⟩ := detect_master _ secondary (searching_framed _ _ secondary after still.kept) _
      (placed_home ..) done.2
    rw [if_pos rfl, found]
    exact ⟨_, rfl, addressed, polled_prompt _ n ready, ⟨rfl, rfl⟩, rfl⟩
  · exact absurd ready.quiet.1 (Nat.not_lt.mpr slow.2)

theorem prompt_drive_serves (bus : Bus) (drive : Drive) (master : (bus false).drives false = some drive)
    (prompt : drive.Prompt) (small : drive.size ≤ 2 ^ 28) (ops : List Op) (fits : ∀ op ∈ ops, op.Fits drive.size) :
    (performAll ⟨boot, bus⟩ ops).2 = (serveAll drive.disk ops).2 ∧
      (performAll ⟨boot, bus⟩ ops).1.disk false false = some (serveAll drive.disk ops).1 := by
  obtain ⟨next, fine, addressed, further, same, disk⟩ :=
    init_master ⟨boot, bus⟩ false ⟨rfl, ⟨rfl, rfl⟩, Or.inl rfl⟩ drive master prompt
  cases ops with
  | nil => exact ⟨rfl, congrArg (Option.map Drive.disk) master⟩
  | cons op ops =>
      have moved : performAll ⟨boot, bus⟩ (op :: ops) = performAll (ataInit ⟨boot, bus⟩).1 (op :: ops) := by
        rw [performAll, performAll, init_performs _ false false next fine addressed]
      rw [moved, ← disk]
      rw [← same.size] at small fits
      exact served_addressed (op :: ops) _ false false next addressed further small fits

theorem prompt_drive_serves_sample :
    (performAll ⟨boot, sampleBus false true [0x40, 0x40]⟩ sampleOps).2 = [⟨[], 0⟩, ⟨[List.replicate 512 7], 0⟩] := by
  have prompt : (sampleDrive [0x40, 0x40]).Prompt := by
    have clear : ∀ byte ∈ [(0x40 : UInt8), 0x40], byte &&& ataSrErr = 0 :=
      List.forall_mem_cons.mpr ⟨by decide, List.forall_mem_singleton.mpr (by decide)⟩
    have quiet : Quiet polls [0x40, 0x40] := ⟨by decide, clear⟩
    exact ⟨quiet, fun _ => ⟨quiet, rfl⟩⟩
  have fits : ∀ op ∈ sampleOps, op.Fits (sampleDrive [0x40, 0x40]).size := by
    simp only [sampleOps, List.forall_mem_cons, Op.Fits]
    exact ⟨by decide, by decide, fun _ member => absurd member List.not_mem_nil⟩
  refine (prompt_drive_serves (sampleBus false true [0x40, 0x40]) (sampleDrive [0x40, 0x40]) rfl prompt (by decide) sampleOps
    fits).1.trans ?_
  have buffer : bufferSectors (fun _ => 7) 1 = [List.replicate 512 7] := by
    rw [bufferSectors, List.map_const', List.length_range, List.map_const', List.length_range, List.replicate_one]
  show [Reply.mk [] 0, ⟨sectorsAt (writeAll _ (writesFrom 5 (bufferSectors (fun _ => 7) 1))) 5 1, 0⟩] = _
  rw [buffer]
  rfl

end RoDos.Ata
