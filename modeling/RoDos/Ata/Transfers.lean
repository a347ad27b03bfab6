import RoDos.Ata.Ports

set_option autoImplicit false

namespace RoDos.Ata

open Base

def sectorsAt (disk : Disk) (lba count : Nat) : List (List UInt8) := (List.range' lba count).map disk

def writesFrom : Nat → List (List UInt8) → List Write
  | _, [] => []
  | lba, sector :: rest => ⟨lba, sector⟩ :: writesFrom (lba + 1) rest

structure Drive.Prompt (drive : Drive) : Prop where
  quiet : Quiet polls drive.busy
  answers : ∀ n, Quiet polls (drive.answers n).busy ∧ (drive.answers n).fault = false

structure Drive.Same (drive next : Drive) : Prop where
  size : next.size = drive.size
  answers : next.answers = drive.answers

section
variable (drive next : Drive) (phase : Phase)

theorem polled_prompt (n : Nat) (prompt : drive.Prompt) : (drive.polled n).Prompt := by
  refine ⟨⟨?_, fun byte member => prompt.quiet.2 byte (List.drop_subset _ _ member)⟩, prompt.answers⟩
  exact Nat.lt_of_le_of_lt (by rw [Drive.polled, List.length_drop]; exact Nat.sub_le _ _) prompt.quiet.1

theorem proceed_prompt (prompt : drive.Prompt) : (drive.proceed phase).Prompt :=
  ⟨(prompt.answers drive.asked).1, prompt.answers⟩

theorem proceed_good (prompt : drive.Prompt) (inside : phase.inside drive.size = true) :
    (drive.proceed phase).phase = phase ∧ (drive.proceed phase).error = false := by
  have good : (!drive.answer.fault && phase.inside drive.size) = true := by
    rw [Drive.answer, (prompt.answers drive.asked).2, inside]
    rfl
  rw [Drive.proceed]
  dsimp only
  rw [good]
  exact ⟨rfl, rfl⟩

theorem proceed_phase : (drive.proceed phase).phase = phase ∧ drive.answer.fault = false ∨
    (drive.proceed phase).phase = .idle := by
  rw [Drive.proceed]
  dsimp only
  cases good : !drive.answer.fault && phase.inside drive.size
  · exact Or.inr rfl
  · exact Or.inl ⟨rfl, by simpa using (Bool.and_eq_true_iff.mp good).1⟩

theorem insw_reading (lba left : Nat) (ready : drive.busy = []) (reading : drive.phase = .transfer false lba left) :
    drive.insw = (drive.disk lba, drive.proceed (Phase.transfer false lba left).next) := by
  rw [Drive.insw, ready, reading]

theorem outsw_writing (lba left : Nat) (bytes : List UInt8) (ready : drive.busy = [])
    (writing : drive.phase = .transfer true lba left) :
    drive.outsw bytes =
      { drive.proceed (Phase.transfer true lba left).next with
        disk := if drive.answer.fault then drive.disk else writeSector drive.disk ⟨lba, bytes⟩ } := by
  rw [Drive.outsw, ready, writing]

theorem next_last (writes : Bool) (lba : Nat) : (Phase.transfer writes lba 1).next = .idle := rfl

theorem next_more (writes : Bool) (lba left : Nat) :
    (Phase.transfer writes lba (left + 2)).next = .transfer writes (lba + 1) (left + 1) := rfl

def Moving (drive : Drive) (writes : Bool) (lba left : Nat) : Prop :=
  drive.phase = .transfer writes lba left ∨ drive.phase = .idle

theorem proceed_moving (writes : Bool) (lba left : Nat) :
    Moving (drive.proceed (Phase.transfer writes lba (left + 1)).next) writes (lba + 1) left := by
  cases left with
  | zero =>
      rcases proceed_phase drive (Phase.transfer writes lba (0 + 1)).next with taken | idle
      · exact Or.inr (taken.1.trans (next_last writes lba))
      · exact Or.inr idle
  | succ left =>
      rcases proceed_phase drive (Phase.transfer writes lba (left + 1 + 1)).next with taken | idle
      · exact Or.inl (taken.1.trans (next_more writes lba left))
      · exact Or.inr idle

def Offers (drive : Drive) (writes : Bool) (lba left : Nat) : Prop :=
  lba + left ≤ drive.size ∧ (0 < left → drive.phase = .transfer writes lba left ∧ drive.error = false)

theorem proceed_offers (writes : Bool) (lba left : Nat) (prompt : drive.Prompt) (fits : lba + (left + 1) ≤ drive.size) :
    Offers (drive.proceed (Phase.transfer writes lba (left + 1)).next) writes (lba + 1) left := by
  refine ⟨show lba + 1 + left ≤ drive.size by omega, fun more => ?_⟩
  obtain ⟨later, rfl⟩ := Nat.exists_eq_succ_of_ne_zero (Nat.pos_iff_ne_zero.mp more)
  exact proceed_good drive _ prompt (decide_eq_true (show lba + 1 < drive.size by omega))
end

structure ReadDone (lba left : Nat) (drive next : Drive) (data : List (List UInt8)) (code : Int) : Prop where
  same : drive.Same next
  disk : next.disk = drive.disk
  data : code = 0 ∧ data = sectorsAt drive.disk lba left ∨ code = -1 ∧ data <+: sectorsAt drive.disk lba left
  prompt : drive.Prompt → Offers drive false lba left → code = 0 ∧ next.Prompt

-- What a write of these sectors leaves and reports: all of them are behind, perhaps without the last, or some of them.
structure WriteDone (lba : Nat) (sectors : List (List UInt8)) (drive next : Drive) (code : Int) : Prop where
  same : drive.Same next
  disk : ∃ k ≤ sectors.length, next.disk = writeAll drive.disk ((writesFrom lba sectors).take k) ∧
    (code = 0 ∧ sectors.length ≤ k + 1 ∨ code = -1)
  prompt : drive.Prompt → Offers drive true lba sectors.length →
    code = 0 ∧ next.Prompt ∧ next.disk = writeAll drive.disk (writesFrom lba sectors)

structure SectorDone (lba left : Nat) (bytes : List UInt8) (drive next : Drive) : Prop where
  same : drive.Same next
  moving : Moving next true (lba + 1) left
  disk : next.disk = writeSector drive.disk ⟨lba, bytes⟩ ∨ next.disk = drive.disk ∧ next.phase = .idle ∧ ¬ drive.Prompt
  prompt : drive.Prompt → lba + (left + 1) ≤ drive.size →
    next.Prompt ∧ Offers next true (lba + 1) left ∧ next.disk = writeSector drive.disk ⟨lba, bytes⟩

theorem outsw_done (drive : Drive) (lba left : Nat) (bytes : List UInt8) (ready : drive.busy = [])
    (writing : drive.phase = .transfer true lba (left + 1)) : SectorDone lba left bytes drive (drive.outsw bytes) := by
  rw [outsw_writing drive lba (left + 1) bytes ready writing]
  refine ⟨⟨rfl, rfl⟩, proceed_moving drive true lba left, ?_, fun prompt fits => ?_⟩
  · rcases proceed_phase drive (Phase.transfer true lba (left + 1)).next with ⟨_, sound⟩ | idle
    · exact Or.inl (if_neg (by rw [sound]; exact Bool.false_ne_true))
    · by_cases fault : drive.answer.fault = true
      · exact Or.inr ⟨if_pos fault, idle, fun prompt => Bool.false_ne_true ((prompt.answers drive.asked).2.symm.trans fault)⟩
      · exact Or.inl (if_neg fault)
  · have sound : drive.answer.fault = false := (prompt.answers drive.asked).2
    have later := proceed_prompt drive (Phase.transfer true lba (left + 1)).next prompt
    exact ⟨⟨later.quiet, later.answers⟩, proceed_offers drive true lba left prompt fits,
      if_neg (by rw [sound]; exact Bool.false_ne_true)⟩

section
variable (system : System) (secondary slave : Bool) (file : TaskFile) (selects : file.slave = slave)
  (on : On system.driver secondary)
include selects on

-- By induction on the sectors that are left; each is transferred by a drive that shows DRQ.
theorem read_loop_placed (left lba : Nat) (drive : Drive) (moving : Moving drive false lba left) : ∃ next data code,
    readLoop left (system.placed secondary slave file drive) = (system.placed secondary slave file next, data, code) ∧
      ReadDone lba left drive next data code := by
  induction left generalizing lba drive with
  | zero => exact ⟨drive, [], 0, rfl, ⟨rfl, rfl⟩, rfl, Or.inl ⟨rfl, rfl⟩, fun prompt _ => ⟨rfl, prompt⟩⟩
  | succ left ih =>
      rw [readLoop]
      obtain ⟨n, done | late⟩ := wait_drq_placed system secondary slave file selects on polls drive
      · obtain ⟨run, ready, drq, _⟩ := done
        have reading : drive.phase = .transfer false lba (left + 1) := moving.resolve_right drq
        have moved := insw_reading (drive.polled n) lba (left + 1) ready reading
        rw [run]
        dsimp only
        rw [if_neg (not_not.mpr rfl), placed_driver, on.base, insw_placed _ _ _ _ _ selects, moved]
        dsimp only
        rw [delay_placed _ _ _ _ _ selects on]
        obtain ⟨next, data, code, rest, read⟩ := ih (lba + 1)
          (((drive.polled n).proceed (Phase.transfer false lba (left + 1)).next).polled 4)
          (proceed_moving (drive.polled n) false lba left)
        refine ⟨next, drive.disk lba :: data, code, by rw [rest]; rfl, ?_, read.disk, ?_, ?_⟩
        · exact ⟨read.same.size, read.same.answers⟩
        · rcases read.data with ⟨fine, all⟩ | ⟨failed, some'⟩
          · exact Or.inl ⟨fine, congrArg (drive.disk lba :: ·) all⟩
          · exact Or.inr ⟨failed, (List.cons_prefix_cons).mpr ⟨rfl, some'⟩⟩
        · intro prompt offers
          have later := polled_prompt _ 4 (proceed_prompt _ (Phase.transfer false lba (left + 1)).next (polled_prompt _ n prompt))
          exact read.prompt later (proceed_offers _ false lba left (polled_prompt _ n prompt) offers.1)
      · rw [late.1]
        refine ⟨drive.polled n, [], -1, if_pos (show (-1 : Int) ≠ 0 by decide), ⟨rfl, rfl⟩, rfl, Or.inr ⟨rfl, List.nil_prefix⟩, ?_⟩
        intro prompt offers
        obtain ⟨reading, sound⟩ := offers.2 (Nat.succ_pos left)
        refine absurd ⟨prompt.quiet, ?_, sound⟩ late.2
        rw [reading]
        exact Phase.noConfusion

theorem write_loop_idle (sectors : List (List UInt8)) (drive : Drive) (idle : drive.phase = .idle) : ∃ n code,
    writeLoop sectors (system.placed secondary slave file drive) = (system.placed secondary slave file (drive.polled n), code) ∧
      (sectors = [] ∧ code = 0 ∨ code = -1) := by
  cases sectors with
  | nil => exact ⟨0, 0, rfl, Or.inl ⟨rfl, rfl⟩⟩
  | cons sector rest =>
      rw [writeLoop]
      obtain ⟨n, done | late⟩ := wait_drq_placed system secondary slave file selects on polls drive
      · exact absurd idle done.2.2.1
      · rw [late.1]
        exact ⟨n, -1, if_pos (show (-1 : Int) ≠ 0 by decide), Or.inr rfl⟩

theorem write_loop_placed (sectors : List (List UInt8)) (lba : Nat) (drive : Drive)
    (moving : Moving drive true lba sectors.length) : ∃ next code,
    writeLoop sectors (system.placed secondary slave file drive) = (system.placed secondary slave file next, code) ∧
      WriteDone lba sectors drive next code := by
  induction sectors generalizing lba drive with
  | nil => exact ⟨drive, 0, rfl, ⟨rfl, rfl⟩, ⟨0, Nat.le_refl _, rfl, Or.inl ⟨rfl, Nat.zero_le _⟩⟩, fun prompt _ => ⟨rfl, prompt, rfl⟩⟩
  | cons sector rest ih =>
      rw [writeLoop]
      obtain ⟨n, done | late⟩ := wait_drq_placed system secondary slave file selects on polls drive
      · obtain ⟨run, ready, drq, _⟩ := done
        have writing : drive.phase = .transfer true lba (rest.length + 1) := moving.resolve_right drq
        rw [run]
        dsimp only
        rw [if_neg (not_not.mpr rfl), placed_driver, on.base, outsw_placed _ _ _ _ _ selects, delay_placed _ _ _ _ _ selects on]
        have stored := outsw_done (drive.polled n) lba rest.length sector ready writing
        generalize (drive.polled n).outsw sector = after at stored
        obtain ⟨m, settled | slow⟩ := wait_ready_placed system secondary slave file selects on polls (after.polled 4)
        · rw [settled.1]
          dsimp only
          rw [if_neg (not_not.mpr rfl), polled_polled]
          rcases stored.disk with written | ⟨kept, idle, failed⟩
          · obtain ⟨next, code, run, more⟩ := ih (lba + 1) (after.polled (4 + m)) stored.moving
            refine ⟨next, code, run, ⟨more.same.size.trans stored.same.size, more.same.answers.trans stored.same.answers⟩, ?_, ?_⟩
            · obtain ⟨k, within, disk, reported⟩ := more.disk
              refine ⟨k + 1, Nat.succ_le_succ within, ?_, reported.imp_left fun fine => ⟨fine.1, Nat.succ_le_succ fine.2⟩⟩
              rw [disk, show (after.polled (4 + m)).disk = after.disk from rfl, written]
              rfl
            · intro prompt offers
              obtain ⟨later, offered, _⟩ := stored.prompt (polled_prompt drive n prompt) offers.1
              obtain ⟨fine, further, disk⟩ := more.prompt (polled_prompt after _ later) offered
              refine ⟨fine, further, disk.trans ?_⟩
              rw [show (after.polled (4 + m)).disk = after.disk from rfl, written]
              rfl
          · obtain ⟨l, code, run, reported⟩ := write_loop_idle system secondary slave file selects on rest (after.polled (4 + m)) idle
            refine ⟨_, code, run, ⟨stored.same.size, stored.same.answers⟩, ⟨0, Nat.zero_le _, kept, ?_⟩, ?_⟩
            · refine reported.imp_left fun fine => ⟨fine.2, ?_⟩
              rw [fine.1]
              exact Nat.le_refl 1
            · exact fun prompt _ => absurd (polled_prompt drive n prompt) failed
        · rw [slow.1, polled_polled]
          refine ⟨after.polled (4 + m), -1, if_pos (show (-1 : Int) ≠ 0 by decide), ⟨stored.same.size, stored.same.answers⟩, ?_, ?_⟩
          · rcases stored.disk with written | ⟨kept, _⟩
            · exact ⟨1, Nat.succ_le_succ (Nat.zero_le _), written, Or.inr rfl⟩
            · exact ⟨0, Nat.zero_le _, kept, Or.inr rfl⟩
          · intro prompt offers
            have quiet := (polled_prompt after 4 (stored.prompt (polled_prompt drive n prompt) offers.1).1).quiet
            exact absurd quiet.1 (Nat.not_lt.mpr slow.2)
      · rw [late.1]
        refine ⟨drive.polled n, -1, if_pos (show (-1 : Int) ≠ 0 by decide), ⟨rfl, rfl⟩,
          ⟨0, Nat.zero_le _, rfl, Or.inr rfl⟩, fun prompt offers => ?_⟩
        obtain ⟨writing, sound⟩ := offers.2 (Nat.succ_pos _)
        refine absurd ⟨prompt.quiet, ?_, sound⟩ late.2
        rw [writing]
        exact Phase.noConfusion
end

end RoDos.Ata
