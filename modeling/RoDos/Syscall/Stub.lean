import RoDos.Syscall.Model

set_option autoImplicit false

namespace RoDos.Syscall

-- registers_t, in the order of the stack.
structure Registers where
  gs : UInt32
  fs : UInt32
  es : UInt32
  ds : UInt32
  edi : UInt32
  esi : UInt32
  ebp : UInt32
  esp : UInt32
  ebx : UInt32
  edx : UInt32
  ecx : UInt32
  eax : UInt32
  intNo : UInt32
  errCode : UInt32
  eip : UInt32
  cs : UInt32
  eflags : UInt32

def layout (regs : Registers) : List UInt32 :=
  [regs.gs, regs.fs, regs.es, regs.ds, regs.edi, regs.esi, regs.ebp, regs.esp, regs.ebx, regs.edx, regs.ecx, regs.eax,
    regs.intNo, regs.errCode, regs.eip, regs.cs, regs.eflags]

def savedRegisters (cpu : Cpu) (vector eip : UInt32) : Registers :=
  { gs := cpu.gs.toUInt32, fs := cpu.fs.toUInt32, es := cpu.es.toUInt32, ds := cpu.ds.toUInt32
    edi := cpu.edi, esi := cpu.esi, ebp := cpu.ebp, esp := cpu.esp - 20
    ebx := cpu.ebx, edx := cpu.edx, ecx := cpu.ecx, eax := cpu.eax
    intNo := vector, errCode := 0, eip := eip, cs := cpu.cs.toUInt32, eflags := cpu.eflags }

def returnPath : List Instr :=
  [.addEsp 1, .popSeg .gs, .popSeg .fs, .popSeg .es, .popSeg .ds, .popad, .addEsp 2, .iretd]

section
variable {World : Type} (ask : Call → Kernel World UInt32)

def Halted (start world : World) : Prop :=
  world = start ∨ ∃ value, (ask (.putsText haltMessage)).run start = some (value, world)

-- The caller is never reached again, and all the kernel did is to print that it halts.
def NeverServed (machine : Machine World) (eip : UInt32) : Prop :=
  ∀ framed n final, interrupt machine 0x80 (eip + 2) = some framed → runFor ask n framed = some final →
    (∀ back, final.position ≠ .caller back) ∧ Halted ask machine.world final.world

-- A call of int 0x80 at eip: the caller finds the result of the handler in eax, and nothing else changed.
def ActsAsCall (machine : Machine World) (eip : UInt32) : Prop :=
  let cpu := machine.cpu
  ∀ result world, (syscallHandler ask cpu.eax cpu.ebx cpu.ecx cpu.edx).run machine.world = some (result, world) →
    ∃ framed n, interrupt machine 0x80 (eip + 2) = some framed ∧ runFor ask n framed = some { machine with
      cpu := { cpu with eax := result }, position := .caller (eip + 2), world := world }

def callAhead : List Instr → Bool
  | [] => false
  | .callIsrHandler :: _ | .jmpIsrCommonStub :: _ => true
  | .iretd :: _ => false
  | _ :: rest => callAhead rest

def Captive (start : World) (machine : Machine World) : Prop :=
  match machine.position with
  | .caller _ => False
  | .stub rest => callAhead rest = true ∧ machine.world = start
  | .isrHandler .entry _ => machine.world = start
  | .isrHandler .cli _ | .isrHandler .hlt _ => Halted ask start machine.world

theorem pushed_world (machine : Machine World) (values : List UInt32) :
    (values.foldl push machine).world = machine.world := by
  induction values generalizing machine with
  | nil => rfl
  | cons value values ih => exact ih (push machine value)

section
variable (start : World) (machine next : Machine World) (rest : List Instr)

theorem plain_captive (ahead : callAhead rest = true) (world : machine.world = start) :
    Captive ask start { machine with position := .stub rest } := ⟨ahead, world⟩

theorem execute_captive (instr : Instr) (ahead : callAhead (instr :: rest) = true) (world : machine.world = start)
    (taken : execute machine rest instr = some next) : Captive ask start next := by
  cases instr with
  | jmpIsrCommonStub =>
      cases taken
      exact ⟨rfl, world⟩
  | callIsrHandler =>
      cases taken
      exact world
  | iretd => cases ahead
  | pushad =>
      cases taken
      exact plain_captive ask start _ rest ahead ((pushed_world machine (generalRegisters machine.cpu)).trans world)
  | pushImm value | pushSeg seg | movAx value | movSegAx seg | pushEsp | addEsp slots =>
      cases taken
      exact ⟨ahead, world⟩
  | popSeg seg | popad =>
      rw [execute] at taken
      split at taken
      · cases taken
        exact ⟨ahead, world⟩
      · cases taken

theorem handler_captive (pc : IsrPc) (there : machine.position = .isrHandler pc rest)
    (captive : Captive ask start machine) (taken : isrHandler ask machine rest pc = some next) :
    Captive ask start next := by
  cases pc with
  | entry =>
      rw [Captive, there] at captive
      rw [isrHandler] at taken
      split at taken
      · cases taken
        exact Or.inl captive
      · obtain ⟨result, printed, rfl⟩ := Option.map_eq_some_iff.mp taken
        exact Or.inr ⟨result.1, captive ▸ printed⟩
  | cli =>
      rw [Captive, there] at captive
      cases taken
      exact captive
  | hlt =>
      cases taken
      exact captive

theorem step_captive (captive : Captive ask start machine) (taken : step ask machine = some next) :
    Captive ask start next := by
  rw [step] at taken
  cases there : machine.position with
  | caller eip => rw [there] at taken; cases taken
  | isrHandler pc rest =>
      rw [there] at taken
      exact handler_captive ask start machine next rest pc there captive taken
  | stub code =>
      rw [Captive, there] at captive
      rw [there] at taken
      cases code with
      | nil => cases taken
      | cons instr rest => exact execute_captive ask start machine next rest instr captive.1 captive.2 taken
end

theorem run_captive (n : Nat) (start : World) (machine final : Machine World) (captive : Captive ask start machine)
    (done : runFor ask n machine = some final) : Captive ask start final := by
  induction n generalizing machine with
  | zero =>
      cases done
      exact captive
  | succ n ih =>
      obtain ⟨next, taken, further⟩ := Option.bind_eq_some_iff.mp done
      exact ih next (step_captive ask start machine next captive taken) further

-- popad leaves the saved esp alone.
def restored (cpu : Cpu) (regs : Registers) : Cpu :=
  { eax := regs.eax, ecx := regs.ecx, edx := regs.edx, ebx := regs.ebx, esp := cpu.esp + 72
    ebp := regs.ebp, esi := regs.esi, edi := regs.edi, cs := regs.cs.toUInt16, ds := regs.ds.toUInt16
    es := regs.es.toUInt16, fs := regs.fs.toUInt16, gs := regs.gs.toUInt16, eflags := regs.eflags }

theorem return_path (cpu : Cpu) (regs : Registers) (pointer : UInt32) (stack : List UInt32) (world : World) (down : Bool) :
    runFor ask 8 ⟨cpu, pointer :: layout regs ++ stack, .stub returnPath, world, down⟩ =
      some ⟨restored cpu regs, stack, .caller regs.eip, world, down⟩ := by
  have esp : cpu.esp + 4 * UInt32.ofNat 1 + 4 + 4 + 4 + 4 + 32 + 4 * UInt32.ofNat 2 + 12 = cpu.esp + 72 := by grind
  rw [restored, ← esp]
  rfl

def frameCpu (cpu : Cpu) : Cpu :=
  { cpu with
    eax := (cpu.eax &&& 0xFFFF0000) ||| (0x10 : UInt16).toUInt32, esp := cpu.esp - 72, cs := 0x08
    ds := ((cpu.eax &&& 0xFFFF0000) ||| (0x10 : UInt16).toUInt32).toUInt16
    es := ((cpu.eax &&& 0xFFFF0000) ||| (0x10 : UInt16).toUInt32).toUInt16
    eflags := cpu.eflags &&& ~~~gateFlags }

theorem entry_path (machine : Machine World) (eip : UInt32) :
    ((interrupt machine 0x80 eip).bind (runFor ask 13)) = some ⟨frameCpu machine.cpu,
      (machine.cpu.esp - 68) :: layout (savedRegisters machine.cpu 0x80 eip) ++ machine.stack,
      .isrHandler .entry returnPath, machine.world, machine.shuttingDown⟩ := by
  have five : machine.cpu.esp - 4 - 4 - 4 - 4 - 4 = machine.cpu.esp - 20 := by grind
  have pointer : machine.cpu.esp - 20 - 4 - 4 - 4 - 4 - 4 - 4 - 4 - 4 - 4 - 4 - 4 - 4 = machine.cpu.esp - 68 := by grind
  have esp : machine.cpu.esp - 68 - 4 = machine.cpu.esp - 72 := by grind
  refine Eq.trans (b := some ⟨_, _, _, _, _⟩) rfl ?_
  dsimp only [push, writeSeg, readSeg, generalRegisters, List.foldl]
  rw [five, pointer, esp]
  rfl

theorem stub_restores (machine : Machine World) (eip result : UInt32) (world : World) :
    let regs := { savedRegisters machine.cpu 0x80 eip with eax := result }
    let pointer := machine.cpu.esp - 68
    runFor ask 8 ⟨frameCpu machine.cpu, pointer :: layout regs ++ machine.stack, .stub returnPath, world, machine.shuttingDown⟩ =
      some { machine with cpu := { machine.cpu with eax := result }, position := .caller eip, world := world } := by
  intro regs pointer
  have esp : machine.cpu.esp - 72 + 72 = machine.cpu.esp := UInt32.sub_add_cancel ..
  rw [return_path]
  simp only [restored, frameCpu, regs, savedRegisters, esp, UInt16.toUInt16_toUInt32]

theorem captive_halted (start : World) (machine : Machine World) (captive : Captive ask start machine) :
    (∀ back, machine.position ≠ .caller back) ∧ Halted ask start machine.world := by
  rw [Captive] at captive
  cases there : machine.position with
  | caller eip => rw [there] at captive; cases captive
  | stub rest =>
      rw [there] at captive
      exact ⟨nofun, Or.inl captive.2⟩
  | isrHandler pc rest =>
      rw [there] at captive
      refine ⟨nofun, ?_⟩
      cases pc with
      | entry => exact Or.inl captive
      | cli | hlt => exact captive

theorem never_served (machine : Machine World) (eip : UInt32) : NeverServed ask machine eip := by
  intro framed n final taken done
  have entered : Captive ask machine.world framed := by
    cases taken
    exact ⟨rfl, rfl⟩
  exact captive_halted ask machine.world final (run_captive ask n machine.world framed final entered done)

-- syscall_stub leads to isr_handler, which halts; no handler that returns is ever called.
theorem system_call_iff : (∀ (machine : Machine World) eip, ActsAsCall ask machine eip ↔
      (syscallHandler ask machine.cpu.eax machine.cpu.ebx machine.cpu.ecx machine.cpu.edx).run machine.world = none) ∧
    ∀ (machine : Machine World) eip cpu frequency duration lba count buffer,
      cpu ∈ [sysGetpid machine.cpu, sysShutdown machine.cpu, sysBeep machine.cpu frequency duration,
        sysReadSector machine.cpu lba count buffer] → NeverServed ask { machine with cpu := cpu } eip := by
  refine ⟨fun machine eip => ⟨fun acts => ?_, fun never result world returned => ?_⟩,
    fun machine eip cpu _ _ _ _ _ _ => never_served ask { machine with cpu := cpu } eip⟩
  · by_contra returns
    obtain ⟨⟨result, world⟩, returned⟩ := Option.ne_none_iff_exists'.mp returns
    obtain ⟨framed, n, taken, done⟩ := acts result world returned
    exact (never_served ask machine eip framed n _ taken done).1 _ rfl
  · rw [never] at returned
    cases returned
end

def resting : Machine Unit :=
  { cpu := { eax := 0, ecx := 0, edx := 0, ebx := 0, esp := 0x90000, ebp := 0, esi := 0, edi := 0, cs := 0x08
             ds := 0x10, es := 0x10, fs := 0x10, gs := 0x10, eflags := 0x202 }
    stack := [], position := .caller 0x100000, world := (), shuttingDown := false }

theorem system_call_not_always : ¬ ∀ (World : Type) (ask : Call → Kernel World UInt32) machine eip,
    ActsAsCall ask machine eip := by
  intro claimed
  have acts := claimed Unit (fun _ => pure 0) { resting with cpu := sysGetpid resting.cpu } 0x100000
  obtain ⟨framed, n, taken, done⟩ := acts 1 () rfl
  exact (never_served _ _ 0x100000 framed n _ taken done).1 _ rfl

end RoDos.Syscall
