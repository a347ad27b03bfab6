import RoDos.Fs.Outcome

set_option autoImplicit false

namespace RoDos.Fs

open Base

-- No position from the end of the table on has content, so a new file starts without bytes.
def Unclaimed (fs : FileSystem) : Prop := ∀ position, fs.fsTable.length ≤ position → contentOf fs position = some []

structure RemovalKept (fs next : FileSystem) (i : Nat) : Prop where
  entries : next.fsTable = fs.fsTable.eraseIdx i
  contents : ∀ k, k + 1 < fs.fsTable.length → contentOf next k = contentOf fs (if k < i then k else k + 1)

def removal (machine : Machine) : FsOp → Option Nat
  | .command command _ => removes machine.fs command
  | .reboot _ => none

def RemovalClean (machine : Machine) (op : FsOp) : Prop :=
  ∀ i, removal machine op = some i → ∀ position, i ≤ position → contentOf machine.fs position = some []

def RemovalHarmless (machine : Machine) (op : FsOp) (next : Machine) : Prop :=
  ∀ i, removal machine op = some i → RemovalKept machine.fs next.fs i ∧ Unclaimed next.fs

theorem content_of_congr (fs next : FileSystem) (position : Nat)
    (same : (next.fileContents.find? fun content => content.fileIdx = position) =
      fs.fileContents.find? fun content => content.fileIdx = position) :
    contentOf next position = contentOf fs position := by rw [contentOf, contentOf, same]

theorem content_of_unowned (fs : FileSystem) (position : Nat)
    (unowned : ∀ content ∈ fs.fileContents, content.fileIdx ≠ position) : contentOf fs position = some [] := by
  have nothing : (fs.fileContents.find? fun content => content.fileIdx = position) = none :=
    List.find?_eq_none.mpr fun content member => by simpa using unowned content member
  rw [contentOf, nothing]

theorem step_command (machine next : Machine) (command : Command) (failing : Nat → Bool)
    (taken : FsStep machine (.command command failing) next) :
    ∃ update, runCommand machine.fs command = some update ∧ next.fs = update.fs ∧
      ((update.saves = false ∧ next.disk = machine.disk) ∨
        ∃ complete, fsSaveToDisk failing next.fs machine.disk = some (next.disk, complete)) := by
  obtain ⟨code, done⟩ := taken
  obtain ⟨update, ran, done⟩ := Option.bind_eq_some_iff.mp done
  refine ⟨update, ran, ?_⟩
  by_cases saves : update.saves = true
  · rw [if_pos saves] at done
    obtain ⟨result, written, same⟩ := Option.map_eq_some_iff.mp done
    cases same
    exact ⟨rfl, Or.inr ⟨result.2, written⟩⟩
  · rw [if_neg saves] at done
    cases done
    exact ⟨rfl, Or.inl ⟨Bool.not_eq_true _ ▸ saves, rfl⟩⟩

theorem step_outcome (machine next : Machine) (command : Command) (failing : Nat → Bool)
    (taken : FsStep machine (.command command failing) next) : Outcome machine.fs command next.fs := by
  obtain ⟨update, ran, same, _⟩ := step_command machine next command failing taken
  rw [same]
  exact run_command_outcome machine.fs update command ran

theorem step_reboot (machine next : Machine) (failing : Nat → Bool) (taken : FsStep machine (.reboot failing) next) :
    next = ⟨fsInitCommands failing machine.disk, machine.disk⟩ := by
  obtain ⟨code, done⟩ := taken
  cases done
  rfl

theorem load_contents_owner (failing : Nat → Bool) (disk : Disk) (table : List FSEntry) (content : FileContent)
    (member : content ∈ loadContents failing disk table) : content.fileIdx < table.length := by
  have found := List.mem_of_mem_take member
  obtain ⟨slot, slotIn, loaded⟩ := List.mem_filterMap.mp found
  rw [loadContent] at loaded
  split at loaded
  · cases loaded
    have position := List.snd_lt_add_of_mem_zipIdx slotIn
    simpa using position
  · cases loaded

theorem init_unclaimed (failing : Nat → Bool) (disk : Disk) : Unclaimed (fsInitCommands failing disk) := by
  intro position beyond
  refine content_of_unowned _ position fun content member => ?_
  have owner := load_contents_owner failing disk _ content member
  have before : content.fileIdx < (fsInitCommands failing disk).fsTable.length := owner
  omega

theorem removes_inside (fs : FileSystem) (command : Command) (i : Nat) (removal : removes fs command = some i) :
    i < fs.fsTable.length := by
  cases command with
  | rmdir args =>
      rw [removes] at removal
      split at removal
      · cases removal
      · exact (find_index_lt _ _ _ removal).1
  | del args =>
      rw [removes] at removal
      split at removal
      · cases removal
      · obtain ⟨path, _, found⟩ := Option.bind_eq_some_iff.mp removal
        exact (find_index_lt _ _ _ found).1
  | _ => cases removal

theorem outcome_unclaimed (fs next : FileSystem) (command : Command) (unclaimed : Unclaimed fs)
    (clean : ∀ i, removes fs command = some i → ∀ position, i ≤ position → contentOf fs position = some [])
    (outcome : Outcome fs command next) : Unclaimed next := by
  cases outcome with
  | same next table contents dir accounts count =>
      intro position beyond
      rw [content_of_congr fs next position (by rw [contents])]
      exact unclaimed position (table ▸ beyond)
  | created stored size type attr contents named room bounded puts =>
      intro position beyond
      rw [List.length_append, List.length_singleton] at beyond
      refine (content_of_congr fs _ position (puts.others position ?_)).trans (unclaimed position ?_) <;> omega
  | sized i size contents inside bounded puts =>
      intro position beyond
      rw [List.length_modify] at beyond
      exact (content_of_congr fs _ position (puts.others position (by omega))).trans (unclaimed position beyond)
  | marked i attr =>
      intro position beyond
      rw [List.length_modify] at beyond
      exact unclaimed position beyond
  | renamed i stored moved =>
      intro position beyond
      rw [renameAt, List.length_modify] at beyond
      exact unclaimed position beyond
  | removed i removal =>
      intro position beyond
      have inside := removes_inside fs command i removal
      rw [removeAt, List.length_eraseIdx_of_lt inside] at beyond
      exact clean i removal position (by omega)
  | left up => exact unclaimed
  | entered path into => exact unclaimed
  | cleared formatted => exact fun _ _ => rfl

theorem unclaimed_step (machine next : Machine) (op : FsOp) (unclaimed : Unclaimed machine.fs)
    (clean : RemovalClean machine op) (taken : FsStep machine op next) : Unclaimed next.fs := by
  cases op with
  | command command failing =>
      exact outcome_unclaimed machine.fs next.fs command unclaimed clean (step_outcome machine next command failing taken)
  | reboot failing =>
      rw [step_reboot machine next failing taken]
      exact init_unclaimed failing machine.disk

theorem removes_run (fs : FileSystem) (command : Command) (i : Nat) (removal : removes fs command = some i) :
    runCommand fs command = saved (removeAt fs i) := by
  cases command with
  | rmdir args =>
      rw [removes] at removal
      simp only [runCommand, cmdRmdir]
      by_cases empty : token args = []
      · simp [empty] at removal
      · rw [if_neg empty] at removal ⊢
        rw [removal]
        rfl
  | del args =>
      rw [removes] at removal
      simp only [runCommand, cmdDel]
      by_cases empty : token args = []
      · simp [empty] at removal
      · rw [if_neg empty] at removal ⊢
        obtain ⟨path, built, found⟩ := Option.bind_eq_some_iff.mp removal
        rw [built, Option.bind_some, found]
        rfl
  | _ => cases removal

theorem removal_step (machine next : Machine) (op : FsOp) (i : Nat) (removed : removal machine op = some i)
    (taken : FsStep machine op next) : next.fs = removeAt machine.fs i ∧ i < machine.fs.fsTable.length := by
  cases op with
  | command command failing =>
      obtain ⟨update, ran, same, _⟩ := step_command machine next command failing taken
      rw [removes_run machine.fs command i removed] at ran
      rw [same]
      exact ⟨saved_fs _ _ ran, removes_inside machine.fs command i removed⟩
  | reboot failing => cases removed

theorem clean_removal_kept (fs : FileSystem) (i : Nat) (inside : i < fs.fsTable.length)
    (clean : ∀ position, i ≤ position → contentOf fs position = some []) :
    RemovalKept fs (removeAt fs i) i ∧ Unclaimed (removeAt fs i) := by
  refine ⟨⟨rfl, fun k _ => ?_⟩, fun position beyond => ?_⟩
  · have same : contentOf (removeAt fs i) k = contentOf fs k := rfl
    by_cases before : k < i
    · rw [if_pos before, same]
    · rw [if_neg before, same, clean k (by omega), clean (k + 1) (by omega)]
  · rw [removeAt, List.length_eraseIdx_of_lt inside] at beyond
    exact clean position (by omega)

theorem kept_removal_clean (fs : FileSystem) (i : Nat) (inside : i < fs.fsTable.length)
    (kept : RemovalKept fs (removeAt fs i) i) (after : Unclaimed (removeAt fs i)) (position : Nat)
    (behind : i ≤ position) : contentOf fs position = some [] := by
  have final (other : Nat) (last : fs.fsTable.length - 1 ≤ other) : contentOf fs other = some [] :=
    after other (by rw [removeAt, List.length_eraseIdx_of_lt inside]; exact last)
  by_cases shifted : position + 1 < fs.fsTable.length
  · obtain ⟨distance, length⟩ := Nat.exists_eq_add_of_lt shifted
    induction distance generalizing position with
    | zero =>
        have read := kept.contents position shifted
        rw [if_neg (Nat.not_lt.mpr behind)] at read
        exact read.trans (final (position + 1) (by omega))
    | succ distance ih =>
        have read := kept.contents position shifted
        rw [if_neg (Nat.not_lt.mpr behind)] at read
        exact read.trans (ih (position + 1) (by omega) (by omega) (by omega))
  · exact final position (by omega)

theorem removals_keep_contents (machine : Machine) (run : Run Booted FsStep RemovalClean machine) :
    Unclaimed machine.fs ∧
      ∀ op next, FsStep machine op next → (RemovalHarmless machine op next ↔ RemovalClean machine op) := by
  refine ⟨?_, fun op next taken => ⟨fun harmless i removed => ?_, fun clean i removed => ?_⟩⟩
  · exact run_invariant (fun state => Unclaimed state.fs)
      (fun state boot => by rw [boot.2]; exact init_unclaimed never state.disk)
      (fun state later op held clean taken => unclaimed_step state later op held clean taken) machine run
  · obtain ⟨same, inside⟩ := removal_step machine next op i removed taken
    obtain ⟨kept, after⟩ := harmless i removed
    rw [same] at kept after
    exact kept_removal_clean machine.fs i inside kept after
  · obtain ⟨same, inside⟩ := removal_step machine next op i removed taken
    rw [same]
    exact clean_removal_kept machine.fs i inside (clean i removed)

def blankDisk : Disk := fun _ => blankSector

def firstBoot : Machine := ⟨fsInitCommands never blankDisk, blankDisk⟩

theorem first_boot_booted : Booted firstBoot := by
  have blank : blankSector.getD 0 0 = 0 := by decide +kernel
  exact ⟨⟨blank, fun _ _ => blank, fun _ _ => blank, fun _ => List.length_replicate⟩, rfl⟩

def runOps : Machine → List FsOp → Option Machine
  | machine, [] => some machine
  | machine, op :: ops => (stepOp machine op).bind fun result => runOps result.1 ops

theorem run_ops_run (start finish : Machine) (ops : List FsOp)
    (run : Run Booted FsStep (fun _ _ => True) start) (done : runOps start ops = some finish) :
    Run Booted FsStep (fun _ _ => True) finish := by
  induction ops generalizing start with
  | nil =>
      cases done
      exact run
  | cons op ops ih =>
      obtain ⟨result, taken, further⟩ := Option.bind_eq_some_iff.mp done
      exact ih result.1 (.step start result.1 op run trivial ⟨result.2, taken⟩) further

def typed (letter : UInt16) : List UInt16 := [letter, 27]

example : nanoEdit [] (typed 120) = some (false, ascii "x") := by decide

def plain (command : Command) : FsOp := .command command never

theorem not_removal_clean (machine : Machine) (op : FsOp) (still : removal machine op = none) :
    RemovalClean machine op := by
  intro i removed
  rw [still] at removed
  cases removed

theorem removals_keep_contents_last : ∃ machine next : Machine, contentOf machine.fs 0 = some (ascii "x") ∧
    Unclaimed machine.fs ∧ RemovalHarmless machine (plain (.del (ascii "B"))) next := by
  have evaluated : (stepOp firstBoot (plain (.nano (ascii "A") true (typed 120)))).any (fun one =>
      (stepOp one.1 (plain (.touch (ascii "B")))).any fun two =>
        contentOf two.1.fs 0 = some (ascii "x") ∧ two.1.fs.fileContents.map FileContent.fileIdx = [0] ∧
          removes two.1.fs (.del (ascii "B")) = some 1 ∧
          (stepOp two.1 (plain (.del (ascii "B")))).isSome) = true := by decide +kernel
  obtain ⟨one, first, further⟩ := (Option.any_eq_true _ _).mp evaluated
  obtain ⟨two, second, reached⟩ := (Option.any_eq_true _ _).mp further
  obtain ⟨content, owners, removed, ended⟩ := of_decide_eq_true reached
  obtain ⟨next, third⟩ := Option.isSome_iff_exists.mp ended
  have run : Run Booted FsStep RemovalClean two.1 :=
    .step one.1 two.1 (plain (.touch (ascii "B")))
      (.step firstBoot one.1 (plain (.nano (ascii "A") true (typed 120))) (.start _ first_boot_booted)
        (not_removal_clean _ _ rfl) ⟨one.2, first⟩)
      (not_removal_clean _ _ rfl) ⟨two.2, second⟩
  have clean : RemovalClean two.1 (plain (.del (ascii "B"))) := by
    intro i found position behind
    have last : removes two.1.fs (.del (ascii "B")) = some i := found
    rw [removed, Option.some.injEq] at last
    refine content_of_unowned _ position fun content member => ?_
    have first : content.fileIdx ∈ two.1.fs.fileContents.map FileContent.fileIdx := List.mem_map_of_mem member
    rw [owners, List.mem_singleton] at first
    omega
  obtain ⟨unclaimed, harmless⟩ := removals_keep_contents two.1 run
  exact ⟨two.1, next.1, content, unclaimed, (harmless _ next.1 ⟨next.2, third⟩).mpr clean⟩

theorem removals_lose_contents : ¬ ∀ machine, Run Booted FsStep (fun _ _ => True) machine →
    ∀ op next, FsStep machine op next → RemovalHarmless machine op next := by
  intro claimed
  have evaluated : (runOps firstBoot [plain (.nano (ascii "A") true (typed 120)),
      plain (.nano (ascii "B") true (typed 121))]).any (fun machine =>
        removes machine.fs (.del (ascii "A")) = some 0 ∧ machine.fs.fsTable.length = 2 ∧
          contentOf machine.fs 1 = some (ascii "y") ∧
          (stepOp machine (plain (.del (ascii "A")))).any fun next => contentOf next.1.fs 0 = some (ascii "x")) = true := by
    decide +kernel
  obtain ⟨machine, done, reached⟩ := (Option.any_eq_true _ _).mp evaluated
  obtain ⟨removed, count, before, further⟩ := of_decide_eq_true reached
  obtain ⟨next, taken, after⟩ := (Option.any_eq_true _ _).mp further
  have run := run_ops_run firstBoot machine _ (.start _ first_boot_booted) done
  have kept := (claimed machine run (plain (.del (ascii "A"))) next.1 ⟨next.2, taken⟩ 0 removed).1.contents 0
    (by rw [count]; decide)
  rw [of_decide_eq_true after, if_neg (by decide), before] at kept
  exact absurd kept (by decide)

end RoDos.Fs
