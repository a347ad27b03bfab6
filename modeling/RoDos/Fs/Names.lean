import Mathlib.Data.List.Nodup
import Mathlib.Data.List.Perm.Basic
import RoDos.Fs.WellFormed

set_option autoImplicit false

namespace RoDos.Fs

open Base

def names (fs : FileSystem) : List (List UInt8) := fs.fsTable.map FSEntry.name

-- No write to the file table fails. A command adds at most one entry.
def TableWritten (fs : FileSystem) (failing : Nat → Bool) : Prop :=
  ∀ n, 0 < n → n ≤ max 64 (fs.fsTable.length + 1) → failing n = false

structure NameFree (fs : FileSystem) (command : Command) : Prop where
  created : ∀ stored, newName fs command = some stored → stored ∉ names fs
  renamed : ∀ i stored, renames fs command = some (i, stored) → stored ∉ (names fs).eraseIdx i

def NamesGuarded (machine : Machine) : FsOp → Prop
  | .command command failing => NameFree machine.fs command ∧ TableWritten machine.fs failing
  | .reboot _ => True

def DiskNames (disk : Disk) : Prop :=
  ∀ i j, i < j → j < 64 → (disk (fsDataStartLba + i)).getD 0 0 ≠ 0 → (disk (fsDataStartLba + j)).getD 0 0 ≠ 0 →
    (decodeEntry (disk (fsDataStartLba + i))).name ≠ (decodeEntry (disk (fsDataStartLba + j))).name

structure NamesApart (machine : Machine) : Prop where
  ok : WellFormed machine
  memory : (names machine.fs).Nodup
  disk : DiskNames machine.disk

theorem nodup_set (xs : List (List UInt8)) (i : Nat) (x : List UInt8) (distinct : xs.Nodup) (fresh : x ∉ xs.eraseIdx i) :
    (xs.set i x).Nodup := by
  by_cases inside : i < xs.length
  · apply (List.set_perm_cons_eraseIdx inside x).nodup_iff.mpr
    exact List.nodup_cons.mpr ⟨fresh, distinct.sublist (List.eraseIdx_sublist _ _)⟩
  · rw [List.set_eq_of_length_le (Nat.le_of_not_lt inside)]
    exact distinct

theorem outcome_names (fs next : FileSystem) (command : Command) (free : NameFree fs command)
    (distinct : (names fs).Nodup) (outcome : Outcome fs command next) : (names next).Nodup := by
  cases outcome with
  | same next table contents dir accounts count =>
      rw [names, table]
      exact distinct
  | created stored size type attr contents named room bounded puts =>
      have parts : names { fs with fsTable := fs.fsTable ++ [⟨stored, size, type, attr⟩], fileContents := contents } =
          names fs ++ [stored] := List.map_append
      rw [parts]
      apply List.nodup_append.mpr
      refine ⟨distinct, List.nodup_singleton stored, fun name inside other last same => ?_⟩
      cases List.mem_singleton.mp last
      cases same
      exact free.created stored named inside
  | sized i size contents inside bounded puts =>
      rw [names, map_modify_same]
      · exact distinct
      · exact fun _ => rfl
  | marked i attr =>
      rw [names, map_modify_same]
      · exact distinct
      · exact fun _ => rfl
  | renamed i stored moved =>
      rw [names, renameAt, map_modify_fixed _ _ i _ stored fun _ => rfl]
      exact nodup_set _ i stored distinct (free.renamed i stored moved)
  | removed i removal =>
      exact distinct.sublist ((List.eraseIdx_sublist _ _).map _)
  | left up => exact distinct
  | entered path into => exact distinct
  | cleared formatted => exact List.nodup_nil

theorem step_table (machine next : Machine) (command : Command) (failing : Nat → Bool)
    (written : TableWritten machine.fs failing) (taken : FsStep machine (.command command failing) next) :
    next.disk = machine.disk ∨ TableSaved next.fs next.disk := by
  have length := outcome_length _ _ _ (step_outcome machine next command failing taken)
  obtain ⟨update, _, _, kept | ⟨complete, done⟩⟩ := step_command machine next command failing taken
  · exact Or.inl kept.2
  · refine save_table failing next.fs machine.disk next.disk complete (fun n positive small => ?_) done
    apply written n positive
    rw [tableWrites] at small
    omega

theorem held_names (table : List FSEntry) (disk : Disk) (distinct : (table.map FSEntry.name).Nodup)
    (held : Holds disk table) : DiskNames disk := by
  intro i j before inside first second
  have occupied (k : Nat) (small : k < 64) (present : (disk (fsDataStartLba + k)).getD 0 0 ≠ 0) :
      ∃ within : k < table.length, decodeEntry (disk (fsDataStartLba + k)) = table[k] := by
    by_cases spare : table.length ≤ k
    · exact absurd (held.spare k spare small) present
    · have within := Nat.lt_of_not_le spare
      exact ⟨within, (held.filled k _ small (List.getElem?_eq_getElem within)).2⟩
  obtain ⟨here, entry⟩ := occupied i (Nat.lt_trans before inside) first
  obtain ⟨there, other⟩ := occupied j inside second
  have different := List.pairwise_iff_getElem.mp distinct i j (by rw [List.length_map]; exact here)
    (by rw [List.length_map]; exact there) before
  rw [List.getElem_map, List.getElem_map] at different
  rw [entry, other]
  exact different

theorem load_table_names (failing : Nat → Bool) (disk : Disk) (apart : DiskNames disk) (a m : Nat) (inside : a + m ≤ 64) :
    ((loadTable failing disk (List.range' a m)).map FSEntry.name).Nodup := by
  induction m generalizing a with
  | zero => exact List.nodup_nil
  | succ m ih =>
      have later := ih (a + 1) (by omega)
      rw [List.range'_succ, loadTable]
      split
      · exact later
      · split
        · exact List.nodup_nil
        · rename_i occupied
          apply List.nodup_cons.mpr
          refine ⟨fun member => ?_, later⟩
          obtain ⟨entry, loaded, same⟩ := List.mem_map.mp member
          obtain ⟨j, range, present, decoded⟩ := load_table_member failing disk _ entry loaded
          rw [List.mem_range'_1] at range
          apply apart a j (by omega) (by omega) occupied present
          rw [← decoded, same]

theorem names_apart_step (machine next : Machine) (op : FsOp) (apart : NamesApart machine)
    (guarded : NamesGuarded machine op) (taken : FsStep machine op next) : NamesApart next := by
  have ok := well_formed_step machine next op apart.ok taken
  cases op with
  | command command failing =>
      have memory := outcome_names _ _ command guarded.1 apart.memory (step_outcome machine next command failing taken)
      refine ⟨ok, memory, ?_⟩
      cases step_table machine next command failing guarded.2 taken with
      | inl same => exact same ▸ apart.disk
      | inr saved => exact held_names _ next.disk memory (table_saved_holds next.fs next.disk ok.fs.entries saved)
  | reboot failing =>
      have loaded := load_table_names failing machine.disk apart.disk 0 64 (Nat.le_refl 64)
      rw [← List.range_eq_range'] at loaded
      rw [step_reboot machine next failing taken] at ok ⊢
      exact ⟨ok, loaded, apart.disk⟩

theorem booted_names_apart (machine : Machine) (boot : Booted machine) : NamesApart machine := by
  have blank : DiskNames machine.disk := fun i j _ inside _ occupied => absurd (boot.1.files j inside) occupied
  have loaded := load_table_names never machine.disk blank 0 64 (Nat.le_refl 64)
  rw [← List.range_eq_range'] at loaded
  exact ⟨booted_well_formed machine boot, boot.2 ▸ loaded, blank⟩

theorem names_stay_distinct (machine : Machine) (run : Run Booted FsStep NamesGuarded machine) :
    (names machine.fs).Nodup := by
  have apart := run_invariant NamesApart booted_names_apart names_apart_step machine run
  exact apart.memory

theorem never_written (fs : FileSystem) : TableWritten fs never := fun _ _ _ => rfl

theorem names_stay_distinct_created : ∃ machine : Machine,
    names machine.fs = [ascii "C:\\A", ascii "C:\\B"] ∧ (names machine.fs).Nodup := by
  have evaluated : (stepOp firstBoot (plain (.touch (ascii "A")))).any (fun one =>
      newName firstBoot.fs (.touch (ascii "A")) = some (ascii "C:\\A") ∧ names firstBoot.fs = [] ∧
        newName one.1.fs (.touch (ascii "B")) = some (ascii "C:\\B") ∧ names one.1.fs = [ascii "C:\\A"] ∧
        (stepOp one.1 (plain (.touch (ascii "B")))).any fun two =>
          names two.1.fs = [ascii "C:\\A", ascii "C:\\B"]) = true := by decide +kernel
  obtain ⟨one, first, reached⟩ := (Option.any_eq_true _ _).mp evaluated
  obtain ⟨stored, before, added, between, further⟩ := of_decide_eq_true reached
  obtain ⟨two, second, after⟩ := (Option.any_eq_true _ _).mp further
  have free (fs : FileSystem) (args stored : List UInt8) (named : newName fs (.touch args) = some stored)
      (fresh : stored ∉ names fs) : NameFree fs (.touch args) := by
    refine ⟨fun other same => ?_, fun i other moved => by cases moved⟩
    rw [named] at same
    cases same
    exact fresh
  have run : Run Booted FsStep NamesGuarded two.1 :=
    .step one.1 two.1 (plain (.touch (ascii "B")))
      (.step firstBoot one.1 (plain (.touch (ascii "A"))) (.start _ first_boot_booted)
        ⟨free _ _ _ stored (by rw [before]; decide), never_written _⟩ ⟨one.2, first⟩)
      ⟨free _ _ _ added (by rw [between]; decide), never_written _⟩ ⟨two.2, second⟩
  exact ⟨two.1, of_decide_eq_true after, names_stay_distinct two.1 run⟩

-- COPY does not look for the name it stores.
theorem names_not_always_distinct : ¬ ∀ machine, Run Booted FsStep (fun _ _ => True) machine →
    (names machine.fs).Nodup := by
  intro claimed
  have evaluated : (runOps firstBoot [plain (.touch (ascii "A")), plain (.copy (ascii "C:\\A C:\\A"))]).any (fun machine =>
      names machine.fs = [ascii "C:\\A", ascii "C:\\A"]) = true := by decide +kernel
  obtain ⟨machine, done, reached⟩ := (Option.any_eq_true _ _).mp evaluated
  have distinct := claimed machine (run_ops_run firstBoot machine _ (.start _ first_boot_booted) done)
  rw [of_decide_eq_true reached] at distinct
  exact absurd distinct (by decide)

end RoDos.Fs
