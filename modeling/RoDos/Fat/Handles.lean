import RoDos.Base.Runs
import RoDos.Fat.Opening

set_option autoImplicit false

namespace RoDos.Fat

open Base

-- The numbers of the successful opens that no close has taken back stand beside the file system.
structure Table where
  fs : FileSystem
  opened : List Nat

inductive TableCall where
  | opens (drive : Drive) (regs : Registers)
  | reads (eax : Nat)
  | closes (eax : Nat)

def tableStep (table : Table) : TableCall → Table
  | .opens drive regs =>
      let (fs, eax, out) := fsOpen drive table.fs regs
      ⟨fs, if eax = 0 then out.toList ++ table.opened else table.opened⟩
  | .reads _ => table
  | .closes eax =>
      let (fs, code) := fsClose table.fs eax
      ⟨fs, if code = 0 then table.opened.erase eax else table.opened⟩

def TableStep (table : Table) (call : TableCall) (next : Table) : Prop :=
  (match call with
    | .opens _ _ => True
    | .reads eax | .closes eax => eax < 2 ^ 32) ∧ next = tableStep table call

def Started (table : Table) : Prop :=
  Mounted table.fs ∧ table.opened = [] ∧ ∀ ebx, (table.fs.handles ebx).flags % 2 = 0

-- fs_read and fs_close stay inside the records, and refuse a value that no open has given.
structure ValueHandled (table : Table) (eax : Nat) : Prop where
  touches : ∀ record ∈ handleStruct eax, record < 16
  changes : (fsClose table.fs eax).1 = { table.fs with handles := (fsClose table.fs eax).1.handles }
  refused : eax ∉ table.opened → fsRead table.fs eax = (minusOne, none) ∧ fsClose table.fs eax = (table.fs, minusOne)

def ValueSafe (table : Table) (eax : Nat) : Prop :=
  eax < 2 ^ 31 ∨ recordOf eax < 16 ∧ recordOf eax ∉ table.opened

def CallSafe (table : Table) : TableCall → Prop
  | .opens _ _ => True
  | .reads eax | .closes eax => ValueSafe table eax

structure Tracked (table : Table) : Prop where
  mounted : Mounted table.fs
  inUse : ∀ ebx : Fin 16, (table.fs.handles ebx).flags % 2 = 1 ↔ ebx.val ∈ table.opened
  bounded : ∀ number ∈ table.opened, number < 16
  nodup : table.opened.Nodup

theorem started_tracked (table : Table) (started : Started table) : Tracked table := by
  obtain ⟨mounted, none', free⟩ := started
  refine ⟨mounted, fun ebx => ?_, ?_, ?_⟩
  · rw [free ebx, none']
    simp
  · rw [none']
    simp
  · rw [none']
    exact List.nodup_nil

section
variable (eax : Nat)

theorem handle_struct_below (below : eax < 16) : handleStruct eax = some eax := by
  have signed : signed32 eax = (eax : Int) := if_pos (by omega)
  have record : recordOf eax = eax := by
    rw [recordOf]
    omega
  rw [handleStruct, if_neg (by omega), record]

theorem handle_struct_behind (behind : 16 ≤ eax) (positive : eax < 2 ^ 31) : handleStruct eax = none := by
  have signed : signed32 eax = (eax : Int) := if_pos positive
  rw [handleStruct, if_pos (by omega)]

theorem handle_struct_negative (negative : 2 ^ 31 ≤ eax) (word : eax < 2 ^ 32) : handleStruct eax = some (recordOf eax) := by
  have signed : signed32 eax = (eax : Int) - 2 ^ 32 := if_neg (by omega)
  rw [handleStruct, if_neg (by omega)]

variable (table : Table)

theorem closed_elsewhere (behind : handleStruct eax = none) :
    fsRead table.fs eax = (minusOne, none) ∧ fsClose table.fs eax = (table.fs, minusOne) := by
  rw [fsRead, fsClose, behind]
  exact ⟨rfl, rfl⟩

variable (record : Nat) (inside : record < 16)

include inside in
theorem record_free_iff (tracked : Tracked table) : recordFlags table.fs record % 2 = 0 ↔ record ∉ table.opened := by
  have used := tracked.inUse ⟨record, inside⟩
  rw [recordFlags, dif_pos inside, ← used]
  omega

variable (here : handleStruct eax = some record)
include inside here

theorem closed_inside : (fsClose table.fs eax).1 = { table.fs with handles := (fsClose table.fs eax).1.handles } := by
  rw [fsClose, here]
  dsimp only
  split
  · rfl
  · rw [clearFlags, dif_pos inside]

theorem refused_iff (tracked : Tracked table) :
    (fsRead table.fs eax = (minusOne, none) ∧ fsClose table.fs eax = (table.fs, minusOne)) ↔ record ∉ table.opened := by
  rw [fsRead, fsClose, here, ← record_free_iff table record inside tracked]
  dsimp only
  constructor
  · rintro ⟨read, -⟩
    by_contra used
    rw [if_neg used] at read
    cases read
  · intro free
    rw [if_pos free, if_pos free]
    exact ⟨rfl, rfl⟩

theorem closed_used (tracked : Tracked table) (used : record ∈ table.opened) :
    fsClose table.fs eax = (clearFlags table.fs record, 0) := by
  have taken : ¬ recordFlags table.fs record % 2 = 0 :=
    fun free => (record_free_iff table record inside tracked).mp free used
  rw [fsClose, here]
  exact if_neg taken
end

theorem value_handled_iff (table : Table) (tracked : Tracked table) (eax : Nat) (word : eax < 2 ^ 32) :
    ValueHandled table eax ↔ ValueSafe table eax := by
  rcases Nat.lt_or_ge eax 16 with below | other
  · have here := handle_struct_below eax below
    refine iff_of_true ⟨fun record found => ?_, closed_inside eax table eax below here, fun missing => ?_⟩ (Or.inl (by omega))
    · rw [here] at found
      cases found
      exact below
    · exact (refused_iff eax table eax below here tracked).mpr missing
  rcases Nat.lt_or_ge eax (2 ^ 31) with positive | negative
  · have here := handle_struct_behind eax other positive
    have closed := closed_elsewhere eax table here
    refine iff_of_true ⟨fun record found => ?_, by rw [closed.2], fun _ => closed⟩ (Or.inl positive)
    rw [here] at found
    cases found
  have here := handle_struct_negative eax negative word
  have unopened : eax ∉ table.opened := fun member => by
    have few := tracked.bounded eax member
    omega
  constructor
  · intro handled
    have inside := handled.touches (recordOf eax) here
    exact Or.inr ⟨inside, (refused_iff eax table _ inside here tracked).mp (handled.refused unopened)⟩
  · intro safe
    obtain ⟨inside, free⟩ := safe.resolve_left (Nat.not_lt.mpr negative)
    refine ⟨fun record found => ?_, closed_inside eax table _ inside here, fun _ => ?_⟩
    · rw [here] at found
      cases found
      exact inside
    · exact (refused_iff eax table _ inside here tracked).mpr free

theorem open_tracked (table : Table) (drive : Drive) (regs : Registers) (tracked : Tracked table) :
    Tracked (tableStep table (.opens drive regs)) := by
  have opened := fs_open_opened drive table.fs regs tracked.mounted
  rw [tableStep]
  generalize fsOpen drive table.fs regs = result at opened
  cases opened with
  | refused after code same error why =>
      dsimp only
      rw [if_neg error, same.rest]
      exact ⟨⟨tracked.mounted.some', tracked.mounted.word, tracked.mounted.sectors⟩, tracked.inUse, tracked.bounded, tracked.nodup⟩
  | filled after ebx handle searched free reads rest handles used entry =>
      have unused : ebx.val ∉ table.opened := fun member => by
        have flags := (tracked.inUse ebx).mpr member
        have zero := free_handle_free table.fs ebx free
        omega
      dsimp only
      rw [if_pos rfl, rest, handles]
      refine ⟨⟨tracked.mounted.some', tracked.mounted.word, tracked.mounted.sectors⟩, fun other => ?_, ?_,
        List.nodup_cons.mpr ⟨unused, tracked.nodup⟩⟩
      · dsimp only
        by_cases same : other = ebx
        · rw [same, Function.update_self, used]
          exact iff_of_true rfl List.mem_cons_self
        · rw [Function.update_of_ne same, tracked.inUse]
          exact ⟨List.mem_cons_of_mem _, fun member => (List.mem_cons.mp member).resolve_left fun equal => same (Fin.ext equal)⟩
      · intro number member
        rcases List.mem_cons.mp member with rfl | earlier
        · exact ebx.isLt
        · exact tracked.bounded number earlier

theorem close_tracked (table : Table) (eax : Nat) (tracked : Tracked table) (word : eax < 2 ^ 32)
    (safe : ValueSafe table eax) : Tracked (tableStep table (.closes eax)) := by
  by_cases member : eax ∈ table.opened
  · have below := tracked.bounded eax member
    have closed := closed_used eax table eax below (handle_struct_below eax below) tracked member
    rw [tableStep, closed]
    dsimp only
    rw [if_pos rfl, clearFlags, dif_pos below]
    refine ⟨⟨tracked.mounted.some', tracked.mounted.word, tracked.mounted.sectors⟩, fun other => ?_, fun number left => ?_,
      tracked.nodup.erase eax⟩
    · dsimp only
      by_cases same : other.val = eax
      · have index : other = ⟨eax, below⟩ := Fin.ext same
        rw [index, Function.update_self, tracked.nodup.mem_erase_iff]
        exact iff_of_false (by simp) fun left => left.1 rfl
      · rw [Function.update_of_ne fun equal => same (congrArg Fin.val equal), List.mem_erase_of_ne same, tracked.inUse]
    · exact tracked.bounded number (List.mem_of_mem_erase left)
  · have handled := (value_handled_iff table tracked eax word).mpr safe
    rw [tableStep, (handled.refused member).2]
    exact tracked

theorem step_tracked (table next : Table) (call : TableCall) (tracked : Tracked table) (safe : CallSafe table call)
    (taken : TableStep table call next) : Tracked next := by
  obtain ⟨word, rfl⟩ := taken
  cases call with
  | opens drive regs => exact open_tracked table drive regs tracked
  | reads eax => exact tracked
  | closes eax => exact close_tracked table eax tracked word safe

theorem handles_kept (table : Table) (run : Run Started TableStep CallSafe table) :
    table.opened.Nodup ∧ ∀ eax < 2 ^ 32, ValueHandled table eax ↔ ValueSafe table eax := by
  have tracked := run_invariant Tracked started_tracked step_tracked table run
  exact ⟨tracked.nodup, fun eax word => value_handled_iff table tracked eax word⟩

def freshTable : Table := ⟨smallVolume fun _ => 65, []⟩

def openedOnce : Table := tableStep freshTable (.opens zeroFiles fileName)

theorem fresh_table_started : Started freshTable := ⟨small_volume_mounted _, rfl, fun _ => rfl⟩

theorem handles_kept_once :
    openedOnce.opened.Nodup ∧ ∀ eax < 2 ^ 32, ValueHandled openedOnce eax ↔ ValueSafe openedOnce eax :=
  handles_kept openedOnce (.step freshTable openedOnce (.opens zeroFiles fileName) (.start _ fresh_table_started) trivial
    ⟨trivial, rfl⟩)

-- 0x80000000 stands for the record of handle 0.
theorem handles_not_kept : ¬ ∀ table, Run Started TableStep (fun _ _ => True) table →
    table.opened.Nodup ∧ ∀ eax < 2 ^ 32, ValueHandled table eax := by
  intro claimed
  have run : Run Started TableStep (fun _ _ => True) openedOnce :=
    .step freshTable openedOnce (.opens zeroFiles fileName) (.start _ fresh_table_started) trivial ⟨trivial, rfl⟩
  have handled := (claimed openedOnce run).2 (2 ^ 31) (by decide)
  exact absurd (handled.refused (by decide +kernel)).1 (by decide +kernel)

end RoDos.Fat
