import Mathlib.Tactic.Common

set_option autoImplicit false

namespace Base

-- A guarded run takes only steps that the guard admits in the state before them.
-- The guard fun _ _ => True gives every reachable state.
inductive Run {State Op : Type} (initial : State → Prop) (step : State → Op → State → Prop)
    (guard : State → Op → Prop) : State → Prop where
  | start (state : State) (boot : initial state) : Run initial step guard state
  | step (state next : State) (op : Op) (earlier : Run initial step guard state)
      (admitted : guard state op) (taken : step state op next) : Run initial step guard next

section
variable {State Op : Type} {initial : State → Prop} {step : State → Op → State → Prop}
  {guard : State → Op → Prop}

theorem run_invariant (inv : State → Prop) (base : ∀ state, initial state → inv state)
    (kept : ∀ state next op, inv state → guard state op → step state op next → inv next)
    (state : State) (run : Run initial step guard state) : inv state := by
  induction run with
  | start state boot => exact base state boot
  | step state next op _ admitted taken ih => exact kept state next op ih admitted taken

theorem run_weaken (wider : State → Op → Prop)
    (implied : ∀ state op, guard state op → wider state op) (state : State)
    (run : Run initial step guard state) : Run initial step wider state := by
  induction run with
  | start state boot => exact .start state boot
  | step state next op _ admitted taken ih => exact .step state next op ih (implied state op admitted) taken

def runAll (next : State → Op → Option State) : State → List Op → Option State
  | state, [] => some state
  | state, op :: ops => (next state op).bind fun reached => runAll next reached ops

theorem run_all_append (next : State → Op → Option State) (state : State) (first second : List Op) :
    runAll next state (first ++ second) = (runAll next state first).bind fun reached => runAll next reached second := by
  induction first generalizing state with
  | nil => rfl
  | cons op ops ih =>
      rw [List.cons_append, runAll, runAll, Option.bind_assoc]
      exact congrArg _ (funext fun reached => ih reached)

def Along (next : State → Op → Option State) (holds : State → Op → Prop) : State → List Op → Prop
  | _, [] => True
  | state, op :: ops => holds state op ∧ ∀ reached, next state op = some reached → Along next holds reached ops

instance alongDecidable (next : State → Op → Option State) (holds : State → Op → Prop)
    [∀ state op, Decidable (holds state op)] (state : State) : (ops : List Op) → Decidable (Along next holds state ops)
  | [] => .isTrue trivial
  | op :: ops =>
      match taken : next state op with
      | none => decidable_of_iff (holds state op) ⟨fun held => ⟨held, fun _ moved => nomatch taken ▸ moved⟩, And.left⟩
      | some reached =>
          haveI := alongDecidable next holds reached ops
          decidable_of_iff (holds state op ∧ Along next holds reached ops)
            ⟨fun held => ⟨held.1, fun _ moved => Option.some.inj (taken ▸ moved) ▸ held.2⟩,
              fun held => ⟨held.1, held.2 reached taken⟩⟩

theorem along_always (next : State → Op → Option State) (state : State) (ops : List Op) :
    Along next (fun _ _ => True) state ops := by
  induction ops generalizing state with
  | nil => trivial
  | cons op ops ih => exact ⟨trivial, fun reached _ => ih reached⟩

theorem along_invariant (next : State → Op → Option State) (good : State → Op → Prop) (inv : State → Prop)
    (kept : ∀ state op reached, inv state → good state op → next state op = some reached → inv reached)
    (state finish : State) (ops : List Op) (start : inv state) (along : Along next good state ops)
    (done : runAll next state ops = some finish) : inv finish := by
  induction ops generalizing state with
  | nil =>
      cases done
      exact start
  | cons op ops ih =>
      obtain ⟨reached, taken, further⟩ := Option.bind_eq_some_iff.mp done
      exact ih reached (kept state op reached start along.1 taken) (along.2 reached taken) further

theorem run_all_invariant (next : State → Op → Option State) (inv : State → Prop)
    (kept : ∀ state op reached, inv state → next state op = some reached → inv reached) (state finish : State) (ops : List Op)
    (start : inv state) (done : runAll next state ops = some finish) : inv finish :=
  along_invariant next (fun _ _ => True) inv (fun met op reached held _ taken => kept met op reached held taken) state finish ops
    start (along_always next state ops) done

theorem run_all_total (take : State → Op → State) (state : State) (ops : List Op) :
    runAll (fun reached op => some (take reached op)) state ops = some (ops.foldl take state) := by
  induction ops generalizing state with
  | nil => rfl
  | cons op ops ih => exact ih (take state op)

-- A part of the state that only some of the steps change takes a run of its own, over what those steps bring it.
theorem run_all_part {Part Own : Type} (next : State → Op → Option State) (part : State → Part) (own : Op → Option Own)
    (take : Part → Own → Option Part) (good : Op → Prop)
    (each : ∀ state op reached, good op → next state op = some reached →
      (own op).elim (some (part state)) (take (part state)) = some (part reached))
    (state finish : State) (ops : List Op) (all : ∀ op ∈ ops, good op) (done : runAll next state ops = some finish) :
    runAll take (part state) (ops.filterMap own) = some (part finish) := by
  induction ops generalizing state with
  | nil =>
      cases done
      rfl
  | cons op ops ih =>
      obtain ⟨reached, taken, further⟩ := Option.bind_eq_some_iff.mp done
      have here := each state op reached (all op List.mem_cons_self) taken
      have rest := ih reached (fun other member => all other (List.mem_cons_of_mem _ member)) further
      cases mine : own op with
      | none =>
          rw [mine] at here
          rw [List.filterMap_cons_none mine, Option.some.inj here, rest]
      | some own' =>
          rw [mine] at here
          rw [List.filterMap_cons_some mine, runAll, show take (part state) own' = some (part reached) from here,
            Option.bind_some, rest]

theorem run_all_kept {Part : Type} (next : State → Op → Option State) (part : State → Part) (good : Op → Prop)
    (each : ∀ state op reached, good op → next state op = some reached → part reached = part state)
    (state finish : State) (ops : List Op) (all : ∀ op ∈ ops, good op) (done : runAll next state ops = some finish) :
    part finish = part state := by
  induction ops generalizing state with
  | nil =>
      cases done
      rfl
  | cons op ops ih =>
      obtain ⟨reached, taken, further⟩ := Option.bind_eq_some_iff.mp done
      exact (ih reached (fun other member => all other (List.mem_cons_of_mem _ member)) further).trans
        (each state op reached (all op List.mem_cons_self) taken)

theorem along_last (next : State → Op → Option State) (holds : State → Op → Prop) (state reached : State) (ops : List Op)
    (op : Op) (along : Along next holds state (ops ++ [op])) (run : runAll next state ops = some reached) :
    holds reached op := by
  induction ops generalizing state with
  | nil =>
      cases run
      exact along.1
  | cons first ops ih =>
      obtain ⟨later, taken, further⟩ := Option.bind_eq_some_iff.mp run
      exact ih later (along.2 later taken) further

theorem run_all_along (next : State → Op → Option State) (good : State → Op → Prop)
    (taken : ∀ state op, good state op ↔ next state op ≠ none) (state : State) (ops : List Op) :
    runAll next state ops ≠ none ↔ Along next good state ops := by
  induction ops generalizing state with
  | nil => exact iff_of_true (Option.some_ne_none state) trivial
  | cons op ops ih =>
      rw [runAll, Along, taken]
      cases here : next state op with
      | none => exact iff_of_false (fun some' => some' rfl) fun both => both.1 rfl
      | some reached =>
          rw [Option.bind_some, ih]
          exact ⟨fun later => ⟨Option.some_ne_none reached, fun _ same => Option.some.inj same ▸ later⟩,
            fun both => both.2 reached rfl⟩

-- Where a good step is one that keeps a property, the property holds in every state of exactly the runs of good steps.
theorem prefixes_iff_along (next : State → Op → Option State) (sound : State → Prop) (good : State → Op → Prop)
    (kept : ∀ state op, sound state → (good state op ↔ ∀ reached, next state op = some reached → sound reached))
    (state : State) (start : sound state) (ops : List Op) :
    (∀ prior reached, prior <+: ops → runAll next state prior = some reached → sound reached) ↔ Along next good state ops := by
  induction ops generalizing state with
  | nil =>
      refine iff_of_true (fun prior reached within run => ?_) trivial
      rw [List.prefix_nil.mp within] at run
      cases run
      exact start
  | cons op ops ih =>
      constructor
      · intro all
        have held : ∀ reached, next state op = some reached → sound reached := by
          intro reached taken
          refine all [op] reached ((List.cons_prefix_cons).mpr ⟨rfl, List.nil_prefix⟩) ?_
          rw [runAll, taken]
          rfl
        refine ⟨(kept state op start).mpr held, fun reached taken => (ih reached (held reached taken)).mp ?_⟩
        intro prior last within run
        refine all (op :: prior) last ((List.cons_prefix_cons).mpr ⟨rfl, within⟩) ?_
        rw [runAll, taken]
        exact run
      · rintro ⟨here, later⟩ prior last within run
        cases prior with
        | nil =>
            cases run
            exact start
        | cons first prior =>
            obtain ⟨same, rest⟩ := (List.cons_prefix_cons).mp within
            subst same
            obtain ⟨reached, taken, further⟩ := Option.bind_eq_some_iff.mp run
            exact (ih reached ((kept state first start).mp here reached taken)).mpr (later reached taken) prior last rest further

theorem run_all_run (next : State → Op → Option State)
    (sound : ∀ state op reached, next state op = some reached → guard state op ∧ step state op reached)
    (state finish : State) (ops : List Op) (run : Run initial step guard state)
    (done : runAll next state ops = some finish) : Run initial step guard finish := by
  induction ops generalizing state with
  | nil =>
      cases done
      exact run
  | cons op ops ih =>
      obtain ⟨reached, taken, further⟩ := Option.bind_eq_some_iff.mp done
      obtain ⟨admitted, moved⟩ := sound state op reached taken
      exact ih reached (.step state reached op run admitted moved) further
end

end Base
