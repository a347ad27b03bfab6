import RoDos.Base.Runs

set_option autoImplicit false

namespace Base

section
variable {State Op : Type} (next : State → Op → Option State) (foreign : State → Op → Bool)

def runWithout : State → List Op → Option State
  | state, [] => some state
  | state, op :: ops =>
      if foreign state op then runWithout state ops else (next state op).bind fun reached => runWithout reached ops

def Undisturbed (state : State) (ops : List Op) : Prop :=
  ∀ k, runAll next state (ops.take k) = runWithout next foreign state (ops.take k)

def AtForeign (holds : State → Op → Prop) : State → List Op → Prop
  | _, [] => True
  | state, op :: ops =>
      if foreign state op then holds state op ∧ AtForeign holds state ops
      else ∀ reached, next state op = some reached → AtForeign holds reached ops

theorem at_foreign_congr (holds also : State → Op → Prop)
    (same : ∀ state op, foreign state op = true → (holds state op ↔ also state op)) (state : State) (ops : List Op) :
    AtForeign next foreign holds state ops ↔ AtForeign next foreign also state ops := by
  induction ops generalizing state with
  | nil => exact Iff.rfl
  | cons op ops ih =>
      rw [AtForeign, AtForeign]
      by_cases other : foreign state op = true
      · rw [if_pos other, if_pos other, same state op other, ih state]
      · rw [if_neg other, if_neg other]
        exact forall_congr' fun reached => imp_congr_right fun _ => ih reached

theorem undisturbed_cons_foreign (state : State) (op : Op) (ops : List Op) (other : foreign state op = true) :
    Undisturbed next foreign state (op :: ops) ↔ next state op = some state ∧ Undisturbed next foreign state ops := by
  have skipped (k : Nat) : runWithout next foreign state ((op :: ops).take (k + 1)) =
      runWithout next foreign state (ops.take k) := by rw [List.take_succ_cons, runWithout, if_pos other]
  have taken (k : Nat) : runAll next state ((op :: ops).take (k + 1)) =
      (next state op).bind fun reached => runAll next reached (ops.take k) := by rw [List.take_succ_cons, runAll]
  constructor
  · intro undisturbed
    have first := undisturbed 1
    rw [taken, skipped, List.take_zero, runWithout] at first
    obtain ⟨reached, moved, same⟩ := Option.bind_eq_some_iff.mp first
    cases same
    refine ⟨moved, fun k => ?_⟩
    have later := undisturbed (k + 1)
    rw [taken, skipped, moved, Option.bind_some] at later
    exact later
  · rintro ⟨still, undisturbed⟩ k
    cases k with
    | zero => rfl
    | succ k => rw [taken, skipped, still, Option.bind_some, undisturbed k]

theorem undisturbed_cons_own (state : State) (op : Op) (ops : List Op) (own : foreign state op = false) :
    Undisturbed next foreign state (op :: ops) ↔
      ∀ reached, next state op = some reached → Undisturbed next foreign reached ops := by
  have ours : ¬ foreign state op = true := by simp [own]
  constructor
  · intro undisturbed reached moved k
    have later := undisturbed (k + 1)
    rw [List.take_succ_cons, runAll, runWithout, if_neg ours, moved, Option.bind_some, Option.bind_some] at later
    exact later
  · intro undisturbed k
    cases k with
    | zero => rfl
    | succ k =>
        rw [List.take_succ_cons, runAll, runWithout, if_neg ours]
        cases moved : next state op with
        | none => rfl
        | some reached => rw [Option.bind_some, Option.bind_some, undisturbed reached moved k]

theorem undisturbed_iff (state : State) (ops : List Op) : Undisturbed next foreign state ops ↔
    AtForeign next foreign (fun met op => next met op = some met) state ops := by
  induction ops generalizing state with
  | nil =>
      refine ⟨fun _ => trivial, fun _ k => ?_⟩
      rw [List.take_nil]
      rfl
  | cons op ops ih =>
      by_cases other : foreign state op = true
      · rw [undisturbed_cons_foreign next foreign state op ops other, AtForeign, if_pos other, ih state]
      · rw [undisturbed_cons_own next foreign state op ops (Bool.not_eq_true _ ▸ other), AtForeign, if_neg other]
        exact forall_congr' fun reached => imp_congr_right fun _ => ih reached
end

end Base
