import RoDos.Virtio.Receive

set_option autoImplicit false

namespace RoDos.Virtio

open Base

def RxOp.own : RxOp → Bool
  | .take => false
  | .use _ _ => false
  | _ => true

def callSteps (maxLen : Nat) : List RxOp := [.call maxLen, .fetch, .copy, .slot, .publish]

def restOf : RxPc → List RxOp
  | .idle => []
  | .found _ => [.fetch, .copy, .slot, .publish]
  | .holding _ _ _ => [.copy, .slot, .publish]
  | .copied _ _ _ => [.slot, .publish]
  | .slotted _ _ _ => [.publish]

def returnedFor (maxLen : Nat) (frame : List UInt8) : List (Nat × List UInt8) :=
  ((outcome maxLen frame).map fun packet => (maxLen, packet)).toList

structure RxSound (q : Nat) (rx : Rx) : Prop where
  owned : (owned q rx).Perm [0, 1, 2, 3]
  inRange : rx.outOfRange = false
  returned : ∃ consumed rest, rx.delivered = consumed ++ rest ∧
    rest.length = (waiting q rx).length + (inHand rx.pc).length ∧
      List.Forall₂ CutFrom (consumed.filter long) rx.returned
  finishes : ∃ next, runAll (rxStep q) rx (restOf rx.pc) = some next ∧ next.pc = .idle
  -- A call that finds the used ring not empty consumes the first frame in it, whatever the device does meanwhile.
  served : ∀ maxLen ops next, rx.pc = .idle → waiting q rx ≠ [] → 0 < maxLen → ops.filter RxOp.own = callSteps maxLen →
    runAll (rxStep q) rx ops = some next →
      next.pc = .idle ∧ ∃ frame, rx.delivered[rx.delivered.length - (waiting q rx).length]? = some frame ∧
        next.returned = rx.returned ++ returnedFor maxLen frame
  -- As many calls as frames wait return every packet delivered.
  drained : ∀ maxLens : List Nat, rx.pc = .idle → (∀ maxLen ∈ maxLens, 0 < maxLen) → maxLens.length = (waiting q rx).length →
    ∃ next, runAll (rxStep q) rx (maxLens.flatMap callSteps) = some next ∧ next.pc = .idle ∧
      List.Forall₂ CutFrom (rx.delivered.filter long) next.returned

def FirstWaiting (q : Nat) (rx : Rx) (frame : List UInt8) : Prop :=
  ∃ element rest, waiting q rx = element :: rest ∧ Holds rx.rxBuffers element frame

-- A call for maxLen bytes that is to return frame, by the steps it has before it. base frames were consumed before it and
-- before was returned for them.
inductive Stage (q maxLen : Nat) (frame : List UInt8) (base : Nat) (before : List (Nat × List UInt8)) (rx : Rx) :
    List RxOp → Prop where
  | asked (some' : 0 < maxLen) (phase : rx.pc = .idle) (first : FirstWaiting q rx frame) (same : rx.returned = before)
      (count : rx.delivered.length = base + (waiting q rx).length) : Stage q maxLen frame base before rx (callSteps maxLen)
  | found (phase : rx.pc = .found maxLen) (first : FirstWaiting q rx frame) (same : rx.returned = before)
      (count : rx.delivered.length = base + (waiting q rx).length) :
      Stage q maxLen frame base before rx [.fetch, .copy, .slot, .publish]
  | holding (desc totalLen : Nat) (phase : rx.pc = .holding maxLen desc totalLen)
      (held : Holds rx.rxBuffers (desc, totalLen) frame) (same : rx.returned = before)
      (count : rx.delivered.length = base + 1 + (waiting q rx).length) :
      Stage q maxLen frame base before rx [.copy, .slot, .publish]
  | copied (desc : Nat) (phase : rx.pc = .copied maxLen desc (outcome maxLen frame)) (same : rx.returned = before)
      (count : rx.delivered.length = base + 1 + (waiting q rx).length) : Stage q maxLen frame base before rx [.slot, .publish]
  | slotted (desc : Nat) (phase : rx.pc = .slotted maxLen desc (outcome maxLen frame)) (same : rx.returned = before)
      (count : rx.delivered.length = base + 1 + (waiting q rx).length) : Stage q maxLen frame base before rx [.publish]
  | back (phase : rx.pc = .idle) (same : rx.returned = before ++ returnedFor maxLen frame)
      (count : rx.delivered.length = base + 1 + (waiting q rx).length) : Stage q maxLen frame base before rx []

section
variable (q : Nat) (size : DeviceSize q) (maxLen : Nat) (frame : List UInt8) (base : Nat) (before : List (Nat × List UInt8))
  (rx : Rx) (inv : RxInv q rx) (left : List RxOp) (stage : Stage q maxLen frame base before rx left)
include size inv stage

theorem stage_use (k id : Nat) (other : List UInt8) (found : rx.taken[k]? = some id) :
    Stage q maxLen frame base before (rxUse q rx k id other) left := by
  have longer := use_waiting q size rx inv k id other found
  have elsewhere := use_elsewhere q rx inv k id other found
  have delivered : (rxUse q rx k id other).delivered.length = rx.delivered.length + 1 := List.length_append
  have wider : (waiting q (rxUse q rx k id other)).length = (waiting q rx).length + 1 := by
    rw [longer, List.length_append, List.length_singleton]
  have still (first : FirstWaiting q rx frame) : FirstWaiting q (rxUse q rx k id other) frame := by
    obtain ⟨element, rest, front, held⟩ := first
    refine ⟨element, rest ++ [(id, other.length)], by rw [longer, front, List.cons_append], held.1, ?_⟩
    rw [elsewhere element.1 (List.mem_append_left _ (List.mem_map_of_mem (front ▸ List.mem_cons_self)))]
    exact held.2
  cases stage with
  | asked some' phase first same count => exact .asked some' phase (still first) same (by omega)
  | found phase first same count => exact .found phase (still first) same (by omega)
  | holding desc totalLen phase held same count =>
      have mine : desc ∈ inHand rx.pc := by
        rw [phase]
        exact List.mem_cons_self
      refine .holding desc totalLen phase ⟨held.1, ?_⟩ same (by omega)
      rw [elsewhere desc (List.mem_append_right _ mine)]
      exact held.2
  | copied desc phase same count => exact .copied desc phase same (by omega)
  | slotted desc phase same count => exact .slotted desc phase same (by omega)
  | back phase same count => exact .back phase same (by omega)

theorem stage_device (op : RxOp) (foreign : op.own = false) (next : Rx) (taken : rxStep q rx op = some next) :
    Stage q maxLen frame base before next left := by
  cases op with
  | take =>
      obtain ⟨_, same⟩ := Option.ite_none_left_eq_some.mp taken
      cases same
      cases stage with
      | asked some' phase first same count => exact .asked some' phase first same count
      | found phase first same count => exact .found phase first same count
      | holding desc totalLen phase held same count => exact .holding desc totalLen phase held same count
      | copied desc phase same count => exact .copied desc phase same count
      | slotted desc phase same count => exact .slotted desc phase same count
      | back phase same count => exact .back phase same count
  | use k other =>
      obtain ⟨_, same⟩ := Option.ite_none_left_eq_some.mp taken
      obtain ⟨id, found, same⟩ := Option.map_eq_some_iff.mp same
      rw [← same]
      exact stage_use q size maxLen frame base before rx inv left stage k id other found
  | call | fetch | copy | slot | publish => cases foreign
end

theorem call_finds (q maxLen : Nat) (frame : List UInt8) (rx : Rx) (some' : 0 < maxLen) (first : FirstWaiting q rx frame) :
    rxCall rx maxLen = { rx with pc := .found maxLen } := by
  obtain ⟨element, rest, front, _⟩ := first
  have apart : rx.usedIdx - rx.rxLastUsed ≠ 0 := by
    intro none'
    have same : rx.rxLastUsed = rx.usedIdx := by
      have added := congrArg (· + rx.rxLastUsed) none'
      simpa using added.symm
    rw [waiting, same, posted_self] at front
    cases front
  rw [rxCall, if_neg (by omega), if_neg apart]

section
variable (q : Nat) (size : DeviceSize q) (maxLen : Nat) (frame : List UInt8) (base : Nat) (before : List (Nat × List UInt8))
  (rx : Rx) (inv : RxInv q rx)
include size inv

theorem fetch_stage (phase : rx.pc = .found maxLen) (first : FirstWaiting q rx frame) (same : rx.returned = before)
    (count : rx.delivered.length = base + (waiting q rx).length) :
    Stage q maxLen frame base before (rxFetch q rx maxLen) [.copy, .slot, .publish] := by
  obtain ⟨element, rest, front, held⟩ := first
  obtain ⟨head, small⟩ := fetch_first q size rx inv maxLen phase
  rw [head, List.cons.injEq] at front
  rw [head, List.length_cons] at count
  rw [rxFetch, if_neg (Nat.not_le.mpr small)]
  refine .holding _ _ rfl ?_ same ?_
  · rw [front.1]
    exact held
  · show rx.delivered.length = base + 1 + (posted q rx.usedRing (rx.rxLastUsed + 1) rx.usedIdx).length
    omega

theorem stage_own (op : RxOp) (left : List RxOp)
    (stage : Stage q maxLen frame base before rx (op :: left)) :
    ∃ next, rxStep q rx op = some next ∧ Stage q maxLen frame base before next left ∧ next.delivered = rx.delivered := by
  cases stage with
  | asked some' phase first same count =>
      refine ⟨_, if_pos phase, ?_⟩
      rw [call_finds q maxLen frame rx some' first]
      exact ⟨.found rfl first same count, rfl⟩
  | found phase first same count =>
      refine ⟨rxFetch q rx maxLen, by rw [rxStep, phase],
        fetch_stage q size maxLen frame base before rx inv phase first same count, ?_⟩
      rw [rxFetch]
      split <;> rfl
  | holding desc totalLen phase held same count =>
      refine ⟨rxCopy rx maxLen desc totalLen, by rw [rxStep, phase], ?_⟩
      have cutting := holds_cut rx.rxBuffers maxLen desc totalLen frame held
      have copied : rxCopy rx maxLen desc totalLen = { rx with pc := .copied maxLen desc (outcome maxLen frame) } := by
        rw [← cutting, rxCopy]
        split <;> rfl
      rw [copied]
      exact ⟨.copied desc rfl same count, rfl⟩
  | copied desc phase same count =>
      refine ⟨_, by rw [rxStep, phase], ?_⟩
      exact ⟨.slotted desc rfl same count, rfl⟩
  | slotted desc phase same count =>
      refine ⟨rxPublish rx maxLen (outcome maxLen frame), by rw [rxStep, phase], ?_, rfl⟩
      refine .back rfl ?_ count
      show rx.returned ++ _ = _
      rw [same, returnedFor]
end

section
variable (q : Nat) (size : DeviceSize q) (maxLen : Nat) (frame : List UInt8) (base : Nat) (before : List (Nat × List UInt8))
include size

-- By induction on the steps of both: the device's leave the stage, the call's own move it on.
theorem stage_run (ops left : List RxOp) (rx next : Rx) (inv : RxInv q rx) (stage : Stage q maxLen frame base before rx left)
    (own : ops.filter RxOp.own = left) (run : runAll (rxStep q) rx ops = some next) :
    Stage q maxLen frame base before next [] := by
  induction ops generalizing rx left with
  | nil =>
      cases run
      rw [← own] at stage
      exact stage
  | cons op ops ih =>
      obtain ⟨reached, taken, further⟩ := Option.bind_eq_some_iff.mp run
      have kept := rx_step_inv q size rx reached op inv taken
      cases mine : op.own with
      | true =>
          rw [List.filter_cons_of_pos mine] at own
          rw [← own] at stage
          obtain ⟨after, moved, later, _⟩ := stage_own q size maxLen frame base before rx inv op _ stage
          rw [taken, Option.some.injEq] at moved
          exact ih _ reached kept (moved ▸ later) rfl further
      | false =>
          rw [List.filter_cons_of_neg (by rw [mine]; exact Bool.false_ne_true)] at own
          exact ih left reached kept (stage_device q size maxLen frame base before rx inv left stage op mine reached taken) own
            further

theorem stage_takes (left : List RxOp) (rx : Rx) (inv : RxInv q rx) (stage : Stage q maxLen frame base before rx left) :
    ∃ next, runAll (rxStep q) rx left = some next ∧ Stage q maxLen frame base before next [] ∧ RxInv q next ∧
      next.delivered = rx.delivered := by
  induction left generalizing rx with
  | nil => exact ⟨rx, rfl, stage, inv, rfl⟩
  | cons op left ih =>
      obtain ⟨reached, taken, later, same⟩ := stage_own q size maxLen frame base before rx inv op left stage
      obtain ⟨next, run, back, kept, none'⟩ := ih reached (rx_step_inv q size rx reached op inv taken) later
      refine ⟨next, ?_, back, kept, none'.trans same⟩
      rw [runAll, taken]
      exact run
end

theorem first_waiting (q : Nat) (rx : Rx) (behind : List (List UInt8))
    (held : List.Forall₂ (Holds rx.rxBuffers) (waiting q rx) behind) (nonempty : waiting q rx ≠ []) :
    ∃ frame later, behind = frame :: later ∧ FirstWaiting q rx frame := by
  obtain ⟨element, rest, front⟩ := List.exists_cons_of_ne_nil nonempty
  rw [front] at held
  obtain ⟨frame, later, holds, _, same⟩ := List.forall₂_cons_left_iff.mp held
  exact ⟨frame, later, same, element, rest, front, holds⟩

section
variable (q : Nat) (rx : Rx) (inv : RxInv q rx)
include inv

theorem idle_split (phase : rx.pc = .idle) : ∃ consumed behind, rx.delivered = consumed ++ behind ∧
    List.Forall₂ (Holds rx.rxBuffers) (waiting q rx) behind ∧ List.Forall₂ CutFrom (consumed.filter long) rx.returned := by
  obtain ⟨consumed, hand, behind, delivered, progress, held, cut⟩ := inv.frames.split
  rw [phase] at progress
  cases progress
  exact ⟨consumed, behind, delivered, held, cut⟩

theorem asked_stage (maxLen : Nat) (some' : 0 < maxLen) (phase : rx.pc = .idle) (nonempty : waiting q rx ≠ []) :
    ∃ base frame, rx.delivered.length = base + (waiting q rx).length ∧ rx.delivered[base]? = some frame ∧
      Stage q maxLen frame base rx.returned rx (callSteps maxLen) := by
  obtain ⟨consumed, behind, delivered, held, _⟩ := idle_split q rx inv phase
  have count : rx.delivered.length = consumed.length + (waiting q rx).length := by
    rw [delivered, List.length_append, held.length_eq]
  obtain ⟨frame, later, rfl, first⟩ := first_waiting q rx behind held nonempty
  refine ⟨consumed.length, frame, count, ?_, .asked some' phase first rfl count⟩
  rw [delivered, List.getElem?_append_right (Nat.le_refl _), Nat.sub_self]
  rfl

theorem begun_stage (begun : rx.pc ≠ .idle) : ∃ maxLen frame base, Stage q maxLen frame base rx.returned rx (restOf rx.pc) := by
  obtain ⟨consumed, hand, behind, delivered, progress, held, _⟩ := inv.frames.split
  have count : rx.delivered.length = consumed.length + hand.length + (waiting q rx).length := by
    rw [delivered, List.length_append, List.length_append, held.length_eq, Nat.add_assoc]
  cases phase : rx.pc with
  | idle => exact absurd phase begun
  | found maxLen =>
      obtain ⟨frame, later, rfl, first⟩ := first_waiting q rx behind held (inv.found maxLen phase)
      rw [phase] at progress
      cases progress
      exact ⟨maxLen, frame, consumed.length, .found phase first rfl count⟩
  | holding maxLen desc totalLen =>
      rw [phase] at progress
      cases progress with
      | holding _ _ _ frame holds => exact ⟨maxLen, frame, consumed.length, .holding desc totalLen phase holds rfl count⟩
  | copied maxLen desc result =>
      rw [phase] at progress
      cases progress with
      | copied _ _ frame => exact ⟨maxLen, frame, consumed.length, .copied desc phase rfl count⟩
  | slotted maxLen desc result =>
      rw [phase] at progress
      cases progress with
      | slotted _ _ frame => exact ⟨maxLen, frame, consumed.length, .slotted desc phase rfl count⟩
end

section
variable (q : Nat) (size : DeviceSize q)
include size

theorem calls_drain (maxLens : List Nat) (rx : Rx) (inv : RxInv q rx) (phase : rx.pc = .idle)
    (some' : ∀ maxLen ∈ maxLens, 0 < maxLen) (all : maxLens.length = (waiting q rx).length) :
    ∃ next, runAll (rxStep q) rx (maxLens.flatMap callSteps) = some next ∧ next.pc = .idle ∧
      List.Forall₂ CutFrom (rx.delivered.filter long) next.returned := by
  induction maxLens generalizing rx with
  | nil =>
      obtain ⟨consumed, behind, delivered, held, cut⟩ := idle_split q rx inv phase
      rw [List.eq_nil_of_length_eq_zero all.symm, List.forall₂_nil_left_iff] at held
      rw [held, List.append_nil] at delivered
      exact ⟨rx, rfl, phase, delivered ▸ cut⟩
  | cons maxLen maxLens ih =>
      rw [List.length_cons] at all
      have positive := some' maxLen List.mem_cons_self
      have nonempty : waiting q rx ≠ [] := List.ne_nil_of_length_pos (by omega)
      obtain ⟨base, frame, count, _, stage⟩ := asked_stage q rx inv maxLen positive phase nonempty
      obtain ⟨reached, called, back, kept, same⟩ := stage_takes q size maxLen frame base rx.returned _ rx inv stage
      cases back with
      | back phase' _ count' =>
          rw [same] at count'
          obtain ⟨next, run, idle, cut⟩ := ih reached kept phase' (fun other member => some' other (List.mem_cons_of_mem _ member))
            (by omega)
          refine ⟨next, ?_, idle, same ▸ cut⟩
          rw [List.flatMap_cons, run_all_append, called]
          exact run

theorem call_finishes (rx : Rx) (inv : RxInv q rx) :
    ∃ next, runAll (rxStep q) rx (restOf rx.pc) = some next ∧ next.pc = .idle := by
  by_cases phase : rx.pc = .idle
  · rw [phase]
    exact ⟨rx, rfl, phase⟩
  · obtain ⟨maxLen, frame, base, stage⟩ := begun_stage q rx inv phase
    obtain ⟨next, run, back, _⟩ := stage_takes q size maxLen frame base rx.returned _ rx inv stage
    cases back with
    | back idle _ _ => exact ⟨next, run, idle⟩
end

theorem rx_inv_sound (q : Nat) (size : DeviceSize q) (rx : Rx) (inv : RxInv q rx) : RxSound q rx := by
  obtain ⟨consumed, hand, behind, delivered, progress, held, cut⟩ := inv.frames.split
  refine ⟨inv.owned, inv.inRange, ⟨consumed, hand ++ behind, delivered, ?_, cut⟩, ?_,
    fun maxLen ops next phase nonempty positive own run => ?_, fun maxLens phase positive all => ?_⟩
  · rw [List.length_append, in_hand_length _ _ _ progress, held.length_eq, Nat.add_comm]
  · exact call_finishes q size rx inv
  · obtain ⟨base, frame, count, first, stage⟩ := asked_stage q rx inv maxLen positive phase nonempty
    have back := stage_run q size maxLen frame base rx.returned ops _ rx next inv stage own run
    have place : rx.delivered.length - (waiting q rx).length = base := by omega
    cases back with
    | back phase' same _ => exact ⟨phase', frame, place ▸ first, same⟩
  · exact calls_drain q size maxLens rx inv phase positive all

theorem received_once (q : Nat) (size : DeviceSize q) (rx : Rx)
    (run : Run RxReady (RxStep q) (fun _ _ => True) rx) : RxSound q rx :=
  rx_inv_sound q size rx (run_invariant (RxInv q) (rx_ready_inv q size)
    (fun state next op inv _ taken => rx_step_inv q size state next op inv taken) rx run)

def cutOps : List RxOp :=
  [.take, .take, .use 1 (List.replicate 10 0), .call 2, .fetch, .use 0 (List.replicate 10 0 ++ [7, 8, 9]), .copy, .slot,
    .publish, .call 2, .fetch, .copy, .take, .slot, .publish]

theorem received_once_cut : ∃ rx : Rx, runAll (rxStep 4) (rxReady fun _ => []) cutOps = some rx ∧
    rx.returned = [(2, [7, 8])] ∧ RxSound 4 rx := by
  have evaluated : (runAll (rxStep 4) (rxReady fun _ => []) cutOps).any (fun rx => rx.returned = [(2, [7, 8])]) = true := by
    decide +kernel
  obtain ⟨rx, done, reached⟩ := (Option.any_eq_true _ _).mp evaluated
  exact ⟨rx, done, of_decide_eq_true reached, received_once 4 ⟨⟨2, by decide, rfl⟩, by decide⟩ rx
    (run_all_run (rxStep 4) (fun _ _ _ taken => ⟨trivial, taken⟩) _ rx _ (.start _ ⟨_, rfl⟩) done)⟩

end RoDos.Virtio
