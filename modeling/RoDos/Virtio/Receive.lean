import Mathlib.Data.List.Forall2
import Mathlib.Data.List.Perm.Basic
import RoDos.Virtio.Model

set_option autoImplicit false

namespace RoDos.Virtio

open Base

def inHand : RxPc → List Nat
  | .idle => []
  | .found _ => []
  | .holding _ desc _ => [desc]
  | .copied _ desc _ => [desc]
  | .slotted _ desc _ => [desc]

def free (q : Nat) (rx : Rx) : List Nat := posted q rx.availRing rx.deviceIdx rx.availIdx

def waiting (q : Nat) (rx : Rx) : List (Nat × Nat) := posted q rx.usedRing rx.rxLastUsed rx.usedIdx

def owned (q : Nat) (rx : Rx) : List Nat := free q rx ++ rx.taken ++ (waiting q rx).map Prod.fst ++ inHand rx.pc

def long (frame : List UInt8) : Bool := netHeader < frame.length

def CutFrom (frame : List UInt8) (result : Nat × List UInt8) : Prop :=
  result.2 = (frame.drop netHeader).take result.1

def Holds (buffers : Nat → List UInt8) (element : Nat × Nat) (frame : List UInt8) : Prop :=
  element.2 = frame.length ∧ (buffers element.1).take frame.length = frame

def outcome (maxLen : Nat) (frame : List UInt8) : Option (List UInt8) :=
  if long frame then some ((frame.drop netHeader).take maxLen) else none

inductive InProgress (buffers : Nat → List UInt8) : RxPc → List (List UInt8) → Prop where
  | idle : InProgress buffers .idle []
  | found (maxLen : Nat) : InProgress buffers (.found maxLen) []
  | holding (maxLen desc totalLen : Nat) (frame : List UInt8) (held : Holds buffers (desc, totalLen) frame) :
      InProgress buffers (.holding maxLen desc totalLen) [frame]
  | copied (maxLen desc : Nat) (frame : List UInt8) : InProgress buffers (.copied maxLen desc (outcome maxLen frame)) [frame]
  | slotted (maxLen desc : Nat) (frame : List UInt8) : InProgress buffers (.slotted maxLen desc (outcome maxLen frame)) [frame]

structure Frames (q : Nat) (rx : Rx) : Prop where
  split : ∃ consumed hand behind, rx.delivered = consumed ++ (hand ++ behind) ∧ InProgress rx.rxBuffers rx.pc hand ∧
    List.Forall₂ (Holds rx.rxBuffers) (waiting q rx) behind ∧ List.Forall₂ CutFrom (consumed.filter long) rx.returned

structure RxInv (q : Nat) (rx : Rx) : Prop where
  owned : (owned q rx).Perm [0, 1, 2, 3]
  inRange : rx.outOfRange = false
  indices : rx.availIdx = rx.rxAvailIdx
  found : ∀ maxLen, rx.pc = .found maxLen → waiting q rx ≠ []
  slotted : ∀ maxLen desc result, rx.pc = .slotted maxLen desc result → rx.availRing (cell q rx.rxAvailIdx) = desc
  descs : ∀ i < queueSize, rx.rxDesc i = rxDescriptor i
  frames : Frames q rx

theorem in_hand_length (buffers : Nat → List UInt8) (pc : RxPc) (hand : List (List UInt8))
    (progress : InProgress buffers pc hand) : hand.length = (inHand pc).length := by
  cases progress <;> rfl

theorem in_progress_kept (buffers next : Nat → List UInt8) (pc : RxPc) (hand : List (List UInt8))
    (progress : InProgress buffers pc hand) (same : ∀ desc ∈ inHand pc, next desc = buffers desc) :
    InProgress next pc hand := by
  cases progress with
  | holding maxLen desc totalLen frame held =>
      refine .holding maxLen desc totalLen frame ⟨held.1, ?_⟩
      rw [same desc List.mem_cons_self]
      exact held.2
  | _ => constructor

section
variable (q : Nat) (rx : Rx) (inv : RxInv q rx)
include inv

theorem owned_length : (free q rx).length + rx.taken.length + (waiting q rx).length + (inHand rx.pc).length = 4 := by
  have total := inv.owned.length_eq
  simpa [owned, Nat.add_assoc] using total

theorem owned_small (desc : Nat) (member : desc ∈ owned q rx) : desc < queueSize := by
  have known : desc ∈ [0, 1, 2, 3] := inv.owned.mem_iff.mp member
  simp only [List.mem_cons, List.not_mem_nil, or_false] at known
  rw [queueSize]
  omega

theorem owned_once : (owned q rx).Nodup := inv.owned.nodup_iff.mpr (by decide)
end

theorem holds_cut (buffers : Nat → List UInt8) (maxLen desc totalLen : Nat) (frame : List UInt8)
    (held : Holds buffers (desc, totalLen) frame) :
    (if totalLen ≤ netHeader then none
      else some (((buffers desc).drop netHeader).take (if maxLen < totalLen - netHeader then maxLen else totalLen - netHeader))) =
      outcome maxLen frame := by
  obtain ⟨length, content⟩ := held
  dsimp only at length content
  rw [outcome, long, length]
  by_cases short : frame.length ≤ netHeader
  · rw [if_pos short, if_neg (by simpa using short)]
  · have packet : frame.drop netHeader = ((buffers desc).drop netHeader).take (frame.length - netHeader) := by
      rw [← List.drop_take, content]
    have least : (if maxLen < frame.length - netHeader then maxLen else frame.length - netHeader) =
        min maxLen (frame.length - netHeader) := by
      split
      · exact (Nat.min_eq_left (by omega)).symm
      · exact (Nat.min_eq_right (by omega)).symm
    rw [if_neg short, least, if_pos (by simpa using short), packet, List.take_take]

section
variable (q : Nat) (size : DeviceSize q) (rx : Rx) (inv : RxInv q rx)
include size inv

theorem call_inv (maxLen : Nat) (phase : rx.pc = .idle) : RxInv q (rxCall rx maxLen) := by
  rw [rxCall]
  by_cases zero : maxLen = 0
  · rw [if_pos zero]
    exact inv
  rw [if_neg zero]
  by_cases nothing : rx.usedIdx - rx.rxLastUsed = 0
  · rw [if_pos nothing]
    exact inv
  rw [if_neg nothing]
  have apart : rx.rxLastUsed ≠ rx.usedIdx := by
    intro same
    rw [same] at nothing
    exact nothing (UInt16.sub_self ..)
  have own := inv.owned
  obtain ⟨consumed, hand, behind, delivered, progress, held, cut⟩ := inv.frames.split
  rw [phase] at progress
  cases progress
  refine ⟨?_, inv.inRange, inv.indices, fun _ _ => ?_, nofun, inv.descs,
    ⟨consumed, [], behind, delivered, .found maxLen, held, cut⟩⟩
  · rw [owned, phase] at own
    exact own
  · have first := posted_front q rx.usedRing rx.rxLastUsed rx.usedIdx (ring_size_whole q size.1) apart
    exact fun empty => List.cons_ne_nil _ _ (first.symm.trans empty)

theorem fetch_first (maxLen : Nat) (phase : rx.pc = .found maxLen) :
    waiting q rx = rx.usedRing (cell q rx.rxLastUsed) :: posted q rx.usedRing (rx.rxLastUsed + 1) rx.usedIdx ∧
      (rx.usedRing (cell q rx.rxLastUsed)).1 < queueSize := by
  have apart : rx.rxLastUsed ≠ rx.usedIdx := by
    intro same
    refine inv.found maxLen phase ?_
    rw [waiting, same]
    exact posted_self ..
  have first : waiting q rx = rx.usedRing (cell q rx.rxLastUsed) ::
      posted q rx.usedRing (rx.rxLastUsed + 1) rx.usedIdx :=
    posted_front q rx.usedRing rx.rxLastUsed rx.usedIdx (ring_size_whole q size.1) apart
  refine ⟨first, owned_small q rx inv _ ?_⟩
  rw [owned, first]
  exact List.mem_append_left _ (List.mem_append_right _ (List.mem_map_of_mem List.mem_cons_self))

theorem fetch_inv (maxLen : Nat) (phase : rx.pc = .found maxLen) : RxInv q (rxFetch q rx maxLen) := by
  obtain ⟨first, small⟩ := fetch_first q size rx inv maxLen phase
  have own := inv.owned
  obtain ⟨consumed, hand, behind, delivered, progress, held, cut⟩ := inv.frames.split
  rw [phase] at progress
  cases progress
  rw [first] at held
  obtain ⟨frame, rest, holds, later, rfl⟩ := List.forall₂_cons_left_iff.mp held
  rw [rxFetch, if_neg (Nat.not_le.mpr small)]
  refine ⟨?_, inv.inRange, inv.indices, nofun, nofun, fun i inside => ?_,
    ⟨consumed, [frame], rest, delivered, .holding maxLen _ _ frame holds, later, cut⟩⟩
  · rw [owned, first, phase] at own
    refine List.Perm.trans ?_ own
    show (free q rx ++ rx.taken ++ (posted q rx.usedRing (rx.rxLastUsed + 1) rx.usedIdx).map Prod.fst ++
      [(rx.usedRing (cell q rx.rxLastUsed)).1]).Perm _
    rw [List.map_cons, inHand, List.append_nil, List.append_assoc]
    exact List.Perm.append_left _ (List.perm_append_singleton _ _)
  · show Function.update rx.rxDesc _ _ i = rxDescriptor i
    by_cases here : i = (rx.usedRing (cell q rx.rxLastUsed)).1
    · rw [here, Function.update_self]
    · rw [Function.update_of_ne here]
      exact inv.descs i inside

omit size in
theorem copy_inv (maxLen desc totalLen : Nat) (phase : rx.pc = .holding maxLen desc totalLen) :
    RxInv q (rxCopy rx maxLen desc totalLen) := by
  have own := inv.owned
  obtain ⟨consumed, hand, behind, delivered, progress, held, cut⟩ := inv.frames.split
  rw [phase] at progress
  cases progress with
  | holding _ _ _ frame holds =>
      have cutting := holds_cut rx.rxBuffers maxLen desc totalLen frame holds
      have same : rxCopy rx maxLen desc totalLen = { rx with pc := .copied maxLen desc (outcome maxLen frame) } := by
        rw [← cutting, rxCopy]
        split <;> rfl
      rw [same]
      refine ⟨?_, inv.inRange, inv.indices, nofun, nofun, inv.descs,
        ⟨consumed, [frame], behind, delivered, .copied maxLen desc frame, held, cut⟩⟩
      rw [owned, phase] at own
      exact own

-- With a descriptor in hand at most three are posted, so the ring has a cell to spare.
theorem slot_inv (maxLen desc : Nat) (result : Option (List UInt8)) (phase : rx.pc = .copied maxLen desc result) :
    RxInv q { rx with
      availRing := Function.update rx.availRing (cell q rx.rxAvailIdx) desc, pc := .slotted maxLen desc result } := by
  have total := owned_length q rx inv
  rw [phase] at total
  have spare : (posted q rx.availRing rx.deviceIdx rx.availIdx).length < q := by
    have room := size.2
    simp only [free, inHand, List.length_singleton] at total
    rw [queueSize] at room
    omega
  have same := posted_spare q rx.availRing rx.deviceIdx rx.availIdx (ring_size_whole q size.1) spare desc
  rw [inv.indices] at same
  have own := inv.owned
  obtain ⟨consumed, hand, behind, delivered, progress, held, cut⟩ := inv.frames.split
  rw [phase] at progress
  cases progress with
  | copied _ _ frame =>
      refine ⟨?_, inv.inRange, inv.indices, nofun, fun _ _ _ equal => ?_, inv.descs,
        ⟨consumed, [frame], behind, delivered, .slotted maxLen desc frame, held, cut⟩⟩
      · rw [owned, phase, free, inv.indices] at own
        rw [owned, free]
        dsimp only
        rw [inv.indices, same]
        exact own
      · cases equal
        exact Function.update_self ..

theorem publish_inv (maxLen desc : Nat) (result : Option (List UInt8)) (phase : rx.pc = .slotted maxLen desc result) :
    RxInv q (rxPublish rx maxLen result) := by
  have total := owned_length q rx inv
  have room : (posted q rx.availRing rx.deviceIdx rx.rxAvailIdx).length + 1 < 2 ^ 16 := by
    rw [← inv.indices]
    rw [free] at total
    omega
  have longer := posted_back q rx.availRing rx.deviceIdx rx.rxAvailIdx (ring_size_whole q size.1) room
  rw [inv.slotted maxLen desc result phase] at longer
  have own := inv.owned
  obtain ⟨consumed, hand, behind, delivered, progress, held, cut⟩ := inv.frames.split
  rw [phase] at progress
  cases progress with
  | slotted _ _ frame =>
      refine ⟨?_, inv.inRange, rfl, nofun, nofun, inv.descs,
        ⟨consumed ++ [frame], [], behind, ?_, .idle, held, ?_⟩⟩
      · rw [owned, phase, free, inv.indices] at own
        refine List.Perm.trans ?_ own
        show (posted q rx.availRing rx.deviceIdx (rx.rxAvailIdx + 1) ++ rx.taken ++ (waiting q rx).map Prod.fst ++ []).Perm _
        rw [longer, inHand, List.append_nil, List.append_assoc, List.append_assoc, List.append_assoc, List.append_assoc]
        apply List.Perm.append_left
        rw [← List.append_assoc rx.taken]
        exact List.perm_append_comm
      · rw [List.append_assoc]
        exact delivered
      · rw [List.filter_append]
        apply List.rel_append cut
        rw [outcome]
        by_cases packet : long frame = true
        · have kept : [frame].filter long = [frame] := by simp [packet]
          rw [if_pos packet, kept]
          exact List.Forall₂.cons rfl List.Forall₂.nil
        · have dropped : [frame].filter long = [] := by simp [packet]
          rw [if_neg packet, dropped]
          exact List.Forall₂.nil

theorem take_inv (apart : rx.deviceIdx ≠ rx.availIdx) : RxInv q { rx with
    deviceIdx := rx.deviceIdx + 1, taken := rx.taken ++ [rx.availRing (cell q rx.deviceIdx)] } := by
  have first := posted_front q rx.availRing rx.deviceIdx rx.availIdx (ring_size_whole q size.1) apart
  have own := inv.owned
  refine ⟨?_, inv.inRange, inv.indices, inv.found, inv.slotted, inv.descs, ⟨inv.frames.split⟩⟩
  rw [owned, free, first] at own
  refine List.Perm.trans ?_ own
  show (posted q rx.availRing (rx.deviceIdx + 1) rx.availIdx ++ (rx.taken ++ [rx.availRing (cell q rx.deviceIdx)]) ++
    (waiting q rx).map Prod.fst ++ inHand rx.pc).Perm _
  rw [← List.append_assoc]
  refine List.Perm.append_right _ (List.Perm.append_right _ ?_)
  rw [List.cons_append]
  exact List.perm_append_singleton _ _

section
variable (k id : Nat) (frame : List UInt8) (found : rx.taken[k]? = some id)
include found

omit size in
theorem used_addr : (rx.rxDesc id).addr = id := by
  have small : id < queueSize := owned_small q rx inv id (by simp [owned, List.mem_of_getElem? found])
  rw [inv.descs id small, rxDescriptor]

theorem use_waiting : waiting q (rxUse q rx k id frame) = waiting q rx ++ [(id, frame.length)] := by
  have total := owned_length q rx inv
  have held := List.length_pos_of_mem (List.mem_of_getElem? found)
  have few : (waiting q rx).length + 1 ≤ queueSize := by
    rw [queueSize]
    omega
  have room := size.2
  have spare : (posted q rx.usedRing rx.rxLastUsed rx.usedIdx).length < q := by
    rw [waiting] at few
    omega
  have same := posted_spare q rx.usedRing rx.rxLastUsed rx.usedIdx (ring_size_whole q size.1) spare (id, frame.length)
  have longer := posted_back q (Function.update rx.usedRing (cell q rx.usedIdx) (id, frame.length)) rx.rxLastUsed rx.usedIdx
    (ring_size_whole q size.1) (by rw [same, ← waiting]; rw [queueSize] at few; omega)
  rw [same, Function.update_self, ← waiting] at longer
  exact longer

omit size in
theorem use_elsewhere (other : Nat) (listed : other ∈ (waiting q rx).map Prod.fst ++ inHand rx.pc) :
    (rxUse q rx k id frame).rxBuffers other = rx.rxBuffers other := by
  have once := owned_once q rx inv
  have different : other ≠ id := by
    rw [owned, List.append_assoc] at once
    rintro rfl
    exact (List.nodup_append.mp once).2.2 other (List.mem_append_right _ (List.mem_of_getElem? found)) other listed rfl
  show Function.update rx.rxBuffers _ _ other = _
  rw [used_addr q rx inv k id found, Function.update_of_ne different]

theorem use_owned : (owned q (rxUse q rx k id frame)).Perm [0, 1, 2, 3] := by
  obtain ⟨inside, here⟩ := List.getElem?_eq_some_iff.mp found
  have left := List.getElem_cons_eraseIdx_perm inside
  rw [here] at left
  have back : (rx.taken.eraseIdx k ++ ((waiting q rx).map Prod.fst ++ [id])).Perm
      (rx.taken ++ (waiting q rx).map Prod.fst) := by
    rw [← List.append_assoc]
    exact (List.perm_append_singleton _ _).trans (List.Perm.append_right _ left)
  refine List.Perm.trans ?_ inv.owned
  rw [owned, use_waiting q size rx inv k id frame found]
  show (free q rx ++ rx.taken.eraseIdx k ++ (waiting q rx ++ [(id, frame.length)]).map Prod.fst ++ inHand rx.pc).Perm _
  have moved := List.Perm.append_left (free q rx) (List.Perm.append_right (inHand rx.pc) back)
  simpa only [owned, List.map_append, List.map_singleton, List.append_assoc] using moved

theorem use_inv : RxInv q (rxUse q rx k id frame) := by
  have longer := use_waiting q size rx inv k id frame found
  have elsewhere := use_elsewhere q rx inv k id frame found
  obtain ⟨consumed, hand, behind, delivered, progress, held, cut⟩ := inv.frames.split
  refine ⟨use_owned q size rx inv k id frame found, inv.inRange, inv.indices, fun maxLen phase => ?_, inv.slotted, inv.descs,
    ⟨consumed, hand, behind ++ [frame], ?_, ?_, ?_, cut⟩⟩
  · rw [longer]
    simp
  · show rx.delivered ++ [frame] = _
    rw [delivered, List.append_assoc, List.append_assoc]
  · exact in_progress_kept rx.rxBuffers _ rx.pc hand progress fun desc inHand =>
      elsewhere desc (List.mem_append_right _ inHand)
  · rw [longer]
    refine List.rel_append ?_ (List.Forall₂.cons ⟨rfl, ?_⟩ List.Forall₂.nil)
    · have others (element : Nat × Nat) (listed : element ∈ waiting q rx) :
          (rxUse q rx k id frame).rxBuffers element.1 = rx.rxBuffers element.1 :=
        elsewhere element.1 (List.mem_append_left _ (List.mem_map_of_mem listed))
      refine ((List.forall₂_and_left _ _).mpr ⟨others, held⟩).imp fun element earlier both => ⟨both.2.1, ?_⟩
      rw [both.1]
      exact both.2.2
    · show (Function.update rx.rxBuffers _ _ id).take frame.length = frame
      rw [used_addr q rx inv k id found, Function.update_self, List.take_left']
      rfl
end
end

theorem rx_step_inv (q : Nat) (size : DeviceSize q) (rx next : Rx) (op : RxOp) (inv : RxInv q rx)
    (taken : RxStep q rx op next) : RxInv q next := by
  cases op with
  | call maxLen =>
      simp only [RxStep, rxStep] at taken
      split at taken
      · rename_i phase
        cases taken
        exact call_inv q size rx inv maxLen phase
      · cases taken
  | fetch =>
      simp only [RxStep, rxStep] at taken
      split at taken
      · rename_i maxLen phase
        cases taken
        exact fetch_inv q size rx inv maxLen phase
      · cases taken
  | copy =>
      simp only [RxStep, rxStep] at taken
      split at taken
      · rename_i maxLen desc totalLen phase
        cases taken
        exact copy_inv q rx inv maxLen desc totalLen phase
      · cases taken
  | slot =>
      simp only [RxStep, rxStep] at taken
      split at taken
      · rename_i maxLen desc result phase
        cases taken
        exact slot_inv q size rx inv maxLen desc result phase
      · cases taken
  | publish =>
      simp only [RxStep, rxStep] at taken
      split at taken
      · rename_i maxLen desc result phase
        cases taken
        exact publish_inv q size rx inv maxLen desc result phase
      · cases taken
  | take =>
      simp only [RxStep, rxStep] at taken
      split at taken
      · cases taken
      · rename_i apart
        cases taken
        exact take_inv q size rx inv apart
  | use k frame =>
      simp only [RxStep, rxStep] at taken
      split at taken
      · cases taken
      · obtain ⟨id, found, same⟩ := Option.map_eq_some_iff.mp taken
        rw [← same]
        exact use_inv q size rx inv k id frame found

theorem rx_ready_inv (q : Nat) (size : DeviceSize q) (rx : Rx) (ready : RxReady rx) : RxInv q rx := by
  obtain ⟨buffers, rfl⟩ := ready
  have room := size.2
  rw [queueSize] at room
  have cells (i : Nat) (small : i < 4) : (i % q) = i := Nat.mod_eq_of_lt (by omega)
  have four : distance (2 ^ 16) (0 : UInt16).toNat (4 : UInt16).toNat = 4 := by decide
  have all : free q (rxReady buffers) = List.range 4 := by
    show (List.range (distance (2 ^ 16) (0 : UInt16).toNat (4 : UInt16).toNat)).map _ = _
    rw [four]
    refine (List.map_congr_left fun i member => ?_).trans (List.map_id _)
    have small := List.mem_range.mp member
    show (if (0 + i) % q < queueSize then (0 + i) % q else 0) = i
    rw [Nat.zero_add, cells i small, if_pos (by rw [queueSize]; exact small)]
  have none : waiting q (rxReady buffers) = [] := posted_self ..
  refine ⟨?_, rfl, rfl, nofun, nofun, fun i inside => if_pos inside,
    ⟨[], [], [], rfl, .idle, by rw [none]; exact List.Forall₂.nil, List.Forall₂.nil⟩⟩
  rw [owned, all, none]
  exact List.Perm.refl _

end RoDos.Virtio
