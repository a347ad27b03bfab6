import Mathlib.Data.List.Forall2
import Mathlib.Data.List.Perm.Basic
import RoDos.Virtio.Model

set_option autoImplicit false

namespace RoDos.Virtio

open Base

def untaken (q : Nat) (tx : Tx) : List Nat := posted q tx.availRing tx.deviceIdx tx.availIdx

def outstanding (q : Nat) (tx : Tx) : List Nat := untaken q tx ++ tx.held.map Prod.fst

-- A frame is accepted only when its descriptor is back and the ring has a free cell.
def DescriptorBack (q : Nat) (tx : Tx) : TxOp → Prop
  | .send frame => sendable frame = true → tx.txFreeIdx ∉ outstanding q tx ∧ (untaken q tx).length < q
  | _ => True

structure Intact (tx : Tx) (id : Nat) (frame : List UInt8) : Prop where
  desc : tx.txDesc id = txDescriptor id frame
  bytes : (tx.txBuffers id).take (netHeader + frame.length) = virtioNetHdr ++ frame

structure TxSound (q : Nat) (tx : Tx) : Prop where
  untaken : List.Forall₂ (Intact tx) (untaken q tx) (tx.accepted.drop tx.takenCount)
  held : ∀ entry ∈ tx.held, ∃ frame, tx.accepted[entry.2]? = some frame ∧ Intact tx entry.1 frame
  sent : ∀ entry ∈ tx.transmitted, ∃ frame, tx.accepted[entry.1]? = some frame ∧ entry.2 = virtioNetHdr ++ frame
  once : (tx.transmitted.map Prod.fst ++ tx.held.map Prod.snd).Perm (List.range tx.takenCount)
  counted : tx.takenCount ≤ tx.accepted.length

def OutstandingKept (q : Nat) (tx next : Tx) : Prop :=
  ∀ id ∈ outstanding q tx, next.txBuffers id = tx.txBuffers id ∧ next.txDesc id = tx.txDesc id

inductive Sending (q : Nat) (tx : Tx) : TxPc → Prop where
  | idle : Sending q tx .idle
  | chosen (idx : Nat) (frame : List UInt8) (back : idx ∉ outstanding q tx) (room : (untaken q tx).length < q) :
      Sending q tx (.chosen idx frame)
  | filled (idx : Nat) (frame : List UInt8) (back : idx ∉ outstanding q tx) (room : (untaken q tx).length < q)
      (bytes : (tx.txBuffers idx).take (netHeader + frame.length) = virtioNetHdr ++ frame) :
      Sending q tx (.filled idx frame)
  | described (idx : Nat) (frame : List UInt8) (back : idx ∉ outstanding q tx) (room : (untaken q tx).length < q)
      (intact : Intact tx idx frame) : Sending q tx (.described idx frame)
  | slotted (idx : Nat) (frame : List UInt8) (back : idx ∉ outstanding q tx) (room : (untaken q tx).length < q)
      (intact : Intact tx idx frame) (slot : tx.availRing (cell q tx.availIdx) = idx) : Sending q tx (.slotted idx frame)

structure TxInv (q : Nat) (tx : Tx) : Prop where
  sound : TxSound q tx
  sending : Sending q tx tx.pc

theorem intact_kept (tx next : Tx) (id : Nat) (frame : List UInt8) (intact : Intact tx id frame)
    (buffers : next.txBuffers id = tx.txBuffers id) (desc : next.txDesc id = tx.txDesc id) : Intact next id frame :=
  ⟨desc.trans intact.desc, by rw [buffers]; exact intact.bytes⟩

theorem fill_bytes (frame old : List UInt8) :
    (virtioNetHdr ++ frame ++ old.drop (netHeader + frame.length)).take (netHeader + frame.length) = virtioNetHdr ++ frame := by
  have length : (virtioNetHdr ++ frame).length = netHeader + frame.length := by
    rw [List.length_append, virtioNetHdr, List.length_replicate]
  rw [← length]
  exact List.take_left

theorem sound_kept (q : Nat) (tx next : Tx) (sound : TxSound q tx) (same : untaken q next = untaken q tx)
    (held : next.held = tx.held) (accepted : next.accepted = tx.accepted) (taken : next.takenCount = tx.takenCount)
    (transmitted : next.transmitted = tx.transmitted) (kept : OutstandingKept q tx next) : TxSound q next := by
  have stays (id : Nat) (member : id ∈ outstanding q tx) (frame : List UInt8) (intact : Intact tx id frame) :
      Intact next id frame :=
    intact_kept tx next id frame intact (kept id member).1 (kept id member).2
  refine ⟨?_, fun entry listed => ?_, ?_, ?_, ?_⟩
  · rw [same, accepted, taken]
    have listed (id : Nat) (member : id ∈ untaken q tx) : id ∈ outstanding q tx := List.mem_append_left _ member
    exact ((List.forall₂_and_left _ _).mpr ⟨listed, sound.untaken⟩).imp fun id frame both => stays id both.1 frame both.2
  · rw [held] at listed
    obtain ⟨frame, found, intact⟩ := sound.held entry listed
    exact ⟨frame, by rw [accepted]; exact found,
      stays entry.1 (List.mem_append_right _ (List.mem_map_of_mem listed)) frame intact⟩
  · rw [transmitted, accepted]
    exact sound.sent
  · rw [transmitted, held, taken]
    exact sound.once
  · rw [taken, accepted]
    exact sound.counted

theorem sending_kept (q : Nat) (tx next : Tx) (pc : TxPc) (sending : Sending q tx pc)
    (fewer : ∀ id ∈ outstanding q next, id ∈ outstanding q tx)
    (shorter : (untaken q next).length ≤ (untaken q tx).length)
    (buffers : next.txBuffers = tx.txBuffers) (descs : next.txDesc = tx.txDesc)
    (ring : next.availRing = tx.availRing) (index : next.availIdx = tx.availIdx) : Sending q next pc := by
  have intact (id : Nat) (frame : List UInt8) (whole : Intact tx id frame) : Intact next id frame :=
    intact_kept tx next id frame whole (by rw [buffers]) (by rw [descs])
  cases sending with
  | idle => exact .idle
  | chosen idx frame back room => exact .chosen idx frame (fun member => back (fewer idx member)) (shorter.trans_lt room)
  | filled idx frame back room bytes =>
      exact .filled idx frame (fun member => back (fewer idx member)) (shorter.trans_lt room) (by rw [buffers]; exact bytes)
  | described idx frame back room whole =>
      exact .described idx frame (fun member => back (fewer idx member)) (shorter.trans_lt room) (intact idx frame whole)
  | slotted idx frame back room whole slot =>
      exact .slotted idx frame (fun member => back (fewer idx member)) (shorter.trans_lt room) (intact idx frame whole)
        (by rw [ring, index]; exact slot)

section
variable (q : Nat) (size : RingSize q) (tx : Tx) (inv : TxInv q tx)

theorem send_inv (frame : List UInt8) (accepted : sendable frame = true) (back : DescriptorBack q tx (.send frame))
    (inv : TxInv q tx) :
    TxInv q { tx with txFreeIdx := (tx.txFreeIdx + 1) % queueSize, pc := .chosen tx.txFreeIdx frame } := by
  obtain ⟨absent, room⟩ := back accepted
  exact ⟨sound_kept q tx _ inv.sound rfl rfl rfl rfl rfl fun _ _ => ⟨rfl, rfl⟩, .chosen tx.txFreeIdx frame absent room⟩

include inv

theorem fill_inv (idx : Nat) (frame : List UInt8) (phase : tx.pc = .chosen idx frame) :
    TxInv q (txFill tx idx frame) ∧ OutstandingKept q tx (txFill tx idx frame) := by
  have sending := inv.sending
  rw [phase] at sending
  cases sending with
  | chosen _ _ back room =>
      have kept : OutstandingKept q tx (txFill tx idx frame) := by
        intro id member
        refine ⟨Function.update_of_ne ?_ _ _, rfl⟩
        exact fun same => back (same ▸ member)
      refine ⟨⟨sound_kept q tx _ inv.sound rfl rfl rfl rfl rfl kept, .filled idx frame back room ?_⟩, kept⟩
      show (Function.update tx.txBuffers idx _ idx).take _ = _
      rw [Function.update_self]
      exact fill_bytes frame _

theorem describe_inv (idx : Nat) (frame : List UInt8) (next : Tx) (phase : tx.pc = .filled idx frame)
    (described : next = { tx with
      txDesc := Function.update tx.txDesc idx (txDescriptor idx frame), pc := .described idx frame }) :
    TxInv q next ∧ OutstandingKept q tx next := by
  have sending := inv.sending
  rw [phase] at sending
  rw [described]
  cases sending with
  | filled _ _ back room bytes =>
      have kept : OutstandingKept q tx { tx with
          txDesc := Function.update tx.txDesc idx (txDescriptor idx frame), pc := .described idx frame } := by
        intro id member
        refine ⟨rfl, Function.update_of_ne ?_ _ _⟩
        exact fun same => back (same ▸ member)
      exact ⟨⟨sound_kept q tx _ inv.sound rfl rfl rfl rfl rfl kept,
        .described idx frame back room ⟨Function.update_self .., bytes⟩⟩, kept⟩

include size

theorem tx_slot_inv (idx : Nat) (frame : List UInt8) (next : Tx) (phase : tx.pc = .described idx frame)
    (slotted : next = { tx with
      availRing := Function.update tx.availRing (cell q tx.availIdx) idx, pc := .slotted idx frame }) :
    TxInv q next ∧ OutstandingKept q tx next := by
  have sending := inv.sending
  rw [phase] at sending
  cases sending with
  | described _ _ back room intact =>
      have same : untaken q next = untaken q tx := by
        rw [slotted]
        exact posted_spare q tx.availRing tx.deviceIdx tx.availIdx (ring_size_whole q size) room idx
      have held : next.held = tx.held := by rw [slotted]
      have kept : OutstandingKept q tx next := by
        rw [slotted]
        exact fun _ _ => ⟨rfl, rfl⟩
      refine ⟨⟨sound_kept q tx next inv.sound same held (by rw [slotted]) (by rw [slotted]) (by rw [slotted]) kept, ?_⟩, kept⟩
      have pc : next.pc = .slotted idx frame := by rw [slotted]
      rw [pc]
      refine .slotted idx frame ?_ (by rw [same]; exact room) (by rw [slotted]; exact ⟨intact.desc, intact.bytes⟩) ?_
      · rw [outstanding, same, held]
        exact back
      · rw [slotted]
        exact Function.update_self ..

theorem tx_publish_inv (idx : Nat) (frame : List UInt8) (next : Tx) (phase : tx.pc = .slotted idx frame)
    (published : next = { tx with availIdx := tx.availIdx + 1, pc := .idle, accepted := tx.accepted ++ [frame] }) :
    TxInv q next ∧ OutstandingKept q tx next := by
  have sending := inv.sending
  have sound := inv.sound
  rw [phase] at sending
  cases sending with
  | slotted _ _ back room intact slot =>
      have small := ring_size_small q size
      have longer : untaken q next = untaken q tx ++ [idx] := by
        rw [published, ← slot]
        refine posted_back q tx.availRing tx.deviceIdx tx.availIdx (ring_size_whole q size) ?_
        rw [untaken] at room
        omega
      have more (n : Nat) (found : List UInt8) (earlier : tx.accepted[n]? = some found) :
          (tx.accepted ++ [frame])[n]? = some found := by
        rw [List.getElem?_append_left (List.getElem?_eq_some_iff.mp earlier).1]
        exact earlier
      have kept : OutstandingKept q tx next := by
        rw [published]
        exact fun _ _ => ⟨rfl, rfl⟩
      refine ⟨⟨⟨?_, ?_, ?_, ?_, ?_⟩, by rw [published]; exact .idle⟩, kept⟩
      · have all : List.Forall₂ (Intact tx) (untaken q tx ++ [idx]) (tx.accepted.drop tx.takenCount ++ [frame]) :=
          List.rel_append sound.untaken (List.Forall₂.cons intact List.Forall₂.nil)
        rw [← List.drop_append_of_le_length sound.counted] at all
        rw [longer, published]
        exact all.imp fun id earlier whole => ⟨whole.desc, whole.bytes⟩
      · rw [published]
        intro entry listed
        obtain ⟨earlier, found, whole⟩ := sound.held entry listed
        exact ⟨earlier, more _ _ found, ⟨whole.desc, whole.bytes⟩⟩
      · rw [published]
        intro entry listed
        obtain ⟨earlier, found, bytes⟩ := sound.sent entry listed
        exact ⟨earlier, more _ _ found, bytes⟩
      · rw [published]
        exact sound.once
      · rw [published]
        exact Nat.le_trans sound.counted (by simp)

theorem tx_take_inv (next : Tx) (apart : tx.deviceIdx ≠ tx.availIdx)
    (moved : next = { tx with
      deviceIdx := tx.deviceIdx + 1, takenCount := tx.takenCount + 1
      held := tx.held ++ [(tx.availRing (cell q tx.deviceIdx), tx.takenCount)] }) :
    TxInv q next ∧ OutstandingKept q tx next := by
  have sound := inv.sound
  have first : untaken q tx = tx.availRing (cell q tx.deviceIdx) :: untaken q next := by
    rw [moved]
    exact posted_front q tx.availRing tx.deviceIdx tx.availIdx (ring_size_whole q size) apart
  have all (id : Nat) : id ∈ outstanding q next ↔ id ∈ outstanding q tx := by
    rw [outstanding, outstanding, first, moved]
    simp only [List.map_append, List.map_cons, List.map_nil, List.mem_append, List.mem_cons, List.not_mem_nil, or_false]
    tauto
  have shorter : (untaken q next).length < (untaken q tx).length := by
    rw [first, List.length_cons]
    exact Nat.lt_succ_self _
  have kept : OutstandingKept q tx next := by
    rw [moved]
    exact fun _ _ => ⟨rfl, rfl⟩
  have intact := sound.untaken
  rw [first] at intact
  obtain ⟨frame, rest, here, others, accepted⟩ := List.forall₂_cons_left_iff.mp intact
  have found : tx.accepted[tx.takenCount]? = some frame := by
    rw [← List.head?_drop, accepted]
    rfl
  have behind : tx.accepted.drop (tx.takenCount + 1) = rest := by
    rw [← List.tail_drop, accepted, List.tail_cons]
  refine ⟨⟨⟨?_, ?_, ?_, ?_, ?_⟩, ?_⟩, kept⟩
  · have later : next.accepted.drop next.takenCount = rest := by
      rw [moved]
      exact behind
    rw [later]
    exact others.imp fun id frame whole => by rw [moved]; exact ⟨whole.desc, whole.bytes⟩
  · rw [moved]
    intro entry listed
    rcases List.mem_append.mp listed with old | new
    · obtain ⟨earlier, same, whole⟩ := sound.held entry old
      exact ⟨earlier, same, ⟨whole.desc, whole.bytes⟩⟩
    · rw [List.mem_singleton.mp new]
      exact ⟨frame, found, ⟨here.desc, here.bytes⟩⟩
  · rw [moved]
    exact sound.sent
  · rw [moved]
    show (tx.transmitted.map Prod.fst ++ (tx.held ++ [_]).map Prod.snd).Perm (List.range (tx.takenCount + 1))
    rw [List.map_append, List.map_singleton, ← List.append_assoc, List.range_succ]
    exact List.Perm.append_right _ sound.once
  · rw [moved]
    exact (List.getElem?_eq_some_iff.mp found).1
  · have pc : next.pc = tx.pc := by rw [moved]
    rw [pc]
    exact sending_kept q tx next tx.pc inv.sending (fun id member => (all id).mp member) shorter.le (by rw [moved])
      (by rw [moved]) (by rw [moved]) (by rw [moved])

omit size in
-- The device sends what the buffer held when the frame was accepted.
theorem complete_inv (k : Nat) (entry : Nat × Nat) (found : tx.held[k]? = some entry) :
    TxInv q (txComplete tx k entry) ∧ OutstandingKept q tx (txComplete tx k entry) := by
  have sound := inv.sound
  obtain ⟨inside, here⟩ := List.getElem?_eq_some_iff.mp found
  obtain ⟨frame, accepted, intact⟩ := sound.held entry (List.mem_of_getElem? found)
  have fewer (id : Nat) (member : id ∈ outstanding q (txComplete tx k entry)) : id ∈ outstanding q tx := by
    rcases List.mem_append.mp member with waits | back
    · exact List.mem_append_left _ waits
    · obtain ⟨other, listed, rfl⟩ := List.mem_map.mp back
      exact List.mem_append_right _ (List.mem_map_of_mem (List.mem_of_mem_eraseIdx listed))
  refine ⟨⟨⟨?_, fun other listed => ?_, fun sent listed => ?_, ?_, sound.counted⟩, ?_⟩, fun _ _ => ⟨rfl, rfl⟩⟩
  · exact sound.untaken.imp fun id earlier whole => ⟨whole.desc, whole.bytes⟩
  · obtain ⟨earlier, same, whole⟩ := sound.held other (List.mem_of_mem_eraseIdx listed)
    exact ⟨earlier, same, ⟨whole.desc, whole.bytes⟩⟩
  · rcases List.mem_append.mp listed with old | new
    · exact sound.sent sent old
    · rw [List.mem_singleton.mp new]
      refine ⟨frame, accepted, ?_⟩
      show (tx.txBuffers (tx.txDesc entry.1).addr).take (tx.txDesc entry.1).len = _
      rw [intact.desc]
      exact intact.bytes
  · have left := (List.getElem_cons_eraseIdx_perm inside).map Prod.snd
    rw [here, List.map_cons] at left
    refine List.Perm.trans ?_ sound.once
    show ((tx.transmitted ++ [_]).map Prod.fst ++ (tx.held.eraseIdx k).map Prod.snd).Perm _
    rw [List.map_append, List.map_singleton, List.append_assoc, List.singleton_append]
    exact List.Perm.append_left _ left
  · exact sending_kept q tx _ tx.pc inv.sending fewer (Nat.le_refl _) rfl rfl rfl rfl

theorem tx_step_inv (next : Tx) (op : TxOp) (back : DescriptorBack q tx op) (taken : TxStep q tx op next) :
    TxInv q next ∧ OutstandingKept q tx next := by
  cases op with
  | send frame =>
      simp only [TxStep, txStep] at taken
      split at taken
      · split at taken
        · rename_i accepted
          cases taken
          exact ⟨send_inv q tx frame accepted back inv, fun _ _ => ⟨rfl, rfl⟩⟩
        · cases taken
          exact ⟨inv, fun _ _ => ⟨rfl, rfl⟩⟩
      · cases taken
  | fill =>
      simp only [TxStep, txStep] at taken
      split at taken
      · rename_i idx frame phase
        cases taken
        exact fill_inv q tx inv idx frame phase
      · cases taken
  | describe =>
      simp only [TxStep, txStep] at taken
      split at taken
      · rename_i idx frame phase
        exact describe_inv q tx inv idx frame next phase (Option.some.inj taken).symm
      · cases taken
  | slot =>
      simp only [TxStep, txStep] at taken
      split at taken
      · rename_i idx frame phase
        exact tx_slot_inv q size tx inv idx frame next phase (Option.some.inj taken).symm
      · cases taken
  | publish =>
      simp only [TxStep, txStep] at taken
      split at taken
      · rename_i idx frame phase
        exact tx_publish_inv q size tx inv idx frame next phase (Option.some.inj taken).symm
      · cases taken
  | take =>
      simp only [TxStep, txStep] at taken
      split at taken
      · cases taken
      · rename_i apart
        exact tx_take_inv q size tx inv next apart (Option.some.inj taken).symm
  | complete k =>
      obtain ⟨entry, found, same⟩ := Option.map_eq_some_iff.mp taken
      rw [← same]
      exact complete_inv q tx inv k entry found
end

theorem tx_ready_inv (q : Nat) (tx : Tx) (ready : TxReady tx) : TxInv q tx := by
  obtain ⟨buffers, rfl⟩ := ready
  have none : untaken q (txReady buffers) = [] := posted_self ..
  refine ⟨⟨?_, nofun, nofun, List.Perm.refl _, Nat.le_refl _⟩, .idle⟩
  rw [none]
  exact List.Forall₂.nil

theorem sent_frames_intact (q : Nat) (size : RingSize q) (tx : Tx)
    (run : Run TxReady (TxStep q) (DescriptorBack q) tx) :
    TxSound q tx ∧ ∀ op next, DescriptorBack q tx op → TxStep q tx op next → OutstandingKept q tx next := by
  have inv := run_invariant (TxInv q) (tx_ready_inv q)
    (fun state next op held back taken => (tx_step_inv q size state held next op back taken).1) tx run
  exact ⟨inv.sound, fun op next back taken => (tx_step_inv q size tx inv next op back taken).2⟩

instance (q : Nat) (tx : Tx) : (op : TxOp) → Decidable (DescriptorBack q tx op)
  | .send frame => inferInstanceAs (Decidable (sendable frame = true →
      tx.txFreeIdx ∉ outstanding q tx ∧ (untaken q tx).length < q))
  | .fill | .describe | .slot | .publish | .take | .complete _ => isTrue trivial

def sendAll (frame : List UInt8) : List TxOp := [.send frame, .fill, .describe, .slot, .publish]

theorem sent_frames_intact_five : ∃ tx : Tx, tx.transmitted = [(0, virtioNetHdr ++ [1])] ∧ tx.accepted.length = 5 ∧
    TxSound 4 tx := by
  have evaluated : (runAll (fun tx op => if DescriptorBack 4 tx op then txStep 4 tx op else none)
      (txReady fun _ => []) (sendAll [1] ++ sendAll [2] ++ sendAll [3] ++ [.take, .complete 0] ++ sendAll [4] ++
        sendAll [5])).any (fun tx => tx.transmitted = [(0, virtioNetHdr ++ [1])] ∧ tx.accepted.length = 5) = true := by
    decide +kernel
  obtain ⟨tx, done, reached⟩ := (Option.any_eq_true _ _).mp evaluated
  obtain ⟨transmitted, count⟩ := of_decide_eq_true reached
  refine ⟨tx, transmitted, count, (sent_frames_intact 4 ⟨2, by decide, rfl⟩ tx ?_).1⟩
  refine run_all_run _ (fun state op next taken => ?_) _ tx _ (.start _ ⟨_, rfl⟩) done
  split at taken
  · rename_i back
    exact ⟨back, taken⟩
  · cases taken

-- Five frames before the device takes the first: it sends the bytes of the fifth for it.
theorem sent_frames_not_always_intact : ¬ ∀ q, DeviceSize q → ∀ tx,
    Run TxReady (TxStep q) (fun _ _ => True) tx → TxSound q tx := by
  intro claimed
  have evaluated : (runAll (txStep 256) (txReady fun _ => []) (sendAll [1] ++ sendAll [2] ++ sendAll [3] ++ sendAll [4] ++
      sendAll [5] ++ [.take, .complete 0])).any (fun tx => (0, virtioNetHdr ++ [5]) ∈ tx.transmitted ∧
        tx.accepted = [[1], [2], [3], [4], [5]]) = true := by decide +kernel
  obtain ⟨tx, done, reached⟩ := (Option.any_eq_true _ _).mp evaluated
  obtain ⟨transmitted, accepted⟩ := of_decide_eq_true reached
  have run : Run TxReady (TxStep 256) (fun _ _ => True) tx :=
    run_all_run (txStep 256) (fun _ _ _ taken => ⟨trivial, taken⟩) _ tx _ (.start _ ⟨_, rfl⟩) done
  have sound := claimed 256 ⟨⟨8, by decide, rfl⟩, by decide⟩ tx run
  obtain ⟨frame, found, bytes⟩ := sound.sent _ transmitted
  rw [accepted] at found
  cases found
  exact absurd bytes (by decide)

end RoDos.Virtio
