import RoDos.Tcp.Counting

set_option autoImplicit false

namespace RoDos.Tcp

open Base

-- Where a call of tcp_receive is: at the test of its loop, before the calls of netif_poll that are
-- left in a round, at the test of the clock.
inductive ReadCall where
  | idle
  | test (maxLen : Nat)
  | poll (maxLen left : Nat)
  | clock (maxLen : Nat)
deriving DecidableEq, Repr

-- accepted are the payloads that went into rx_buffer since tcp_connect, handed the bytes that
-- tcp_receive returned since.
structure Reader where
  host : Host
  call : ReadCall
  accepted : List UInt8
  handed : List UInt8
deriving DecidableEq, Repr

def acceptedData (tcb : Tcb) (packet : List UInt8) : List UInt8 :=
  if tcb.state = .established ∧ 20 ≤ packet.length ∧ accepts tcb packet = true then packet.drop (headerLength packet)
  else []

def takeSegment (reader : Reader) (segment : UInt32 × List UInt8) : Option Reader :=
  (arrive reader.host segment.1 segment.2).map fun next =>
    { reader with host := next, accepted := reader.accepted ++ acceptedData reader.host.socket.tcb segment.2 }

-- A call of netif_poll takes at most one frame.
def netifPoll (reader : Reader) : Option (UInt32 × List UInt8) → Option Reader
  | none => some reader
  | some segment => takeSegment reader segment

def copyOut (reader : Reader) (maxLen : Nat) : Reader :=
  let result := tcpReceive reader.host.socket.tcb maxLen
  { reader with
    host := { reader.host with
      socket := { reader.host.socket with tcb := result.1 }, returned := reader.host.returned ++ result.2 }
    call := .idle
    handed := reader.handed ++ result.2 }

inductive ReaderOp where
  | receive (maxLen : Nat)
  | test
  | poll (segment : Option (UInt32 × List UInt8))
  | clock (late : Bool)
  | other (event : Event)
deriving DecidableEq, Repr

-- Between two reads the connection may be used in any other way, and segments come in with it.
def otherEvent (reader : Reader) : Event → Option Reader
  | .receive _ => none
  | .segment srcIp packet => takeSegment reader (srcIp, packet)
  | .connect destIp destPort ownIp portTicks ticks ready =>
      (hostStep reader.host (.connect destIp destPort ownIp portTicks ticks ready)).map fun next =>
        ⟨next, .idle, [], []⟩
  | event => (hostStep reader.host event).map fun next => { reader with host := next }

def readerStep (reader : Reader) (op : ReaderOp) : Option Reader :=
  match reader.call, op with
  | .idle, .receive maxLen => if reader.host.phase = .done then some { reader with call := .test maxLen } else none
  | .idle, .other event => otherEvent reader event
  | .test maxLen, .test =>
      if !reader.host.socket.tcb.hasData && reader.host.socket.tcb.state = .established then
        some { reader with call := .poll maxLen 10 }
      else some (copyOut reader maxLen)
  | .poll maxLen left, .poll segment =>
      (netifPoll reader segment).map fun next =>
        { next with call :=
            if next.host.socket.tcb.hasData || left ≤ 1 then .clock maxLen else .poll maxLen (left - 1) }
  | .clock maxLen, .clock late => some (if late then copyOut reader maxLen else { reader with call := .test maxLen })
  | _, _ => none

def ReaderStep (reader : Reader) (op : ReaderOp) (next : Reader) : Prop := readerStep reader op = some next

def Unused (reader : Reader) : Prop := reader = ⟨firstHost, .idle, [], []⟩

def unread (reader : Reader) : List UInt8 := reader.accepted.drop reader.handed.length

def reads (maxLens : List Nat) : List ReaderOp := maxLens.flatMap fun maxLen => [.receive maxLen, .test]

structure Aligned (tcb : Tcb) (accepted handed : List UInt8) : Prop where
  buffer : tcb.rxBuffer = accepted
  processed : tcb.rxProcessed ≤ accepted.length
  handed : handed = accepted.take tcb.rxProcessed
  flag : tcb.hasData = true ↔ tcb.rxProcessed < accepted.length

theorem aligned_frame (tcb next : Tcb) (accepted handed : List UInt8) (aligned : Aligned tcb accepted handed)
    (buffer : next.rxBuffer = tcb.rxBuffer) (processed : next.rxProcessed = tcb.rxProcessed)
    (flag : next.hasData = tcb.hasData) : Aligned next accepted handed :=
  ⟨buffer.trans aligned.buffer, by rw [processed]; exact aligned.processed, by rw [processed]; exact aligned.handed,
    by rw [processed, flag]; exact aligned.flag⟩

theorem take_data_aligned (tcb taken : Tcb) (packet accepted handed : List UInt8) (acks : List Answer)
    (aligned : Aligned tcb accepted handed) (took : takeData tcb packet = some (taken, acks)) :
    Aligned taken (accepted ++ if accepts tcb packet = true then packet.drop (headerLength packet) else []) handed := by
  rw [takeData] at took
  split at took
  · rename_i accept
    split at took
    · cases took
    · rename_i inside
      cases took
      have positive : 0 < (packet.drop (headerLength packet)).length := by
        have offered := (of_decide_eq_true accept).1
        rw [segLen] at offered
        rw [List.length_drop]
        omega
      have behind := aligned.processed
      rw [if_pos accept]
      refine ⟨congrArg (· ++ packet.drop (headerLength packet)) aligned.buffer, ?_, ?_, fun _ => ?_, fun _ => rfl⟩
      · rw [List.length_append]
        exact Nat.le_add_right_of_le behind
      · rw [List.take_append_of_le_length behind]
        exact aligned.handed
      · rw [List.length_append]
        exact Nat.lt_of_le_of_lt behind (Nat.lt_add_of_pos_right positive)
  · rename_i refuse
    cases took
    rw [if_neg refuse, List.append_nil]
    exact aligned

theorem arrive_aligned (host next : Host) (srcIp : UInt32) (packet accepted handed : List UInt8)
    (aligned : Aligned host.socket.tcb accepted handed) (arrived : arrive host srcIp packet = some next) :
    Aligned next.socket.tcb (accepted ++ acceptedData host.socket.tcb packet) handed := by
  obtain ⟨answers, processed, _, _⟩ := arrive_processed host next srcIp packet arrived
  cases processed with
  | ignored unseen same silent =>
      rw [acceptedData, if_neg (fun both => unseen ⟨both.1, both.2.1⟩), List.append_nil, same]
      exact aligned
  | opened waiting answered sent =>
      rw [acceptedData, if_neg (fun both => by rw [waiting] at both; cases both.1), List.append_nil, answered]
      exact aligned_frame _ _ _ _ aligned rfl rfl rfl
  | kept working long open' took =>
      have later := take_data_aligned _ _ _ _ _ _ aligned took
      simp only [acceptedData, working, long, true_and]
      exact later
  | ended working long fin taken acks took shut sent =>
      have later := take_data_aligned _ _ _ _ _ _ aligned took
      simp only [acceptedData, working, long, true_and, shut]
      exact aligned_frame _ _ _ _ later rfl rfl rfl

theorem receive_aligned (tcb : Tcb) (maxLen : Nat) (accepted handed : List UInt8) (aligned : Aligned tcb accepted handed) :
    Aligned (tcpReceive tcb maxLen).1 accepted (handed ++ (tcpReceive tcb maxLen).2) ∧
      (tcpReceive tcb maxLen).2 = (accepted.drop handed.length).take maxLen := by
  have length : handed.length = tcb.rxProcessed := by rw [aligned.handed, List.length_take, Nat.min_eq_left aligned.processed]
  rw [tcpReceive, aligned.buffer, length]
  by_cases empty : accepted.length ≤ tcb.rxProcessed
  · rw [if_pos empty, List.drop_of_length_le empty, List.take_nil, List.append_nil]
    exact ⟨aligned, rfl⟩
  rw [if_neg empty]
  have copied : (if maxLen < accepted.length - tcb.rxProcessed then maxLen else accepted.length - tcb.rxProcessed) =
      min maxLen (accepted.length - tcb.rxProcessed) := by
    split <;> omega
  simp only [copied]
  have bytes : (accepted.drop tcb.rxProcessed).take (min maxLen (accepted.length - tcb.rxProcessed)) =
      (accepted.drop tcb.rxProcessed).take maxLen := by
    rw [← List.length_drop]
    exact List.take_eq_take_min.symm
  refine ⟨⟨rfl, by dsimp only; omega, ?_, ?_⟩, bytes⟩
  · rw [aligned.handed, ← List.take_add]
  · dsimp only
    split
    · rename_i all
      simp [all]
    · rename_i rest
      exact iff_of_true (aligned.flag.mpr (by omega)) (by omega)

structure Serving (reader : Reader) : Prop where
  aligned : Aligned reader.host.socket.tcb reader.accepted reader.handed
  quiet : ∀ maxLen left, reader.call = .poll maxLen left → reader.host.socket.tcb.hasData = false

section
variable (reader next : Reader) (serving : Serving reader)
include serving

theorem take_segment_aligned (segment : UInt32 × List UInt8) (taken : takeSegment reader segment = some next) :
    Aligned next.host.socket.tcb next.accepted next.handed ∧ next.call = reader.call := by
  obtain ⟨host, arrived, same⟩ := Option.map_eq_some_iff.mp taken
  rw [← same]
  exact ⟨arrive_aligned reader.host host segment.1 segment.2 _ _ serving.aligned arrived, rfl⟩

theorem netif_poll_aligned (segment : Option (UInt32 × List UInt8)) (polled : netifPoll reader segment = some next) :
    Aligned next.host.socket.tcb next.accepted next.handed := by
  cases segment with
  | none =>
      cases polled
      exact serving.aligned
  | some segment => exact (take_segment_aligned reader next serving segment polled).1

theorem copy_out_serving (maxLen : Nat) : Serving (copyOut reader maxLen) :=
  ⟨(receive_aligned _ maxLen _ _ serving.aligned).1, nofun⟩

theorem host_frame_serving (host : Host) (idle : reader.call = .idle)
    (buffer : host.socket.tcb.rxBuffer = reader.host.socket.tcb.rxBuffer)
    (processed : host.socket.tcb.rxProcessed = reader.host.socket.tcb.rxProcessed)
    (flag : host.socket.tcb.hasData = reader.host.socket.tcb.hasData) : Serving { reader with host := host } :=
  ⟨aligned_frame _ _ _ _ serving.aligned buffer processed flag, fun _ _ polling => nomatch idle.symm.trans polling⟩

theorem other_event_serving (event : Event) (idle : reader.call = .idle) (taken : otherEvent reader event = some next) :
    Serving next := by
  cases event with
  | receive maxLen => cases taken
  | segment srcIp packet =>
      obtain ⟨aligned, call⟩ := take_segment_aligned reader next serving _ taken
      refine ⟨aligned, fun _ _ polling => ?_⟩
      cases (call.trans idle).symm.trans polling
  | connect destIp destPort ownIp portTicks ticks ready =>
      obtain ⟨host, moved, same⟩ := Option.map_eq_some_iff.mp taken
      obtain ⟨_, dialled⟩ := Option.ite_none_right_eq_some.mp moved
      rw [← same, ← Option.some.inj dialled]
      exact ⟨⟨rfl, Nat.le_refl 0, rfl, iff_of_false Bool.noConfusion (Nat.lt_irrefl 0)⟩, fun _ _ => ReadCall.noConfusion⟩
  | syn sent =>
      obtain ⟨host, moved, same⟩ := Option.map_eq_some_iff.mp taken
      rw [← same]
      cases host_step_cases reader.host host _ moved with
      | asked _ _ made =>
          rw [made]
          exact host_frame_serving reader serving _ idle rfl rfl rfl
      | unasked _ _ made =>
          rw [made]
          exact host_frame_serving reader serving _ idle rfl rfl rfl
  | giveUp =>
      obtain ⟨host, moved, same⟩ := Option.map_eq_some_iff.mp taken
      rw [← same]
      cases host_step_cases reader.host host _ moved with
      | gaveUp _ made =>
          rw [made]
          exact host_frame_serving reader serving _ idle rfl rfl rfl
  | send data =>
      obtain ⟨host, moved, same⟩ := Option.map_eq_some_iff.mp taken
      rw [← same]
      cases host_step_cases reader.host host _ moved with
      | carried _ _ _ made =>
          rw [made]
          exact host_frame_serving reader serving _ idle rfl rfl rfl
      | refused _ _ _ made =>
          rw [made]
          exact host_frame_serving reader serving _ idle rfl rfl rfl
  | close =>
      obtain ⟨host, moved, same⟩ := Option.map_eq_some_iff.mp taken
      rw [← same]
      cases host_step_cases reader.host host _ moved with
      | closed _ _ made =>
          rw [made]
          exact host_frame_serving reader serving _ idle rfl rfl rfl
      | unopened _ _ made =>
          rw [made]
          exact host_frame_serving reader serving _ idle rfl rfl rfl

theorem serving_step (op : ReaderOp) (taken : readerStep reader op = some next) : Serving next := by
  unfold readerStep at taken
  split at taken
  · split at taken
    · cases taken
      exact ⟨serving.aligned, fun _ _ => ReadCall.noConfusion⟩
    · cases taken
  · rename_i event idle
    exact other_event_serving reader next serving event idle taken
  · split at taken
    · rename_i waiting
      cases taken
      exact ⟨serving.aligned, fun _ _ _ => by simpa using (Bool.and_eq_true_iff.mp waiting).1⟩
    · cases taken
      exact copy_out_serving reader serving _
  · rename_i maxLen left segment polling
    obtain ⟨polled, found, same⟩ := Option.map_eq_some_iff.mp taken
    rw [← same]
    refine ⟨netif_poll_aligned reader polled serving segment found, fun _ _ further => ?_⟩
    dsimp only at further ⊢
    split at further
    · cases further
    · rename_i empty
      rw [Bool.or_eq_true, not_or, Bool.not_eq_true] at empty
      exact empty.1
  · split at taken
    · cases taken
      exact copy_out_serving reader serving _
    · cases taken
      exact ⟨serving.aligned, fun _ _ => ReadCall.noConfusion⟩
  · cases taken
end

theorem serving_run (reader : Reader) (run : Run Unused ReaderStep (fun _ _ => True) reader) : Serving reader := by
  refine run_invariant Serving (fun state boot => ?_) (fun state next op kept _ taken =>
    serving_step state next kept op taken) reader run
  rw [boot]
  exact ⟨⟨rfl, Nat.le_refl 0, rfl, iff_of_false Bool.noConfusion (Nat.lt_irrefl 0)⟩, fun _ _ => ReadCall.noConfusion⟩

section
variable (reader : Reader) (serving : Serving reader) (idle : reader.call = .idle) (finished : reader.host.phase = .done)
include serving idle finished

-- Neither a read that finds data nor one of a connection that is not open polls.
theorem read_at_once (maxLen : Nat) (ready : unread reader ≠ [] ∨ reader.host.socket.tcb.state ≠ .established) :
    runAll readerStep reader [.receive maxLen, .test] = some (copyOut reader maxLen) := by
  have waiting : (!reader.host.socket.tcb.hasData && decide (reader.host.socket.tcb.state = .established)) = false := by
    rcases ready with data | shut
    · have flag : reader.host.socket.tcb.hasData = true := by
        rw [serving.aligned.flag]
        rw [unread, ne_eq, List.drop_eq_nil_iff, serving.aligned.handed, List.length_take] at data
        omega
      rw [flag]
      rfl
    · rw [decide_eq_false shut, Bool.and_false]
  simp only [runAll, readerStep, idle, if_pos finished, Option.bind_some, waiting, Bool.false_eq_true, if_false]
  rfl

omit idle finished in
theorem copy_out_handed (maxLen : Nat) : (copyOut reader maxLen).handed = reader.handed ++ (unread reader).take maxLen :=
  congrArg (reader.handed ++ ·) (receive_aligned _ maxLen _ _ serving.aligned).2

omit idle finished in
theorem copy_out_unread (maxLen : Nat) : unread (copyOut reader maxLen) = (unread reader).drop maxLen := by
  have taken : ((unread reader).take maxLen).length = min maxLen (unread reader).length := List.length_take
  rw [unread, copy_out_handed reader serving maxLen, List.length_append, taken]
  show reader.accepted.drop _ = _
  rw [← List.drop_drop]
  show (unread reader).drop _ = _
  rcases Nat.le_total maxLen (unread reader).length with less | more
  · rw [Nat.min_eq_left less]
  · rw [Nat.min_eq_right more, List.drop_length, List.drop_of_length_le more]

theorem reads_when_shut (maxLens : List Nat) (shut : reader.host.socket.tcb.state ≠ .established) :
    ∃ finish, runAll readerStep reader (reads maxLens) = some finish ∧
      finish.handed = reader.handed ++ (unread reader).take maxLens.sum := by
  induction maxLens generalizing reader with
  | nil => exact ⟨reader, rfl, by simp⟩
  | cons maxLen maxLens ih =>
      have state : (copyOut reader maxLen).host.socket.tcb.state ≠ .established := by
        show (tcpReceive reader.host.socket.tcb maxLen).1.state ≠ _
        rw [(tcp_receive_state _ _).1]
        exact shut
      obtain ⟨finish, done, handed⟩ := ih (copyOut reader maxLen) (copy_out_serving reader serving maxLen) rfl finished state
      refine ⟨finish, ?_, ?_⟩
      · show runAll readerStep reader ([.receive maxLen, .test] ++ reads maxLens) = some finish
        rw [run_all_append, read_at_once reader serving idle finished maxLen (Or.inr shut), Option.bind_some]
        exact done
      · rw [handed, copy_out_handed reader serving maxLen, copy_out_unread reader serving maxLen, List.append_assoc,
          List.sum_cons, ← List.take_add]
end

theorem reads_in_order (reader : Reader) (run : Run Unused ReaderStep (fun _ _ => True) reader) :
    reader.handed <+: reader.accepted ∧
    (∀ other, Run Unused ReaderStep (fun _ _ => True) other → other.accepted = reader.accepted →
      other.handed.length = reader.handed.length → other.handed = reader.handed) ∧
    (reader.host.socket.tcb.hasData = true ↔
      reader.host.socket.tcb.rxProcessed < reader.host.socket.tcb.rxBuffer.length) ∧
    (∀ maxLen left, reader.call = .poll maxLen left → unread reader = []) ∧
    (reader.call = .idle → reader.host.phase = .done → unread reader ≠ [] → ∀ maxLen, ∃ finish,
      runAll readerStep reader [.receive maxLen, .test] = some finish ∧
        finish.handed = reader.handed ++ (unread reader).take maxLen) ∧
    (reader.call = .idle → reader.host.phase = .done → reader.host.socket.tcb.state ≠ .established → ∀ maxLens, ∃ finish,
      runAll readerStep reader (reads maxLens) = some finish ∧
        finish.handed = reader.handed ++ (unread reader).take maxLens.sum) := by
  have serving := serving_run reader run
  have first : reader.handed <+: reader.accepted := by
    rw [serving.aligned.handed]
    exact List.take_prefix _ _
  refine ⟨first, fun other elsewhere same length => ?_, ?_, fun maxLen left polling => ?_, fun idle finished data maxLen => ?_,
    fun idle finished shut maxLens => reads_when_shut reader serving idle finished maxLens shut⟩
  · have second : other.handed <+: reader.accepted := by
      rw [← same, (serving_run other elsewhere).aligned.handed]
      exact List.take_prefix _ _
    exact (List.prefix_of_prefix_length_le second first (Nat.le_of_eq length)).eq_of_length length
  · rw [serving.aligned.flag, serving.aligned.buffer]
  · have flag := serving.quiet maxLen left polling
    rw [unread, List.drop_eq_nil_iff, serving.aligned.handed, List.length_take]
    have empty : ¬ _ := fun some => Bool.false_ne_true (flag.symm.trans (serving.aligned.flag.mpr some))
    omega
  · exact ⟨_, read_at_once reader serving idle finished maxLen (Or.inl data), copy_out_handed reader serving maxLen⟩

def wokenRead : List ReaderOp :=
  opening.map .other ++
    [.receive 1, .test, .poll none,
      .poll (some (0x0A000202, bareSegment 80 10007 501 8 (flagFin ||| flagAck) ++ [104, 105])), .clock false, .test]

theorem reads_in_order_woken : ∃ reader, Run Unused ReaderStep (fun _ _ => True) reader ∧ reader.handed = [104] ∧
    ∃ finish, runAll readerStep reader (reads [0, 5]) = some finish ∧ finish.handed = [104, 105] := by
  have evaluated : (runAll readerStep ⟨firstHost, .idle, [], []⟩ wokenRead).any (fun reader => reader.handed = [104] ∧
      unread reader = [105] ∧ reader.call = .idle ∧ reader.host.phase = .done ∧
        reader.host.socket.tcb.state ≠ .established) = true := by decide +kernel
  obtain ⟨reader, reached, handed⟩ := (Option.any_eq_true _ _).mp evaluated
  obtain ⟨handed, rest, idle, finished, shut⟩ := of_decide_eq_true handed
  have start : Run Unused ReaderStep (fun _ _ => True) ⟨firstHost, .idle, [], []⟩ := .start _ rfl
  have run := run_all_run readerStep (fun _ _ _ taken => ⟨trivial, taken⟩) _ reader _ start reached
  obtain ⟨finish, done, all⟩ := (reads_in_order reader run).2.2.2.2.2 idle finished shut [0, 5]
  exact ⟨reader, run, handed, finish, done, by rw [all, handed, rest]; rfl⟩

end RoDos.Tcp
