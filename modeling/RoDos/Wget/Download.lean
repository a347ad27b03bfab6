import RoDos.Tcp.Reader

set_option autoImplicit false

namespace RoDos.Wget

open Base Tcp

def downloadBufSize : Nat := 1048576

-- buffer is down_buf up to total_recvd, going says that the loop has not been left.
structure Download where
  reader : Reader
  buffer : List UInt8
  going : Bool
deriving DecidableEq, Repr

inductive DownloadOp where
  | loop
  | within (op : ReaderOp)
deriving DecidableEq, Repr

-- A call that is back has returned what was handed out since it began; the loop ends at one that returned nothing.
def comeBack (download : Download) (next : Reader) : Download :=
  let read := next.handed.drop download.reader.handed.length
  if next.call = .idle then ⟨next, download.buffer ++ read, read ≠ []⟩ else { download with reader := next }

def downloadStep (download : Download) : DownloadOp → Option Download
  | .loop =>
      if download.going = true ∧ download.reader.call = .idle then
        if download.buffer.length < downloadBufSize then
          (readerStep download.reader (.receive (downloadBufSize - download.buffer.length))).map fun next =>
            { download with reader := next }
        else some { download with going := false }
      else none
  | .within op =>
      if download.reader.call = .idle then none else (readerStep download.reader op).map (comeBack download)

def DownloadStep (download : Download) (op : DownloadOp) (next : Download) : Prop := downloadStep download op = some next

def Begun (reader : Reader) (download : Download) : Prop := download = ⟨reader, [], true⟩

def readLen : ReadCall → Option Nat
  | .idle => none
  | .test maxLen => some maxLen
  | .poll maxLen _ => some maxLen
  | .clock maxLen => some maxLen

inductive Within (reader next : Reader) (maxLen : Nat) : Prop where
  | stays (call : readLen next.call = some maxLen) (handed : next.handed = reader.handed)
      (finished : reader.host.phase = .done → next.host.phase = .done)
  | copies (same : next = copyOut reader maxLen)

theorem take_segment_stays (reader next : Reader) (segment : UInt32 × List UInt8) (taken : takeSegment reader segment = some next) :
    next.handed = reader.handed ∧ (reader.host.phase = .done → next.host.phase = .done) := by
  obtain ⟨host, arrived, same⟩ := Option.map_eq_some_iff.mp taken
  obtain ⟨_, _, _, _, phase⟩ := arrive_processed reader.host host segment.1 segment.2 arrived
  rw [← same]
  refine ⟨rfl, fun finished => ?_⟩
  show host.phase = .done
  rw [phase, finished, ite_self]

theorem netif_poll_stays (reader next : Reader) (segment : Option (UInt32 × List UInt8)) (polled : netifPoll reader segment = some next) :
    next.handed = reader.handed ∧ (reader.host.phase = .done → next.host.phase = .done) := by
  cases segment with
  | none =>
      cases polled
      exact ⟨rfl, id⟩
  | some segment => exact take_segment_stays reader next segment polled

theorem within_cases (reader next : Reader) (op : ReaderOp) (busy : reader.call ≠ .idle) (taken : readerStep reader op = some next) :
    ∃ maxLen, readLen reader.call = some maxLen ∧ Within reader next maxLen := by
  unfold readerStep at taken
  split at taken
  · rename_i idle
    exact absurd idle busy
  · rename_i idle
    exact absurd idle busy
  · rename_i maxLen here
    refine ⟨maxLen, by rw [here]; rfl, ?_⟩
    split at taken
    · cases taken
      exact .stays rfl rfl id
    · cases taken
      exact .copies rfl
  · rename_i maxLen left segment here
    refine ⟨maxLen, by rw [here]; rfl, ?_⟩
    obtain ⟨polled, found, same⟩ := Option.map_eq_some_iff.mp taken
    obtain ⟨handed, finished⟩ := netif_poll_stays reader polled segment found
    rw [← same]
    refine .stays ?_ handed finished
    dsimp only
    split <;> rfl
  · rename_i maxLen late here
    refine ⟨maxLen, by rw [here]; rfl, ?_⟩
    cases taken
    cases late with
    | true => exact .copies rfl
    | false => exact .stays rfl rfl id
  · cases taken

structure Downloading (reader : Reader) (download : Download) : Prop where
  serving : Serving download.reader
  finished : download.reader.host.phase = .done
  handed : download.reader.handed = reader.handed ++ download.buffer
  inside : download.buffer.length ≤ downloadBufSize
  asked : ∀ maxLen, readLen download.reader.call = some maxLen →
    maxLen = downloadBufSize - download.buffer.length ∧ 0 < maxLen ∧ download.going = true
  left : download.going = false → download.buffer.length = downloadBufSize ∨ unread download.reader = []

theorem receive_begins (reader : Reader) (idle : reader.call = .idle) (finished : reader.host.phase = .done) (maxLen : Nat) :
    readerStep reader (.receive maxLen) = some { reader with call := .test maxLen } := by
  simp only [readerStep, idle, if_pos finished]

section
variable (reader : Reader) (download : Download) (holds : Downloading reader download)
include holds

theorem copied_downloading (maxLen : Nat) (asked : readLen download.reader.call = some maxLen) :
    Downloading reader (comeBack download (copyOut download.reader maxLen)) := by
  obtain ⟨size, positive, going⟩ := holds.asked maxLen asked
  have bytes := copy_out_handed download.reader holds.serving maxLen
  have rest := copy_out_unread download.reader holds.serving maxLen
  have read : (copyOut download.reader maxLen).handed.drop download.reader.handed.length = (unread download.reader).take maxLen := by
    rw [bytes, List.drop_left]
  have back : comeBack download (copyOut download.reader maxLen) =
      ⟨copyOut download.reader maxLen, download.buffer ++ (unread download.reader).take maxLen,
        (unread download.reader).take maxLen ≠ []⟩ := by
    have returned : (copyOut download.reader maxLen).call = .idle := rfl
    rw [comeBack, if_pos returned, read]
  have short := holds.inside
  have taken : ((unread download.reader).take maxLen).length ≤ maxLen := List.length_take_le _ _
  rw [back]
  refine ⟨copy_out_serving download.reader holds.serving maxLen, holds.finished, ?_, ?_, fun _ => nofun, fun ended => Or.inr ?_⟩
  · rw [bytes, holds.handed, List.append_assoc]
  · rw [List.length_append]
    omega
  · have nothing : (unread download.reader).take maxLen = [] := not_not.mp (of_decide_eq_false ended)
    rw [rest]
    rcases List.take_eq_nil_iff.mp nothing with zero | empty
    · omega
    · rw [empty, List.drop_nil]

theorem downloading_step (op : DownloadOp) (next : Download) (taken : downloadStep download op = some next) :
    Downloading reader next := by
  cases op with
  | loop =>
      rw [downloadStep] at taken
      obtain ⟨⟨going, idle⟩, taken⟩ := Option.ite_none_right_eq_some.mp taken
      split at taken
      · rename_i room
        obtain ⟨called, begun, same⟩ := Option.map_eq_some_iff.mp taken
        have serving := serving_step _ _ holds.serving _ begun
        rw [receive_begins _ idle holds.finished] at begun
        cases begun
        rw [← same]
        refine ⟨serving, holds.finished, holds.handed, holds.inside, ?_, holds.left⟩
        rintro maxLen ⟨⟩
        exact ⟨rfl, Nat.sub_pos_of_lt room, going⟩
      · rename_i full
        cases taken
        refine ⟨holds.serving, holds.finished, holds.handed, holds.inside, fun maxLen asked => ?_, fun _ => Or.inl ?_⟩
        · rw [idle] at asked
          cases asked
        · exact Nat.le_antisymm holds.inside (Nat.le_of_not_lt full)
  | within op =>
      rw [downloadStep] at taken
      obtain ⟨busy, taken⟩ := Option.ite_none_left_eq_some.mp taken
      obtain ⟨called, moved, same⟩ := Option.map_eq_some_iff.mp taken
      obtain ⟨maxLen, asked, step⟩ := within_cases _ _ op busy moved
      rw [← same]
      cases step with
      | copies same =>
          rw [same]
          exact copied_downloading reader download holds maxLen asked
      | stays call handed finished =>
          have busy' : called.call ≠ .idle := fun idle => by
            rw [idle] at call
            cases call
          rw [comeBack, if_neg busy']
          obtain ⟨size, positive, going⟩ := holds.asked maxLen asked
          refine ⟨serving_step _ _ holds.serving _ moved, finished holds.finished, handed.trans holds.handed, holds.inside, ?_, ?_⟩
          · intro other there
            rw [call] at there
            cases there
            exact ⟨size, positive, going⟩
          · intro ended
            exact Bool.noConfusion (going.symm.trans ended)

theorem downloading_buffer : download.buffer ++ unread download.reader = download.reader.accepted.drop reader.handed.length := by
  have split : download.reader.handed ++ unread download.reader = download.reader.accepted := by
    rw [unread]
    conv_rhs => rw [← List.take_append_drop download.reader.handed.length download.reader.accepted]
    congr 1
    have aligned := holds.serving.aligned
    rw [aligned.handed, List.length_take, Nat.min_eq_left aligned.processed]
  rw [← split, holds.handed, List.append_assoc, List.drop_left]

theorem ended_buffer (ended : download.going = false) :
    download.buffer = (download.reader.accepted.drop reader.handed.length).take downloadBufSize := by
  rw [← downloading_buffer reader download holds]
  rcases holds.left ended with full | empty
  · rw [← full, List.take_left]
  · rw [empty, List.append_nil, List.take_of_length_le holds.inside]

theorem round_when_shut (going : download.going = true) (idle : download.reader.call = .idle)
    (shut : download.reader.host.socket.tcb.state ≠ .established) (room : download.buffer.length < downloadBufSize) :
    runAll downloadStep download [.loop, .within .test] =
      some ⟨copyOut download.reader (downloadBufSize - download.buffer.length),
        download.buffer ++ (unread download.reader).take (downloadBufSize - download.buffer.length),
        (unread download.reader).take (downloadBufSize - download.buffer.length) ≠ []⟩ := by
  generalize size : downloadBufSize - download.buffer.length = maxLen
  have begun : downloadStep download .loop = some { download with reader := { download.reader with call := .test maxLen } } := by
    rw [downloadStep, if_pos ⟨going, idle⟩, if_pos room, receive_begins _ idle holds.finished, size]
    rfl
  have tested : readerStep { download.reader with call := .test maxLen } .test = some (copyOut download.reader maxLen) := by
    simp only [readerStep, decide_eq_false shut, Bool.and_false, Bool.false_eq_true, if_false]
    rfl
  have read : (copyOut download.reader maxLen).handed.drop download.reader.handed.length = (unread download.reader).take maxLen := by
    rw [copy_out_handed download.reader holds.serving maxLen, List.drop_left]
  have returned : (copyOut download.reader maxLen).call = .idle := rfl
  have busy : ({ download.reader with call := .test maxLen } : Reader).call ≠ .idle := ReadCall.noConfusion
  rw [runAll, begun, Option.bind_some, runAll, downloadStep, if_neg busy, tested, Option.map_some, Option.bind_some, runAll,
    comeBack, if_pos returned, read]
end

-- By the room that is left: every round but the last takes some of it.
theorem ends_when_shut (reader : Reader) (download : Download) (holds : Downloading reader download) (going : download.going = true)
    (idle : download.reader.call = .idle) (shut : download.reader.host.socket.tcb.state ≠ .established) :
    ∃ ops finish, (∀ op ∈ ops, op = .loop ∨ op = .within .test) ∧ runAll downloadStep download ops = some finish ∧
      finish.going = false ∧ finish.reader.accepted = download.reader.accepted := by
  induction left : downloadBufSize - download.buffer.length using Nat.strongRecOn generalizing download with
  | ind left' ih =>
      by_cases room : download.buffer.length < downloadBufSize
      · have round := round_when_shut reader download holds going idle shut room
        have known := run_all_invariant downloadStep (Downloading reader)
          (fun met op reached kept taken => downloading_step reader met kept op reached taken) _ _ _ holds round
        have rounds : ∀ op ∈ ([.loop, .within .test] : List DownloadOp), op = .loop ∨ op = .within .test := by simp
        by_cases nothing : (unread download.reader).take (downloadBufSize - download.buffer.length) = []
        · exact ⟨_, _, rounds, round, decide_eq_false (not_not.mpr nothing), rfl⟩
        · have positive := List.length_pos_iff.mpr nothing
          have later : (copyOut download.reader (downloadBufSize - download.buffer.length)).host.socket.tcb.state ≠ .established := by
            show (tcpReceive download.reader.host.socket.tcb _).1.state ≠ _
            rwa [(tcp_receive_state _ _).1]
          obtain ⟨ops, finish, simple, done, ended, same⟩ := ih _ (by dsimp only; rw [List.length_append]; omega) _ known
            (decide_eq_true nothing) rfl later rfl
          refine ⟨[.loop, .within .test] ++ ops, finish, fun op member => ?_, ?_, ended, same⟩
          · exact (List.mem_append.mp member).elim (rounds op) (simple op)
          · rw [run_all_append, round, Option.bind_some, done]
      · refine ⟨[.loop], { download with going := false }, fun op member => Or.inl (List.mem_singleton.mp member), ?_, rfl, rfl⟩
        rw [runAll, downloadStep, if_pos ⟨going, idle⟩, if_neg room]
        rfl

theorem downloading_run (reader : Reader) (run : Run Unused ReaderStep (fun _ _ => True) reader) (idle : reader.call = .idle)
    (finished : reader.host.phase = .done) (download : Download)
    (running : Run (Begun reader) DownloadStep (fun _ _ => True) download) : Downloading reader download := by
  refine run_invariant (Downloading reader) (fun state begun => ?_) (fun state next op kept _ taken =>
    downloading_step reader state kept op next taken) download running
  rw [begun]
  refine ⟨serving_run reader run, finished, (List.append_nil _).symm, Nat.zero_le _, fun maxLen asked => ?_, nofun⟩
  rw [idle] at asked
  cases asked

theorem download_takes_stream (reader : Reader) (run : Run Unused ReaderStep (fun _ _ => True) reader) (idle : reader.call = .idle)
    (finished : reader.host.phase = .done) (download : Download)
    (running : Run (Begun reader) DownloadStep (fun _ _ => True) download) :
    download.reader.handed = reader.handed ++ download.buffer ∧
    download.buffer <+: (download.reader.accepted.drop reader.handed.length).take downloadBufSize ∧
    (download.going = false → download.buffer = (download.reader.accepted.drop reader.handed.length).take downloadBufSize) ∧
    (download.going = true → download.reader.call = .idle → download.reader.host.socket.tcb.state ≠ .established →
      ∃ ops finish, (∀ op ∈ ops, op = .loop ∨ op = .within .test) ∧ runAll downloadStep download ops = some finish ∧
        finish.going = false ∧ finish.buffer = (download.reader.accepted.drop reader.handed.length).take downloadBufSize) := by
  have holds := downloading_run reader run idle finished download running
  refine ⟨holds.handed, ?_, ended_buffer reader download holds, fun going back shut => ?_⟩
  · rw [← downloading_buffer reader download holds, List.take_append, List.take_of_length_le holds.inside]
    exact List.prefix_append _ _
  · obtain ⟨ops, finish, simple, done, ended, same⟩ := ends_when_shut reader download holds going back shut
    have known := run_all_invariant downloadStep (Downloading reader)
      (fun met op reached kept taken => downloading_step reader met kept op reached taken) _ _ _ holds done
    refine ⟨ops, finish, simple, done, ended, ?_⟩
    rw [ended_buffer reader finish known ended, same]

def page : List UInt8 := ascii "HTTP/1.0 200 OK\r\n\r\nhi"

def pageRun : List DownloadOp :=
  [.loop, .within .test, .within (.poll (some (0x0A000202, bareSegment 80 10007 501 8 (flagFin ||| flagAck) ++ page))),
    .within (.clock false), .within .test, .loop, .within .test]

def openReader : Option Reader := runAll readerStep ⟨firstHost, .idle, [], []⟩ (opening.map .other)

theorem page_run_ends : ∃ reader download, openReader = some reader ∧ Run Unused ReaderStep (fun _ _ => True) reader ∧
    reader.call = .idle ∧ reader.host.phase = .done ∧ reader.handed = [] ∧
    Run (Begun reader) DownloadStep (fun _ _ => True) download ∧ download.going = false ∧ download.reader.accepted = page := by
  have evaluated : openReader.any (fun reader => reader.call = .idle ∧ reader.host.phase = .done ∧ reader.handed = [] ∧
      (runAll downloadStep ⟨reader, [], true⟩ pageRun).any fun download => download.going = false ∧
        download.reader.accepted = page) = true := by decide +kernel
  obtain ⟨reader, reached, facts⟩ := (Option.any_eq_true _ _).mp evaluated
  obtain ⟨idle, finished, fresh, loaded⟩ := of_decide_eq_true facts
  obtain ⟨download, done, ended⟩ := (Option.any_eq_true _ _).mp loaded
  have start : Run Unused ReaderStep (fun _ _ => True) ⟨firstHost, .idle, [], []⟩ := .start _ rfl
  have run := run_all_run readerStep (fun _ _ _ taken => ⟨trivial, taken⟩) _ reader _ start reached
  have begun : Run (Begun reader) DownloadStep (fun _ _ => True) ⟨reader, [], true⟩ := .start _ rfl
  have running := run_all_run downloadStep (fun _ _ _ taken => ⟨trivial, taken⟩) _ download _ begun done
  exact ⟨reader, download, reached, run, idle, finished, fresh, running, of_decide_eq_true ended⟩

theorem download_takes_stream_page : ∃ reader download, openReader = some reader ∧
    Run (Begun reader) DownloadStep (fun _ _ => True) download ∧ download.going = false ∧ download.buffer = page := by
  obtain ⟨reader, download, reached, run, idle, finished, fresh, running, ended, accepted⟩ := page_run_ends
  have buffer := (download_takes_stream reader run idle finished download running).2.2.1 ended
  refine ⟨reader, download, reached, running, ended, ?_⟩
  rw [buffer, accepted, fresh]
  rfl

end RoDos.Wget
