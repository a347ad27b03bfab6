import RoDos.Net.Stack
import RoDos.Wget.Saving

set_option autoImplicit false

namespace RoDos.Wget

open Base Tcp Fs

-- The download loop of cmd_wget with the variables of the whole stack; downBuf is down_buf up to total_recvd.
structure Fetch where
  stack : Net.Stack
  call : ReadCall
  downBuf : List UInt8
  going : Bool

inductive FetchOp where
  | loop
  | test
  | poll (polled : Net.Polled)
  | clock (late : Bool)

-- The copy of tcp_receive and its return into the loop.
def receiveData (fetch : Fetch) (maxLen : Nat) : Fetch :=
  let result := tcpReceive fetch.stack.host.socket.tcb maxLen
  { stack := { fetch.stack with
      host := { fetch.stack.host with
        socket := { fetch.stack.host.socket with tcb := result.1 }, returned := fetch.stack.host.returned ++ result.2 } }
    call := .idle
    downBuf := fetch.downBuf ++ result.2
    going := result.2 ≠ [] }

def fetchStep (fetch : Fetch) (op : FetchOp) : Option Fetch :=
  match fetch.call, op with
  | .idle, .loop =>
      if fetch.going = true then
        some (if fetch.downBuf.length < downloadBufSize then
          { fetch with call := .test (downloadBufSize - fetch.downBuf.length) } else { fetch with going := false })
      else none
  | .test maxLen, .test =>
      some (if !fetch.stack.host.socket.tcb.hasData && fetch.stack.host.socket.tcb.state = .established then
        { fetch with call := .poll maxLen 10 } else receiveData fetch maxLen)
  | .poll maxLen left, .poll polled =>
      (Net.pollStep fetch.stack polled).map fun next =>
        { fetch with
          stack := next
          call := if next.host.socket.tcb.hasData || left ≤ 1 then .clock maxLen else .poll maxLen (left - 1) }
  | .clock maxLen, .clock late => some (if late then receiveData fetch maxLen else { fetch with call := .test maxLen })
  | _, _ => none

def FetchOp.own : FetchOp → DownloadOp
  | .loop => .loop
  | .test => .within .test
  | .poll polled => .within (.poll (Net.tcpSegment polled))
  | .clock late => .within (.clock late)

structure Mirrors (fetch : Fetch) (download : Download) : Prop where
  host : download.reader.host = fetch.stack.host
  call : download.reader.call = fetch.call
  buffer : download.buffer = fetch.downBuf
  going : download.going = fetch.going

theorem receive_data_mirrors (fetch : Fetch) (download : Download) (mirrors : Mirrors fetch download) (maxLen : Nat) :
    Mirrors (receiveData fetch maxLen) (comeBack download (copyOut download.reader maxLen)) := by
  have back : (copyOut download.reader maxLen).call = .idle := rfl
  have read : (copyOut download.reader maxLen).handed.drop download.reader.handed.length =
      (tcpReceive download.reader.host.socket.tcb maxLen).2 := List.drop_left
  rw [comeBack, if_pos back, read]
  refine ⟨?_, rfl, ?_, ?_⟩
  · show (copyOut download.reader maxLen).host = _
    rw [copyOut, mirrors.host]
    rfl
  · show download.buffer ++ _ = fetch.downBuf ++ _
    rw [mirrors.buffer, mirrors.host]
  · show decide (_ ≠ []) = decide (_ ≠ [])
    rw [mirrors.host]

theorem stay_mirrors (fetch : Fetch) (download : Download) (mirrors : Mirrors fetch download) (next : Reader) (stack : Net.Stack)
    (host : next.host = stack.host) (busy : next.call ≠ .idle) :
    Mirrors { fetch with stack := stack, call := next.call } (comeBack download next) := by
  rw [comeBack, if_neg busy]
  exact ⟨host, rfl, mirrors.buffer, mirrors.going⟩

section
variable (fetch next : Fetch) (download : Download) (mirrors : Mirrors fetch download) (maxLen : Nat)
include mirrors

theorem within_call (op : ReaderOp) (busy : fetch.call ≠ .idle) :
    downloadStep download (.within op) = (readerStep download.reader op).map (comeBack download) := by
  rw [downloadStep, if_neg (mirrors.call ▸ busy)]

theorem loop_mirrors (reader : Reader) (holds : Downloading reader download) (idle : fetch.call = .idle)
    (taken : fetchStep fetch .loop = some next) : ∃ other, downloadStep download .loop = some other ∧ Mirrors next other := by
  simp only [fetchStep, idle] at taken
  obtain ⟨going, taken⟩ := Option.ite_none_right_eq_some.mp taken
  have back := mirrors.call.trans idle
  rw [downloadStep, if_pos ⟨mirrors.going.trans going, back⟩, mirrors.buffer, receive_begins _ back holds.finished]
  split at taken
  · rename_i room
    cases taken
    rw [if_pos room]
    exact ⟨_, rfl, mirrors.host, rfl, rfl, mirrors.going⟩
  · rename_i full
    cases taken
    rw [if_neg full]
    exact ⟨_, rfl, mirrors.host, back, rfl, rfl⟩

theorem test_mirrors (here : fetch.call = .test maxLen) (taken : fetchStep fetch .test = some next) :
    ∃ other, downloadStep download (.within .test) = some other ∧ Mirrors next other := by
  simp only [fetchStep, here] at taken
  rw [within_call fetch download mirrors _ (here ▸ ReadCall.noConfusion)]
  simp only [readerStep, mirrors.call, here]
  rw [← mirrors.host] at taken
  split at taken
  · rename_i waiting
    cases taken
    rw [if_pos waiting]
    exact ⟨_, rfl, stay_mirrors fetch download mirrors { download.reader with call := .poll maxLen 10 } fetch.stack mirrors.host
      ReadCall.noConfusion⟩
  · rename_i ready
    cases taken
    rw [if_neg ready]
    exact ⟨_, rfl, receive_data_mirrors fetch download mirrors maxLen⟩

theorem netif_poll_mirrors (polled : Net.Polled) (stack : Net.Stack) (moved : Net.pollStep fetch.stack polled = some stack) :
    ∃ read, netifPoll download.reader (Net.tcpSegment polled) = some read ∧ read.host = stack.host := by
  have segment := Net.poll_tcp fetch.stack stack polled moved
  cases own : Net.tcpSegment polled with
  | none =>
      rw [own] at segment
      exact ⟨download.reader, rfl, mirrors.host.trans (Option.some.inj segment)⟩
  | some piece =>
      rw [own, Option.elim_some, ← mirrors.host] at segment
      exact ⟨_, congrArg (Option.map _) segment, rfl⟩

theorem poll_mirrors (left : Nat) (polled : Net.Polled) (here : fetch.call = .poll maxLen left)
    (taken : fetchStep fetch (.poll polled) = some next) :
    ∃ other, downloadStep download (.within (.poll (Net.tcpSegment polled))) = some other ∧ Mirrors next other := by
  simp only [fetchStep, here] at taken
  obtain ⟨stack, moved, same⟩ := Option.map_eq_some_iff.mp taken
  obtain ⟨read, arrived, host⟩ := netif_poll_mirrors fetch download mirrors polled stack moved
  rw [within_call fetch download mirrors _ (here ▸ ReadCall.noConfusion)]
  simp only [readerStep, mirrors.call, here, arrived, Option.map_some]
  rw [← host] at same
  rw [← same]
  refine ⟨_, rfl, stay_mirrors fetch download mirrors { read with call := _ } stack host ?_⟩
  show (if (read.host.socket.tcb.hasData || decide (left ≤ 1)) = true then ReadCall.clock maxLen
    else .poll maxLen (left - 1)) ≠ .idle
  split <;> exact ReadCall.noConfusion

theorem clock_mirrors (late : Bool) (here : fetch.call = .clock maxLen) (taken : fetchStep fetch (.clock late) = some next) :
    ∃ other, downloadStep download (.within (.clock late)) = some other ∧ Mirrors next other := by
  simp only [fetchStep, here] at taken
  rw [within_call fetch download mirrors _ (here ▸ ReadCall.noConfusion)]
  simp only [readerStep, mirrors.call, here]
  cases late with
  | true =>
      cases taken
      exact ⟨_, rfl, receive_data_mirrors fetch download mirrors maxLen⟩
  | false =>
      cases taken
      exact ⟨_, rfl, stay_mirrors fetch download mirrors { download.reader with call := .test maxLen } fetch.stack mirrors.host
        ReadCall.noConfusion⟩

-- A step of the whole stack is a step of the connection, whatever else the frames were.
theorem fetch_mirrors (reader : Reader) (holds : Downloading reader download) (op : FetchOp)
    (taken : fetchStep fetch op = some next) : ∃ other, downloadStep download op.own = some other ∧ Mirrors next other := by
  have step := taken
  unfold fetchStep at step
  split at step
  · rename_i idle
    exact loop_mirrors fetch next download mirrors reader holds idle taken
  · rename_i maxLen here
    exact test_mirrors fetch next download mirrors maxLen here taken
  · rename_i maxLen left polled here
    exact poll_mirrors fetch next download mirrors maxLen left polled here taken
  · rename_i maxLen late here
    exact clock_mirrors fetch next download mirrors maxLen late here taken
  · cases step

end

def DownloadOp.segment : DownloadOp → Option (UInt32 × List UInt8)
  | .within (.poll segment) => segment
  | _ => none

inductive Took (download next : Download) (op : DownloadOp) : Prop where
  | nothing (silent : op.segment = none) (accepted : next.reader.accepted = download.reader.accepted)
      (state : next.reader.host.socket.tcb.state = download.reader.host.socket.tcb.state)
  | piece (segment : UInt32 × List UInt8) (own : op.segment = some segment)
      (arrived : arrive download.reader.host segment.1 segment.2 = some next.reader.host)
      (accepted : next.reader.accepted =
        download.reader.accepted ++ acceptedData download.reader.host.socket.tcb segment.2)

theorem come_back_reader (download : Download) (next : Reader) : (comeBack download next).reader = next := by
  rw [comeBack]
  split <;> rfl

theorem copy_out_state (reader : Reader) (maxLen : Nat) :
    (copyOut reader maxLen).host.socket.tcb.state = reader.host.socket.tcb.state := (tcp_receive_state _ _).1

theorem step_took (download next : Download) (op : DownloadOp) (taken : downloadStep download op = some next) :
    Took download next op := by
  cases op with
  | loop =>
      rw [downloadStep] at taken
      obtain ⟨⟨_, idle⟩, taken⟩ := Option.ite_none_right_eq_some.mp taken
      split at taken
      · obtain ⟨called, begun, same⟩ := Option.map_eq_some_iff.mp taken
        simp only [readerStep, idle] at begun
        obtain ⟨_, begun⟩ := Option.ite_none_right_eq_some.mp begun
        rw [← same, ← Option.some.inj begun]
        exact .nothing rfl rfl rfl
      · cases taken
        exact .nothing rfl rfl rfl
  | within op =>
      rw [downloadStep] at taken
      obtain ⟨busy, ran⟩ := Option.ite_none_left_eq_some.mp taken
      obtain ⟨called, moved, same⟩ := Option.map_eq_some_iff.mp ran
      rw [← same]
      unfold readerStep at moved
      split at moved
      · rename_i idle
        exact absurd idle busy
      · rename_i idle
        exact absurd idle busy
      · rename_i maxLen here
        split at moved
        · cases moved
          exact .nothing rfl (by rw [come_back_reader]) (by rw [come_back_reader])
        · cases moved
          exact .nothing rfl (by rw [come_back_reader]; rfl) (by rw [come_back_reader, copy_out_state])
      · rename_i maxLen left segment here
        obtain ⟨polled, found, same⟩ := Option.map_eq_some_iff.mp moved
        cases segment with
        | none =>
            cases found
            rw [← same]
            exact .nothing rfl (by rw [come_back_reader]) (by rw [come_back_reader])
        | some segment =>
            obtain ⟨host, arrived, filled⟩ := Option.map_eq_some_iff.mp found
            rw [← same, ← filled]
            exact .piece segment rfl (by rw [come_back_reader]; exact arrived) (by rw [come_back_reader])
      · rename_i maxLen late here
        cases moved
        cases late with
        | true => exact .nothing rfl (by rw [come_back_reader]; rfl) (by rw [come_back_reader]; exact copy_out_state _ _)
        | false => exact .nothing rfl (by rw [come_back_reader]; rfl) (by rw [come_back_reader]; rfl)
      · cases moved

def dataOf (packet : List UInt8) : List UInt8 := packet.drop (headerLength packet)

structure WholeSegment (packet : List UInt8) : Prop where
  long : 20 ≤ packet.length
  header : headerLength packet ≤ packet.length

def LastCloses : List (UInt32 × List UInt8) → Prop
  | [] => True
  | segment :: rest => (hasFlag (segment.2.getD 13 0) flagFin = true → rest = []) ∧ LastCloses rest

theorem accepted_whole (tcb : Tcb) (packet : List UInt8) (whole : WholeSegment packet) (small : packet.length ≤ payloadRoom)
    (working : tcb.state = .established) (room : tcb.rxBuffer.length + (dataOf packet).length < rxBufferSize) :
    acceptedData tcb packet = dataOf packet := by
  have header := whole.header
  have size : segLen packet = (dataOf packet).length := by
    rw [segLen, dataOf, List.length_drop]
    rw [payloadRoom] at small
    omega
  rw [acceptedData, accepts, size]
  by_cases empty : (dataOf packet).length = 0
  · rw [if_neg (fun both => by simp [empty] at both), List.length_eq_zero_iff.mp empty]
  · refine if_pos ⟨working, whole.long, decide_eq_true ⟨Nat.pos_of_ne_zero empty, ?_⟩⟩
    rw [rxBufferSize] at room ⊢
    rw [Nat.mod_eq_of_lt (by omega)]
    exact room

theorem arrive_state (host next : Host) (srcIp : UInt32) (packet : List UInt8) (arrived : arrive host srcIp packet = some next)
    (working : host.socket.tcb.state = .established) (open' : hasFlag (packet.getD 13 0) flagFin ≠ true) :
    next.socket.tcb.state = .established := by
  obtain ⟨answers, handled, _⟩ := arrive_processed host next srcIp packet arrived
  cases handled with
  | ignored unseen same silent => rw [same, working]
  | opened waiting answered sent => rw [answered]
  | kept _ long fin took => rw [take_data_state _ _ _ _ took, working]
  | ended _ long fin taken acks took shut sent => exact absurd fin open'

theorem arrive_room (host next : Host) (srcIp : UInt32) (packet : List UInt8) (arrived : arrive host srcIp packet = some next) :
    packet.length ≤ payloadRoom := by
  rw [arrive] at arrived
  exact Nat.not_lt.mp (Option.ite_none_left_eq_some.mp arrived).1

-- By induction on the steps: while the connection is open it accepts whatever comes.
theorem accepted_run (reader : Reader) (ops : List DownloadOp) (download finish : Download) (holds : Downloading reader download)
    (run : runAll downloadStep download ops = some finish)
    (whole : ∀ segment ∈ ops.filterMap DownloadOp.segment, WholeSegment segment.2)
    (order : LastCloses (ops.filterMap DownloadOp.segment))
    (working : download.reader.host.socket.tcb.state = .established ∨ ops.filterMap DownloadOp.segment = [])
    (room : (download.reader.accepted ++ (ops.filterMap DownloadOp.segment).flatMap fun segment => dataOf segment.2).length <
      rxBufferSize) :
    finish.reader.accepted =
      download.reader.accepted ++ (ops.filterMap DownloadOp.segment).flatMap fun segment => dataOf segment.2 := by
  induction ops generalizing download with
  | nil =>
      cases run
      exact (List.append_nil _).symm
  | cons op ops ih =>
      obtain ⟨reached, taken, further⟩ := Option.bind_eq_some_iff.mp run
      have later := downloading_step reader download holds op reached taken
      cases step_took download reached op taken with
      | nothing silent accepted state =>
          rw [List.filterMap_cons_none silent] at whole order working room ⊢
          rw [← accepted] at room ⊢
          rw [← state] at working
          exact ih reached later further whole order working room
      | piece segment own arrived accepted =>
          rw [List.filterMap_cons_some own] at whole order working room ⊢
          have live := working.resolve_right (List.cons_ne_nil _ _)
          rw [List.flatMap_cons, ← List.append_assoc] at room ⊢
          have data : acceptedData download.reader.host.socket.tcb segment.2 = dataOf segment.2 := by
            refine accepted_whole _ _ (whole segment List.mem_cons_self) (arrive_room _ _ _ _ arrived) live ?_
            rw [holds.serving.aligned.buffer]
            rw [List.length_append, List.length_append] at room
            omega
          rw [data] at accepted
          rw [← accepted] at room ⊢
          refine ih reached later further (fun other member => whole other (List.mem_cons_of_mem _ member)) order.2 ?_ room
          by_cases fin : hasFlag (segment.2.getD 13 0) flagFin = true
          · exact Or.inr (order.1 fin)
          · exact Or.inl (arrive_state _ _ _ _ arrived live fin)

def pollsOf (ops : List FetchOp) : List Net.Polled := ops.filterMap fun
  | .poll polled => some polled
  | _ => none

-- The segments among the frames that the loop has polled, and the data that they carry.
def segmentsOf (ops : List FetchOp) : List (UInt32 × List UInt8) := (pollsOf ops).filterMap Net.tcpSegment

def carried (ops : List FetchOp) : List UInt8 := (segmentsOf ops).flatMap fun segment => dataOf segment.2

theorem own_segments (ops : List FetchOp) : (ops.map FetchOp.own).filterMap DownloadOp.segment = segmentsOf ops := by
  rw [segmentsOf, pollsOf, List.filterMap_map, List.filterMap_filterMap]
  refine List.filterMap_congr fun op _ => ?_
  cases op <;> rfl

theorem fetch_run (reader : Reader) (ops : List FetchOp) (fetch finish : Fetch) (download : Download)
    (mirrors : Mirrors fetch download) (holds : Downloading reader download) (run : runAll fetchStep fetch ops = some finish) :
    ∃ last, runAll downloadStep download (ops.map FetchOp.own) = some last ∧ Mirrors finish last ∧ Downloading reader last := by
  induction ops generalizing fetch download with
  | nil =>
      cases run
      exact ⟨download, rfl, mirrors, holds⟩
  | cons op ops ih =>
      obtain ⟨reached, taken, further⟩ := Option.bind_eq_some_iff.mp run
      obtain ⟨other, stepped, same⟩ := fetch_mirrors fetch reached download mirrors reader holds op taken
      obtain ⟨last, done, rest⟩ := ih reached other same (downloading_step reader download holds op.own other stepped) further
      refine ⟨last, ?_, rest⟩
      rw [List.map_cons, runAll, stepped, Option.bind_some, done]

def pageFrame (seq : UInt32) (flags : UInt8) (data : List UInt8) : List UInt8 :=
  broadcast.bytes ++ routerMac.bytes ++ [8, 0] ++ ipHeader 0x0A000202 0x0A00020F 6 (40 + data.length) ++
    bareSegment 80 10007 seq 8 flags ++ data

def pageOps : List FetchOp :=
  [.loop, .test, .poll .failed, .poll (.frame (pageFrame 501 flagAck (page.take 20))), .clock false, .test, .loop, .test,
    .poll (.frame (List.replicate 60 0)), .poll (.frame (pageFrame 521 (flagFin ||| flagAck) (page.drop 20))), .clock false,
    .test, .loop, .test]

end RoDos.Wget
