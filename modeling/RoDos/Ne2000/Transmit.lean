import RoDos.Ne2000.Receive

set_option autoImplicit false

namespace RoDos.Ne2000

open Base

def txStart : Nat := 0x40

def txBase : Nat := 2 ^ 8 * txStart

-- A word of a remote write, low byte first.
def Nic.outw (nic : Nic) (low high : UInt8) : Nic :=
  { nic with
    memory := fun other => if other = nic.remote then low else if other = nic.remote + 1 then high else nic.memory other
    remote := ringWrap (2 ^ 8 * rxStart) (2 ^ 8 * rxPages) (nic.remote + 2) }

-- What the card shows in ISR besides PRX.
structure Isr where
  rdc : Bool
  ptx : Bool
  txe : Bool
deriving DecidableEq, Repr

-- How far a call of ne2000_send has come. source is the memory from data on; len is the padded length.
inductive SendCall where
  | idle
  | copying (source : Memory) (len i : Nat)
  | settling (source : Memory) (len timeout : Nat)
  | ready (source : Memory) (len : Nat)
  | waiting (source : Memory) (len timeout : Nat)

-- frame is what the caller handed over, none where the call refused it.
structure Sent where
  frame : Option (List UInt8)
  code : Int
deriving DecidableEq, Repr

structure Traffic where
  station : Station
  sending : SendCall
  results : List Sent
  wire : List (List UInt8)

def frameOf (source : Memory) (len : Nat) : List UInt8 := (List.range len).map source

def SendCall.frame : SendCall → Option (List UInt8)
  | .idle => none
  | .copying source len _ => some (frameOf source len)
  | .settling source len _ => some (frameOf source len)
  | .ready source len => some (frameOf source len)
  | .waiting source len _ => some (frameOf source len)

def Traffic.withNic (traffic : Traffic) (nic : Nic) (sending : SendCall) : Traffic :=
  { traffic with station := { traffic.station with nic := nic }, sending := sending }

def Traffic.finish (traffic : Traffic) (frame : Option (List UInt8)) (code : Int) : Traffic :=
  { traffic with sending := .idle, results := traffic.results ++ [⟨frame, code⟩] }

-- Up to the start of the remote write.
def beginSend (source : Memory) (len : Nat) (traffic : Traffic) : Traffic :=
  if len < 14 ∨ 1514 < len then traffic.finish none (-1)
  else
    let len := if len < 60 then 60 else len
    traffic.withNic { traffic.station.nic with remote := txBase } (.copying source len 0)

-- The next access of a call to the card. A wait for the remote write that runs out is passed over.
def ne2000Send (isr : Isr) (traffic : Traffic) : Traffic :=
  match traffic.sending with
  | .idle => traffic
  | .copying source len i =>
      if i < len then
        traffic.withNic (traffic.station.nic.outw (source i) (if i + 1 < len then source (i + 1) else 0)) (.copying source len (i + 2))
      else { traffic with sending := .settling source len 100000 }
  | .settling source len timeout =>
      { traffic with sending := if timeout = 0 ∨ isr.rdc = true then .ready source len else .settling source len (timeout - 1) }
  | .ready source len =>
      { traffic with
        sending := .waiting source len 100000
        wire := traffic.wire ++ [(List.range len).map fun i => traffic.station.nic.memory (txBase + i)] }
  | .waiting source len timeout =>
      if timeout = 0 then traffic.finish (frameOf source len) (-1)
      else if isr.ptx then traffic.finish (frameOf source len) 0
      else if isr.txe then traffic.finish (frameOf source len) (-1)
      else { traffic with sending := .waiting source len (timeout - 1) }

inductive TrafficEvent where
  | arrive (packet : Packet)
  | recv (maxLen : Nat)
  | send (source : Memory) (len : Nat)
  | sending (isr : Isr)

def trafficStep (traffic : Traffic) : TrafficEvent → Option Traffic
  | .arrive packet => (step traffic.station (.arrive packet)).map fun station => { traffic with station := station }
  | .recv maxLen =>
      if traffic.sending.frame = none then
        (step traffic.station (.recv maxLen)).map fun station => { traffic with station := station }
      else none
  | .send source len =>
      if traffic.sending.frame = none ∧ traffic.station.call.maxLen = none then some (beginSend source len traffic) else none
  | .sending isr => if traffic.sending.frame = none then none else some (ne2000Send isr traffic)

def initTraffic (memory : Memory) : Traffic := ⟨ne2000Init memory, .idle, [], []⟩

def SendCall.sent : SendCall → List (List UInt8)
  | .waiting source len _ => [frameOf source len]
  | _ => []

structure Carried (traffic : Traffic) : Prop where
  wire : traffic.wire = traffic.results.filterMap Sent.frame ++ traffic.sending.sent
  codes : ∀ result ∈ traffic.results, result.code = 0 → result.frame ≠ none

def TrafficMeets (traffic : Traffic) : TrafficEvent → Prop
  | .arrive packet => Meets traffic.station (.arrive packet)
  | .recv maxLen => traffic.sending.frame = none → Meets traffic.station (.recv maxLen)
  | _ => True

def Written (memory source : Memory) (len n : Nat) : Prop := ∀ j < n, j < len → memory (txBase + j) = source j

def SendSound (nic : Nic) : SendCall → Prop
  | .idle => True
  | .copying source len i => len ≤ 1514 ∧ i ≤ len + 1 ∧ nic.remote = txBase + i ∧ Written nic.memory source len i
  | .settling source len _ => len ≤ 1514 ∧ Written nic.memory source len len
  | .ready source len => len ≤ 1514 ∧ Written nic.memory source len len
  | .waiting _ _ _ => True

structure TrafficSound (traffic : Traffic) : Prop where
  carried : Carried traffic
  send : SendSound traffic.station.nic traffic.sending
  alone : traffic.sending.frame ≠ none → traffic.station.call = .idle

structure Aside (nic other : Nic) : Prop where
  curr : other.curr = nic.curr
  boundary : other.boundary = nic.boundary
  prx : other.prx = nic.prx
  memory : ∀ a, 2 ^ 8 * rxStart ≤ a → other.memory a = nic.memory a

theorem aside_refl (nic : Nic) : Aside nic nic := ⟨rfl, rfl, rfl, fun _ _ => rfl⟩

theorem place_inside (k : Nat) : 2 ^ 8 * rxStart ≤ place k := Nat.le_add_right _ _

theorem kept_aside (station : Station) (nic : Nic) (head : Nat) (gone packets : List Packet) (excess : Nat)
    (idle : station.call = .idle) (aside : Aside station.nic nic) (kept : Kept station head gone packets excess) :
    Kept { station with nic := nic } head gone packets excess := by
  have ring := kept.ring
  have stored := stored_congr station.nic.memory nic.memory packets head (fun k _ _ => aside.memory _ (place_inside k)) ring.stored
  refine ⟨⟨aside.boundary.trans ring.boundary, aside.curr.trans ring.curr, ring.room, stored⟩, kept.stored, ?_, ?_, kept.fewer⟩
  · rw [aside.prx]
    exact kept.account
  · show CallSound nic head packets station.call
    rw [idle]
    trivial

theorem whole_aside (station : Station) (nic : Nic) (idle : station.call = .idle) (aside : Aside station.nic nic)
    (whole : Whole station) : Whole { station with nic := nic } := by
  obtain ⟨head, gone, packets, kept, sound⟩ := whole
  exact ⟨head, gone, packets, kept_aside station nic head gone packets 0 idle aside kept, sound.returned, sound.empty, sound.room⟩

section
variable (nic : Nic) (low high : UInt8) (source : Memory) (len i : Nat) (here : nic.remote = txBase + i) (inside : i < len)
  (short : len ≤ 1514)
include here inside short

-- The largest frame ends below the ring.
theorem outw_aside : Aside nic (nic.outw low high) := by
  refine ⟨rfl, rfl, rfl, fun a above => ?_⟩
  have first : ¬ a = nic.remote := by unfold txBase txStart rxStart at *; omega
  have second : ¬ a = nic.remote + 1 := by unfold txBase txStart rxStart at *; omega
  rw [Nic.outw]
  dsimp only
  rw [if_neg first, if_neg second]

theorem outw_remote : (nic.outw low high).remote = txBase + (i + 2) := by
  have before : ¬ nic.remote + 2 = 2 ^ 8 * rxStart + 2 ^ 8 * rxPages := by
    rw [rx_pages]
    unfold txBase txStart rxStart at *
    omega
  rw [Nic.outw]
  dsimp only
  rw [ringWrap, if_neg before, here, Nat.add_assoc]

omit inside short in
theorem outw_written (written : Written nic.memory source len i) :
    Written (nic.outw (source i) (if i + 1 < len then source (i + 1) else 0)).memory source len (i + 2) := by
  intro j near within
  rw [Nic.outw, here]
  dsimp only
  rcases Nat.lt_or_ge j i with before | behind
  · rw [if_neg (by omega), if_neg (by omega)]
    exact written j before within
  · by_cases first : j = i
    · rw [if_pos (by omega), first]
    · have second : j = i + 1 := by omega
      rw [if_neg (by omega), if_pos (by omega), second, if_pos (by omega)]
end

theorem arrive_written (nic : Nic) (packet : Packet) (curr : rxStart ≤ nic.curr) (source : Memory) (len n : Nat) (short : len ≤ 1514)
    (written : Written nic.memory source len n) : Written (nic.arrive packet).memory source len n := by
  intro j near within
  rw [← written j near within, Nic.arrive]
  split
  · exact write_ring_below _ _ _ _ _ _ (Nat.mul_le_mul_left _ curr) (by unfold txBase txStart rxStart; omega)
  · rfl

theorem arrive_remote (nic : Nic) (packet : Packet) : (nic.arrive packet).remote = nic.remote := by
  rw [Nic.arrive]
  split <;> rfl

theorem arrive_send_sound (nic : Nic) (packet : Packet) (curr : rxStart ≤ nic.curr) (sending : SendCall) (sound : SendSound nic sending) :
    SendSound (nic.arrive packet) sending := by
  cases sending with
  | idle => trivial
  | copying source len i =>
      obtain ⟨short, near, here, written⟩ := sound
      exact ⟨short, near, (arrive_remote nic packet).trans here, arrive_written nic packet curr source len i short written⟩
  | settling source len timeout => exact ⟨sound.1, arrive_written nic packet curr source len len sound.1 sound.2⟩
  | ready source len => exact ⟨sound.1, arrive_written nic packet curr source len len sound.1 sound.2⟩
  | waiting source len timeout => trivial

theorem written_frame (memory source : Memory) (len : Nat) (written : Written memory source len len) :
    ((List.range len).map fun i => memory (txBase + i)) = frameOf source len :=
  List.map_congr_left fun i inside => written i (List.mem_range.mp inside) (List.mem_range.mp inside)

theorem finish_carried (traffic : Traffic) (carried : Carried traffic) (source : Memory) (len timeout : Nat)
    (now : traffic.sending = .waiting source len timeout) (code : Int) : Carried (traffic.finish (frameOf source len) code) := by
  refine ⟨?_, fun result member zero => ?_⟩
  · have wire := carried.wire
    rw [now] at wire
    show traffic.wire = (traffic.results ++ [_]).filterMap Sent.frame ++ []
    rw [wire, List.filterMap_append, List.append_nil]
    rfl
  · rcases List.mem_append.mp member with old | new
    · exact carried.codes result old zero
    · rw [List.mem_singleton.mp new]
      exact Option.some_ne_none _

structure Sends (traffic next : Traffic) : Prop where
  station : ∃ nic, next.station = { traffic.station with nic := nic } ∧ Aside traffic.station.nic nic
  sound : TrafficSound next

theorem begin_sends (traffic : Traffic) (sound : TrafficSound traffic) (source : Memory) (len : Nat)
    (free : traffic.sending.frame = none) (idle : traffic.station.call = .idle) : Sends traffic (beginSend source len traffic) := by
  have carried := sound.carried
  have quiet : traffic.sending = .idle := by
    cases sending : traffic.sending with
    | idle => rfl
    | copying source len i => rw [sending] at free; cases free
    | settling source len timeout => rw [sending] at free; cases free
    | ready source len => rw [sending] at free; cases free
    | waiting source len timeout => rw [sending] at free; cases free
  rw [beginSend]
  split
  · refine ⟨⟨_, rfl, aside_refl _⟩, ⟨?_, fun result member zero => ?_⟩, trivial, fun busy => absurd rfl busy⟩
    · have wire := carried.wire
      rw [quiet] at wire
      show traffic.wire = (traffic.results ++ [_]).filterMap Sent.frame ++ []
      rw [wire, List.filterMap_append]
      exact (List.append_nil _).symm
    · rcases List.mem_append.mp member with old | new
      · exact carried.codes result old zero
      · rw [List.mem_singleton.mp new] at zero
        cases zero
  · rename_i sized
    refine ⟨⟨_, rfl, ⟨rfl, rfl, rfl, fun _ _ => rfl⟩⟩, ⟨?_, carried.codes⟩, ⟨?_, Nat.zero_le _, rfl, nofun⟩, fun _ => idle⟩
    · have wire := carried.wire
      rw [quiet] at wire
      exact wire
    · split <;> omega

theorem ne2000_send_sends (traffic : Traffic) (sound : TrafficSound traffic) (isr : Isr) (busy : traffic.sending.frame ≠ none) :
    Sends traffic (ne2000Send isr traffic) := by
  have idle := sound.alone busy
  have carried := sound.carried
  have wire := carried.wire
  have send := sound.send
  rw [ne2000Send]
  cases sending : traffic.sending with
  | idle => rw [sending] at busy; exact absurd rfl busy
  | copying source len i =>
      rw [sending] at send wire
      obtain ⟨short, near, here, written⟩ := send
      dsimp only
      by_cases more : i < len
      · rw [if_pos more]
        exact ⟨⟨_, rfl, outw_aside _ _ _ len i here more short⟩, ⟨wire, carried.codes⟩,
          ⟨short, by omega, outw_remote _ _ _ len i here more short, outw_written _ source len i here written⟩, fun _ => idle⟩
      · rw [if_neg more]
        exact ⟨⟨_, rfl, aside_refl _⟩, ⟨wire, carried.codes⟩, ⟨short, fun j near within => written j (by omega) within⟩, fun _ => idle⟩
  | settling source len timeout =>
      rw [sending] at send wire
      dsimp only
      refine ⟨⟨_, rfl, aside_refl _⟩, ⟨?_, carried.codes⟩, ?_, fun _ => idle⟩
      · rw [wire]
        dsimp only
        split <;> rfl
      · dsimp only
        split <;> exact send
  | ready source len =>
      rw [sending] at send wire
      refine ⟨⟨_, rfl, aside_refl _⟩, ⟨?_, carried.codes⟩, trivial, fun _ => idle⟩
      dsimp only
      rw [written_frame _ source len send.2, wire]
      exact congrArg (· ++ _) (List.append_nil _)
  | waiting source len timeout =>
      have finished := finish_carried traffic carried source len timeout sending
      have over' (code : Int) : Sends traffic (traffic.finish (frameOf source len) code) :=
        ⟨⟨_, rfl, aside_refl _⟩, finished code, trivial, fun busy => absurd rfl busy⟩
      dsimp only
      split
      · exact over' _
      · split
        · exact over' _
        · split
          · exact over' _
          · rw [sending] at wire
            exact ⟨⟨_, rfl, aside_refl _⟩, ⟨wire, carried.codes⟩, trivial, fun _ => idle⟩

theorem recv_idle_sound (traffic : Traffic) (sound : TrafficSound traffic) (free : traffic.sending.frame = none) (station : Station) :
    TrafficSound { traffic with station := station } := by
  refine ⟨⟨sound.carried.wire, sound.carried.codes⟩, ?_, fun busy => absurd free busy⟩
  show SendSound station.nic traffic.sending
  cases sending : traffic.sending with
  | idle => trivial
  | copying source len i => rw [sending] at free; cases free
  | settling source len timeout => rw [sending] at free; cases free
  | ready source len => rw [sending] at free; cases free
  | waiting source len timeout => trivial

theorem arrive_sound (traffic : Traffic) (sound : TrafficSound traffic) (curr : rxStart ≤ traffic.station.nic.curr)
    (packet : Packet) (station : Station) (arrived : step traffic.station (.arrive packet) = some station) :
    TrafficSound { traffic with station := station } := by
  cases arrived
  exact ⟨⟨sound.carried.wire, sound.carried.codes⟩, arrive_send_sound _ packet curr _ sound.send, sound.alone⟩

inductive Moved (traffic next : Traffic) : TrafficEvent → Prop where
  | arrived (packet : Packet) (taken : step traffic.station (.arrive packet) = some next.station) :
      Moved traffic next (.arrive packet)
  | called (maxLen : Nat) (free : traffic.sending.frame = none) (taken : step traffic.station (.recv maxLen) = some next.station) :
      Moved traffic next (.recv maxLen)
  | sent (event : TrafficEvent) (always : TrafficMeets traffic event) (idle : traffic.station.call = .idle) (nic : Nic)
      (same : next.station = { traffic.station with nic := nic }) (aside : Aside traffic.station.nic nic) : Moved traffic next event

theorem traffic_moved (traffic next : Traffic) (sound : TrafficSound traffic) (curr : rxStart ≤ traffic.station.nic.curr)
    (event : TrafficEvent) (taken : trafficStep traffic event = some next) : Moved traffic next event ∧ TrafficSound next := by
  cases event with
  | arrive packet =>
      rw [trafficStep] at taken
      obtain ⟨station, moved, same⟩ := Option.map_eq_some_iff.mp taken
      rw [← same]
      exact ⟨.arrived packet moved, arrive_sound traffic sound curr packet station moved⟩
  | recv maxLen =>
      obtain ⟨free, taken⟩ := Option.ite_none_right_eq_some.mp taken
      obtain ⟨station, moved, same⟩ := Option.map_eq_some_iff.mp taken
      rw [← same]
      exact ⟨.called maxLen free moved, recv_idle_sound traffic sound free station⟩
  | send source len =>
      obtain ⟨⟨free, quiet⟩, taken⟩ := Option.ite_none_right_eq_some.mp taken
      cases taken
      have idle := call_idle _ quiet
      obtain ⟨⟨nic, same, aside⟩, later⟩ := begin_sends traffic sound source len free idle
      exact ⟨.sent _ trivial idle nic same aside, later⟩
  | sending isr =>
      obtain ⟨busy, taken⟩ := Option.ite_none_left_eq_some.mp taken
      cases taken
      obtain ⟨⟨nic, same, aside⟩, later⟩ := ne2000_send_sends traffic sound isr busy
      exact ⟨.sent _ trivial (sound.alone busy) nic same aside, later⟩

def TrafficWhole (traffic : Traffic) : Prop := Whole traffic.station ∧ TrafficSound traffic

def TrafficKept (traffic : Traffic) : Prop :=
  (∃ head gone packets excess, Kept traffic.station head gone packets excess) ∧ TrafficSound traffic

theorem kept_curr (station : Station) (head : Nat) (gone packets : List Packet) (excess : Nat)
    (kept : Kept station head gone packets excess) : rxStart ≤ station.nic.curr := by
  rw [kept.ring.curr]
  exact (page_bounds _).1

theorem traffic_kept (traffic next : Traffic) (event : TrafficEvent) (kept : TrafficKept traffic)
    (taken : trafficStep traffic event = some next) : TrafficKept next := by
  obtain ⟨⟨head, gone, packets, excess, ring⟩, sound⟩ := kept
  obtain ⟨moved, later⟩ := traffic_moved traffic next sound (kept_curr _ head gone packets excess ring) event taken
  refine ⟨?_, later⟩
  cases moved with
  | arrived packet own => exact event_kept traffic.station (.arrive packet) _ ⟨head, gone, packets, excess, ring⟩ own
  | called maxLen free own => exact event_kept traffic.station (.recv maxLen) _ ⟨head, gone, packets, excess, ring⟩ own
  | sent _ always idle nic same aside =>
      rw [same]
      exact ⟨head, gone, packets, excess, kept_aside traffic.station nic head gone packets excess idle aside ring⟩

theorem traffic_whole_iff (traffic : Traffic) (event : TrafficEvent) (whole : TrafficWhole traffic) :
    TrafficMeets traffic event ↔ ∀ reached, trafficStep traffic event = some reached → TrafficWhole reached := by
  obtain ⟨whole, sound⟩ := whole
  have curr : rxStart ≤ traffic.station.nic.curr := by
    obtain ⟨head, gone, packets, kept, _⟩ := whole
    exact kept_curr _ head gone packets 0 kept
  constructor
  · intro meets reached taken
    obtain ⟨moved, later⟩ := traffic_moved traffic reached sound curr event taken
    refine ⟨?_, later⟩
    cases moved with
    | arrived packet own => exact (event_whole_iff traffic.station (.arrive packet) whole).mp meets _ own
    | called maxLen free own => exact (event_whole_iff traffic.station (.recv maxLen) whole).mp (meets free) _ own
    | sent _ always idle nic same aside =>
        rw [same]
        exact whole_aside traffic.station nic idle aside whole
  · intro all
    cases event with
    | arrive packet =>
        refine (event_whole_iff traffic.station (.arrive packet) whole).mpr fun station moved => ?_
        refine (all { traffic with station := station } ?_).1
        rw [trafficStep, moved]
        rfl
    | recv maxLen =>
        intro free
        refine (event_whole_iff traffic.station (.recv maxLen) whole).mpr fun station moved => ?_
        refine (all { traffic with station := station } ?_).1
        rw [trafficStep, if_pos free, moved]
        rfl
    | send source len => trivial
    | sending isr => trivial

theorem init_traffic_sound (memory : Memory) : TrafficSound (initTraffic memory) :=
  ⟨⟨rfl, fun _ member => absurd member List.not_mem_nil⟩, trivial, fun busy => absurd rfl busy⟩

theorem ne2000_traffic (memory : Memory) (events : List TrafficEvent) :
    (∀ traffic, runAll trafficStep (initTraffic memory) events = some traffic → Carried traffic) ∧
    ((∀ prior traffic, prior <+: events → runAll trafficStep (initTraffic memory) prior = some traffic → Right traffic.station) ↔
      Along trafficStep TrafficMeets (initTraffic memory) events) := by
  have start : TrafficKept (initTraffic memory) := ⟨⟨1, [], [], 0, init_kept memory⟩, init_traffic_sound memory⟩
  have reached (prior : List TrafficEvent) (traffic : Traffic) (run : runAll trafficStep (initTraffic memory) prior = some traffic) :
      TrafficKept traffic :=
    run_all_invariant trafficStep TrafficKept (fun state event next kept taken => traffic_kept state next event kept taken)
      _ traffic prior start run
  refine ⟨fun traffic run => (reached events traffic run).2.carried, ?_⟩
  rw [← prefixes_iff_along trafficStep TrafficWhole TrafficMeets traffic_whole_iff (initTraffic memory)
    ⟨init_whole memory, init_traffic_sound memory⟩ events]
  constructor
  · intro right prior traffic within run
    obtain ⟨⟨head, gone, packets, excess, kept⟩, sound⟩ := reached prior traffic run
    exact ⟨right_whole traffic.station head gone packets excess kept (right prior traffic within run), sound⟩
  · intro whole prior traffic within run
    exact whole_right traffic.station (whole prior traffic within run).1

end RoDos.Ne2000
