import RoDos.Base.Memory
import RoDos.Tcp.Model

set_option autoImplicit false

namespace RoDos.Tcp

open Base

-- The control block as it lies in memory: rx_buffer are the bytes from its first one on, those behind
-- the 16384 of the array included, and rx_len and rx_processed are words.
structure ControlBlock where
  state : TcpState
  sndNxt : UInt32
  rcvNxt : UInt32
  rxBuffer : Memory
  rxLen : UInt32
  rxProcessed : UInt32
  hasData : Bool

inductive Access where
  | readPacket (index : Nat)
  | writeBuffer (index : Nat)
deriving DecidableEq, Repr

structure Processed where
  tcb : ControlBlock
  answers : List Answer
  code : Int
  accesses : List Access

def wordAt (packet : Nat → UInt8) (i : Nat) : UInt32 :=
  fromBigEndian [packet i, packet (i + 1), packet (i + 2), packet (i + 3)]

def hdrLen (packet : Nat → UInt8) : UInt32 := (packet 12 >>> 4).toUInt32 * 4

-- sequence, ack_num and data_offset_reserved.
def fieldReads : List Access := (List.range' 4 9).map .readPacket

def flagsRead : List Access := [.readPacket 13]

-- data is a pointer into the packet, the index of rx_buffer a word.
def copyData (tcb : ControlBlock) (packet : Nat → UInt8) (hdrLen segLen : Nat) : Memory :=
  (List.range segLen).foldl (fun buffer i => storeByte buffer (tcb.rxLen.toNat + i) (packet (hdrLen + i))) tcb.rxBuffer

def copyAccesses (tcb : ControlBlock) (hdrLen segLen : Nat) : List Access :=
  (List.range segLen).flatMap fun i => [.readPacket (hdrLen + i), .writeBuffer ((tcb.rxLen.toNat + i) % 2 ^ 32)]

def storeData (tcb : ControlBlock) (packet : Nat → UInt8) (len : UInt32) : Processed :=
  let segLen := len - hdrLen packet
  if 0 < segLen ∧ tcb.rxLen + segLen < 16384 then
    let filled := { tcb with
      rxBuffer := copyData tcb packet (hdrLen packet).toNat segLen.toNat
      rxLen := tcb.rxLen + segLen, hasData := true, rcvNxt := tcb.rcvNxt + segLen }
    ⟨filled, [⟨filled.sndNxt, filled.rcvNxt, flagAck⟩], 0, copyAccesses tcb (hdrLen packet).toNat segLen.toNat⟩
  else ⟨tcb, [], 0, []⟩

def processSegment (tcb : ControlBlock) (packet : Nat → UInt8) (len : UInt32) : Processed :=
  if len < 20 then ⟨tcb, [], -1, []⟩
  else
    match tcb.state with
    | .closed => ⟨tcb, [], 0, []⟩
    | .synSent =>
        if hasFlag (packet 13) flagSyn && hasFlag (packet 13) flagAck then
          ⟨{ tcb with rcvNxt := wordAt packet 4 + 1, sndNxt := wordAt packet 8, state := .established },
            [⟨wordAt packet 8, wordAt packet 4 + 1, flagAck⟩], 1, fieldReads ++ flagsRead⟩
        else ⟨tcb, [], 0, fieldReads ++ flagsRead⟩
    | .established =>
        let stored := storeData tcb packet len
        let accesses := fieldReads ++ flagsRead ++ stored.accesses
        if hasFlag (packet 13) flagFin then
          ⟨{ stored.tcb with rcvNxt := stored.tcb.rcvNxt + 1, state := .closed },
            stored.answers ++ [⟨stored.tcb.sndNxt, stored.tcb.rcvNxt + 1, flagAck ||| flagFin⟩], 1, accesses⟩
        else ⟨stored.tcb, stored.answers, 0, accesses⟩
    | .finWait => ⟨tcb, [], 0, fieldReads⟩

def InBounds (len : UInt32) : Access → Prop
  | .readPacket index => index < len.toNat
  | .writeBuffer index => index < rxBufferSize

def Bounded (tcb : ControlBlock) : Prop := tcb.rxProcessed ≤ tcb.rxLen ∧ tcb.rxLen ≤ 16384

def StaysInside (tcb : ControlBlock) (packet : Nat → UInt8) (len : UInt32) : Prop :=
  (∀ access ∈ (processSegment tcb packet len).accesses, InBounds len access) ∧
    Bounded (processSegment tcb packet len).tcb

-- The header claims more bytes than there are, and not more beyond them than rx_buffer holds, or the
-- data alone fills the address space: rx_len + seg_len wraps back to a small number.
def WrapsBack (tcb : ControlBlock) (packet : Nat → UInt8) (len : UInt32) : Prop :=
  tcb.state = .established ∧ 20 ≤ len.toNat ∧
    ((len.toNat < (hdrLen packet).toNat ∧ (hdrLen packet).toNat - len.toNat ≤ tcb.rxLen.toNat) ∨
      ((hdrLen packet).toNat ≤ len.toNat ∧ 2 ^ 32 ≤ tcb.rxLen.toNat + (len.toNat - (hdrLen packet).toNat)))

section
variable (tcb : ControlBlock) (packet : Nat → UInt8) (len : UInt32)

theorem nibble_lt (byte : UInt8) : (byte >>> 4).toNat < 16 := by
  have below := byte.toNat_lt
  rw [UInt8.toNat_shiftRight, Nat.shiftRight_eq_div_pow]
  show byte.toNat / 16 < 16
  omega

theorem hdr_len_toNat : (hdrLen packet).toNat = (packet 12 >>> 4).toNat * 4 := by
  have below := nibble_lt (packet 12)
  rw [hdrLen, UInt32.toNat_mul, UInt8.toNat_toUInt32]
  exact Nat.mod_eq_of_lt (by show _ * 4 < _; omega)

theorem hdr_len_le : (hdrLen packet).toNat ≤ 60 := by
  have below := nibble_lt (packet 12)
  rw [hdr_len_toNat]
  omega

theorem mem_copy_accesses (hdrLen segLen : Nat) (access : Access) :
    access ∈ copyAccesses tcb hdrLen segLen ↔
      ∃ i < segLen, access = .readPacket (hdrLen + i) ∨ access = .writeBuffer ((tcb.rxLen.toNat + i) % 2 ^ 32) := by
  simp [copyAccesses]

theorem header_reads_inside (long : ¬ len < 20) (access : Access) (read : access ∈ fieldReads ++ flagsRead) :
    InBounds len access := by
  have below : access ∈ (List.range' 4 10).map Access.readPacket := read
  obtain ⟨i, range, same⟩ := List.mem_map.mp below
  rw [← same]
  show i < len.toNat
  have bound := List.mem_range'_1.mp range
  have twenty : 20 ≤ len.toNat := by
    rw [UInt32.lt_iff_toNat_lt] at long
    exact Nat.not_lt.mp long
  omega

theorem seg_len_toNat : (len - hdrLen packet).toNat =
    if (hdrLen packet).toNat ≤ len.toNat then len.toNat - (hdrLen packet).toNat
    else 2 ^ 32 - ((hdrLen packet).toNat - len.toNat) := by
  have header := (hdrLen packet).toNat_lt
  have length := len.toNat_lt
  rw [UInt32.toNat_sub]
  split
  · omega
  · omega

theorem wraps_back_iff : WrapsBack tcb packet len ↔
    tcb.state = .established ∧ 20 ≤ len.toNat ∧ 2 ^ 32 ≤ tcb.rxLen.toNat + (len - hdrLen packet).toNat := by
  have header := hdr_len_le packet
  have length := len.toNat_lt
  refine and_congr_right fun _ => and_congr_right fun _ => ?_
  rw [seg_len_toNat]
  split
  · omega
  · omega

-- Without the wrap the data lies behind rx_len and in front of the end of rx_buffer, and in the packet.
theorem store_data_inside (bounded : Bounded tcb) (straight : tcb.rxLen.toNat + (len - hdrLen packet).toNat < 2 ^ 32) :
    (∀ access ∈ (storeData tcb packet len).accesses, InBounds len access) ∧ Bounded (storeData tcb packet len).tcb := by
  obtain ⟨processed, full⟩ := bounded
  rw [storeData]
  dsimp only
  split
  · rename_i room
    have total : (tcb.rxLen + (len - hdrLen packet)).toNat = tcb.rxLen.toNat + (len - hdrLen packet).toNat := by
      rw [UInt32.toNat_add]
      exact Nat.mod_eq_of_lt straight
    have below : (tcb.rxLen + (len - hdrLen packet)).toNat < 16384 := room.2
    have fits := total ▸ below
    have length := seg_len_toNat packet len
    have header := hdr_len_le packet
    refine ⟨fun access copied => ?_, ?_, Nat.le_of_lt below⟩
    · obtain ⟨i, inside, same⟩ := (mem_copy_accesses tcb _ _ access).mp copied
      cases same with
      | inl read =>
          rw [read]
          show _ + i < len.toNat
          split at length
          · omega
          · omega
      | inr write =>
          rw [write]
          show _ % 2 ^ 32 < 16384
          omega
    · have before : tcb.rxProcessed.toNat ≤ tcb.rxLen.toNat := processed
      show tcb.rxProcessed.toNat ≤ (tcb.rxLen + (len - hdrLen packet)).toNat
      omega
  · exact ⟨nofun, processed, full⟩

-- With the wrap the copy starts at rx_len and runs over the end of rx_buffer.
theorem store_data_outside (bounded : Bounded tcb) (wraps : 2 ^ 32 ≤ tcb.rxLen.toNat + (len - hdrLen packet).toNat) :
    Access.writeBuffer rxBufferSize ∈ (storeData tcb packet len).accesses := by
  have full : tcb.rxLen.toNat ≤ 16384 := bounded.2
  have length := (len - hdrLen packet).toNat_lt
  have total : (tcb.rxLen + (len - hdrLen packet)).toNat < 16384 := by
    rw [UInt32.toNat_add]
    omega
  have some' : 0 < (len - hdrLen packet).toNat := by omega
  rw [storeData]
  dsimp only
  rw [if_pos ⟨some', total⟩, mem_copy_accesses]
  refine ⟨16384 - tcb.rxLen.toNat, by omega, Or.inr ?_⟩
  have first : (tcb.rxLen.toNat + (16384 - tcb.rxLen.toNat)) % 2 ^ 32 = rxBufferSize := by
    rw [Nat.add_sub_cancel' full]
    rfl
  rw [first]

theorem process_established (working : tcb.state = .established) (long : ¬ len < 20) :
    (processSegment tcb packet len).accesses = fieldReads ++ flagsRead ++ (storeData tcb packet len).accesses ∧
      (processSegment tcb packet len).tcb.rxLen = (storeData tcb packet len).tcb.rxLen ∧
      (processSegment tcb packet len).tcb.rxProcessed = (storeData tcb packet len).tcb.rxProcessed := by
  rw [processSegment, if_neg long, working]
  dsimp only
  split
  · exact ⟨rfl, rfl, rfl⟩
  · exact ⟨rfl, rfl, rfl⟩

theorem process_elsewhere (shut : tcb.state ≠ .established ∨ len < 20) :
    (∀ access ∈ (processSegment tcb packet len).accesses, access ∈ fieldReads ++ flagsRead ∧ ¬ len < 20) ∧
      (processSegment tcb packet len).tcb.rxLen = tcb.rxLen ∧
      (processSegment tcb packet len).tcb.rxProcessed = tcb.rxProcessed := by
  rw [processSegment]
  by_cases short : len < 20
  · rw [if_pos short]
    exact ⟨nofun, rfl, rfl⟩
  rw [if_neg short]
  cases state : tcb.state with
  | closed => exact ⟨nofun, rfl, rfl⟩
  | synSent =>
      dsimp only
      split
      · exact ⟨fun access read => ⟨read, short⟩, rfl, rfl⟩
      · exact ⟨fun access read => ⟨read, short⟩, rfl, rfl⟩
  | established => exact absurd state (shut.resolve_right short)
  | finWait => exact ⟨fun access read => ⟨List.mem_append_left _ read, short⟩, rfl, rfl⟩
end

theorem segment_stays_inside (tcb : ControlBlock) (packet : Nat → UInt8) (len : UInt32) (bounded : Bounded tcb) :
    StaysInside tcb packet len ↔ ¬ WrapsBack tcb packet len := by
  rw [wraps_back_iff]
  by_cases working : tcb.state = .established ∧ ¬ len < 20
  · obtain ⟨state, long⟩ := working
    obtain ⟨accesses, rxLen, rxProcessed⟩ := process_established tcb packet len state long
    have twenty : 20 ≤ len.toNat := Nat.not_lt.mp long
    rw [StaysInside, accesses, Bounded, rxLen, rxProcessed]
    constructor
    · rintro ⟨inside, _⟩ ⟨_, _, wraps⟩
      have outside := inside _ (List.mem_append_right _ (store_data_outside tcb packet len bounded wraps))
      exact Nat.lt_irrefl _ outside
    · intro straight
      have stored := store_data_inside tcb packet len bounded
        (Nat.not_le.mp fun wraps => straight ⟨state, twenty, wraps⟩)
      refine ⟨fun access reached => ?_, stored.2⟩
      cases List.mem_append.mp reached with
      | inl header => exact header_reads_inside len long access header
      | inr data => exact stored.1 access data
  · have shut : tcb.state ≠ .established ∨ len < 20 := by
      by_cases state : tcb.state = .established
      · exact Or.inr (Decidable.not_not.mp fun long => working ⟨state, long⟩)
      · exact Or.inl state
    obtain ⟨accesses, rxLen, rxProcessed⟩ := process_elsewhere tcb packet len shut
    have idle : ¬ (tcb.state = .established ∧ 20 ≤ len.toNat ∧
        2 ^ 32 ≤ tcb.rxLen.toNat + (len - hdrLen packet).toNat) :=
      fun wraps => working ⟨wraps.1, Nat.not_lt.mpr wraps.2.1⟩
    refine iff_of_true ⟨fun access reached => ?_, ?_⟩ idle
    · obtain ⟨header, long⟩ := accesses access reached
      exact header_reads_inside len long access header
    · rw [Bounded, rxLen, rxProcessed]
      exact bounded

def overstated : Nat → UInt8 := fun i => if i = 12 then 0xF0 else 0

def fortyFilled : ControlBlock := ⟨.established, 8, 501, fun _ => 0, 40, 40, false⟩

theorem segment_stays_inside_ack :
    StaysInside fortyFilled (fun i => if i = 12 then 0x50 else 0) 20 :=
  (segment_stays_inside fortyFilled (fun i => if i = 12 then 0x50 else 0) 20 ⟨by decide, by decide⟩).mpr
    fun wraps => absurd wraps.2.2 (by decide)

theorem segment_not_inside : ¬ ∀ tcb packet len, Bounded tcb → StaysInside tcb packet len := by
  intro claimed
  have bounded : Bounded fortyFilled := ⟨by decide, by decide⟩
  have inside := (claimed fortyFilled overstated 20 bounded).1
  have accesses := (process_established fortyFilled overstated 20 rfl (by decide)).1
  have outside := store_data_outside fortyFilled overstated 20 bounded (by decide)
  rw [accesses] at inside
  exact Nat.lt_irrefl _ (inside _ (List.mem_append_right _ outside))

def filledPart (tcb : ControlBlock) : Tcb :=
  ⟨tcb.state, tcb.sndNxt, tcb.rcvNxt, (List.range tcb.rxLen.toNat).map tcb.rxBuffer, tcb.rxProcessed.toNat, tcb.hasData⟩

def segmentBytes (packet : Nat → UInt8) (len : UInt32) : List UInt8 := (List.range len.toNat).map packet

section
variable (tcb : ControlBlock) (packet : Nat → UInt8) (len : UInt32)

theorem segment_byte (long : ¬ len < 20) (i : Nat) (header : i < 20) : (segmentBytes packet len).getD i 0 = packet i := by
  have twenty : 20 ≤ len.toNat := Nat.not_lt.mp long
  simp [segmentBytes, show i < len.toNat by omega]

theorem segment_word (long : ¬ len < 20) (i : Nat) (header : i + 3 < 20) :
    fromBigEndian ((segmentBytes packet len).drop i) = wordAt packet i := by
  have field (k : Nat) (inside : k < 4) : ((segmentBytes packet len).drop i).getD k 0 = packet (i + k) := by
    rw [← segment_byte packet len long (i + k) (by omega)]
    simp
  simp only [fromBigEndian, field, wordAt, Nat.reduceLT]
  rfl

theorem copy_data_filled (hdrLen count : Nat) (fits : tcb.rxLen.toNat + count < 2 ^ 32) :
    (List.range (tcb.rxLen.toNat + count)).map (copyData tcb packet hdrLen count) =
      (List.range tcb.rxLen.toNat).map tcb.rxBuffer ++ (List.range count).map fun i => packet (hdrLen + i) := by
  induction count with
  | zero => simp [copyData]
  | succ count copied =>
      have next : copyData tcb packet hdrLen (count + 1) =
          storeByte (copyData tcb packet hdrLen count) (tcb.rxLen.toNat + count) (packet (hdrLen + count)) := by
        rw [copyData, List.range_succ, List.foldl_append]
        rfl
      have place : (tcb.rxLen.toNat + count) % 2 ^ 32 = tcb.rxLen.toNat + count := Nat.mod_eq_of_lt (by omega)
      have front : (List.range (tcb.rxLen.toNat + count)).map (copyData tcb packet hdrLen (count + 1)) =
          (List.range (tcb.rxLen.toNat + count)).map (copyData tcb packet hdrLen count) := by
        refine List.map_congr_left fun i inside => ?_
        rw [next, storeByte, place, if_neg (Nat.ne_of_lt (List.mem_range.mp inside))]
      have last : copyData tcb packet hdrLen (count + 1) (tcb.rxLen.toNat + count) = packet (hdrLen + count) := by
        rw [next, storeByte, place, if_pos rfl]
      rw [← Nat.add_assoc, List.range_succ, List.map_append, front, copied (by omega), List.map_singleton, last,
        List.range_succ, List.map_append, List.append_assoc]
      rfl

theorem segment_data :
    (segmentBytes packet len).drop (hdrLen packet).toNat =
      (List.range (len.toNat - (hdrLen packet).toNat)).map fun i => packet ((hdrLen packet).toNat + i) := by
  apply List.ext_getElem
  · simp [segmentBytes]
  · simp [segmentBytes]

theorem store_data_refines (long : ¬ len < 20)
    (straight : tcb.rxLen.toNat + (len - hdrLen packet).toNat < 2 ^ 32) :
    takeData (filledPart tcb) (segmentBytes packet len) =
      some (filledPart (storeData tcb packet len).tcb, (storeData tcb packet len).answers) := by
  have length : (segmentBytes packet len).length = len.toNat := by simp [segmentBytes]
  have header : headerLength (segmentBytes packet len) = (hdrLen packet).toNat := by
    rw [headerLength, segment_byte packet len long 12 (by decide), hdr_len_toNat]
  have difference := seg_len_toNat packet len
  have bound := hdr_len_le packet
  have below := len.toNat_lt
  have dataLength : segLen (segmentBytes packet len) = (len - hdrLen packet).toNat := by
    rw [segLen, length, header, difference]
    split
    · omega
    · omega
  have filled : (filledPart tcb).rxBuffer.length = tcb.rxLen.toNat := by simp [filledPart]
  have total : (tcb.rxLen + (len - hdrLen packet)).toNat = tcb.rxLen.toNat + (len - hdrLen packet).toNat := by
    rw [UInt32.toNat_add]
    exact Nat.mod_eq_of_lt straight
  have accepted : accepts (filledPart tcb) (segmentBytes packet len) = true ↔
      0 < len - hdrLen packet ∧ tcb.rxLen + (len - hdrLen packet) < 16384 := by
    rw [accepts, decide_eq_true_iff, dataLength, filled, Nat.mod_eq_of_lt straight, ← total]
    rfl
  rw [takeData, storeData]
  by_cases room : 0 < len - hdrLen packet ∧ tcb.rxLen + (len - hdrLen packet) < 16384
  · have fits : (tcb.rxLen + (len - hdrLen packet)).toNat < 16384 := room.2
    have inside : (hdrLen packet).toNat ≤ len.toNat := by
      by_cases short : (hdrLen packet).toNat ≤ len.toNat
      · exact short
      · rw [if_neg short] at difference
        omega
    rw [if_pos (accepted.mpr room), length, header, if_neg (Nat.not_lt.mpr inside), segment_data, dataLength,
      UInt32.ofNat_toNat]
    dsimp only
    rw [if_pos room]
    simp only [filledPart, total]
    rw [copy_data_filled tcb packet _ _ straight, difference, if_pos inside]
  · rw [if_neg (fun accepts => room (accepted.mp accepts))]
    dsimp only
    rw [if_neg room]

theorem process_refines (straight : ¬ WrapsBack tcb packet len) :
    tcpProcess (filledPart tcb) (segmentBytes packet len) =
      some (filledPart (processSegment tcb packet len).tcb, (processSegment tcb packet len).answers,
        (processSegment tcb packet len).code) := by
  have length : (segmentBytes packet len).length = len.toNat := by simp [segmentBytes]
  rw [tcpProcess, processSegment, length]
  by_cases short : len < 20
  · rw [if_pos short, if_pos (show len.toNat < 20 from short)]
  rw [if_neg short, if_neg (show ¬ len.toNat < 20 from short), segment_byte packet len short 13 (by decide),
    segment_word packet len short 4 (by decide), segment_word packet len short 8 (by decide)]
  cases state : tcb.state with
  | closed => simp [filledPart, state]
  | finWait => simp [filledPart, state]
  | synSent =>
      simp only [filledPart, state]
      split
      · rfl
      · simp [state]
  | established =>
      have twenty : 20 ≤ len.toNat := Nat.not_lt.mp short
      have inside : tcb.rxLen.toNat + (len - hdrLen packet).toNat < 2 ^ 32 :=
        Nat.not_le.mp fun wraps => straight ((wraps_back_iff tcb packet len).mpr ⟨state, twenty, wraps⟩)
      have stored := store_data_refines tcb packet len short inside
      have working : (filledPart tcb).state = .established := state
      simp only [working, stored, Option.map_some]
      split
      · rfl
      · rfl
end

end RoDos.Tcp
