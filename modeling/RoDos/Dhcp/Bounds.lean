import RoDos.Dhcp.Model

set_option autoImplicit false

namespace RoDos.Dhcp

open Base Tcp Net

-- The bytes of options from place i on: padding and options whose loaded bytes are there, up to END
-- or to the end of the array.
inductive Laid : Nat → List UInt8 → Prop
  | done (i : Nat) (bytes : List UInt8) (past : optionsSize ≤ i) : Laid i bytes
  | stop (i : Nat) (rest : List UInt8) : Laid i (optEnd :: rest)
  | pad (i : Nat) (rest : List UInt8) (tail : Laid (i + 1) rest) : Laid i (0 :: rest)
  | option (i : Nat) (code size : UInt8) (rest : List UInt8) (used : code ≠ 0) (notEnd : code ≠ optEnd)
      (loaded : loadSize code ≤ rest.length) (tail : Laid (i + 2 + size.toNat) (rest.drop size.toNat)) :
      Laid i (code :: size :: rest)

def received (packet : List UInt8) : List UInt8 := (packet.drop 240).take optionsSize

def optionReads (client : DhcpClient) (packet behind : List UInt8) : List Nat :=
  if packet.length < 240 ∨ native32 packet 4 ≠ client.xid then []
  else (parsedOptions client (packet ++ behind)).2

def ReadsInside (client : DhcpClient) (packet behind : List UInt8) : Prop :=
  ∀ read ∈ optionReads client packet behind, 240 + read < packet.length ∧ read < optionsSize

section
variable (options : List UInt8) (i : Nat) (parsed : Parsed)

theorem parse_over (past : optionsSize ≤ i) : parseOptions options i parsed = (parsed, []) := by
  rw [parseOptions, if_neg (Nat.not_lt.mpr past)]

variable (inside : i < optionsSize)
include inside

theorem parse_stop (byte : options.getD i 0 = optEnd) : parseOptions options i parsed = (parsed, [i]) := by
  rw [parseOptions, if_pos inside]
  exact if_pos byte

theorem parse_pad (byte : options.getD i 0 = 0) : parseOptions options i parsed =
    ((parseOptions options (i + 1) parsed).1, i :: (parseOptions options (i + 1) parsed).2) := by
  rw [parseOptions, if_pos inside]
  dsimp only
  rw [byte, if_neg (by decide), if_pos rfl]

theorem parse_option (code : UInt8) (byte : options.getD i 0 = code) (used : code ≠ 0) (notEnd : code ≠ optEnd)
    (next : Nat) (size : i + 2 + (options.getD (i + 1) 0).toNat = next) : parseOptions options i parsed =
    ((parseOptions options next (takeOption parsed code options (i + 2))).1,
      i :: (i + 1) :: (List.range' (i + 2) (loadSize code) ++
        (parseOptions options next (takeOption parsed code options (i + 2))).2)) := by
  rw [parseOptions, if_pos inside]
  dsimp only
  rw [byte, if_neg notEnd, if_neg used, size]
end

section
variable (i : Nat) (inside : i < optionsSize)
include inside

theorem laid_nil : ¬ Laid i [] := by
  intro laid
  cases laid with
  | done _ _ past => exact absurd inside (Nat.not_lt.mpr past)

theorem laid_pad (rest : List UInt8) : Laid i (0 :: rest) ↔ Laid (i + 1) rest := by
  constructor
  · intro laid
    cases laid with
    | done _ _ past => exact absurd inside (Nat.not_lt.mpr past)
    | pad _ _ tail => exact tail
    | option _ _ _ _ used => exact absurd rfl used
  · exact Laid.pad i rest

theorem laid_option (code size : UInt8) (rest : List UInt8) (used : code ≠ 0) (notEnd : code ≠ optEnd) :
    Laid i (code :: size :: rest) ↔
      loadSize code ≤ rest.length ∧ Laid (i + 2 + size.toNat) (rest.drop size.toNat) := by
  constructor
  · intro laid
    cases laid with
    | done _ _ past => exact absurd inside (Nat.not_lt.mpr past)
    | stop => exact absurd rfl notEnd
    | pad => exact absurd rfl used
    | option _ _ _ _ _ _ loaded tail => exact ⟨loaded, tail⟩
  · intro both
    exact Laid.option i code size rest used notEnd both.1 both.2

theorem laid_lone (code : UInt8) (used : code ≠ 0) (notEnd : code ≠ optEnd) : ¬ Laid i [code] := by
  intro laid
  cases laid with
  | done _ _ past => exact absurd inside (Nat.not_lt.mpr past)
  | stop => exact notEnd rfl
  | pad => exact used rfl
end

section
variable (options : List UInt8) (room : Nat) (fits : room ≤ options.length)
include fits

theorem own_bytes (i : Nat) (inside : i < room) :
    (options.take room).drop i = options.getD i 0 :: (options.take room).drop (i + 1) := by
  have here : i < (options.take room).length := by rw [List.length_take, Nat.min_eq_left fits]; exact inside
  rw [List.drop_eq_getElem_cons here, List.getElem_take, List.getD_eq_getElem _ _ (inside.trans_le fits)]

omit fits in
theorem no_bytes (i : Nat) (outside : room ≤ i) : (options.take room).drop i = [] := by
  rw [List.drop_eq_nil_iff, List.length_take]
  exact (Nat.min_le_left _ _).trans outside

omit fits in
theorem loads_inside (i count : Nat) (start : i ≤ room) :
    (∀ read ∈ List.range' i count, read < room) ↔ count ≤ room - i := by
  constructor
  · intro inside
    by_contra more
    have last := inside room (List.mem_range'_1.mpr ⟨start, by omega⟩)
    exact Nat.lt_irrefl room last
  · intro few read member
    have bounds := List.mem_range'_1.mp member
    omega

theorem reads_inside (i : Nat) (parsed : Parsed) :
    (∀ read ∈ (parseOptions options i parsed).2, read < room) ↔ Laid i ((options.take room).drop i) := by
  induction i, parsed using parseOptions.induct options with
  | case1 i parsed inside code stop =>
      rw [parse_stop options i parsed inside stop, List.forall_mem_singleton]
      by_cases own : i < room
      · rw [own_bytes options room fits i own, show options.getD i 0 = optEnd from stop]
        exact iff_of_true own (Laid.stop i _)
      · rw [no_bytes options room i (Nat.not_lt.mp own)]
        exact iff_of_false own (laid_nil i inside)
  | case2 i parsed inside code more pad ih =>
      rw [parse_pad options i parsed inside pad, List.forall_mem_cons, ih]
      by_cases own : i < room
      · rw [own_bytes options room fits i own, show options.getD i 0 = 0 from pad, laid_pad i inside]
        exact and_iff_right own
      · rw [no_bytes options room i (Nat.not_lt.mp own)]
        exact iff_of_false (fun both => own both.1) (laid_nil i inside)
  | case3 i parsed inside code more used ih =>
      rw [parse_option options i parsed inside code rfl used more _ rfl, List.forall_mem_cons, List.forall_mem_cons,
        List.forall_mem_append, ih]
      by_cases own : i < room
      · rw [own_bytes options room fits i own]
        by_cases size : i + 1 < room
        · rw [own_bytes options room fits (i + 1) size, laid_option i inside _ _ _ used more]
          have left : ((options.take room).drop (i + 2)).length = room - (i + 2) := by
            rw [List.length_drop, List.length_take, Nat.min_eq_left fits]
          rw [loads_inside room (i + 2) _ size, left, List.drop_drop, and_iff_right own, and_iff_right size]
        · rw [no_bytes options room (i + 1) (Nat.not_lt.mp size)]
          exact iff_of_false (fun both => size both.2.1) (laid_lone i inside _ used more)
      · rw [no_bytes options room i (Nat.not_lt.mp own)]
        exact iff_of_false (fun both => own both.1) (laid_nil i inside)
  | case4 i parsed past =>
      rw [parse_over options i parsed (Nat.not_lt.mp past)]
      exact iff_of_true nofun (Laid.done i _ (Nat.not_lt.mp past))
end

theorem received_front (packet behind : List UInt8) (enough : 240 ≤ packet.length) :
    received packet = ((packet ++ behind).drop 240).take (min (packet.length - 240) optionsSize) := by
  rw [received, List.drop_append_of_le_length enough]
  by_cases full : optionsSize ≤ packet.length - 240
  · rw [Nat.min_eq_right full, List.take_append_of_le_length (by rw [List.length_drop]; exact full)]
  · have part := Nat.le_of_not_le full
    rw [Nat.min_eq_left part, List.take_left' List.length_drop, List.take_of_length_le]
    rw [List.length_drop]
    exact part

theorem kept_reads_inside (client : DhcpClient) (packet behind : List UInt8)
    (kept : ¬ (packet.length < 240 ∨ native32 packet 4 ≠ client.xid)) :
    ReadsInside client packet behind ↔ Laid 0 (received packet) := by
  have enough : 240 ≤ packet.length := Nat.not_lt.mp fun short => kept (Or.inl short)
  have fits : min (packet.length - 240) optionsSize ≤ ((packet ++ behind).drop 240).length := by
    rw [List.length_drop, List.length_append]
    omega
  have walked := reads_inside ((packet ++ behind).drop 240) _ fits 0 (parseStart client)
  rw [List.drop_zero, ← received_front packet behind enough] at walked
  rw [ReadsInside, optionReads, if_neg kept, ← walked, parsedOptions]
  refine forall₂_congr fun read _ => ?_
  rw [Nat.lt_min, Nat.lt_sub_iff_add_lt']

theorem option_reads_inside (client : DhcpClient) (packet behind : List UInt8) :
    ReadsInside client packet behind ↔
      packet.length < 240 ∨ native32 packet 4 ≠ client.xid ∨ Laid 0 (received packet) := by
  rw [← or_assoc]
  by_cases dropped : packet.length < 240 ∨ native32 packet 4 ≠ client.xid
  · rw [ReadsInside, optionReads, if_pos dropped]
    exact iff_of_true nofun (Or.inl dropped)
  · rw [or_iff_right dropped]
    exact kept_reads_inside client packet behind dropped

def cutReply : List UInt8 := [2, 1, 6, 0, 0x78, 0x56, 0x34, 0x12] ++ List.replicate 228 0 ++ [0x63, 0x82, 0x53, 0x63]

theorem option_reads_outside :
    ¬ ∀ client packet behind, 240 ≤ packet.length → ReadsInside client packet behind := by
  intro claimed
  have length : cutReply.length = 240 := by decide +kernel
  have inside := claimed ⟨0x12345678, 0, 0⟩ cutReply [] length.ge
  have none : received cutReply = [] := by decide +kernel
  rw [kept_reads_inside _ _ _ (by decide +kernel), none] at inside
  exact laid_nil 0 (by decide) inside

end RoDos.Dhcp
