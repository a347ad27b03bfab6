import RoDos.Dns.Model

set_option autoImplicit false

namespace RoDos.Dns

open Base

-- Cursors are places of packet, and none is a read that lies behind it. A cursor itself may go further.
def rootAt (packet : List UInt8) (p : Nat) : Option Nat :=
  match read : packet[p]? with
  | none => none
  | some byte => if byte = 0 then some p else rootAt packet (p + byte.toNat + 1)
termination_by packet.length - p
decreasing_by
  have inside := (List.getElem?_eq_some_iff.mp read).1
  omega

def questionsFrom (packet : List UInt8) : Nat → Nat → Option Nat
  | 0, p => some p
  | count + 1, p => (rootAt packet p).bind fun root => questionsFrom packet count (root + 1 + 4)

def ownerFrom (packet : List UInt8) (p : Nat) : Option Nat :=
  packet[p]?.bind fun byte =>
    if byte &&& 0xC0 = 0xC0 then some (p + 2) else (rootAt packet p).map fun root => root + 1

structure Walk where
  cursor : Nat
  stored : Option UInt32

-- p[0], p[1], p[8] and p[9] of a record are read, and the four bytes of an address.
def answersFrom (packet : List UInt8) : Nat → Nat → Option Walk
  | 0, p => some ⟨p, none⟩
  | count + 1, p =>
      (ownerFrom packet p).bind fun record =>
        if packet.length < record + 10 then none
        else if beWord packet record = 1 ∧ beWord packet (record + 8) = 4 then
          if packet.length < record + 14 then none else some ⟨record + 10, some (beAddress (packet.drop (record + 10)))⟩
        else answersFrom packet count (record + 10 + beWord packet (record + 8))

structure Verdict where
  code : Int
  walk : Walk

-- udp_process over a packet of which nothing but its own len bytes may be read.
def udpWalk (packet : List UInt8) : Option Verdict :=
  if packet.length < 8 then some ⟨-1, ⟨0, none⟩⟩
  else
    let payloadLen := (beWord packet 4 + 2 ^ 32 - 8) % 2 ^ 32
    if beWord packet 0 ≠ 53 then some ⟨0, ⟨8, none⟩⟩
    else if payloadLen < 12 then some ⟨-1, ⟨8, none⟩⟩
    else if packet.length < 14 then none
    else
      (questionsFrom packet (beWord packet 12) 20).bind fun p =>
        if packet.length < 16 then none
        else (answersFrom packet (beWord packet 14) p).map fun walk => ⟨0, walk⟩

inductive NameThen : List UInt8 → List UInt8 → Prop
  | root (rest : List UInt8) : NameThen (0 :: rest) rest
  | label (size : UInt8) (tail rest : List UInt8) (used : size ≠ 0) (whole : size.toNat ≤ tail.length)
      (further : NameThen (tail.drop size.toNat) rest) : NameThen (size :: tail) rest

inductive QuestionsThen : Nat → List UInt8 → List UInt8 → Prop
  | done (rest : List UInt8) : QuestionsThen 0 rest rest
  | question (count : Nat) (bytes fields rest : List UInt8) (name : NameThen bytes fields) (whole : 4 ≤ fields.length)
      (further : QuestionsThen count (fields.drop 4) rest) : QuestionsThen (count + 1) bytes rest

inductive OwnerThen : List UInt8 → List UInt8 → Prop
  | pointer (high low : UInt8) (rest : List UInt8) (mark : high &&& 0xC0 = 0xC0) : OwnerThen (high :: low :: rest) rest
  | name (byte : UInt8) (tail rest : List UInt8) (plain : ¬ byte &&& 0xC0 = 0xC0) (name : NameThen (byte :: tail) rest) :
      OwnerThen (byte :: tail) rest

inductive AnswersIn : Nat → List UInt8 → Prop
  | done (rest : List UInt8) : AnswersIn 0 rest
  | address (count : Nat) (bytes record : List UInt8) (owner : OwnerThen bytes record) (whole : 14 ≤ record.length)
      (kind : beWord record 0 = 1 ∧ beWord record 8 = 4) : AnswersIn (count + 1) bytes
  | other (count : Nat) (bytes record : List UInt8) (owner : OwnerThen bytes record)
      (whole : 10 + beWord record 8 ≤ record.length) (kind : ¬ (beWord record 0 = 1 ∧ beWord record 8 = 4))
      (further : AnswersIn count (record.drop (10 + beWord record 8))) : AnswersIn (count + 1) bytes

def WalksInside (packet : List UInt8) : Prop :=
  ∃ verdict, udpWalk packet = some verdict ∧
    (beWord packet 4 < 8 ∨ packet.length < beWord packet 4 ∨ packet.length < verdict.walk.cursor →
      verdict.code = -1 ∧ verdict.walk.stored = none)

structure Decodes (packet : List UInt8) : Prop where
  header : 20 ≤ beWord packet 4
  length : beWord packet 4 ≤ packet.length
  records : ∃ rest, QuestionsThen (beWord packet 12) (packet.drop 20) rest ∧ AnswersIn (beWord packet 14) rest

section
variable (packet : List UInt8)

theorem root_end (p : Nat) (read : packet[p]? = none) : rootAt packet p = none := by
  rw [rootAt]
  split
  · rfl
  · rename_i byte same
    rw [read] at same
    cases same

theorem root_byte (p : Nat) (byte : UInt8) (read : packet[p]? = some byte) :
    rootAt packet p = if byte = 0 then some p else rootAt packet (p + byte.toNat + 1) := by
  rw [rootAt]
  split
  · rename_i same
    rw [read] at same
    cases same
  · rename_i other same
    rw [read] at same
    cases same
    rfl

theorem drop_read (p : Nat) (byte : UInt8) (read : packet[p]? = some byte) :
    packet.drop p = byte :: packet.drop (p + 1) := by
  obtain ⟨inside, same⟩ := List.getElem?_eq_some_iff.mp read
  rw [List.drop_eq_getElem_cons inside, same]

theorem root_then (p root : Nat) (found : rootAt packet p = some root) :
    p ≤ root ∧ root < packet.length ∧ NameThen (packet.drop p) (packet.drop (root + 1)) := by
  induction p using rootAt.induct packet with
  | case1 p read =>
      rw [root_end packet p read] at found
      cases found
  | case2 p read =>
      rw [root_byte packet p 0 read, if_pos rfl, Option.some.injEq] at found
      rw [← found, drop_read packet p 0 read]
      exact ⟨Nat.le_refl p, (List.getElem?_eq_some_iff.mp read).1, NameThen.root _⟩
  | case3 p byte read used ih =>
      rw [root_byte packet p byte read, if_neg used] at found
      obtain ⟨later, inside, further⟩ := ih found
      rw [drop_read packet p byte read]
      refine ⟨by omega, inside, NameThen.label byte _ _ used ?_ ?_⟩
      · rw [List.length_drop]
        omega
      · rw [List.drop_drop, Nat.add_right_comm]
        exact further

theorem read_head (p : Nat) (byte : UInt8) (tail : List UInt8) (at' : packet.drop p = byte :: tail) :
    packet[p]? = some byte ∧ tail = packet.drop (p + 1) := by
  have read : packet[p]? = some byte := by rw [← List.head?_drop, at', List.head?_cons]
  rw [drop_read packet p byte read] at at'
  exact ⟨read, (List.cons.inj at').2.symm⟩

theorem name_walked (bytes rest : List UInt8) (name : NameThen bytes rest) (p : Nat) (at' : packet.drop p = bytes) :
    ∃ root, rootAt packet p = some root ∧ root < packet.length ∧ packet.drop (root + 1) = rest := by
  induction name generalizing p with
  | root rest =>
      obtain ⟨read, tail⟩ := read_head packet p 0 rest at'
      exact ⟨p, by rw [root_byte packet p 0 read, if_pos rfl], (List.getElem?_eq_some_iff.mp read).1, tail.symm⟩
  | label size tail rest used whole _ ih =>
      obtain ⟨read, same⟩ := read_head packet p size tail at'
      have next : packet.drop (p + size.toNat + 1) = tail.drop size.toNat := by
        rw [same, List.drop_drop, Nat.add_right_comm]
      obtain ⟨root, found, further⟩ := ih _ next
      exact ⟨root, by rw [root_byte packet p size read, if_neg used, found], further⟩

theorem questions_then (count p r : Nat) (walked : questionsFrom packet count p = some r) :
    p ≤ r ∧ (r ≤ packet.length → QuestionsThen count (packet.drop p) (packet.drop r)) := by
  induction count generalizing p with
  | zero =>
      cases walked
      exact ⟨Nat.le_refl _, fun _ => QuestionsThen.done _⟩
  | succ count ih =>
      obtain ⟨root, found, walked⟩ := Option.bind_eq_some_iff.mp walked
      obtain ⟨later, further⟩ := ih _ walked
      obtain ⟨start, inside, name⟩ := root_then packet p root found
      refine ⟨by omega, fun short => QuestionsThen.question count _ _ _ name ?_ ?_⟩
      · rw [List.length_drop]
        omega
      · rw [List.drop_drop]
        exact further short

theorem questions_walked (count : Nat) (bytes rest : List UInt8) (questions : QuestionsThen count bytes rest) (p : Nat)
    (inside : p ≤ packet.length) (at' : packet.drop p = bytes) :
    ∃ r, questionsFrom packet count p = some r ∧ r ≤ packet.length ∧ packet.drop r = rest := by
  induction questions generalizing p with
  | done rest => exact ⟨p, rfl, inside, at'⟩
  | question count bytes fields rest name whole _ ih =>
      obtain ⟨root, found, own, behind⟩ := name_walked packet bytes fields name p at'
      rw [← behind, List.length_drop] at whole
      have next : packet.drop (root + 1 + 4) = fields.drop 4 := by rw [← behind, List.drop_drop]
      obtain ⟨r, walked, further⟩ := ih (root + 1 + 4) (by omega) next
      exact ⟨r, by rw [questionsFrom, found]; exact walked, further⟩

theorem owner_then (p record : Nat) (found : ownerFrom packet p = some record) :
    p ≤ record ∧ (record ≤ packet.length → OwnerThen (packet.drop p) (packet.drop record)) := by
  obtain ⟨byte, read, found⟩ := Option.bind_eq_some_iff.mp found
  have start := drop_read packet p byte read
  by_cases mark : byte &&& 0xC0 = 0xC0
  · rw [if_pos mark, Option.some.injEq] at found
    refine ⟨by omega, fun short => ?_⟩
    have second : p + 1 < packet.length := by omega
    rw [start, List.drop_eq_getElem_cons second, ← found]
    exact OwnerThen.pointer byte _ _ mark
  · rw [if_neg mark] at found
    obtain ⟨root, walked, same⟩ := Option.map_eq_some_iff.mp found
    obtain ⟨later, inside, name⟩ := root_then packet p root walked
    refine ⟨by omega, fun _ => ?_⟩
    rw [start, ← same]
    exact OwnerThen.name byte _ _ mark (start ▸ name)

theorem owner_walked (bytes rest : List UInt8) (owner : OwnerThen bytes rest) (p : Nat) (at' : packet.drop p = bytes) :
    ∃ record, ownerFrom packet p = some record ∧ record ≤ packet.length ∧ packet.drop record = rest := by
  cases owner with
  | pointer high low rest mark =>
      obtain ⟨read, tail⟩ := read_head packet p high _ at'
      obtain ⟨second, behind⟩ := read_head packet (p + 1) low rest tail.symm
      have inside := (List.getElem?_eq_some_iff.mp second).1
      refine ⟨p + 2, ?_, by omega, behind.symm⟩
      rw [ownerFrom, read, Option.bind_some, if_pos mark]
  | name byte tail rest plain name =>
      obtain ⟨read, _⟩ := read_head packet p byte tail at'
      obtain ⟨root, found, inside, behind⟩ := name_walked packet _ rest name p at'
      refine ⟨root + 1, ?_, inside, behind⟩
      rw [ownerFrom, read, Option.bind_some, if_neg plain, found]
      rfl

theorem be_word_drop (p i : Nat) : beWord (packet.drop p) i = beWord packet (p + i) := by
  rw [beWord, beWord, List.getD_eq_getElem?_getD, List.getD_eq_getElem?_getD, List.getElem?_drop, List.getElem?_drop,
    List.getD_eq_getElem?_getD, List.getD_eq_getElem?_getD, Nat.add_assoc]

theorem answers_then (count p : Nat) (walk : Walk) (walked : answersFrom packet count p = some walk) :
    p ≤ walk.cursor ∧ (walk.cursor ≤ packet.length → AnswersIn count (packet.drop p)) := by
  induction count generalizing p with
  | zero =>
      cases walked
      exact ⟨Nat.le_refl _, fun _ => AnswersIn.done _⟩
  | succ count ih =>
      obtain ⟨record, found, walked⟩ := Option.bind_eq_some_iff.mp walked
      obtain ⟨later, owner⟩ := owner_then packet p record found
      split_ifs at walked with cut kind short
      · cases walked
        dsimp only
        refine ⟨by omega, fun _ => AnswersIn.address count _ _ (owner (by omega)) ?_ ?_⟩
        · rw [List.length_drop]
          omega
        · rw [be_word_drop, be_word_drop]
          exact kind
      · obtain ⟨further, answers⟩ := ih _ walked
        refine ⟨by omega, fun own => AnswersIn.other count _ _ (owner (by omega)) ?_ ?_ ?_⟩
        · rw [List.length_drop, be_word_drop]
          omega
        · rw [be_word_drop, be_word_drop]
          exact kind
        · rw [be_word_drop, List.drop_drop, ← Nat.add_assoc]
          exact answers own

theorem answers_walked (count : Nat) (bytes : List UInt8) (answers : AnswersIn count bytes) (p : Nat)
    (inside : p ≤ packet.length) (at' : packet.drop p = bytes) :
    ∃ walk, answersFrom packet count p = some walk ∧ walk.cursor ≤ packet.length := by
  induction answers generalizing p with
  | done rest => exact ⟨⟨p, none⟩, rfl, inside⟩
  | address count bytes record owner whole kind =>
      obtain ⟨q, found, own, behind⟩ := owner_walked packet bytes record owner p at'
      rw [← behind, List.length_drop] at whole
      rw [← behind, be_word_drop, be_word_drop, Nat.add_zero] at kind
      refine ⟨⟨q + 10, some (beAddress (packet.drop (q + 10)))⟩, ?_, by dsimp only; omega⟩
      rw [answersFrom, found, Option.bind_some, if_neg (by omega), if_pos kind, if_neg (by omega)]
  | other count bytes record owner whole kind _ ih =>
      obtain ⟨q, found, own, behind⟩ := owner_walked packet bytes record owner p at'
      rw [← behind, List.length_drop, be_word_drop] at whole
      have next : packet.drop (q + 10 + beWord packet (q + 8)) = record.drop (10 + beWord record 8) := by
        rw [← behind, be_word_drop, List.drop_drop, Nat.add_assoc]
      rw [← behind, be_word_drop, be_word_drop, Nat.add_zero] at kind
      obtain ⟨walk, walked, short⟩ := ih (q + 10 + beWord packet (q + 8)) (by omega) next
      refine ⟨walk, ?_, short⟩
      rw [answersFrom, found, Option.bind_some, if_neg (by omega), if_neg kind, walked]

-- The parser that has been given the bytes as a list sees the same.
theorem skip_name_drop (skip : Nat) (bytes : List UInt8) : skipName skip bytes = skipName 0 (bytes.drop skip) := by
  induction bytes generalizing skip with
  | nil => cases skip <;> rfl
  | cons byte rest ih =>
      cases skip with
      | zero => rfl
      | succ skip => exact ih skip

theorem skip_name_root (p : Nat) :
    skipName 0 (packet.drop p) = (rootAt packet p).map fun root => packet.drop (root + 1) := by
  induction p using rootAt.induct packet with
  | case1 p read =>
      rw [root_end packet p read, List.drop_eq_nil_iff.mpr (List.getElem?_eq_none_iff.mp read)]
      rfl
  | case2 p read =>
      rw [root_byte packet p 0 read, if_pos rfl, drop_read packet p 0 read]
      rfl
  | case3 p byte read used ih =>
      rw [root_byte packet p byte read, if_neg used, drop_read packet p byte read, skipName, if_neg used, skip_name_drop,
        List.drop_drop, Nat.add_right_comm, ih]

theorem skip_questions_walk (count p : Nat) :
    skipQuestions count (packet.drop p) = (questionsFrom packet count p).map fun r => packet.drop r := by
  induction count generalizing p with
  | zero => rfl
  | succ count ih =>
      rw [skipQuestions, skip_name_root, questionsFrom, Option.bind_map, Option.map_bind]
      refine Option.bind_congr fun root _ => ?_
      rw [Function.comp_apply, List.drop_drop]
      exact ih _

theorem skip_owner_walk (p : Nat) :
    skipOwner (packet.drop p) = (ownerFrom packet p).map fun record => packet.drop record := by
  rw [ownerFrom]
  cases read : packet[p]? with
  | none =>
      rw [List.drop_eq_nil_iff.mpr (List.getElem?_eq_none_iff.mp read)]
      rfl
  | some byte =>
      have name := skip_name_root packet p
      rw [drop_read packet p byte read] at name ⊢
      rw [Option.bind_some]
      simp only [skipOwner]
      by_cases mark : byte &&& 0xC0 = 0xC0
      · rw [if_pos mark, if_pos mark, ← drop_read packet p byte read, List.drop_drop]
        rfl
      · rw [if_neg mark, if_neg mark, name, Option.map_map]
        rfl

theorem parse_answers_walk (count p : Nat) :
    parseAnswers count (packet.drop p) = (answersFrom packet count p).map Walk.stored := by
  induction count generalizing p with
  | zero => rfl
  | succ count ih =>
      rw [parseAnswers, skip_owner_walk, answersFrom, Option.bind_map, Option.map_bind]
      refine Option.bind_congr fun record _ => ?_
      rw [Function.comp_apply, Function.comp_apply, be_word_drop, be_word_drop, List.length_drop, Nat.add_zero,
        List.drop_drop, List.drop_drop, ih, ← Nat.add_assoc]
      have cut : packet.length - record < 10 ↔ packet.length < record + 10 := by omega
      have short : packet.length - record < 14 ↔ packet.length < record + 14 := by omega
      simp only [cut, short]
      split_ifs
      all_goals rfl

theorem udp_process_walk (enough : 20 ≤ packet.length) :
    udpProcess packet packet.length = (udpWalk packet).map fun verdict => verdict.walk.stored := by
  have eight : ¬ packet.length < 8 := by omega
  have twenty : ¬ packet.length < 20 := Nat.not_lt.mpr enough
  rw [udpProcess, udpWalk, if_neg eight, if_neg eight]
  by_cases port : beWord packet 0 ≠ 53
  · rw [if_pos (Or.inl port), if_pos port]
    rfl
  rw [if_neg port]
  by_cases small : (beWord packet 4 + 2 ^ 32 - 8) % 2 ^ 32 < 12
  · rw [if_pos (Or.inr small), if_pos small]
    rfl
  · rw [if_neg (not_or.mpr ⟨port, small⟩), if_neg small, if_neg twenty, if_neg (by omega : ¬ packet.length < 14),
      skip_questions_walk, Option.bind_map, Option.map_bind]
    refine Option.bind_congr fun p _ => ?_
    rw [Function.comp_apply, Function.comp_apply, if_neg (by omega : ¬ packet.length < 16), parse_answers_walk,
      Option.map_map]
    rfl

theorem be_word_lt (i : Nat) : beWord packet i < 65536 := by
  have high := (packet.getD i 0).toNat_lt
  have low := (packet.getD (i + 1) 0).toNat_lt
  rw [beWord]
  omega

theorem records_walked (long : 20 ≤ packet.length) : Decodes packet ↔
    20 ≤ beWord packet 4 ∧ beWord packet 4 ≤ packet.length ∧
      ∃ p walk, questionsFrom packet (beWord packet 12) 20 = some p ∧ answersFrom packet (beWord packet 14) p = some walk ∧
        walk.cursor ≤ packet.length := by
  constructor
  · rintro ⟨header, length, rest, questions, answers⟩
    obtain ⟨p, walked, inside, behind⟩ := questions_walked packet _ _ rest questions 20 long rfl
    obtain ⟨walk, further, short⟩ := answers_walked packet _ rest answers p inside behind
    exact ⟨header, length, p, walk, walked, further, short⟩
  · rintro ⟨header, length, p, walk, walked, further, short⟩
    obtain ⟨later, answers⟩ := answers_then packet _ p walk further
    exact ⟨header, length, packet.drop p, (questions_then packet _ 20 p walked).2 (later.trans short), answers short⟩

section
variable (port : beWord packet 0 = 53)
include port

theorem udp_walk_some (long : ¬ packet.length < 8) (large : ¬ (8 ≤ beWord packet 4 ∧ beWord packet 4 < 20))
    (verdict : Verdict) : udpWalk packet = some verdict ↔
      16 ≤ packet.length ∧ ∃ p walk, questionsFrom packet (beWord packet 12) 20 = some p ∧
        answersFrom packet (beWord packet 14) p = some walk ∧ verdict = ⟨0, walk⟩ := by
  have field := be_word_lt packet 4
  have parsed : ¬ (beWord packet 4 + 2 ^ 32 - 8) % 2 ^ 32 < 12 := by omega
  rw [udpWalk, if_neg long, if_neg (not_not_intro port), if_neg parsed]
  constructor
  · intro walked
    split_ifs at walked with cut bare
    · obtain ⟨_, _, walked⟩ := Option.bind_eq_some_iff.mp walked
      cases walked
    · obtain ⟨p, questions, walked⟩ := Option.bind_eq_some_iff.mp walked
      obtain ⟨walk, answers, same⟩ := Option.map_eq_some_iff.mp walked
      exact ⟨Nat.not_lt.mp bare, p, walk, questions, answers, same.symm⟩
  · rintro ⟨enough, p, walk, questions, answers, rfl⟩
    rw [if_neg (by omega), questions, Option.bind_some, if_neg (Nat.not_lt.mpr enough), answers]
    rfl

theorem udp_walk_rejects (short : packet.length < 8 ∨ 8 ≤ beWord packet 4 ∧ beWord packet 4 < 20) :
    ∃ cursor, udpWalk packet = some ⟨-1, ⟨cursor, none⟩⟩ := by
  rw [udpWalk]
  by_cases tiny : packet.length < 8
  · exact ⟨0, if_pos tiny⟩
  · have small := short.resolve_left tiny
    have field := be_word_lt packet 4
    rw [if_neg tiny, if_neg (not_not_intro port), if_pos (by omega)]
    exact ⟨8, rfl⟩

theorem udp_walks_inside : WalksInside packet ↔
    packet.length < 8 ∨ (8 ≤ beWord packet 4 ∧ beWord packet 4 < 20) ∨ Decodes packet := by
  rw [WalksInside, ← or_assoc]
  by_cases short : packet.length < 8 ∨ 8 ≤ beWord packet 4 ∧ beWord packet 4 < 20
  · obtain ⟨cursor, rejected⟩ := udp_walk_rejects packet port short
    exact iff_of_true ⟨_, rejected, fun _ => ⟨rfl, rfl⟩⟩ (Or.inl short)
  obtain ⟨long, large⟩ := not_or.mp short
  rw [or_iff_right short]
  constructor
  · rintro ⟨verdict, walked, rejected⟩
    obtain ⟨enough, p, walk, questions, answers, rfl⟩ := (udp_walk_some packet port long large verdict).mp walked
    have accepted : ¬ (beWord packet 4 < 8 ∨ packet.length < beWord packet 4 ∨ packet.length < walk.cursor) :=
      fun outside => by cases (rejected outside).1
    rw [not_or, not_or] at accepted
    rw [records_walked packet (by omega)]
    exact ⟨by omega, by omega, p, walk, questions, answers, by omega⟩
  · intro decodes
    have header := decodes.header
    have length := decodes.length
    obtain ⟨_, _, p, walk, questions, answers, inside⟩ := (records_walked packet (header.trans length)).mp decodes
    refine ⟨⟨0, walk⟩, (udp_walk_some packet port long large _).mpr ⟨by omega, p, walk, questions, answers, rfl⟩,
      fun outside => ?_⟩
    dsimp only at outside
    omega
end
end

def cutAnswer : List UInt8 := [0, 53, 0x13, 0x88, 0, 20, 0, 0, 0xCA, 0xFE, 0x81, 0x80, 0, 1, 0, 1, 0, 0, 0, 0]

def answerRecord : List UInt8 := [0, 1, 0, 1, 0, 0, 0, 60, 0, 4, 10, 0, 0, 9]

def addressAnswer : List UInt8 :=
  [0, 53, 0x13, 0x88, 0, 43, 0, 0, 0xCA, 0xFE, 0x81, 0x80, 0, 1, 0, 1, 0, 0, 0, 0] ++
    ([1, 97, 0, 0, 1, 0, 1] ++ 0xC0 :: 12 :: answerRecord)

theorem udp_walks_inside_address : WalksInside addressAnswer := by
  have name : NameThen ([1, 97, 0, 0, 1, 0, 1] ++ 0xC0 :: 12 :: answerRecord) ([0, 1, 0, 1] ++ 0xC0 :: 12 :: answerRecord) :=
    .label 1 (97 :: 0 :: _) _ (by decide) (by decide) (.root _)
  have question : QuestionsThen 1 ([1, 97, 0, 0, 1, 0, 1] ++ 0xC0 :: 12 :: answerRecord) (0xC0 :: 12 :: answerRecord) :=
    .question 0 _ _ _ name (by decide) (.done _)
  have answer : AnswersIn 1 (0xC0 :: 12 :: answerRecord) :=
    .address 0 _ answerRecord (.pointer 0xC0 12 _ (by decide)) (by decide) (by decide)
  exact (udp_walks_inside addressAnswer (by decide)).mpr (Or.inr (Or.inr ⟨by decide, by decide, _, question, answer⟩))

theorem udp_walks_outside : ¬ ∀ packet, beWord packet 0 = 53 → WalksInside packet := by
  intro claimed
  obtain ⟨verdict, walked, _⟩ := claimed cutAnswer (by decide)
  have outside : (udpWalk cutAnswer).isNone = true := by decide +kernel
  rw [walked] at outside
  cases outside

end RoDos.Dns
