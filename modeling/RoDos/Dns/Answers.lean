import RoDos.Dns.Bounds
import RoDos.Net.Words

set_option autoImplicit false

namespace RoDos.Dns

open Base Tcp RoDos.Net

structure Label where
  bytes : List UInt8
  used : bytes ≠ []
  short : bytes.length ≤ 63

inductive NameEnd where
  | root
  | pointer (high low : UInt8) (mark : high &&& 0xC0 = 0xC0)

structure DnsName where
  labels : List Label
  ending : NameEnd

def Label.encoded (label : Label) : List UInt8 := UInt8.ofNat label.bytes.length :: label.bytes

def NameEnd.encoded : NameEnd → List UInt8
  | .root => [0]
  | .pointer high low _ => [high, low]

def DnsName.encoded (name : DnsName) : List UInt8 := name.labels.flatMap Label.encoded ++ name.ending.encoded

structure Question where
  name : DnsName
  qtype : UInt16
  qclass : UInt16

def Question.encoded (question : Question) : List UInt8 :=
  question.name.encoded ++ (bigEndian16 question.qtype ++ bigEndian16 question.qclass)

structure Record where
  owner : DnsName
  kind : UInt16
  recordClass : UInt16
  ttl : UInt32
  data : List UInt8

def Record.fields (record : Record) : List UInt8 :=
  bigEndian16 record.kind ++ bigEndian16 record.recordClass ++ bigEndian record.ttl ++
    bigEndian16 (UInt16.ofNat record.data.length)

def Record.encoded (record : Record) : List UInt8 := record.owner.encoded ++ (record.fields ++ record.data)

-- further is what stands behind the answers, authority and additional records included.
structure Message where
  id : UInt16
  flags : UInt16
  questions : List Question
  answers : List Record
  authority : UInt16
  additional : UInt16
  further : List UInt8

def Message.sections (message : Message) : List UInt8 :=
  message.questions.flatMap Question.encoded ++ (message.answers.flatMap Record.encoded ++ message.further)

def Message.header (message : Message) : List UInt8 :=
  bigEndian16 message.id ++ bigEndian16 message.flags ++ bigEndian16 (UInt16.ofNat message.questions.length) ++
    bigEndian16 (UInt16.ofNat message.answers.length) ++ bigEndian16 message.authority ++ bigEndian16 message.additional

structure Message.Fits (message : Message) : Prop where
  questions : message.questions.length < 65536
  answers : message.answers.length < 65536
  data : ∀ record ∈ message.answers, record.data.length < 65536
  whole : 20 + message.sections.length < 65536

def datagram (message : Message) (destPort checksum : UInt16) : List UInt8 :=
  bigEndian16 53 ++ bigEndian16 destPort ++ bigEndian16 (UInt16.ofNat (20 + message.sections.length)) ++
    bigEndian16 checksum ++ message.header ++ message.sections

def Record.IsAddress (record : Record) : Prop := record.kind = 1 ∧ record.data.length = 4

instance (record : Record) : Decidable record.IsAddress := inferInstanceAs (Decidable (_ ∧ _))

def firstAddress (answers : List Record) : Option UInt32 :=
  (answers.find? fun record => record.IsAddress).map fun record => beAddress record.data

def StoresFirst (message : Message) : Prop :=
  ∀ destPort checksum behind len, (datagram message destPort checksum).length ≤ len →
    udpProcess (datagram message destPort checksum ++ behind) len = some (firstAddress message.answers)

def DnsName.Plain (name : DnsName) : Prop := name.labels = [] ∨ name.ending = .root

def OwnersPlain : List Record → Prop
  | [] => True
  | record :: rest => record.owner.Plain ∧ (record.IsAddress ∨ OwnersPlain rest)

def QuestionsPlain (message : Message) : Prop := ∀ question ∈ message.questions, question.name.ending = .root

section
variable (label : List UInt8) (short : label.length ≤ 63)
include short

theorem label_size : (UInt8.ofNat label.length).toNat = label.length :=
  UInt8.toNat_ofNat_of_lt' (Nat.lt_of_le_of_lt short (by decide))

theorem label_size_used (used : label ≠ []) : UInt8.ofNat label.length ≠ 0 := by
  intro zero
  have size := label_size label short
  rw [zero] at size
  exact used (List.length_eq_zero_iff.mp size.symm)

theorem label_size_unmarked : ¬ UInt8.ofNat label.length &&& 0xC0 = 0xC0 := by
  have plain : ∀ size ≤ 63, ¬ UInt8.ofNat size &&& 0xC0 = 0xC0 := by decide
  exact plain label.length short
end

theorem skip_labels (labels : List Label) (rest : List UInt8) :
    skipName 0 (labels.flatMap Label.encoded ++ rest) = skipName 0 rest := by
  induction labels with
  | nil => rfl
  | cons label labels ih =>
      rw [List.flatMap_cons, List.append_assoc, Label.encoded, List.cons_append, skipName,
        if_neg (label_size_used _ label.short label.used), label_size _ label.short, skip_name_drop, List.drop_left, ih]

theorem skip_root (name : DnsName) (rooted : name.ending = .root) (rest : List UInt8) :
    skipName 0 (name.encoded ++ rest) = some rest := by
  rw [DnsName.encoded, rooted, List.append_assoc, skip_labels]
  rfl

theorem skip_plain_questions (questions : List Question) (rooted : ∀ question ∈ questions, question.name.ending = .root)
    (rest : List UInt8) : skipQuestions questions.length (questions.flatMap Question.encoded ++ rest) = some rest := by
  induction questions with
  | nil => rfl
  | cons question questions ih =>
      rw [List.flatMap_cons, Question.encoded, List.append_assoc, List.append_assoc, List.length_cons, skipQuestions,
        skip_root _ (rooted question List.mem_cons_self), Option.bind_some]
      exact ih fun other member => rooted other (List.mem_cons_of_mem _ member)

theorem skip_plain_owner (name : DnsName) (plain : name.Plain) (rest : List UInt8) :
    skipOwner (name.encoded ++ rest) = some rest := by
  have rooted (root : name.ending = .root) (byte : UInt8) (tail : List UInt8) (start : name.encoded ++ rest = byte :: tail)
      (unmarked : ¬ byte &&& 0xC0 = 0xC0) : skipOwner (name.encoded ++ rest) = some rest := by
    have walked := skip_root name root rest
    rw [start] at walked ⊢
    exact (if_neg unmarked).trans walked
  cases labels : name.labels with
  | nil =>
      have encoded : name.encoded = name.ending.encoded := by rw [DnsName.encoded, labels]; rfl
      cases ending : name.ending with
      | root =>
          refine rooted ending 0 rest ?_ (by decide)
          rw [encoded, ending]
          rfl
      | pointer high low mark =>
          rw [encoded, ending]
          exact if_pos mark
  | cons label others =>
      have root : name.ending = .root := plain.resolve_left (by rw [labels]; exact List.cons_ne_nil _ _)
      refine rooted root (UInt8.ofNat label.bytes.length) (label.bytes ++ (others.flatMap Label.encoded ++
        (name.ending.encoded ++ rest))) ?_ (label_size_unmarked _ label.short)
      rw [DnsName.encoded, labels, List.flatMap_cons, List.append_assoc, List.append_assoc, Label.encoded, List.cons_append]

theorem skip_record_owner (record : Record) (plain : record.owner.Plain) (rest : List UInt8) :
    skipOwner (record.encoded ++ rest) = some (record.fields ++ (record.data ++ rest)) := by
  rw [Record.encoded, List.append_assoc, List.append_assoc, skip_plain_owner _ plain]

theorem be_word_half (front rest : List UInt8) (value : UInt16) :
    beWord (front ++ (bigEndian16 value ++ rest)) front.length = value.toNat := by
  rw [beWord, Nat.mul_comm]
  exact half_behind front rest value

theorem be_word_size (front rest : List UInt8) (size : Nat) (small : size < 65536) :
    beWord (front ++ (bigEndian16 (UInt16.ofNat size) ++ rest)) front.length = size := by
  rw [be_word_half]
  exact UInt16.toNat_ofNat_of_lt' small

section
variable (record : Record) (fits : record.data.length < 65536) (rest : List UInt8)

theorem record_fields_length : record.fields.length = 10 := rfl

theorem record_kind : beWord (record.fields ++ rest) 0 = record.kind.toNat := by
  rw [Record.fields, List.append_assoc, List.append_assoc, List.append_assoc]
  exact be_word_half [] _ record.kind

include fits in
theorem record_size : beWord (record.fields ++ rest) 8 = record.data.length := by
  rw [Record.fields, List.append_assoc]
  exact be_word_size (bigEndian16 record.kind ++ bigEndian16 record.recordClass ++ bigEndian record.ttl) rest _ fits

include fits in
theorem record_address : beWord (record.fields ++ rest) 0 = 1 ∧ beWord (record.fields ++ rest) 8 = 4 ↔ record.IsAddress := by
  rw [record_kind, record_size record fits, Record.IsAddress, ← UInt16.toNat_inj]
  rfl

include fits in
theorem parse_record (plain : record.owner.Plain) (count : Nat) : parseAnswers (count + 1) (record.encoded ++ rest) =
    if record.IsAddress then some (some (beAddress record.data)) else parseAnswers count rest := by
  have length : (record.fields ++ (record.data ++ rest)).length = 10 + (record.data.length + rest.length) := by
    rw [List.length_append, List.length_append, record_fields_length]
  have behind : (record.fields ++ (record.data ++ rest)).drop (10 + record.data.length) = rest := by
    rw [← List.drop_drop, List.drop_left' (record_fields_length record), List.drop_left]
  rw [parseAnswers, skip_record_owner record plain, Option.bind_some, if_neg (by omega), record_size record fits, behind]
  have known := record_address record fits (record.data ++ rest)
  rw [record_size record fits] at known
  by_cases address : record.IsAddress
  · have four := address.2
    have value : beAddress ((record.fields ++ (record.data ++ rest)).drop 10) = beAddress record.data := by
      rw [List.drop_left' (record_fields_length record), beAddress, beAddress, List.getD_append _ _ _ _ (by omega),
        List.getD_append _ _ _ _ (by omega), List.getD_append _ _ _ _ (by omega), List.getD_append _ _ _ _ (by omega)]
    rw [if_pos (known.mpr address), if_pos address, if_neg (by omega), value]
  · rw [if_neg fun both => address (known.mp both), if_neg address]
end

theorem parse_plain_answers (answers : List Record) (fits : ∀ record ∈ answers, record.data.length < 65536)
    (plain : OwnersPlain answers) (rest : List UInt8) :
    parseAnswers answers.length (answers.flatMap Record.encoded ++ rest) = some (firstAddress answers) := by
  induction answers with
  | nil => rfl
  | cons record answers ih =>
      rw [List.length_cons, List.flatMap_cons, List.append_assoc, parse_record record (fits record List.mem_cons_self) _ plain.1,
        firstAddress]
      by_cases address : record.IsAddress
      · rw [if_pos address]
        simp only [List.find?_cons, decide_eq_true address, Option.map_some]
      · rw [if_neg address]
        simp only [List.find?_cons, decide_eq_false address]
        exact ih (fun other member => fits other (List.mem_cons_of_mem _ member)) (plain.2.resolve_left address)

section
variable (message : Message) (fits : message.Fits) (destPort checksum : UInt16) (behind : List UInt8) (len : Nat)

theorem header_length : message.header.length = 12 := rfl

def datagramFront (message : Message) (destPort checksum : UInt16) : List UInt8 :=
  bigEndian16 53 ++ bigEndian16 destPort ++ bigEndian16 (UInt16.ofNat (20 + message.sections.length)) ++
    bigEndian16 checksum ++ message.header

theorem datagram_split : datagram message destPort checksum ++ behind =
    datagramFront message destPort checksum ++ (message.sections ++ behind) := List.append_assoc _ _ _

include fits in
theorem datagram_fields : beWord (datagram message destPort checksum ++ behind) 0 = 53 ∧
    beWord (datagram message destPort checksum ++ behind) 4 = 20 + message.sections.length ∧
    beWord (datagram message destPort checksum ++ behind) 12 = message.questions.length ∧
    beWord (datagram message destPort checksum ++ behind) 14 = message.answers.length := by
  refine ⟨be_word_half [] _ 53, ?_, ?_, ?_⟩
  · exact be_word_size (bigEndian16 53 ++ bigEndian16 destPort) (bigEndian16 checksum ++ (message.header ++
      (message.sections ++ behind))) _ fits.whole
  · exact be_word_size (bigEndian16 53 ++ bigEndian16 destPort ++
      bigEndian16 (UInt16.ofNat (20 + message.sections.length)) ++ bigEndian16 checksum ++ bigEndian16 message.id ++
      bigEndian16 message.flags) (bigEndian16 (UInt16.ofNat message.answers.length) ++ bigEndian16 message.authority ++
      bigEndian16 message.additional ++ (message.sections ++ behind)) _ fits.questions
  · exact be_word_size (bigEndian16 53 ++ bigEndian16 destPort ++
      bigEndian16 (UInt16.ofNat (20 + message.sections.length)) ++ bigEndian16 checksum ++ bigEndian16 message.id ++
      bigEndian16 message.flags ++ bigEndian16 (UInt16.ofNat message.questions.length)) (bigEndian16 message.authority ++
      bigEndian16 message.additional ++ (message.sections ++ behind)) _ fits.answers

include fits in
theorem process_datagram (whole : (datagram message destPort checksum).length ≤ len) :
    udpProcess (datagram message destPort checksum ++ behind) len =
      (skipQuestions message.questions.length (message.sections ++ behind)).bind fun p =>
        parseAnswers message.answers.length p := by
  have front : (datagramFront message destPort checksum).length = 20 := rfl
  have long : (datagram message destPort checksum).length = 20 + message.sections.length := List.length_append
  obtain ⟨port, size, asked, answered⟩ := datagram_fields message fits destPort checksum behind
  have body : (datagram message destPort checksum ++ behind).drop 20 = message.sections ++ behind := by
    rw [datagram_split, List.drop_left' front]
  have enough : ¬ (datagram message destPort checksum ++ behind).length < 20 := by
    rw [List.length_append, long]
    omega
  have small := fits.whole
  have payload : (20 + message.sections.length + 2 ^ 32 - 8) % 2 ^ 32 = 12 + message.sections.length := by omega
  have parsed : ¬ (53 ≠ 53 ∨ 12 + message.sections.length < 12) := by omega
  rw [udpProcess, if_neg (by omega : ¬ len < 8), port, size]
  dsimp only
  rw [payload, if_neg parsed, if_neg enough, asked, answered, body]
end

theorem plain_stores_first (message : Message) (fits : message.Fits) (questions : QuestionsPlain message)
    (owners : OwnersPlain message.answers) : StoresFirst message := by
  intro destPort checksum behind len whole
  rw [process_datagram message fits destPort checksum behind len whole, Message.sections, List.append_assoc,
    skip_plain_questions _ questions, Option.bind_some, List.append_assoc]
  exact parse_plain_answers _ fits.data owners _

theorem marked_byte (high : UInt8) (mark : high &&& 0xC0 = 0xC0) : 192 ≤ high.toNat :=
  calc 192
    _ = (high &&& 0xC0).toNat := by rw [mark]; rfl
    _ = high.toNat &&& 192 := UInt8.toNat_and high 0xC0
    _ ≤ high.toNat := Nat.and_le_left

-- Behind the labels of a mixed name the pointer counts as the length of one more label.
theorem skip_mixed_owner (name : DnsName) (mixed : ¬ name.Plain) :
    ∃ jump, 191 ≤ jump ∧ ∀ rest, skipOwner (name.encoded ++ rest) = skipName 0 (rest.drop jump) := by
  rw [DnsName.Plain, not_or] at mixed
  obtain ⟨label, others, labels⟩ := List.exists_cons_of_ne_nil mixed.1
  cases ending : name.ending with
  | root => exact absurd ending mixed.2
  | pointer high low mark =>
      have large := marked_byte high mark
      have used : high ≠ 0 := by
        intro zero
        rw [zero] at large
        exact absurd large (by decide)
      refine ⟨high.toNat - 1, by omega, fun rest => ?_⟩
      have start : name.encoded ++ rest = UInt8.ofNat label.bytes.length ::
          (label.bytes ++ (others.flatMap Label.encoded ++ ([high, low] ++ rest))) := by
        rw [DnsName.encoded, labels, ending, List.flatMap_cons, List.append_assoc, List.append_assoc, Label.encoded,
          List.cons_append]
        rfl
      have walked : skipName 0 (name.encoded ++ rest) = skipName 0 (high :: low :: rest) := by
        rw [DnsName.encoded, ending, List.append_assoc, skip_labels]
        rfl
      have owner : skipOwner (name.encoded ++ rest) = skipName 0 (name.encoded ++ rest) := by
        rw [start]
        exact if_neg (label_size_unmarked _ label.short)
      rw [owner, walked, skipName, if_neg used, skip_name_drop]
      obtain ⟨jump, split⟩ := Nat.exists_eq_add_of_le' (Nat.le_trans (by decide : 1 ≤ 192) large)
      rw [split, List.drop_succ_cons, Nat.add_sub_cancel]

def Record.withAddress (record : Record) (address : UInt32) : Record := { record with data := bigEndian address }

theorem parse_mixed_record (record : Record) (mixed : ¬ record.owner.Plain) (four : record.data.length = 4)
    (address : UInt32) (count : Nat) (rest : List UInt8) :
    parseAnswers (count + 1) (record.encoded ++ rest) =
      parseAnswers (count + 1) ((record.withAddress address).encoded ++ rest) := by
  obtain ⟨jump, far, skipped⟩ := skip_mixed_owner record.owner mixed
  have past (data : List UInt8) (own : data.length = 4) :
      (record.fields ++ (data ++ rest)).drop jump = rest.drop (jump - 14) := by
    obtain ⟨more, split⟩ := Nat.exists_eq_add_of_le (Nat.le_trans (by decide : 14 ≤ 191) far)
    have fourteen : (record.fields ++ data).length = 14 := by
      rw [List.length_append, record_fields_length, own]
    rw [split, ← List.append_assoc, ← fourteen, List.drop_length_add_append, Nat.add_sub_cancel_left]
  have fields : (record.withAddress address).fields = record.fields := by
    rw [Record.fields, Record.fields, four]
    rfl
  have encoded : (record.withAddress address).encoded ++ rest =
      record.owner.encoded ++ (record.fields ++ (bigEndian address ++ rest)) := by
    rw [Record.encoded, fields, List.append_assoc, List.append_assoc]
    rfl
  rw [parseAnswers, parseAnswers, encoded, Record.encoded, List.append_assoc, List.append_assoc, skipped, skipped, past _ four,
    past _ rfl]

theorem parse_front (front : List Record) (fits : ∀ record ∈ front, record.data.length < 65536)
    (plain : ∀ record ∈ front, record.owner.Plain ∧ ¬ record.IsAddress) (count : Nat) (rest : List UInt8) :
    parseAnswers (front.length + count) (front.flatMap Record.encoded ++ rest) = parseAnswers count rest := by
  induction front with
  | nil => rw [List.length_nil, Nat.zero_add]; rfl
  | cons record front ih =>
      have own := plain record List.mem_cons_self
      rw [List.length_cons, Nat.add_right_comm, List.flatMap_cons, List.append_assoc,
        parse_record record (fits record List.mem_cons_self) _ own.1, if_neg own.2]
      exact ih (fun other member => fits other (List.mem_cons_of_mem _ member))
        fun other member => plain other (List.mem_cons_of_mem _ member)

theorem first_address_behind (front back : List Record) (record : Record) (skipped : ∀ other ∈ front, ¬ other.IsAddress)
    (address : record.IsAddress) : firstAddress (front ++ record :: back) = some (beAddress record.data) := by
  have none' : front.find? (fun other => decide other.IsAddress) = none :=
    List.find?_eq_none.mpr fun other member => by rw [decide_eq_true_eq]; exact skipped other member
  rw [firstAddress, List.find?_append, none', Option.none_or]
  simp only [List.find?_cons, decide_eq_true address, Option.map_some]

section
variable (message : Message) (front back : List Record) (record : Record) (address : UInt32)

def Message.withAnswers (message : Message) (answers : List Record) : Message := { message with answers := answers }

variable (answers : message.answers = front ++ record :: back) (four : record.data.length = 4)
include answers four

theorem other_fits (fits : message.Fits) : (message.withAnswers (front ++ record.withAddress address :: back)).Fits := by
  have fields (one : Record) (data : List UInt8) (same : data.length = one.data.length) :
      ({ one with data := data } : Record).encoded.length = one.encoded.length := by
    rw [Record.encoded, Record.encoded, List.length_append, List.length_append, List.length_append, List.length_append, same]
    rfl
  refine ⟨fits.questions, ?_, fun one member => ?_, ?_⟩
  · have count := fits.answers
    rw [answers, List.length_append, List.length_cons] at count
    rw [Message.withAnswers, List.length_append, List.length_cons]
    exact count
  · rcases List.mem_append.mp member with before | here
    · exact fits.data one (by rw [answers]; exact List.mem_append_left _ before)
    · rcases List.mem_cons.mp here with rfl | later
      · exact (by decide : 4 < 65536)
      · exact fits.data one (by rw [answers]; exact List.mem_append_right _ (List.mem_cons_of_mem _ later))
  · have whole := fits.whole
    have same := fields record (bigEndian address) four.symm
    simp only [Message.sections, answers, List.length_append, List.flatMap_append, List.flatMap_cons] at whole
    simp only [Message.sections, Message.withAnswers, List.length_append, List.flatMap_append, List.flatMap_cons,
      Record.withAddress, same]
    exact whole

theorem mixed_stores_one (fits : message.Fits) (questions : QuestionsPlain message)
    (before : ∀ other ∈ front, other.owner.Plain ∧ ¬ other.IsAddress) (mixed : ¬ record.owner.Plain)
    (kind : record.kind = 1) (different : address ≠ beAddress record.data) :
    ¬ (StoresFirst message ∧ StoresFirst (message.withAnswers (front ++ record.withAddress address :: back))) := by
  rintro ⟨one, two⟩
  have skipped (other : Record) (member : other ∈ front) : ¬ other.IsAddress := (before other member).2
  have here := one 0 0 [] _ (Nat.le_refl _)
  have there := two 0 0 [] _ (Nat.le_refl _)
  have frontFits (other : Record) (member : other ∈ front) : other.data.length < 65536 :=
    fits.data other (by rw [answers]; exact List.mem_append_left _ member)
  have walk (last : Record) : parseAnswers (front ++ last :: back).length
      ((front ++ last :: back).flatMap Record.encoded ++ (message.further ++ [])) =
      parseAnswers (back.length + 1) (last.encoded ++ (back.flatMap Record.encoded ++ (message.further ++ []))) := by
    rw [List.length_append, List.length_cons, List.flatMap_append, List.flatMap_cons, List.append_assoc, List.append_assoc,
      parse_front front frontFits before]
  rw [process_datagram message fits 0 0 [] _ (Nat.le_refl _), Message.sections, List.append_assoc,
    skip_plain_questions _ questions, Option.bind_some, List.append_assoc, answers, walk,
    first_address_behind front back record skipped ⟨kind, four⟩] at here
  have found : firstAddress (message.withAnswers (front ++ record.withAddress address :: back)).answers =
      some (beAddress (record.withAddress address).data) := first_address_behind front back _ skipped ⟨kind, rfl⟩
  rw [process_datagram _ (other_fits message front back record address answers four fits) 0 0 [] _ (Nat.le_refl _), found,
    Message.sections, List.append_assoc, Message.withAnswers, skip_plain_questions _ questions, Option.bind_some,
    List.append_assoc, walk, ← parse_mixed_record record mixed four address, here] at there
  have value : beAddress (record.withAddress address).data = address := from_big_endian address []
  rw [value] at there
  exact different (Option.some.inj (Option.some.inj there)).symm
end

theorem first_address_stored (message : Message) (fits : message.Fits) :
    (QuestionsPlain message ∧ OwnersPlain message.answers → StoresFirst message) ∧
    ∀ front record back, QuestionsPlain message → message.answers = front ++ record :: back →
      (∀ other ∈ front, other.owner.Plain ∧ ¬ other.IsAddress) → ¬ record.owner.Plain → record.IsAddress →
      ∀ address, address ≠ beAddress record.data →
        ¬ (StoresFirst message ∧ StoresFirst (message.withAnswers (front ++ record.withAddress address :: back))) :=
  ⟨fun plain => plain_stores_first message fits plain.1 plain.2,
    fun front record back questions answers before mixed kind address different =>
      mixed_stores_one message front back record address answers kind.2 fits questions before mixed kind.1 different⟩

def exampleName : DnsName := ⟨[⟨ascii "example", by decide, by decide⟩, ⟨ascii "org", by decide, by decide⟩], .root⟩

def pointerName : DnsName := ⟨[], .pointer 0xC0 0x0C (by decide)⟩

def mixedName : DnsName := ⟨[⟨ascii "www", by decide, by decide⟩], .pointer 0xC0 0x0C (by decide)⟩

def answeredFor (owner : DnsName) : Message where
  id := 0xCAFE
  flags := 0x8180
  questions := [⟨exampleName, 1, 1⟩]
  answers := [⟨pointerName, 5, 1, 300, pointerName.encoded⟩, ⟨owner, 1, 1, 300, [10, 0, 2, 2]⟩]
  authority := 0
  additional := 0
  further := []

theorem answered_fits : (answeredFor pointerName).Fits ∧ (answeredFor mixedName).Fits :=
  ⟨⟨by decide, by decide, by decide, by decide⟩, ⟨by decide, by decide, by decide, by decide⟩⟩

theorem first_address_stored_pointer :
    udpProcess (datagram (answeredFor pointerName) 5000 0 ++ []) (datagram (answeredFor pointerName) 5000 0).length =
      some (some 0x0A000202) :=
  (first_address_stored (answeredFor pointerName) answered_fits.1).1
    ⟨fun question member => by rw [List.mem_singleton.mp member]; rfl,
      ⟨Or.inl rfl, Or.inr ⟨Or.inl rfl, Or.inl (by decide)⟩⟩⟩ 5000 0 [] _ (Nat.le_refl _)

theorem first_address_missed : ¬ ∀ message : Message, message.Fits → StoresFirst message := by
  intro claimed
  have stored := claimed (answeredFor mixedName) answered_fits.2 5000 0 [] _ (Nat.le_refl _)
  have missed : udpProcess (datagram (answeredFor mixedName) 5000 0 ++ []) (datagram (answeredFor mixedName) 5000 0).length =
      none := by decide +kernel
  rw [missed] at stored
  cases stored

end RoDos.Dns
