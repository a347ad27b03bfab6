import RoDos.Dns.Model

set_option autoImplicit false

namespace RoDos.Dns

open Base

def Carries (frame : List UInt8) (ip : UInt32) : Prop := ipReceive frame frame.length = some (some ip)

def Owned (responses : List Response) (hostname : List UInt8) (ip : UInt32) : Prop :=
  ip = 0 ∨ staticEntry hostname = some ip ∨
    ∃ response ∈ responses, qname hostname = some response.name ∧ Carries response.frame ip

def storesAddress (net : Net) (frame : List UInt8) : Bool :=
  (ipReceive (filled net frame) frame.length).any fun stored => stored.any fun ip => ip ≠ 0

-- A name that is asked for fits last_dns_host, and an address comes only from a response for the name in last_dns_host and
-- from inside its frame.
def AnswersCurrent (net : Net) : NetOp → Prop
  | .resolve hostname _ => (cString hostname).length < 64 ∨ qname (cString hostname) = none
  | .arrive i => ∀ response ∈ net.responses[i]?, storesAddress net response.frame = true →
      qname net.lastDnsHost = some response.name ∧ ipReceive response.frame response.frame.length ≠ none
  | _ => True

theorem skip_name_longer (skip : Nat) (p q rest : List UInt8) (before : p <+: q) (walked : skipName skip p = some rest) :
    ∃ further, skipName skip q = some further ∧ rest <+: further := by
  induction p generalizing skip q rest with
  | nil => cases skip <;> cases walked
  | cons byte p ih =>
      obtain ⟨tail, rfl⟩ := before
      cases skip with
      | succ skip => exact ih skip (p ++ tail) rest (List.prefix_append _ _) walked
      | zero =>
          rw [skipName] at walked
          rw [List.cons_append, skipName]
          by_cases root : byte = 0
          · rw [if_pos root, Option.some.injEq] at walked
            exact ⟨p ++ tail, if_pos root, walked ▸ List.prefix_append _ _⟩
          · rw [if_neg root] at walked ⊢
            exact ih _ (p ++ tail) rest (List.prefix_append _ _) walked

theorem drop_longer (p q : List UInt8) (k : Nat) (before : p <+: q) : p.drop k <+: q.drop k := by
  obtain ⟨tail, rfl⟩ := before
  rw [List.drop_append]
  exact List.prefix_append _ _

theorem be_word_longer (p q : List UInt8) (i : Nat) (before : p <+: q) (inside : i + 1 < p.length) :
    beWord q i = beWord p i := by
  obtain ⟨tail, rfl⟩ := before
  rw [beWord, beWord, List.getD_append _ _ _ _ (by omega), List.getD_append _ _ _ _ inside]

theorem be_address_longer (p q : List UInt8) (before : p <+: q) (inside : 4 ≤ p.length) :
    beAddress q = beAddress p := by
  obtain ⟨tail, rfl⟩ := before
  rw [beAddress, beAddress, List.getD_append _ _ _ _ (by omega), List.getD_append _ _ _ _ (by omega),
    List.getD_append _ _ _ _ (by omega), List.getD_append _ _ _ _ (by omega)]

theorem skip_questions_longer (count : Nat) (p q rest : List UInt8) (before : p <+: q)
    (walked : skipQuestions count p = some rest) :
    ∃ further, skipQuestions count q = some further ∧ rest <+: further := by
  induction count generalizing p q with
  | zero =>
      cases walked
      exact ⟨q, rfl, before⟩
  | succ count ih =>
      obtain ⟨behind, name, walked⟩ := Option.bind_eq_some_iff.mp walked
      obtain ⟨further, same, longer⟩ := skip_name_longer 0 p q behind before name
      rw [skipQuestions, same]
      exact ih (behind.drop 4) (further.drop 4) (drop_longer behind further 4 longer) walked

theorem skip_owner_longer (p q record : List UInt8) (before : p <+: q) (walked : skipOwner p = some record) :
    ∃ further, skipOwner q = some further ∧ record <+: further := by
  cases p with
  | nil => cases walked
  | cons byte p =>
      obtain ⟨tail, same⟩ := before
      rw [← same]
      simp only [skipOwner] at walked
      simp only [List.cons_append, skipOwner]
      by_cases pointer : byte &&& 0xC0 = 0xC0
      · rw [if_pos pointer, Option.some.injEq] at walked
        refine ⟨_, if_pos pointer, ?_⟩
        rw [← walked]
        exact drop_longer _ _ 2 (List.prefix_append (byte :: p) tail)
      · rw [if_neg pointer] at walked ⊢
        exact skip_name_longer 0 _ _ record (List.prefix_append (byte :: p) tail) walked

theorem parse_answers_longer (count : Nat) (p q : List UInt8) (stored : Option UInt32) (before : p <+: q)
    (parsed : parseAnswers count p = some stored) : parseAnswers count q = some stored := by
  induction count generalizing p q with
  | zero => exact parsed
  | succ count ih =>
      obtain ⟨record, owner, parsed⟩ := Option.bind_eq_some_iff.mp parsed
      obtain ⟨further, same, longer⟩ := skip_owner_longer p q record before owner
      by_cases short : record.length < 10
      · rw [if_pos short] at parsed
        cases parsed
      have length := longer.length_le
      rw [if_neg short] at parsed
      rw [parseAnswers, same, Option.bind_some, if_neg (by omega),
        be_word_longer record further 0 longer (by omega), be_word_longer record further 8 longer (by omega)]
      by_cases address : beWord record 0 = 1 ∧ beWord record 8 = 4
      · rw [if_pos address] at parsed ⊢
        by_cases cut : record.length < 14
        · rw [if_pos cut] at parsed
          cases parsed
        · rw [if_neg cut] at parsed
          rw [if_neg (by omega), be_address_longer _ _ (drop_longer record further 10 longer)
            (by rw [List.length_drop]; omega)]
          exact parsed
      · rw [if_neg address] at parsed ⊢
        exact ih _ _ (drop_longer record further _ longer) parsed

theorem udp_process_longer (p q : List UInt8) (stored : Option UInt32) (before : p <+: q)
    (parsed : udpProcess p p.length = some stored) : udpProcess q p.length = some stored := by
  simp only [udpProcess] at parsed ⊢
  by_cases short : p.length < 8
  · rw [if_pos short] at parsed ⊢
    exact parsed
  rw [if_neg short] at parsed ⊢
  rw [be_word_longer p q 0 before (by omega), be_word_longer p q 4 before (by omega)]
  by_cases foreign : beWord p 0 ≠ 53 ∨ (beWord p 4 + 2 ^ 32 - 8) % 2 ^ 32 < 12
  · rw [if_pos foreign] at parsed ⊢
    exact parsed
  rw [if_neg foreign] at parsed ⊢
  by_cases cut : p.length < 20
  · rw [if_pos cut] at parsed
    cases parsed
  have length := before.length_le
  rw [if_neg cut] at parsed
  rw [if_neg (by omega), be_word_longer p q 12 before (by omega), be_word_longer p q 14 before (by omega)]
  obtain ⟨answers, questions, parsed⟩ := Option.bind_eq_some_iff.mp parsed
  obtain ⟨further, same, longer⟩ := skip_questions_longer _ _ _ answers (drop_longer p q 20 before) questions
  rw [same]
  exact parse_answers_longer _ answers further stored longer parsed

theorem ip_receive_longer (frame buffer : List UInt8) (stored : Option UInt32) (before : frame <+: buffer)
    (parsed : ipReceive frame frame.length = some stored) : ipReceive buffer frame.length = some stored := by
  simp only [ipReceive] at parsed ⊢
  by_cases short : frame.length < 14
  · rw [if_pos short] at parsed ⊢
    exact parsed
  rw [if_neg short] at parsed ⊢
  rw [be_word_longer frame buffer 12 before (by omega)]
  by_cases foreign : beWord frame 12 ≠ 0x0800
  · rw [if_pos foreign] at parsed ⊢
    exact parsed
  rw [if_neg foreign] at parsed ⊢
  by_cases cut : frame.length < 34
  · rw [if_pos cut] at parsed ⊢
    exact parsed
  rw [if_neg cut] at parsed ⊢
  have protocol : buffer.getD 23 0 = frame.getD 23 0 := by
    obtain ⟨tail, rfl⟩ := before
    exact List.getD_append _ _ _ _ (by omega)
  rw [protocol]
  by_cases udp : frame.getD 23 0 = 17
  · rw [if_pos udp] at parsed ⊢
    rw [← List.length_drop] at parsed ⊢
    exact udp_process_longer _ _ stored (drop_longer frame buffer 34 before) parsed
  · rw [if_neg udp] at parsed ⊢
    exact parsed

theorem stored_carried (net : Net) (frame : List UInt8) (ip : UInt32)
    (inside : ipReceive frame frame.length ≠ none)
    (stored : ipReceive (filled net frame) frame.length = some (some ip)) : Carries frame ip := by
  obtain ⟨parsed, same⟩ := Option.ne_none_iff_exists'.mp inside
  have again := ip_receive_longer frame (filled net frame) parsed (List.prefix_append _ _) same
  rw [again] at stored
  rw [Carries, same, stored]

theorem owned_more (responses more : List Response) (hostname : List UInt8) (ip : UInt32)
    (owned : Owned responses hostname ip) : Owned (responses ++ more) hostname ip := by
  rcases owned with zero | entry | ⟨response, member, rest⟩
  · exact Or.inl zero
  · exact Or.inr (Or.inl entry)
  · exact Or.inr (Or.inr ⟨response, List.mem_append_left _ member, rest⟩)

structure Owning (net : Net) : Prop where
  cached : Owned net.responses net.lastDnsHost net.lastDnsIp
  current : ∀ hostname retry, net.phase = .waiting hostname retry → net.lastDnsHost = hostname
  returned : ∀ result ∈ net.results, Owned net.responses result.1 result.2

theorem owning_finish (net : Net) (hostname : List UInt8) (ip : UInt32) (owning : Owning net)
    (owned : Owned net.responses hostname ip) : Owning (finish net hostname ip) := by
  refine ⟨owning.cached, fun hostname retry waits => (nomatch waits), fun result member => ?_⟩
  rcases List.mem_append.mp member with old | new
  · exact owning.returned result old
  · rw [List.mem_singleton.mp new]
    exact owned

theorem owning_resolve (net : Net) (hostname : List UInt8) (overrun : UInt32) (owning : Owning net) (idle : net.phase = .idle)
    (fits : hostname.length < 64 ∨ qname hostname = none) : Owning (dnsResolve net hostname overrun) := by
  rw [dnsResolve]
  by_cases cached : net.lastDnsHost = hostname ∧ net.lastDnsIp ≠ 0
  · rw [if_pos cached]
    exact owning_finish net hostname net.lastDnsIp owning (cached.1 ▸ owning.cached)
  rw [if_neg cached]
  cases entry : staticEntry hostname with
  | some ip =>
      have owned : Owned net.responses hostname ip := Or.inr (Or.inl entry)
      exact owning_finish _ hostname ip
        ⟨owned, fun other retry waits => (nomatch idle.symm.trans waits), owning.returned⟩ owned
  | none =>
      cases question : qname hostname with
      | none => exact owning_finish net hostname 0 owning (Or.inl rfl)
      | some name =>
          have short : hostname.length < 64 := fits.resolve_right (by rw [question]; exact Option.some_ne_none name)
          refine ⟨Or.inl (if_neg (Nat.not_le.mpr short)), fun other retry waits => ?_, owning.returned⟩
          cases waits
          rfl

theorem owning_give_up (net next : Net) (owning : Owning net) (done : giveUp net = some next) : Owning next := by
  rw [giveUp] at done
  cases phase : net.phase with
  | idle =>
      rw [phase] at done
      cases done
  | waiting hostname retry =>
      simp only [phase] at done
      by_cases answered : net.lastDnsIp ≠ 0
      · rw [if_pos answered] at done
        cases done
      rw [if_neg answered] at done
      by_cases again : retry + 1 < 5
      · rw [if_pos again] at done
        obtain ⟨name, _, same⟩ := Option.map_eq_some_iff.mp done
        rw [← same]
        refine ⟨owning.cached, fun other count waits => ?_, owning.returned⟩
        cases waits
        exact owning.current hostname retry phase
      · rw [if_neg again, Option.some.injEq] at done
        rw [← done]
        exact owning_finish net hostname 0 owning (Or.inl rfl)

theorem owning_polled (net : Net) (owning : Owning net) : Owning (polled net) := by
  rw [polled]
  cases phase : net.phase with
  | idle => exact owning
  | waiting hostname retry =>
      dsimp only
      split
      · exact owning
      · exact owning_finish net hostname _ owning (owning.current hostname retry phase ▸ owning.cached)

theorem owning_poll (net next : Net) (frame : List UInt8) (owning : Owning net)
    (carried : ∀ ip, ipReceive (filled net frame) frame.length = some (some ip) → ip ≠ 0 →
      Owned net.responses net.lastDnsHost ip)
    (done : netifPoll net frame = some next) : Owning next := by
  rw [netifPoll] at done
  by_cases unfit : frame = [] ∨ rxBufferSize < frame.length
  · rw [if_pos unfit] at done
    cases done
  rw [if_neg unfit] at done
  obtain ⟨stored, parsed, same⟩ := Option.map_eq_some_iff.mp done
  have cached : Owned net.responses net.lastDnsHost (stored.getD net.lastDnsIp) := by
    cases stored with
    | none => exact owning.cached
    | some ip =>
        by_cases zero : ip = 0
        · exact Or.inl zero
        · exact carried ip parsed zero
  rw [← same]
  exact owning_polled _ ⟨cached, owning.current, owning.returned⟩

theorem stores_address (net : Net) (frame : List UInt8) (ip : UInt32) (nonzero : ip ≠ 0)
    (stored : ipReceive (filled net frame) frame.length = some (some ip)) : storesAddress net frame = true := by
  simp [storesAddress, stored, nonzero]

theorem owning_step (net next : Net) (op : NetOp) (owning : Owning net) (current : AnswersCurrent net op)
    (taken : NetStep net op next) : Owning next := by
  cases op with
  | resolve hostname overrun =>
      simp only [NetStep, stepOp] at taken
      by_cases idle : net.phase = .idle
      · rw [if_pos idle] at taken
        cases taken
        exact owning_resolve net _ overrun owning idle current
      · rw [if_neg idle] at taken
        cases taken
  | quiet =>
      cases taken
      exact owning_polled net owning
  | giveUp => exact owning_give_up net next owning taken
  | answer response =>
      simp only [NetStep, stepOp] at taken
      split at taken
      · cases taken
        exact ⟨owned_more _ _ _ _ owning.cached, owning.current,
          fun result member => owned_more _ _ _ _ (owning.returned result member)⟩
      · cases taken
  | arrive i =>
      obtain ⟨response, found, polled⟩ := Option.bind_eq_some_iff.mp taken
      refine owning_poll net next response.frame owning (fun ip stored nonzero => ?_) polled
      obtain ⟨asked, inside⟩ := current response found (stores_address net response.frame ip nonzero stored)
      exact Or.inr (Or.inr ⟨response, List.mem_of_getElem? found, asked,
        stored_carried net response.frame ip inside stored⟩)
  | other frame =>
      simp only [NetStep, stepOp] at taken
      split at taken
      · rename_i nothing
        refine owning_poll net next frame owning (fun ip stored _ => ?_) taken
        rw [nothing] at stored
        cases stored
      · cases taken

theorem owning_started (net : Net) (started : Started net) : Owning net := by
  rw [started]
  exact ⟨Or.inl rfl, fun hostname retry waits => (nomatch waits), fun result member => (nomatch member)⟩

-- What a name of 64 bytes or more leaves in last_dns_ip is returned as its address.
theorem long_name_returned (net : Net) (hostname name : List UInt8) (overrun : UInt32) (idle : net.phase = .idle)
    (fresh : net.lastDnsHost ≠ cString hostname) (unlisted : staticEntry (cString hostname) = none)
    (asked : qname (cString hostname) = some name) (long : 64 ≤ (cString hostname).length) (some' : overrun ≠ 0) :
    ∃ next, runAll stepOp net [.resolve hostname overrun, .quiet] = some next ∧ (cString hostname, overrun) ∈ next.results := by
  have begun : dnsResolve net (cString hostname) overrun = { net with
      lastDnsIp := overrun, lastDnsHost := cString hostname, phase := .waiting (cString hostname) 0
      queries := net.queries ++ [name] } := by
    rw [dnsResolve, if_neg fun cached => fresh cached.1, unlisted, asked, if_pos long]
  simp only [runAll, stepOp, if_pos idle, Option.bind_some, begun]
  refine ⟨_, rfl, ?_⟩
  rw [polled]
  dsimp only
  rw [if_neg some']
  exact List.mem_append_right _ List.mem_cons_self

def ipHeader : List UInt8 := [0x45, 0, 0, 0, 0, 0, 0, 0, 64, 17, 0, 0, 8, 8, 8, 8, 10, 0, 2, 15]

def dnsHeader : List UInt8 := [0xCA, 0xFE, 0x81, 0x80, 0, 1, 0, 1, 0, 0, 0, 0]

def answerFrame (name address : List UInt8) : List UInt8 :=
  List.replicate 12 0x52 ++ [0x08, 0x00] ++ ipHeader ++ [0, 53, 0xCB, 0x20, 0, UInt8.ofNat (40 + name.length), 0, 0] ++
    dnsHeader ++ name ++ [0, 1, 0, 1, 0xC0, 0x0C, 0, 1, 0, 1, 0, 0, 0, 60, 0, 4] ++ address

def answerTo (name : List UInt8) : Response := ⟨name, answerFrame name [10, 0, 0, 7]⟩

instance (net : Net) : (op : NetOp) → Decidable (AnswersCurrent net op)
  | .arrive i => inferInstanceAs (Decidable (∀ response ∈ net.responses[i]?, storesAddress net response.frame = true →
      qname net.lastDnsHost = some response.name ∧ ipReceive response.frame response.frame.length ≠ none))
  | .resolve hostname _ => inferInstanceAs (Decidable ((cString hostname).length < 64 ∨ qname (cString hostname) = none))
  | .quiet | .giveUp | .answer _ | .other _ => isTrue trivial

end RoDos.Dns
