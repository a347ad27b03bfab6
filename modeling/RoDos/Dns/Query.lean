import RoDos.Base.Writes
import RoDos.Dns.Answers

set_option autoImplicit false

namespace RoDos.Dns

open Base Tcp RoDos.Net

-- A C string; cmd_wget passes none of more than 127 bytes.
structure HostName where
  bytes : List UInt8
  noNul : ∀ byte ∈ bytes, byte ≠ 0
  short : bytes.length ≤ 127

structure DnsCache where
  lastDnsHost : List UInt8
  lastDnsIp : UInt32

inductive Resolution where
  | answered (ip : UInt32)
  | tooLong
  | sent (queryLen : Nat)

structure Resolved where
  buf : Writes
  host : Writes
  outcome : Resolution

def firstLabel (hostname : List UInt8) : List UInt8 := hostname.takeWhile fun byte => byte ≠ dot

-- One label for each turn, and the dot behind it; none for a label that is too long.
def writeLabels (q : Nat) (p : List UInt8) : Writes × Option Nat :=
  if p = [] then ([], some q)
  else
    let label := firstLabel p
    if 63 < label.length then ([], none)
    else
      let further := writeLabels (q + 1 + label.length) (p.drop (label.length + 1))
      (copyRun q (UInt8.ofNat label.length :: label) ++ further.1, further.2)
termination_by p.length
decreasing_by
  rename_i some' _
  have positive := List.length_pos_iff.mpr some'
  rw [List.length_drop]
  omega

def queryHeader : List UInt8 :=
  bigEndian16 0xCAFE ++ bigEndian16 0x0100 ++ bigEndian16 1 ++ bigEndian16 0 ++ bigEndian16 0 ++ bigEndian16 0

def queryFields : List UInt8 := bigEndian16 1 ++ bigEndian16 1

def strCopyAll (src : List UInt8) : Writes := copyRun 0 (src ++ [0])

-- dns_resolve up to its first udp_send_packet; the later ones send the same bytes.
def dnsResolveCall (cache : DnsCache) (hostname : List UInt8) : Resolved :=
  if cache.lastDnsHost = hostname ∧ cache.lastDnsIp ≠ 0 then ⟨[], [], .answered cache.lastDnsIp⟩
  else
    match staticEntry hostname with
    | some ip => ⟨[], strCopyAll hostname, .answered ip⟩
    | none =>
        let labels := writeLabels 12 hostname
        match labels.2 with
        | none => ⟨copyRun 0 queryHeader ++ labels.1, [], .tooLong⟩
        | some q =>
            ⟨copyRun 0 queryHeader ++ labels.1 ++ copyRun q (0 :: queryFields), strCopyAll hostname, .sent (q + 5)⟩

-- The labels between the dots; behind a dot at the end stands the root, which is no label.
def nameLabels (hostname : List UInt8) : List (List UInt8) :=
  let labels := hostname.splitOn dot
  if labels.getLast? = some [] then labels.dropLast else labels

def encodeLabels (labels : List (List UInt8)) : List UInt8 :=
  labels.flatMap fun label => UInt8.ofNat label.length :: label

def decodeLabels (bytes : List UInt8) : Option (List (List UInt8) × List UInt8) :=
  match bytes with
  | [] => none
  | size :: tail =>
      if size = 0 then some ([], tail)
      else if tail.length < size.toNat then none
      else (decodeLabels (tail.drop size.toNat)).map fun done => (tail.take size.toNat :: done.1, done.2)
termination_by bytes.length
decreasing_by
  rw [List.length_drop, List.length_cons]
  omega

def sentQuery (buf : Buffer 512) (resolved : Resolved) (queryLen : Nat) : List UInt8 :=
  (buf.store resolved.buf).bytes.take queryLen

theorem first_label_no_dot (hostname : List UInt8) : dot ∉ firstLabel hostname := by
  intro member
  simpa using List.mem_takeWhile_imp member

theorem first_label_split (hostname : List UInt8) :
    hostname = firstLabel hostname ∨ ∃ rest, hostname = firstLabel hostname ++ dot :: rest := by
  induction hostname with
  | nil => exact Or.inl rfl
  | cons byte hostname ih =>
      by_cases separator : byte = dot
      · exact Or.inr ⟨hostname, by simp [firstLabel, separator]⟩
      · have step : firstLabel (byte :: hostname) = byte :: firstLabel hostname := by simp [firstLabel, separator]
        rw [step]
        rcases ih with whole | ⟨rest, split⟩
        · exact Or.inl (congrArg _ whole)
        · exact Or.inr ⟨rest, congrArg _ split⟩

theorem name_labels_nil : nameLabels [] = [] := rfl

theorem name_labels_alone (label : List UInt8) (noDot : dot ∉ label) (used : label ≠ []) : nameLabels label = [label] := by
  rw [nameLabels, List.splitOn_eq_singleton noDot, List.getLast?_singleton, if_neg fun same => used (Option.some.inj same)]

theorem name_labels_dot (label rest : List UInt8) (noDot : dot ∉ label) :
    nameLabels (label ++ dot :: rest) = label :: nameLabels rest := by
  obtain ⟨next, labels, split⟩ := List.exists_cons_of_ne_nil (List.splitOn_ne_nil dot rest)
  rw [nameLabels, nameLabels, List.splitOn_append_cons_self_of_not_mem noDot, split, List.getLast?_cons_cons]
  split_ifs
  · rfl
  · rfl

theorem name_labels_cons (hostname : List UInt8) (some' : hostname ≠ []) :
    nameLabels hostname = firstLabel hostname :: nameLabels (hostname.drop ((firstLabel hostname).length + 1)) := by
  have noDot := first_label_no_dot hostname
  rcases first_label_split hostname with whole | ⟨rest, split⟩
  · rw [← whole] at noDot ⊢
    rw [name_labels_alone hostname noDot some', List.drop_eq_nil_iff.mpr (Nat.le_succ _), name_labels_nil]
  · generalize firstLabel hostname = label at noDot split
    rw [split, name_labels_dot label rest noDot, List.drop_length_add_append, List.drop_succ_cons, List.drop_zero]

section
variable (q : Nat) (p : List UInt8)

theorem write_no_label : writeLabels q [] = ([], some q) := by
  rw [writeLabels, if_pos rfl]

theorem write_long_label (some' : p ≠ []) (long : 63 < (firstLabel p).length) : writeLabels q p = ([], none) := by
  rw [writeLabels, if_neg some']
  exact if_pos long

theorem write_label (some' : p ≠ []) (short : ¬ 63 < (firstLabel p).length) : writeLabels q p =
    (copyRun q (UInt8.ofNat (firstLabel p).length :: firstLabel p) ++
        (writeLabels (q + 1 + (firstLabel p).length) (p.drop ((firstLabel p).length + 1))).1,
      (writeLabels (q + 1 + (firstLabel p).length) (p.drop ((firstLabel p).length + 1))).2) := by
  rw [writeLabels, if_neg some']
  exact if_neg short

theorem write_short_labels (short : ∀ label ∈ nameLabels p, label.length ≤ 63) :
    writeLabels q p = (copyRun q (encodeLabels (nameLabels p)), some (q + (encodeLabels (nameLabels p)).length)) := by
  induction q, p using writeLabels.induct with
  | case1 q => rw [write_no_label, name_labels_nil]; rfl
  | case2 q p some' label long =>
      rw [name_labels_cons p some'] at short
      exact absurd long (Nat.not_lt.mpr (short _ List.mem_cons_self))
  | case3 q p some' label fits ih =>
      rw [name_labels_cons p some'] at short
      have further := ih fun other member => short other (List.mem_cons_of_mem _ member)
      have encoded : encodeLabels (nameLabels p) = (UInt8.ofNat label.length :: label) ++
          encodeLabels (nameLabels (p.drop (label.length + 1))) := by
        rw [name_labels_cons p some', encodeLabels, List.flatMap_cons]
        rfl
      rw [write_label q p some' fits, further, encoded, copy_run_append, List.length_append, List.length_cons]
      have place : q + 1 + label.length = q + (label.length + 1) := by omega
      rw [← place, ← Nat.add_assoc q, ← place]

theorem write_too_long (long : ∃ label ∈ nameLabels p, 63 < label.length) : (writeLabels q p).2 = none := by
  induction q, p using writeLabels.induct with
  | case1 q =>
      obtain ⟨label, member, _⟩ := long
      cases member
  | case2 q p some' label tooLong => rw [write_long_label q p some' tooLong]
  | case3 q p some' label fits ih =>
      rw [write_label q p some' fits]
      refine ih ?_
      obtain ⟨other, member, tooLong⟩ := long
      rw [name_labels_cons p some'] at member
      rcases List.mem_cons.mp member with rfl | later
      · exact absurd tooLong fits
      · exact ⟨other, later, tooLong⟩

theorem first_label_length : (firstLabel p).length ≤ p.length := (List.takeWhile_prefix _).length_le

-- Every turn takes at least as many bytes of the name as it writes, but for the last.
theorem labels_inside : (∀ write ∈ (writeLabels q p).1, write.1 < q + p.length + 1) ∧
    ∀ finish, (writeLabels q p).2 = some finish → finish ≤ q + p.length + 1 ∧ (p = [] → finish = q) := by
  induction q, p using writeLabels.induct with
  | case1 q =>
      rw [write_no_label]
      refine ⟨nofun, fun finish same => ?_⟩
      rw [← Option.some.inj same]
      exact ⟨by omega, fun _ => rfl⟩
  | case2 q p some' label long =>
      rw [write_long_label q p some' long]
      exact ⟨nofun, nofun⟩
  | case3 q p some' label fits ih =>
      have whole : label.length ≤ p.length := first_label_length p
      have left := List.length_drop (i := label.length + 1) (l := p)
      rw [write_label q p some' fits]
      have own : ∀ write ∈ copyRun q (UInt8.ofNat label.length :: label), write.1 < q + p.length + 1 := by
        refine (copy_run_inside _ q _).mpr (Or.inr ?_)
        rw [List.length_cons]
        omega
      by_cases last : p.drop (label.length + 1) = []
      · have finished (finish : Nat) (same : (writeLabels (q + 1 + label.length) (p.drop (label.length + 1))).2 = some finish) :
            finish = q + 1 + label.length := (ih.2 finish same).2 last
        refine ⟨fun write member => ?_, fun finish same => ⟨?_, fun none' => absurd none' some'⟩⟩
        · rcases List.mem_append.mp member with here | later
          · exact own write here
          · rw [last, write_no_label] at later
            cases later
        · rw [finished finish same]
          omega
      · have more := List.length_pos_iff.mpr last
        refine ⟨fun write member => ?_, fun finish same => ⟨?_, fun none' => absurd none' some'⟩⟩
        · rcases List.mem_append.mp member with here | later
          · exact own write here
          · have bound := ih.1 write later
            omega
        · have bound := (ih.2 finish same).1
          omega
end

theorem decode_encoded (labels : List (List UInt8)) (fits : ∀ label ∈ labels, label ≠ [] ∧ label.length ≤ 63)
    (rest : List UInt8) : decodeLabels (encodeLabels labels ++ 0 :: rest) = some (labels, rest) := by
  induction labels with
  | nil =>
      rw [encodeLabels, List.flatMap_nil, List.nil_append, decodeLabels, if_pos rfl]
  | cons label labels ih =>
      obtain ⟨used, short⟩ := fits label List.mem_cons_self
      have further := ih fun other member => fits other (List.mem_cons_of_mem _ member)
      have split : encodeLabels (label :: labels) ++ 0 :: rest =
          UInt8.ofNat label.length :: (label ++ (encodeLabels labels ++ 0 :: rest)) := by
        rw [encodeLabels, List.flatMap_cons, List.append_assoc]
        rfl
      rw [split, decodeLabels, if_neg (label_size_used label short used), label_size label short,
        if_neg (by rw [List.length_append]; omega), List.drop_left, List.take_left, further]
      rfl

theorem decode_cut (front back : List (List UInt8)) (fits : ∀ label ∈ front, label ≠ [] ∧ label.length ≤ 63)
    (rest : List UInt8) :
    decodeLabels (encodeLabels (front ++ [] :: back) ++ 0 :: rest) = some (front, encodeLabels back ++ 0 :: rest) := by
  have split : encodeLabels (front ++ [] :: back) ++ 0 :: rest =
      encodeLabels front ++ 0 :: (encodeLabels back ++ 0 :: rest) := by
    rw [encodeLabels, List.flatMap_append, List.append_assoc]
    rfl
  rw [split]
  exact decode_encoded front fits _

theorem qname_labels_encode (label p : List UInt8) (noDot : dot ∉ label) (some' : label ++ p ≠ [])
    (short : ∀ other ∈ nameLabels (label ++ p), other.length ≤ 63) :
    qnameLabels label p = some (encodeLabels (nameLabels (label ++ p))) := by
  induction p generalizing label with
  | nil =>
      rw [List.append_nil] at some' short ⊢
      rw [name_labels_alone label noDot some'] at short ⊢
      have fits : ¬ 63 < label.length := Nat.not_lt.mpr (short label List.mem_cons_self)
      rw [qnameLabels, if_neg fits, encodeLabels, List.flatMap_singleton]
  | cons byte rest ih =>
      by_cases separator : byte = dot
      · rw [separator, name_labels_dot label rest noDot] at short ⊢
        have fits : ¬ 63 < label.length := Nat.not_lt.mpr (short label List.mem_cons_self)
        rw [qnameLabels, if_pos rfl, if_neg fits]
        by_cases last : rest = []
        · rw [if_pos last, last, name_labels_nil, encodeLabels, List.flatMap_singleton]
        · have further := ih [] List.not_mem_nil last fun other member => short other (List.mem_cons_of_mem _ member)
          rw [if_neg last, further, Option.map_some, encodeLabels, encodeLabels, List.flatMap_cons]
          rfl
      · have extended : label ++ byte :: rest = (label ++ [byte]) ++ rest := by
          rw [List.append_assoc, List.singleton_append]
        have noDots : dot ∉ label ++ [byte] := fun member => (List.mem_append.mp member).elim noDot
          fun same => separator (List.mem_singleton.mp same).symm
        rw [extended] at some' short ⊢
        rw [qnameLabels, if_neg separator]
        exact ih (label ++ [byte]) noDots some' short

theorem qname_encodes (hostname : List UInt8) (short : ∀ label ∈ nameLabels hostname, label.length ≤ 63) :
    qname hostname = some (encodeLabels (nameLabels hostname) ++ [0]) := by
  rw [qname]
  by_cases empty : hostname = []
  · rw [if_pos empty, empty]
    rfl
  · rw [if_neg empty, qname_labels_encode [] hostname List.not_mem_nil empty short]
    rfl

theorem host_copy_inside (hostname : List UInt8) : Inside 64 (strCopyAll hostname) ↔ hostname.length ≤ 63 := by
  rw [strCopyAll, copy_run_inside, List.length_append, List.length_singleton]
  have used : ¬ hostname ++ [0] = [] := List.append_ne_nil_of_right_ne_nil _ (List.cons_ne_nil _ _)
  rw [or_iff_right used]
  omega

theorem static_names_short (hostname : List UInt8) (ip : UInt32) (known : staticEntry hostname = some ip) :
    hostname.length ≤ 63 := by
  obtain ⟨entry, found, _⟩ := Option.map_eq_some_iff.mp known
  have same : entry.1 = hostname := by simpa using List.find?_some found
  have short : ∀ entry ∈ staticDns, entry.1.length ≤ 63 := by decide
  rw [← same]
  exact short entry (List.mem_of_find?_eq_some found)

def knownAddress (cache : DnsCache) (hostname : List UInt8) : Option UInt32 :=
  if cache.lastDnsHost = hostname ∧ cache.lastDnsIp ≠ 0 then some cache.lastDnsIp else staticEntry hostname

section
variable (cache : DnsCache) (hostname : List UInt8)

theorem resolve_known (ip : UInt32) (known : knownAddress cache hostname = some ip) :
    (dnsResolveCall cache hostname).outcome = .answered ip ∧ (dnsResolveCall cache hostname).buf = [] ∧
      Inside 64 (dnsResolveCall cache hostname).host := by
  rw [knownAddress] at known
  rw [dnsResolveCall]
  split_ifs at known with cached
  · cases known
    rw [if_pos cached]
    exact ⟨rfl, rfl, nofun⟩
  · rw [if_neg cached, known]
    exact ⟨rfl, rfl, (host_copy_inside hostname).mpr (static_names_short hostname ip known)⟩

variable (unknown : knownAddress cache hostname = none)
include unknown

theorem resolve_too_long (finished : (writeLabels 12 hostname).2 = none) :
    dnsResolveCall cache hostname = ⟨copyRun 0 queryHeader ++ (writeLabels 12 hostname).1, [], .tooLong⟩ := by
  rw [knownAddress] at unknown
  split_ifs at unknown with cached
  rw [dnsResolveCall, if_neg cached, unknown]
  dsimp only
  rw [finished]

theorem resolve_sent (q : Nat) (finished : (writeLabels 12 hostname).2 = some q) :
    dnsResolveCall cache hostname = ⟨copyRun 0 queryHeader ++ (writeLabels 12 hostname).1 ++ copyRun q (0 :: queryFields),
      strCopyAll hostname, .sent (q + 5)⟩ := by
  rw [knownAddress] at unknown
  split_ifs at unknown with cached
  rw [dnsResolveCall, if_neg cached, unknown]
  dsimp only
  rw [finished]
end

theorem query_writes_inside (cache : DnsCache) (host : HostName) : Inside 512 (dnsResolveCall cache host.bytes).buf := by
  have short := host.short
  have header : Inside 512 (copyRun 0 queryHeader) := (copy_run_inside 512 0 _).mpr (Or.inr (by decide))
  obtain ⟨inside, finish⟩ := labels_inside 12 host.bytes
  have labels : Inside 512 (writeLabels 12 host.bytes).1 := fun write member => by
    have bound := inside write member
    omega
  cases known : knownAddress cache host.bytes with
  | some ip =>
      rw [(resolve_known cache host.bytes ip known).2.1]
      exact nofun
  | none =>
      cases finished : (writeLabels 12 host.bytes).2 with
      | none =>
          rw [resolve_too_long cache host.bytes known finished]
          exact (inside_append 512 _ _).mpr ⟨header, labels⟩
      | some q =>
          have bound := (finish q finished).1
          rw [resolve_sent cache host.bytes known q finished]
          refine (inside_append 512 _ _).mpr ⟨(inside_append 512 _ _).mpr ⟨header, labels⟩, ?_⟩
          refine (copy_run_inside 512 q _).mpr (Or.inr ?_)
          have five : (0 :: queryFields).length = 5 := rfl
          omega

theorem host_writes_inside (cache : DnsCache) (hostname : List UInt8) (short : hostname.length ≤ 63) :
    Inside 64 (dnsResolveCall cache hostname).host := by
  cases known : knownAddress cache hostname with
  | some ip => exact (resolve_known cache hostname ip known).2.2
  | none =>
      cases finished : (writeLabels 12 hostname).2 with
      | none =>
          rw [resolve_too_long cache hostname known finished]
          exact nofun
      | some q =>
          rw [resolve_sent cache hostname known q finished]
          exact (host_copy_inside hostname).mpr short

theorem query_sent (cache : DnsCache) (host : HostName) (buf : Buffer 512)
    (unknown : knownAddress cache host.bytes = none)
    (labels : ∀ label ∈ nameLabels host.bytes, label ≠ [] ∧ label.length ≤ 63) :
    ∃ queryLen, (dnsResolveCall cache host.bytes).outcome = .sent queryLen ∧
      decodeLabels ((sentQuery buf (dnsResolveCall cache host.bytes) queryLen).drop 12) =
        some (nameLabels host.bytes, queryFields) := by
  have written := write_short_labels 12 host.bytes fun label member => (labels label member).2
  have resolved := resolve_sent cache host.bytes unknown _ (congrArg Prod.snd written)
  rw [written] at resolved
  generalize encoded : encodeLabels (nameLabels host.bytes) = name at resolved
  have run : copyRun 0 queryHeader ++ copyRun 12 name ++ copyRun (12 + name.length) (0 :: queryFields) =
      copyRun 0 (queryHeader ++ (name ++ 0 :: queryFields)) := by
    rw [copy_run_append 0 queryHeader, copy_run_append _ name, List.append_assoc]
    rfl
  have length : (queryHeader ++ (name ++ 0 :: queryFields)).length = 12 + name.length + 5 := by
    rw [List.length_append, List.length_append, ← Nat.add_assoc]
    rfl
  have inside := query_writes_inside cache host
  rw [resolved, run, copy_run_inside, length] at inside
  have room : 12 + name.length + 5 ≤ 512 := by
    rcases inside with none' | fits
    · rw [none'] at length
      cases length
    · omega
  have stored := set_all_run buf.bytes 0 (queryHeader ++ (name ++ 0 :: queryFields)) (by rw [length, buf.width]; omega)
  refine ⟨12 + name.length + 5, by rw [resolved], ?_⟩
  have query : sentQuery buf (dnsResolveCall cache host.bytes) (12 + name.length + 5) =
      queryHeader ++ (name ++ 0 :: queryFields) := by
    rw [resolved, run, sentQuery]
    dsimp only [Buffer.store]
    rw [stored, List.take_zero, List.nil_append, List.take_left' length]
  have header : queryHeader.length = 12 := rfl
  rw [query, List.drop_left' header, ← encoded]
  exact decode_encoded _ labels queryFields

structure Resolves (cache : DnsCache) (host : HostName) (buf : Buffer 512) : Prop where
  insideBuf : Inside 512 (dnsResolveCall cache host.bytes).buf
  insideHost : Inside 64 (dnsResolveCall cache host.bytes).host
  outcome : (dnsResolveCall cache host.bytes).outcome = .tooLong ∨
    ∃ queryLen, (dnsResolveCall cache host.bytes).outcome = .sent queryLen ∧
      decodeLabels ((sentQuery buf (dnsResolveCall cache host.bytes) queryLen).drop 12) =
        some (host.bytes.splitOn dot, queryFields)

theorem dns_resolve_queries (cache : DnsCache) (host : HostName) (buf : Buffer 512) :
    Inside 512 (dnsResolveCall cache host.bytes).buf ∧
    (host.bytes.length ≤ 63 → Inside 64 (dnsResolveCall cache host.bytes).host) ∧
    (∀ ip, knownAddress cache host.bytes = some ip →
      (dnsResolveCall cache host.bytes).outcome = .answered ip ∧ Inside 64 (dnsResolveCall cache host.bytes).host) ∧
    (knownAddress cache host.bytes = none → (∃ label ∈ nameLabels host.bytes, 63 < label.length) →
      (dnsResolveCall cache host.bytes).outcome = .tooLong ∧ (dnsResolveCall cache host.bytes).host = []) ∧
    (knownAddress cache host.bytes = none → (∀ label ∈ nameLabels host.bytes, label ≠ [] ∧ label.length ≤ 63) →
      ∃ queryLen, (dnsResolveCall cache host.bytes).outcome = .sent queryLen ∧
        decodeLabels ((sentQuery buf (dnsResolveCall cache host.bytes) queryLen).drop 12) =
          some (nameLabels host.bytes, queryFields)) := by
  refine ⟨query_writes_inside cache host, host_writes_inside cache host.bytes, fun ip known => ?_, fun unknown long => ?_,
    fun unknown labels => query_sent cache host buf unknown labels⟩
  · have done := resolve_known cache host.bytes ip known
    exact ⟨done.1, done.2.2⟩
  · rw [resolve_too_long cache host.bytes unknown (write_too_long 12 host.bytes long)]
    exact ⟨rfl, rfl⟩

def zeroBuffer : Buffer 512 := ⟨List.replicate 512 0, List.length_replicate⟩

def otherHost : HostName := ⟨ascii "example.org", by decide +kernel, by decide +kernel⟩

theorem dns_resolve_queries_other : ∃ queryLen, (dnsResolveCall ⟨[], 0⟩ otherHost.bytes).outcome = .sent queryLen ∧
    decodeLabels ((sentQuery zeroBuffer (dnsResolveCall ⟨[], 0⟩ otherHost.bytes) queryLen).drop 12) =
      some (nameLabels otherHost.bytes, queryFields) :=
  (dns_resolve_queries ⟨[], 0⟩ otherHost zeroBuffer).2.2.2.2 (by decide) (by decide +kernel)

def tableHost : HostName := ⟨ascii "example.com", by decide +kernel, by decide +kernel⟩

theorem dns_resolve_answers : ¬ ∀ cache host buf, Resolves cache host buf := by
  intro claimed
  have known := resolve_known ⟨[], 0⟩ tableHost.bytes 0x5DB8D822 (by decide)
  rcases (claimed ⟨[], 0⟩ tableHost zeroBuffer).outcome with long | ⟨queryLen, sent, _⟩
  · rw [known.1] at long
    cases long
  · rw [known.1] at sent
    cases sent

end RoDos.Dns
