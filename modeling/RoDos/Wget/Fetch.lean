import RoDos.Wget.Request

set_option autoImplicit false

namespace RoDos.Wget

open Base

section
variable (url : Url)

theorem scheme_length : url.schemeText.length ≤ 7 := by
  rw [Url.schemeText]
  split <;> decide +kernel

theorem host_start_plain (start : List UInt8) (prefix' : start <+: url.body) : hostStart start = start := by
  have plain := body_no_scheme url (ascii "http://") (ascii "http") (by decide +kernel) (by decide +kernel)
  have secure := body_no_scheme url (ascii "https://") (ascii "https") (by decide +kernel) (by decide +kernel)
  rw [hostStart, if_neg fun begins => plain ((List.isPrefixOf_iff_prefix.mp begins).trans prefix'),
    if_neg fun begins => secure ((List.isPrefixOf_iff_prefix.mp begins).trans prefix')]

theorem host_start_scheme (start : List UInt8) : hostStart (ascii "http://" ++ start) = start := by
  rw [hostStart, if_pos (List.isPrefixOf_iff_prefix.mpr (List.prefix_append _ _))]
  exact List.drop_left' (by decide +kernel)

theorem host_start_prefix (start : List UInt8) (prefix' : start <+: url.text) (whole : url.schemeText.length ≤ start.length) :
    hostStart start <+: url.body ∧ (hostStart start).length + url.schemeText.length = start.length := by
  have scheme : url.schemeText <+: start :=
    List.prefix_of_prefix_length_le (List.prefix_append _ _) prefix' whole
  obtain ⟨rest, rfl⟩ := scheme
  have behind : rest <+: url.body := (List.prefix_append_right_inj _).mp prefix'
  have read : hostStart (url.schemeText ++ rest) = rest := by
    rw [Url.schemeText]
    split
    · exact host_start_scheme rest
    · exact host_start_plain url rest behind
  rw [read, List.length_append]
  exact ⟨behind, Nat.add_comm _ _⟩

theorem host_start_text : hostStart url.text = url.body := by
  obtain ⟨behind, length⟩ := host_start_prefix url url.text (List.prefix_refl _)
    (List.prefix_append url.schemeText url.body).length_le
  refine behind.eq_of_length ?_
  rw [Url.text, List.length_append] at length
  rw [Url.text]
  omega

theorem host_of_body : hostOf url.body = url.host := by
  rw [hostOf, Url.body, host_taken url _ (behind_host_ends url), List.take_of_length_le url.hostShort]

-- A colon hides the path.
theorem path_of_port (start : List UInt8) (prefix' : start <+: url.body) (host : hostOf start = url.host)
    (port : url.port ≠ none) : pathOf start = [47] := by
  obtain ⟨first, digits, _, spelled⟩ := (port_cases url).resolve_left fun both => port both.1
  obtain ⟨rest, same⟩ := prefix'
  have own : url.host <+: start := by
    rw [← host]
    exact (List.take_prefix _ _).trans (List.takeWhile_prefix _)
  obtain ⟨behind, rfl⟩ := own
  rw [Url.body, List.append_assoc] at same
  have tail := List.append_cancel_left same
  rw [pathOf, host, List.drop_left]
  refine if_neg fun slash => ?_
  obtain ⟨later, rfl⟩ := List.head?_eq_some_iff.mp slash
  rw [spelled] at tail
  cases tail

theorem path_of_body (short : url.text.length ≤ 127) (noPort : url.port = none) : pathOf url.body = url.target := by
  have none' : url.portText = [] := by rw [Url.portText, noPort]; rfl
  have inside : url.pathText.length ≤ 127 := by
    rw [Url.text, Url.body, List.length_append, List.length_append, List.length_append] at short
    omega
  rw [pathOf, host_of_body, Url.body, List.drop_left, none', List.nil_append]
  rcases path_cases url with ⟨_, empty, target⟩ | ⟨text, _, spelled, target⟩
  · rw [empty, target]
    rfl
  · rw [spelled] at inside
    rw [target, spelled, List.head?_cons, if_pos rfl]
    exact List.take_of_length_le inside
end

theorem parse_blank (fuel : Nat) (back : List UInt8) (arguments : Arguments) (blank : ∀ byte ∈ back, isSpace byte = true) :
    parseArguments fuel back arguments = arguments := by
  cases fuel with
  | zero => rfl
  | succ fuel =>
      have skipped : skipSpaces back = [] := List.dropWhile_eq_nil_iff.mpr blank
      rw [parseArguments, getToken, skipped]
      rfl

def isOption (word : List UInt8) : Prop := word = ascii "-filename" ∨ word = ascii "-O"

instance (word : List UInt8) : Decidable (isOption word) := inferInstanceAs (Decidable (_ ∨ _))

theorem option_length (word : List UInt8) (option : isOption word) : 2 ≤ word.length ∧ word.length ≤ 9 := by
  rcases option with rfl | rfl
  all_goals decide +kernel

theorem get_token_blank (back : List UInt8) (blank : ∀ byte ∈ back, isSpace byte = true) (max : Nat) :
    getToken back max = ([], []) := by
  have skipped : skipSpaces back = [] := List.dropWhile_eq_nil_iff.mpr blank
  rw [getToken, skipped]
  simp

section
variable (fuel : Nat) (front word back : List UInt8) (arguments : Arguments) (before : ∀ byte ∈ front, isSpace byte = true)
  (solid : ∀ byte ∈ word, isSpace byte = false) (some' : word ≠ []) (after : ∀ byte ∈ back, isSpace byte = true)
include before solid some' after

-- A word longer than the token leaves the rest of it as a word of its own.
theorem parse_step : (parseArguments (fuel + 1) (front ++ word ++ back) arguments).url =
    if isOption word then arguments.url
    else (parseArguments fuel (word.drop 127 ++ back) { arguments with url := word.take 127 }).url := by
  obtain ⟨leading, behind⟩ := word_framed isSpace front word back before solid some' after
  have token := get_token_leading (front ++ word ++ back) 128
  rw [leading, behind] at token
  have taken : word.take 127 ≠ [] := fun none' => by
    rcases List.take_eq_nil_iff.mp none' with zero | empty
    · cases zero
    · exact some' empty
  have clipped : (word.take 127).take 255 = word.take 127 := by rw [List.take_take]; rfl
  rw [parseArguments, token]
  dsimp only
  rw [if_neg taken]
  by_cases option : isOption word
  · have short := option_length word option
    have whole : word.take 127 = word := List.take_of_length_le (by omega)
    have nothing : word.drop 127 = [] := List.drop_eq_nil_of_le (by omega)
    rw [if_pos option, whole, nothing, List.nil_append, if_pos (show word = ascii "-filename" ∨ word = ascii "-O" from option)]
    split
    · rename_i empty
      rw [empty, parse_blank fuel [] arguments (fun byte member => absurd member List.not_mem_nil)]
    · rw [get_token_blank back after, parse_blank fuel [] _ (fun byte member => absurd member List.not_mem_nil)]
  · have kept : ¬ isOption (word.take 127) := by
      intro clippedOption
      have short := option_length _ clippedOption
      rw [List.length_take] at short
      exact option (List.take_of_length_le (show word.length ≤ 127 by omega) ▸ clippedOption)
    rw [if_neg option, clipped]
    exact congrArg Arguments.url (if_neg kept)

theorem parse_short (short : word.length ≤ 127) (plain : ¬ isOption word) :
    (parseArguments (fuel + 1) (front ++ word ++ back) arguments).url = word := by
  rw [parse_step fuel front word back arguments before solid some' after, if_neg plain,
    List.drop_eq_nil_of_le short, List.nil_append, parse_blank fuel back _ after]
  exact List.take_of_length_le short
end

structure KeptPiece (word piece : List UInt8) : Prop where
  inside : piece <:+: word
  whole : word.length ≤ 127 → piece = word
  long : 127 < word.length →
    piece.length + 127 ≤ word.length ∨ ∃ option, isOption option ∧ word = piece ++ option

theorem parse_piece (fuel : Nat) (word back : List UInt8) (arguments : Arguments) (some' : word ≠ [])
    (solid : ∀ byte ∈ word, isSpace byte = false) (after : ∀ byte ∈ back, isSpace byte = true)
    (enough : word.length ≤ fuel) :
    (isOption word ∧ (parseArguments fuel (word ++ back) arguments).url = arguments.url) ∨
      ¬ isOption word ∧ KeptPiece word (parseArguments fuel (word ++ back) arguments).url := by
  induction fuel generalizing word arguments with
  | zero => exact absurd (List.eq_nil_of_length_eq_zero (Nat.le_zero.mp enough)) some'
  | succ fuel ih =>
      have step := parse_step fuel [] word back arguments (fun byte member => absurd member List.not_mem_nil) solid some' after
      rw [List.nil_append] at step
      rw [step]
      by_cases option : isOption word
      · exact Or.inl ⟨option, if_pos option⟩
      rw [if_neg option]
      refine Or.inr ⟨option, ?_⟩
      by_cases short : word.length ≤ 127
      · rw [List.drop_eq_nil_of_le short, List.nil_append, parse_blank fuel back _ after, List.take_of_length_le short]
        exact ⟨List.infix_refl _, fun _ => rfl, fun long => absurd short (Nat.not_le.mpr long)⟩
      · have rest : word.drop 127 ≠ [] := fun none' => short (List.drop_eq_nil_iff.mp none')
        have length : (word.drop 127).length + 127 = word.length := by rw [List.length_drop]; omega
        have behind := ih (word.drop 127) { arguments with url := word.take 127 } rest
          (fun byte member => solid byte (List.mem_of_mem_drop member)) (by omega)
        rcases behind with ⟨last, kept⟩ | ⟨_, piece⟩
        · rw [kept]
          exact ⟨(List.take_prefix _ _).isInfix, fun fits => absurd fits short,
            fun _ => Or.inr ⟨_, last, (List.take_append_drop 127 word).symm⟩⟩
        · have within := piece.inside.length_le
          exact ⟨piece.inside.trans (List.drop_suffix _ _).isInfix, fun fits => absurd fits short,
            fun _ => Or.inl (by omega)⟩

theorem contact_sends (net : Network) (path host : List UInt8) (ip : UInt32) (port : UInt16) (socket : Int)
    (request : List UInt8) (sent : contactHost net path host = some [.tcpConnect ip port, .tcpSend socket request]) :
    port = 80 ∧ request = buildRequest path host := by
  have own : ∀ address, connectAndSend net address path host = [.tcpConnect ip port, .tcpSend socket request] →
      port = 80 ∧ request = buildRequest path host := by
    intro address calls
    rw [connectAndSend] at calls
    split at calls
    · cases calls
    · cases calls
      exact ⟨rfl, rfl⟩
  rw [contactHost] at sent
  split at sent
  · dsimp only at sent
    split at sent
    · exact own _ (Option.some.inj sent)
    · cases sent
  · dsimp only at sent
    split at sent
    · cases Option.some.inj sent
    · exact own _ (Option.some.inj sent)

theorem contact_address (net : Network) (path host : List UInt8) (ip : UInt32) (address : HostAddress net host ip) :
    contactHost net path host = some (connectAndSend net ip path host) := by
  rcases address with ⟨name, resolved, known⟩ | ⟨a, b, c, d, quad, same⟩
  · rw [contactHost, name, resolved]
    exact if_neg known
  · have numeric : isIp host = true := by
      obtain ⟨first, second, third, last, spelled, one, two, three, four⟩ := quad
      have digits : ∀ (text : List UInt8) (n : Nat), Octet text n → ∀ byte ∈ text, hostDigit byte = true :=
        fun text n octet byte member => decide_eq_true (Or.inl (octet.solid byte member))
      have dot : hostDigit 46 = true := by decide
      rw [isIp, List.all_eq_true, spelled]
      simp only [List.forall_mem_append, List.forall_mem_cons]
      exact ⟨digits first a one, dot, digits second b two, dot, digits third c three, dot, digits last d four⟩
    rw [contactHost, if_pos numeric, same]
    dsimp only
    rw [if_pos (quad_inside host a b c d quad), quad_address host a b c d quad]

theorem some_address (url : Url) : ∃ ip, HostAddress ⟨true, fun _ => 1, fun _ _ => 0⟩ url.host ip := by
  rcases url.named with name | ⟨a, b, c, d, quad⟩
  · exact ⟨1, Or.inl ⟨name, rfl, by decide⟩⟩
  · exact ⟨dotted a b c d, Or.inr ⟨a, b, c, d, quad, rfl⟩⟩

theorem read_length (start : List UInt8) : (hostOf start).length + (pathOf start).length ≤ start.length + 1 := by
  have host : (hostOf start).length ≤ start.length :=
    ((List.take_prefix _ _).trans (List.takeWhile_prefix _)).length_le
  have path : (pathOf start).length ≤ start.length - (hostOf start).length ∨ (pathOf start).length = 1 := by
    rw [pathOf]
    split
    · left
      rw [List.length_take, List.length_drop]
      omega
    · exact Or.inr rfl
  omega

theorem host_start_suffix (url' : List UInt8) : hostStart url' <:+ url' := by
  rw [hostStart]
  split
  · exact List.drop_suffix _ _
  · split
    · exact List.drop_suffix _ _
    · exact List.suffix_refl _

theorem text_length (url : Url) : url.text.length ≤ 13 + url.host.length + url.target.length ∧
    (url.port = none → url.text.length ≤ url.schemeText.length + url.host.length + url.target.length) := by
  have scheme := scheme_length url
  have path : url.pathText.length ≤ url.target.length := by
    rcases path_cases url with ⟨_, empty, _⟩ | ⟨text, _, spelled, target⟩
    · rw [empty]
      exact Nat.zero_le _
    · rw [spelled, target]
  rw [Url.text, Url.body, List.length_append, List.length_append, List.length_append]
  rcases port_cases url with ⟨_, empty⟩ | ⟨first, digits, given, spelled⟩
  · rw [empty, List.length_nil]
    omega
  · have five := (url.portSome _ given).2.1
    rw [spelled, List.length_cons, given]
    exact ⟨by omega, fun none' => absurd none' (Option.some_ne_none _)⟩

theorem option_not_last (url : Url) (option front : List UInt8) (made : isOption option) (port : url.port ≠ none)
    (target : url.target = [47]) : url.text ≠ front ++ option := by
  obtain ⟨first, digits, given, spelled⟩ := (port_cases url).resolve_left fun both => port both.1
  have low : ∀ byte ∈ url.portText ++ url.pathText, byte ≤ 58 := by
    intro byte member
    rw [spelled, List.mem_append, List.mem_cons] at member
    rcases member with (rfl | digit) | path
    · decide
    · exact UInt8.le_trans (url.portDigits _ given byte digit).2 (by decide)
    · rcases path_cases url with ⟨_, empty, _⟩ | ⟨text, _, slash, same⟩
      · rw [empty] at path
        cases path
      · rw [slash, ← same, target] at path
        cases List.mem_singleton.mp path
        decide
  have high : ∃ byte, option.getLast? = some byte ∧ 58 < byte := by
    rcases made with rfl | rfl
    · exact ⟨101, by decide +kernel, by decide⟩
    · exact ⟨79, by decide +kernel, by decide⟩
  have some' : (url.portText ++ url.pathText).getLast? ≠ none := by
    rw [spelled]
    simp
  obtain ⟨byte, last, letter⟩ := high
  intro same
  rw [Url.text, Url.body, ← List.append_assoc] at same
  generalize url.portText ++ url.pathText = tail at same low some'
  obtain ⟨own, ownLast⟩ := Option.ne_none_iff_exists'.mp some'
  have ends := congrArg List.getLast? same
  rw [List.getLast?_append, List.getLast?_append (l := front), last] at ends
  obtain ⟨own, ownLast⟩ := Option.ne_none_iff_exists'.mp some'
  rw [ownLast] at ends
  cases Option.some.inj ends
  exact absurd (low byte (List.mem_of_getLast? ownLast)) (UInt8.not_le.mpr letter)

section
variable (url : Url) (front back : List UInt8) (before : ∀ byte ∈ front, isSpace byte = true)
  (after : ∀ byte ∈ back, isSpace byte = true)

theorem text_solid : ∀ byte ∈ url.text, isSpace byte = false := by
  intro byte member
  have above := text_plain url byte member
  rw [isSpace]
  have no (space : UInt8) (low : space ≤ 32) : byte ≠ space := by
    rintro rfl
    exact absurd above (UInt8.not_lt.mpr low)
  simp [no 32 (by decide), no 9 (by decide)]

theorem some_fuel : ∃ fuel, (front ++ url.text ++ back).length = fuel + 1 := by
  refine Nat.exists_eq_succ_of_ne_zero fun zero => text_some url ?_
  have empty := List.eq_nil_of_length_eq_zero zero
  exact (List.append_eq_nil_iff.mp (List.append_eq_nil_iff.mp empty).1).2

include before after

theorem fetchable_fetches (fetchable : Fetchable url) : Fetches (front ++ url.text ++ back) url := by
  intro net ip online address
  obtain ⟨short, argument, port⟩ := fetchable
  have target : pathOf url.body = url.target := by
    rcases port with none' | ⟨_, alone⟩
    · exact path_of_body url short none'
    · by_cases none' : url.port = none
      · exact path_of_body url short none'
      · rw [alone, path_of_port url url.body (List.prefix_refl _) (host_of_body url) none']
  have number : url.portNumber = 80 := by
    rcases port with none' | ⟨http, _⟩
    · rw [Url.portNumber, none']
      rfl
    · exact http
  obtain ⟨fuel, enough⟩ := some_fuel url front back
  have parsed := parse_short fuel front url.text back ⟨[], []⟩ before (text_solid url) (text_some url) after short
    (not_or.mpr argument)
  have begins : url.body ≠ [] ∧ url.body.head? ≠ some 47 := by
    obtain ⟨first, host, spelled⟩ := List.exists_cons_of_ne_nil url.hostSome
    rw [Url.body, spelled]
    exact ⟨List.cons_ne_nil _ _, fun slash =>
      (url.hostPlain first (spelled ▸ List.mem_cons_self)).2.1 (Option.some.inj slash)⟩
  refine ⟨buildRequest url.target url.host, request_asks url _ _ rfl rfl (target ▸ path_of_length url.body), ?_⟩
  rw [cmdWget, if_pos online, enough]
  dsimp only
  rw [parsed, host_start_text, if_neg (not_or.mpr ⟨text_some url, not_or.mpr begins⟩), target, host_of_body,
    contact_address net url.target url.host ip address, wantedCalls, connectAndSend, number]

theorem fetched_piece (fetches : Fetches (front ++ url.text ++ back) url) : ¬ isOption url.text ∧ ∃ piece,
    KeptPiece url.text piece ∧ hostOf (hostStart piece) = url.host ∧ pathOf (hostStart piece) = url.target ∧
      url.portNumber = 80 := by
  obtain ⟨ip, address⟩ := some_address url
  obtain ⟨request, asked, calls⟩ := fetches ⟨true, fun _ => 1, fun _ _ => 0⟩ ip rfl address
  obtain ⟨fuel, enough⟩ := some_fuel url front back
  have kept : (isOption url.text ∧ (parseArguments (fuel + 1) (front ++ url.text ++ back) ⟨[], []⟩).url = []) ∨
      ¬ isOption url.text ∧ KeptPiece url.text (parseArguments (fuel + 1) (front ++ url.text ++ back) ⟨[], []⟩).url := by
    have leading := parse_step fuel front url.text back ⟨[], []⟩ before (text_solid url) (text_some url) after
    have bare := parse_step fuel [] url.text back ⟨[], []⟩ (fun byte member => absurd member List.not_mem_nil)
      (text_solid url) (text_some url) after
    rw [leading, ← bare, List.nil_append]
    refine parse_piece (fuel + 1) url.text back ⟨[], []⟩ (text_some url) (text_solid url) after ?_
    rw [← enough, List.length_append, List.length_append]
    omega
  rw [cmdWget, if_pos rfl, enough] at calls
  dsimp only at calls
  generalize (parseArguments (fuel + 1) (front ++ url.text ++ back) ⟨[], []⟩).url = piece at calls kept
  by_cases quiet : piece = [] ∨ hostStart piece = [] ∨ (hostStart piece).head? = some 47
  · rw [if_pos quiet] at calls
    cases Option.some.inj calls
  rw [if_neg quiet] at calls
  obtain ⟨number, same⟩ := contact_sends _ _ _ _ _ _ _ calls
  obtain ⟨argument, piece'⟩ := kept.resolve_left fun both => quiet (Or.inl both.2)
  have plain : ∀ byte ∈ hostStart piece, 32 < byte := fun byte member =>
    text_plain url byte (piece'.inside.subset ((host_start_suffix piece).subset member))
  obtain ⟨host, path⟩ := request_read url (hostStart piece) plain (same ▸ asked)
  exact ⟨argument, piece, piece', host, path, number⟩

theorem fetches_fetchable (fetches : Fetches (front ++ url.text ++ back) url) : Fetchable url := by
  obtain ⟨argument, piece, kept, host, path, number⟩ := fetched_piece url front back before after fetches
  have start := (host_start_suffix piece).length_le
  have read := read_length (hostStart piece)
  obtain ⟨any, noPort⟩ := text_length url
  rw [host, path] at read
  have short : url.text.length ≤ 127 := by
    by_contra above
    rcases kept.long (Nat.lt_of_not_le above) with far | ⟨option, made, cut⟩
    · omega
    · have small := (option_length option made)
      have scheme := scheme_length url
      have length := congrArg List.length cut
      rw [List.length_append] at length
      obtain ⟨behind, rest⟩ := host_start_prefix url piece ⟨option, cut.symm⟩ (by omega)
      by_cases none' : url.port = none
      · have total := noPort none'
        omega
      · exact option_not_last url option piece made none' (path ▸ path_of_port url _ behind host none') cut
  refine ⟨short, not_or.mp argument, ?_⟩
  by_cases none' : url.port = none
  · exact Or.inl none'
  · have whole := path_of_port url url.body (List.prefix_refl _) (host_of_body url) none'
    rw [kept.whole short, host_start_text, whole] at path
    exact Or.inr ⟨number, path.symm⟩

theorem wget_fetches_iff : Fetches (front ++ url.text ++ back) url ↔ Fetchable url :=
  ⟨fetches_fetchable url front back before after, fetchable_fetches url front back before after⟩
end

-- http://10.0.2.2/
def gatewayUrl : Url where
  scheme := true
  host := ascii "10.0.2.2"
  port := none
  path := some []
  hostSome := by decide +kernel
  hostShort := by decide +kernel
  hostPlain := by decide +kernel
  named := by
    refine Or.inr ⟨10, 0, 2, 2, [49, 48], [48], [50], [50], by decide +kernel, ?_, ?_, ?_, ?_⟩
    all_goals exact ⟨by decide +kernel, by decide +kernel, by decide +kernel, by decide +kernel⟩
  portSome := fun digits given => by cases given
  portDigits := fun digits given => by cases given
  pathShort := fun text given => by cases given; decide +kernel
  pathPlain := fun text given => by cases given; decide +kernel

theorem wget_fetches_gateway : Fetches ([32] ++ gatewayUrl.text ++ []) gatewayUrl := by
  refine (wget_fetches_iff gatewayUrl [32] [] (by decide +kernel) (by decide +kernel)).mpr ⟨?_, ?_, Or.inl rfl⟩
  all_goals decide +kernel

-- http://10.0.2.2:8080/
def proxyUrl : Url where
  scheme := true
  host := ascii "10.0.2.2"
  port := some [56, 48, 56, 48]
  path := some []
  hostSome := by decide +kernel
  hostShort := by decide +kernel
  hostPlain := by decide +kernel
  named := gatewayUrl.named
  portSome := fun digits given => by cases given; decide +kernel
  portDigits := fun digits given => by cases given; decide +kernel
  pathShort := fun text given => by cases given; decide +kernel
  pathPlain := fun text given => by cases given; decide +kernel

theorem wget_not_every_url : ¬ ∀ url : Url, Fetches url.text url := by
  intro always
  have fetched := fetched_piece proxyUrl [] [] (by decide +kernel) (by decide +kernel) (by rw [List.append_nil]; exact always proxyUrl)
  obtain ⟨_, _, _, _, _, number⟩ := fetched
  exact absurd number (by decide +kernel)

end RoDos.Wget
