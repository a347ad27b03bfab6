import Mathlib.Data.List.Chain
import RoDos.Fs.Model

set_option autoImplicit false

namespace RoDos.Shell

open Base Fs

def argumentWords (args : List UInt8) : List (List UInt8) := words isSpace (cString args)

-- COPY and MOVE take the first two words, each cut to 63 bytes, and look for the second one
-- where the first one ends.
structure TakesTwoWords (args : List UInt8) : Prop where
  first : token args = ((argumentWords args).getD 0 []).take 63
  second : secondToken args = ((argumentWords args).getD 1 []).take 63
  apart : (getToken (cString args) 64).2 = behindWord isSpace (cString args)

structure WgetArgs where
  url : List UInt8
  outputFile : List UInt8
deriving DecidableEq

abbrev IsOption (token : List UInt8) : Prop := token = ascii "-filename" ∨ token = ascii "-O"

-- The arguments and the strings at which get_token was called, in their order; none when the
-- number of rounds does not suffice. A token is shorter than the 256 bytes of url.
def wgetLoop : Nat → List UInt8 → WgetArgs → Option (WgetArgs × List (List UInt8))
  | 0, p, taken => if p = [] then some (taken, []) else none
  | rounds + 1, p, taken =>
      if p = [] then some (taken, [])
      else
        let token := getToken p 128
        if token.1 = [] then some (taken, [p])
        else if IsOption token.1 then
          if token.2 = [] then some (taken, [p])
          else
            let value := getToken token.2 64
            (wgetLoop rounds value.2 { taken with outputFile := value.1 }).map fun done =>
              (done.1, p :: token.2 :: done.2)
        else (wgetLoop rounds token.2 { taken with url := token.1 }).map fun done => (done.1, p :: done.2)

def wgetArguments (args : List UInt8) : Option (WgetArgs × List (List UInt8)) :=
  wgetLoop (cString args).length (cString args) ⟨[], []⟩

-- The words that are neither an option nor the value of one, and those values.
def plainWords : List (List UInt8) → List (List UInt8)
  | [] => []
  | [word] => if IsOption word then [] else [word]
  | word :: value :: later => if IsOption word then plainWords later else word :: plainWords (value :: later)

def optionValues : List (List UInt8) → List (List UInt8)
  | [] => []
  | [_] => []
  | word :: value :: later => if IsOption word then value :: optionValues later else optionValues (value :: later)

-- The last word is an option without a value.
def endsBare : List (List UInt8) → Bool
  | [] => false
  | [word] => IsOption word
  | word :: value :: later => if IsOption word then endsBare later else endsBare (value :: later)

def endsBlank (s : List UInt8) : Bool := s.getLast?.any isSpace

-- The value of the last option, cut to 63 bytes; an option with nothing but blanks behind it takes the empty name.
def outputValue (s start : List UInt8) : List UInt8 :=
  if endsBare (words isSpace s) && endsBlank s then []
  else ((optionValues (words isSpace s)).getLast?.map fun value => value.take 63).getD start

def WgetWordsFit : List (List UInt8) → Prop
  | [] => True
  | [word] => word.length ≤ 127
  | word :: value :: later =>
      if IsOption word then value.length ≤ 63 ∧ WgetWordsFit later else word.length ≤ 127 ∧ WgetWordsFit (value :: later)

-- No call of get_token starts inside a word.
def CallsApart (calls : List (List UInt8)) : Prop := calls.IsChain fun s next => next = behindWord isSpace s

structure TakesUrl (args : List UInt8) (taken : WgetArgs) (calls : List (List UInt8)) : Prop where
  url : taken.url = ((plainWords (argumentWords args)).getLast?.getD []).take 127
  outputFile : taken.outputFile = outputValue (cString args) []
  apart : CallsApart calls

def WgetTakesWords (args : List UInt8) : Prop :=
  ∃ taken calls, wgetArguments args = some (taken, calls) ∧ TakesUrl args taken calls

theorem first_word (s : List UInt8) : (words isSpace s).getD 0 [] = leadingWord isSpace s := by
  rw [words_leading]
  split
  · rename_i empty
    exact ((leading_word_nil isSpace s).mpr empty).symm
  · rfl

theorem second_word (s : List UInt8) : (words isSpace s).getD 1 [] = leadingWord isSpace (behindWord isSpace s) := by
  rw [words_leading]
  split
  · rename_i empty
    have behind : behindWord isSpace s = [] := by rw [behindWord, empty]; rfl
    rw [behind]
    rfl
  · exact first_word (behindWord isSpace s)

theorem takes_two_words_iff (args : List UInt8) :
    TakesTwoWords args ↔ ((argumentWords args).getD 0 []).length ≤ 63 := by
  rw [argumentWords, first_word]
  constructor
  · intro takes
    exact (get_token_behind (cString args) 64).mp takes.apart
  · intro fits
    have apart := (get_token_behind (cString args) 64).mpr fits
    refine ⟨?_, ?_, apart⟩
    · rw [argumentWords, first_word, token, get_token_leading]
    · rw [argumentWords, second_word, secondToken, apart, get_token_leading]

theorem option_length (word : List UInt8) (option : IsOption word) : word.length ≤ 9 := by
  rcases option with rfl | rfl
  · decide
  · decide

theorem cut_option (word : List UInt8) : IsOption (word.take 127) ↔ IsOption word := by
  by_cases fits : word.length ≤ 127
  · rw [List.take_of_length_le fits]
  · refine iff_of_false (fun option => ?_) fun option => ?_
    · have short := option_length _ option
      rw [List.length_take] at short
      omega
    · have short := option_length _ option
      omega

theorem calls_cons (s : List UInt8) (calls : List (List UInt8)) :
    CallsApart (s :: calls) ↔ (∀ next ∈ calls.head?, next = behindWord isSpace s) ∧ CallsApart calls :=
  List.isChain_cons

section
variable (word : List UInt8) (later : List (List UInt8)) (plain : ¬ IsOption word)
include plain

theorem fit_plain : WgetWordsFit (word :: later) ↔ word.length ≤ 127 ∧ WgetWordsFit later := by
  cases later with
  | nil => exact (and_iff_left trivial).symm
  | cons value rest => rw [WgetWordsFit, if_neg plain]

theorem plain_words_plain : plainWords (word :: later) = word :: plainWords later := by
  cases later with
  | nil => exact if_neg plain
  | cons value rest => rw [plainWords, if_neg plain]

theorem values_plain : optionValues (word :: later) = optionValues later := by
  cases later with
  | nil => rfl
  | cons value rest => rw [optionValues, if_neg plain]

theorem bare_plain : endsBare (word :: later) = endsBare later := by
  cases later with
  | nil => exact decide_eq_false plain
  | cons value rest => rw [endsBare, if_neg plain]
end

theorem blank_suffix (p rest : List UInt8) (suffix : rest <:+ p) (some' : rest ≠ []) : endsBlank p = endsBlank rest := by
  obtain ⟨front, rfl⟩ := suffix
  rw [endsBlank, endsBlank, List.getLast?_append_of_ne_nil _ some']

theorem bare_blank (p rest : List UInt8) (suffix : rest <:+ p) :
    (endsBare (words isSpace rest) && endsBlank p) = (endsBare (words isSpace rest) && endsBlank rest) := by
  by_cases empty : rest = []
  · rw [empty]
    rfl
  · rw [blank_suffix p rest suffix empty]

theorem blank_of_all (rest : List UInt8) (some' : rest ≠ []) (blank : rest.dropWhile isSpace = []) : endsBlank rest = true := by
  rw [endsBlank, List.getLast?_eq_some_getLast some', Option.any_some]
  exact List.dropWhile_eq_nil_iff.mp blank _ (List.getLast_mem some')

theorem behind_suffix (s : List UInt8) : behindWord isSpace s <:+ s :=
  (List.dropWhile_suffix _).trans (List.dropWhile_suffix _)

theorem not_blank_at_word (p : List UInt8) (word : leadingWord isSpace p ≠ []) (last : behindWord isSpace p = []) :
    endsBlank p = false := by
  have some' : p.dropWhile isSpace ≠ [] := fun none' => word ((leading_word_nil isSpace p).mpr none')
  rw [blank_suffix p _ (List.dropWhile_suffix _) some', endsBlank, List.getLast?_eq_some_getLast some', Option.any_some]
  exact Bool.not_eq_true' _ |>.mp (List.dropWhile_eq_nil_iff.mp last _ (List.getLast_mem some'))

structure Parsed (p : List UInt8) (start taken : WgetArgs) (calls : List (List UInt8)) : Prop where
  head : calls.head? = if p = [] then none else some p
  apart : CallsApart calls ↔ WgetWordsFit (words isSpace p)
  url : WgetWordsFit (words isSpace p) →
    taken.url = ((plainWords (words isSpace p)).getLast?.map fun word => word.take 127).getD start.url
  outputFile : WgetWordsFit (words isSpace p) → taken.outputFile = outputValue p start.outputFile

theorem calls_next (s : List UInt8) (max : Nat) (start taken : WgetArgs) (calls : List (List UInt8))
    (later : Parsed (getToken s max).2 start taken calls) : CallsApart (s :: calls) ↔
      (leadingWord isSpace s).length ≤ max - 1 ∧ WgetWordsFit (words isSpace (behindWord isSpace s)) := by
  rw [calls_cons, later.head]
  by_cases fits : (leadingWord isSpace s).length ≤ max - 1
  · have behind := (get_token_behind s max).mpr fits
    rw [later.apart, behind, and_iff_right fits]
    refine and_iff_right fun next member => ?_
    split at member
    · cases member
    · exact (Option.some.inj member).symm
  · refine iff_of_false (fun apart => fits ?_) fun fit => fits fit.1
    have rest : (getToken s max).2 ≠ [] := by
      rw [get_token_leading]
      intro nothing
      have lengths := congrArg List.length nothing
      rw [List.length_append, List.length_drop, List.length_nil] at lengths
      omega
    exact (get_token_behind s max).mp (apart.1 _ (by rw [if_neg rest]; rfl))

theorem parsed_empty (start : WgetArgs) : Parsed [] start start [] :=
  ⟨rfl, iff_of_true List.IsChain.nil trivial, fun _ => rfl, fun _ => rfl⟩

section
variable (p : List UInt8) (start taken : WgetArgs) (calls : List (List UInt8))

theorem parsed_blank (some' : p ≠ []) (blank : leadingWord isSpace p = []) : Parsed p start start [p] := by
  have none' : words isSpace p = [] := by
    rw [words_leading, if_pos ((leading_word_nil isSpace p).mp blank)]
  refine ⟨(if_neg some').symm, ?_, fun _ => ?_, fun _ => ?_⟩
  · rw [none']
    exact iff_of_true (List.IsChain.singleton p) trivial
  · rw [none']
    rfl
  · rw [outputValue, none']
    rfl

variable (word : leadingWord isSpace p ≠ [])
include word

theorem parsed_words : words isSpace p = leadingWord isSpace p :: words isSpace (behindWord isSpace p) := by
  rw [words_leading, if_neg fun empty => word ((leading_word_nil isSpace p).mpr empty)]

theorem parsed_some : p ≠ [] := by
  rintro rfl
  exact word rfl

theorem parsed_plain (plain : ¬ IsOption (leadingWord isSpace p))
    (later : Parsed (getToken p 128).2 { start with url := (leadingWord isSpace p).take 127 } taken calls) :
    Parsed p start taken (p :: calls) := by
  have split := parsed_words p word
  refine ⟨(if_neg (parsed_some p word)).symm, ?_, fun fit => ?_, fun fit => ?_⟩
  · rw [calls_next p 128 _ taken calls later, split, fit_plain _ _ plain]
  · rw [split, fit_plain _ _ plain] at fit
    have behind := (get_token_behind p 128).mpr fit.1
    rw [later.url (behind ▸ fit.2), behind, split, plain_words_plain _ _ plain, List.getLast?_cons, Option.map_some,
      Option.getD_some]
    exact Option.getD_map (List.take 127) _ _
  · rw [split, fit_plain _ _ plain] at fit
    have behind := (get_token_behind p 128).mpr fit.1
    rw [later.outputFile (behind ▸ fit.2), behind, outputValue, outputValue, split, bare_plain _ _ plain,
      values_plain _ _ plain, bare_blank p _ (behind_suffix p)]

omit word in
theorem option_behind (option : IsOption (leadingWord isSpace p)) :
    getToken p 128 = (leadingWord isSpace p, behindWord isSpace p) :=
  get_token_fits p 128 (Nat.le_trans (option_length _ option) (by decide))

omit word in
theorem fit_option (option : IsOption (leadingWord isSpace p)) : WgetWordsFit [leadingWord isSpace p] :=
  Nat.le_trans (option_length _ option) (by decide)

theorem parsed_bare (option : IsOption (leadingWord isSpace p)) (last : behindWord isSpace p = []) :
    Parsed p start start [p] := by
  have single : words isSpace p = [leadingWord isSpace p] := by
    rw [parsed_words p word, last]
    rfl
  have none' : plainWords [leadingWord isSpace p] = [] := if_pos option
  refine ⟨(if_neg (parsed_some p word)).symm, ?_, fun _ => ?_, fun _ => ?_⟩
  · rw [single]
    exact iff_of_true (List.IsChain.singleton p) (fit_option p option)
  · rw [single, none']
    rfl
  · rw [outputValue, single, not_blank_at_word p word last, Bool.and_false]
    rfl

section
variable (rest : List UInt8) (some' : p ≠ []) (option : IsOption (leadingWord isSpace p))
  (split : words isSpace p = leadingWord isSpace p :: words isSpace rest) (suffix : rest <:+ p)
  (later : Parsed (getToken rest 64).2 { start with outputFile := (leadingWord isSpace rest).take 63 } taken calls)
  (apart : CallsApart (p :: rest :: calls) ↔
    (leadingWord isSpace rest).length ≤ 63 ∧ WgetWordsFit (words isSpace (behindWord isSpace rest)))
include some' option split suffix later apart

omit word in
theorem parsed_option_blank (more : rest ≠ []) (blank : rest.dropWhile isSpace = []) : Parsed p start taken (p :: rest :: calls) := by
  rw [words_leading isSpace rest, if_pos blank] at split
  have nothing : leadingWord isSpace rest = [] := (leading_word_nil isSpace rest).mpr blank
  have behind : behindWord isSpace rest = [] := by rw [behindWord, blank]; rfl
  have over' : (getToken rest 64).2 = [] := by rw [get_token_leading, nothing, behind]; rfl
  have none' : plainWords [leadingWord isSpace p] = [] := if_pos option
  rw [over', nothing] at later
  rw [nothing, behind] at apart
  refine ⟨(if_neg some').symm, ?_, fun _ => ?_, fun _ => ?_⟩
  · rw [apart, split]
    exact iff_of_true ⟨Nat.zero_le _, trivial⟩ (fit_option p option)
  · rw [split, none', later.url trivial]
    rfl
  · have bare : endsBare [leadingWord isSpace p] = true := decide_eq_true option
    rw [later.outputFile trivial, outputValue, outputValue, split, bare, blank_suffix p rest suffix more,
      blank_of_all rest more blank]
    rfl

omit word in
theorem parsed_option_value (blank : rest.dropWhile isSpace ≠ []) : Parsed p start taken (p :: rest :: calls) := by
  rw [words_leading isSpace rest, if_neg blank] at split
  have fit : WgetWordsFit (words isSpace p) ↔ (leadingWord isSpace rest).length ≤ 63 ∧
      WgetWordsFit (words isSpace (behindWord isSpace rest)) := by
    rw [split, WgetWordsFit, if_pos option]
  have plain : plainWords (words isSpace p) = plainWords (words isSpace (behindWord isSpace rest)) := by
    rw [split, plainWords, if_pos option]
  have bare : endsBare (words isSpace p) = endsBare (words isSpace (behindWord isSpace rest)) := by
    rw [split, endsBare, if_pos option]
  have values : optionValues (words isSpace p) =
      leadingWord isSpace rest :: optionValues (words isSpace (behindWord isSpace rest)) := by
    rw [split, optionValues, if_pos option]
  refine ⟨(if_neg some').symm, apart.trans fit.symm, fun fits => ?_, fun fits => ?_⟩
  · obtain ⟨short, fits⟩ := fit.mp fits
    rw [(get_token_behind rest 64).mpr short] at later
    rw [later.url fits, plain]
  · obtain ⟨short, fits⟩ := fit.mp fits
    rw [(get_token_behind rest 64).mpr short] at later
    rw [later.outputFile fits, outputValue, outputValue, values, bare, bare_blank p _ ((behind_suffix rest).trans suffix),
      List.getLast?_cons, Option.map_some, Option.getD_some]
    exact congrArg (ite _ []) (Option.getD_map (List.take 63) _ _)
end

theorem parsed_option (option : IsOption (leadingWord isSpace p)) (more : behindWord isSpace p ≠ [])
    (later : Parsed (getToken (behindWord isSpace p) 64).2
      { start with outputFile := (leadingWord isSpace (behindWord isSpace p)).take 63 } taken calls) :
    Parsed p start taken (p :: behindWord isSpace p :: calls) := by
  have apart : CallsApart (p :: behindWord isSpace p :: calls) ↔ CallsApart (behindWord isSpace p :: calls) := by
    rw [calls_cons]
    exact and_iff_right fun next member => (Option.some.inj member).symm
  rw [calls_next _ 64 _ taken calls later] at apart
  have split := parsed_words p word
  have suffix := behind_suffix p
  by_cases blank : (behindWord isSpace p).dropWhile isSpace = []
  · exact parsed_option_blank p start taken calls (behindWord isSpace p) (parsed_some p word) option split suffix later apart more blank
  · exact parsed_option_value p start taken calls (behindWord isSpace p) (parsed_some p word) option split suffix later apart blank
end

theorem wget_loop_parses (rounds : Nat) (p : List UInt8) (start : WgetArgs) (enough : p.length ≤ rounds) :
    ∃ taken calls, wgetLoop rounds p start = some (taken, calls) ∧ Parsed p start taken calls := by
  induction rounds generalizing p start with
  | zero =>
      rw [List.eq_nil_of_length_eq_zero (Nat.le_zero.mp enough)]
      exact ⟨start, [], rfl, parsed_empty start⟩
  | succ rounds ih =>
      rw [wgetLoop]
      by_cases empty : p = []
      · rw [if_pos empty, empty]
        exact ⟨start, [], rfl, parsed_empty start⟩
      have token : (getToken p 128).1 = (leadingWord isSpace p).take 127 := rfl
      simp only [if_neg empty, token]
      by_cases blank : leadingWord isSpace p = []
      · rw [if_pos (by rw [blank]; rfl)]
        exact ⟨start, [p], rfl, parsed_blank p start empty blank⟩
      have given : (leadingWord isSpace p).take 127 ≠ [] := fun nothing =>
        blank ((List.take_eq_nil_iff.mp nothing).resolve_left (by decide))
      have word : skipSpaces p ≠ [] := fun none' => blank ((leading_word_nil isSpace p).mpr none')
      have shorter := get_token_shortens p 128 (by decide) word
      rw [if_neg given]
      by_cases option : IsOption (leadingWord isSpace p)
      · rw [if_pos ((cut_option _).mpr option), option_behind p option]
        dsimp only
        by_cases last : behindWord isSpace p = []
        · rw [if_pos last]
          exact ⟨start, [p], rfl, parsed_bare p start blank option last⟩
        · rw [if_neg last]
          rw [option_behind p option] at shorter
          have fits := get_token_rest (behindWord isSpace p) 64
          obtain ⟨taken, calls, looped, parsed⟩ := ih (getToken (behindWord isSpace p) 64).2
            { start with outputFile := (getToken (behindWord isSpace p) 64).1 } (by dsimp only at shorter; omega)
          rw [looped]
          exact ⟨taken, _, rfl, parsed_option p start taken calls blank option last parsed⟩
      · rw [if_neg fun cut => option ((cut_option _).mp cut)]
        obtain ⟨taken, calls, looped, parsed⟩ :=
          ih (getToken p 128).2 { start with url := (leadingWord isSpace p).take 127 } (by omega)
        rw [looped]
        exact ⟨taken, _, rfl, parsed_plain p start taken calls blank option parsed⟩

theorem wget_takes_words_iff (args : List UInt8) : WgetTakesWords args ↔ WgetWordsFit (argumentWords args) := by
  obtain ⟨taken, calls, looped, parsed⟩ := wget_loop_parses _ (cString args) ⟨[], []⟩ (Nat.le_refl _)
  constructor
  · rintro ⟨other, others, same, takes⟩
    cases looped.symm.trans same
    exact parsed.apart.mp takes.apart
  · intro fits
    refine ⟨taken, calls, looped, ?_, parsed.outputFile fits, parsed.apart.mpr fits⟩
    rw [parsed.url fits]
    exact Option.getD_map (List.take 127) [] _

theorem arguments_taken_iff (args : List UInt8) :
    (TakesTwoWords args ↔ ((argumentWords args).getD 0 []).length ≤ 63) ∧
      (WgetTakesWords args ↔ WgetWordsFit (argumentWords args)) :=
  ⟨takes_two_words_iff args, wget_takes_words_iff args⟩

-- The first word has 64 letters: the last of them becomes the second argument.
theorem arguments_not_taken : ¬ ∀ args, TakesTwoWords args ∧ WgetTakesWords args := by
  intro claimed
  have second := (claimed (List.replicate 64 97 ++ ascii " b")).1.second
  exact absurd second (by decide +kernel)

end RoDos.Shell
