import RoDos.Wget.Address

set_option autoImplicit false

namespace RoDos.Wget

open Base

structure Url where
  scheme : Bool
  host : List UInt8
  port : Option (List UInt8)
  path : Option (List UInt8)
  hostSome : host ≠ []
  hostShort : host.length ≤ 127
  hostPlain : ∀ byte ∈ host, 32 < byte ∧ byte ≠ 47 ∧ byte ≠ 58
  named : isIp host = false ∨ ∃ a b c d, DottedQuad host a b c d
  portSome : ∀ digits ∈ port, digits ≠ [] ∧ digits.length ≤ 5 ∧ decimal digits < 2 ^ 16
  portDigits : ∀ digits ∈ port, ∀ byte ∈ digits, 48 ≤ byte ∧ byte ≤ 57
  pathShort : ∀ text ∈ path, text.length ≤ 127
  pathPlain : ∀ text ∈ path, ∀ byte ∈ text, 32 < byte

namespace Url

def schemeText (url : Url) : List UInt8 := if url.scheme then ascii "http://" else []

def portText (url : Url) : List UInt8 := (url.port.map fun digits => 58 :: digits).getD []

def pathText (url : Url) : List UInt8 := (url.path.map fun text => 47 :: text).getD []

def body (url : Url) : List UInt8 := url.host ++ (url.portText ++ url.pathText)

def text (url : Url) : List UInt8 := url.schemeText ++ url.body

def portNumber (url : Url) : UInt16 := (url.port.map fun digits => UInt16.ofNat (decimal digits)).getD 80

def target (url : Url) : List UInt8 := 47 :: url.path.getD []

end Url

section
variable (url : Url)

theorem port_cases : (url.port = none ∧ url.portText = []) ∨
    ∃ first digits, url.port = some (first :: digits) ∧ url.portText = 58 :: first :: digits := by
  cases given : url.port with
  | none => exact Or.inl ⟨rfl, by rw [Url.portText, given]; rfl⟩
  | some digits =>
      obtain ⟨some', _, _⟩ := url.portSome digits given
      obtain ⟨first, digits, rfl⟩ := List.exists_cons_of_ne_nil some'
      exact Or.inr ⟨first, digits, rfl, by rw [Url.portText, given]; rfl⟩

theorem path_cases : (url.path = none ∧ url.pathText = [] ∧ url.target = [47]) ∨
    ∃ text, url.path = some text ∧ url.pathText = 47 :: text ∧ url.target = 47 :: text := by
  cases given : url.path with
  | none => exact Or.inl ⟨rfl, by rw [Url.pathText, given]; rfl, by rw [Url.target, given]; rfl⟩
  | some text => exact Or.inr ⟨text, rfl, by rw [Url.pathText, given]; rfl, by rw [Url.target, given]; rfl⟩

theorem text_plain : ∀ byte ∈ url.text, 32 < byte := by
  intro byte member
  rw [Url.text, Url.body, List.mem_append, List.mem_append, List.mem_append] at member
  rcases member with scheme | host | port | path
  · rw [Url.schemeText] at scheme
    split at scheme
    · revert byte
      decide +kernel
    · cases scheme
  · exact (url.hostPlain byte host).1
  · rcases port_cases url with ⟨_, none'⟩ | ⟨first, digits, given, spelled⟩
    · rw [none'] at port
      cases port
    · rw [spelled] at port
      rcases List.mem_cons.mp port with rfl | digit
      · decide
      · have above := (url.portDigits _ given byte digit).1
        exact UInt8.lt_of_lt_of_le (by decide) above
  · rcases path_cases url with ⟨_, none', _⟩ | ⟨text, given, spelled, _⟩
    · rw [none'] at path
      cases path
    · rw [spelled] at path
      rcases List.mem_cons.mp path with rfl | inside
      · decide
      · exact url.pathPlain _ given byte inside

theorem target_plain : ∀ byte ∈ url.target, 32 < byte := by
  intro byte member
  rcases path_cases url with ⟨_, _, same⟩ | ⟨text, given, _, same⟩
  · rw [same] at member
    cases List.mem_singleton.mp member
    decide
  · rw [same] at member
    rcases List.mem_cons.mp member with rfl | inside
    · decide
    · exact url.pathPlain _ given byte inside

theorem text_some : url.text ≠ [] := by
  rw [Url.text, Url.body]
  simp [url.hostSome]

theorem behind_host : url.portText ++ url.pathText = [] ∨
    (∃ first rest, url.portText ++ url.pathText = 58 :: first :: rest ∧ 48 ≤ first) ∨
      ∃ rest, url.portText ++ url.pathText = 47 :: rest := by
  rcases port_cases url with ⟨_, none'⟩ | ⟨first, digits, given, spelled⟩
  · rw [none', List.nil_append]
    rcases path_cases url with ⟨_, none'', _⟩ | ⟨text, _, spelled, _⟩
    · exact Or.inl none''
    · exact Or.inr (Or.inr ⟨text, spelled⟩)
  · refine Or.inr (Or.inl ⟨first, digits ++ url.pathText, by rw [spelled]; rfl, ?_⟩)
    exact (url.portDigits _ given first List.mem_cons_self).1

theorem behind_host_ends : url.portText ++ url.pathText = [] ∨ (url.portText ++ url.pathText).head? = some 47 ∨
    (url.portText ++ url.pathText).head? = some 58 := by
  rcases behind_host url with none' | ⟨first, digits, port, _⟩ | ⟨path, slash⟩
  · exact Or.inl none'
  · exact Or.inr (Or.inr (by rw [port]; rfl))
  · exact Or.inr (Or.inl (by rw [slash]; rfl))

theorem host_taken (rest : List UInt8) (ends : rest = [] ∨ rest.head? = some 47 ∨ rest.head? = some 58) :
    (url.host ++ rest).takeWhile (fun byte => byte ≠ 47 ∧ byte ≠ 58) = url.host := by
  rw [List.takeWhile_append_of_pos fun byte member => by simpa using (url.hostPlain byte member).2]
  rcases ends with rfl | slash | colon
  · simp
  · obtain ⟨behind, rfl⟩ := List.head?_eq_some_iff.mp slash
    simp
  · obtain ⟨behind, rfl⟩ := List.head?_eq_some_iff.mp colon
    simp

theorem body_no_scheme (scheme : List UInt8) (front : List UInt8) (solid : ∀ byte ∈ front, byte ≠ 47 ∧ byte ≠ 58)
    (colon : scheme = front ++ [58, 47, 47]) : ¬ scheme <+: url.body := by
  rintro ⟨rest, spelled⟩
  rw [colon, Url.body, List.append_assoc] at spelled
  have cut : (front ++ ([58, 47, 47] ++ rest)).takeWhile (fun byte => byte ≠ 47 ∧ byte ≠ 58) = front := by
    rw [List.takeWhile_append_of_pos fun byte member => by simpa using solid byte member]
    simp
  rw [spelled, host_taken url _ (behind_host_ends url)] at cut
  rw [cut] at spelled
  have behind := List.append_cancel_left spelled
  rcases behind_host url with none' | ⟨first, digits, port, digit⟩ | ⟨path, slash⟩
  · rw [none'] at behind
    cases behind
  · rw [port] at behind
    cases behind
    exact absurd digit (by decide)
  · rw [slash] at behind
    cases behind
end

end RoDos.Wget
