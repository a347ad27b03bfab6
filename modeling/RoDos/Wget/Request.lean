import RoDos.Wget.Url

set_option autoImplicit false

namespace RoDos.Wget

open Base

def HostAddress (net : Network) (host : List UInt8) (ip : UInt32) : Prop :=
  (isIp host = false ∧ net.dnsResolve host = ip ∧ ip ≠ 0) ∨ ∃ a b c d, DottedQuad host a b c d ∧ ip = dotted a b c d

structure Requests (url : Url) (request : List UInt8) : Prop where
  spelled : ∃ rest, request =
    ascii "GET " ++ (url.target ++ (ascii " HTTP/1.0\r\nHost: " ++ (url.host ++ (ascii "\r\n" ++ rest))))
  ends : ascii "\r\n\r\n" <:+ request
  fits : request.length < 512

def wantedCalls (net : Network) (url : Url) (ip : UInt32) (request : List UInt8) : List Call :=
  let socket := net.tcpConnect ip url.portNumber
  if socket < 0 then [.tcpConnect ip url.portNumber] else [.tcpConnect ip url.portNumber, .tcpSend socket request]

def Fetches (args : List UInt8) (url : Url) : Prop := ∀ net ip, net.online = true → HostAddress net url.host ip →
  ∃ request, Requests url request ∧ cmdWget net args = some (wantedCalls net url ip request)

structure Fetchable (url : Url) : Prop where
  short : url.text.length ≤ 127
  argument : url.text ≠ ascii "-filename" ∧ url.text ≠ ascii "-O"
  port : url.port = none ∨ url.portNumber = 80 ∧ url.target = [47]

theorem append_fits (limit : Nat) (req s : List UInt8) (room : req.length + s.length ≤ limit) :
    appendUpTo limit req s = req ++ s := by
  rw [appendUpTo, List.take_of_length_le (by omega)]

theorem request_lengths : (ascii "GET ").length = 4 ∧ (ascii " HTTP/1.0\r\nHost: ").length = 17 ∧ requestHeaders.length ≤ 60 := by
  decide +kernel

theorem headers_open : requestHeaders = ascii "\r\n" ++ requestHeaders.drop 2 := by decide +kernel

theorem build_request_spelled (path host : List UInt8) (pathShort : path.length ≤ 127) (hostShort : host.length ≤ 127) :
    buildRequest path host = ascii "GET " ++ (path ++ (ascii " HTTP/1.0\r\nHost: " ++ (host ++ requestHeaders))) := by
  obtain ⟨get, version, headers⟩ := request_lengths
  have one := append_fits 500 (ascii "GET ") path (by omega)
  have two := append_fits 500 (ascii "GET " ++ path) (ascii " HTTP/1.0\r\nHost: ") (by rw [List.length_append]; omega)
  have three := append_fits 500 (ascii "GET " ++ path ++ ascii " HTTP/1.0\r\nHost: ") host
    (by rw [List.length_append, List.length_append]; omega)
  have four := append_fits 511 (ascii "GET " ++ path ++ ascii " HTTP/1.0\r\nHost: " ++ host) requestHeaders
    (by rw [List.length_append, List.length_append, List.length_append]; omega)
  rw [buildRequest, one, two, three, four, List.append_assoc, List.append_assoc, List.append_assoc]

theorem host_of_length (start : List UInt8) : (hostOf start).length ≤ 127 := List.length_take_le _ _

theorem path_of_length (start : List UInt8) : (pathOf start).length ≤ 127 := by
  rw [pathOf]
  split
  · exact List.length_take_le _ _
  · decide

theorem host_of_subset (start : List UInt8) : hostOf start ⊆ start :=
  fun _ member => (List.takeWhile_sublist _).subset (List.take_subset _ _ member)

theorem path_of_plain (start : List UInt8) (plain : ∀ byte ∈ start, 32 < byte) : ∀ byte ∈ pathOf start, 32 < byte := by
  rw [pathOf]
  split
  · exact fun byte member => plain byte (List.mem_of_mem_drop (List.mem_of_mem_take member))
  · decide +kernel

theorem request_read (url : Url) (start : List UInt8) (plain : ∀ byte ∈ start, 32 < byte)
    (asked : Requests url (buildRequest (pathOf start) (hostOf start))) :
    hostOf start = url.host ∧ pathOf start = url.target := by
  obtain ⟨rest, spelled⟩ := asked.spelled
  rw [build_request_spelled _ _ (path_of_length start) (host_of_length start)] at spelled
  have behind := List.append_cancel_left spelled
  have version : ascii " HTTP/1.0\r\nHost: " = 32 :: ascii "HTTP/1.0\r\nHost: " := by decide +kernel
  have line : ascii "\r\n" = 13 :: [10] := by decide +kernel
  rw [version, List.cons_append, List.cons_append] at behind
  obtain ⟨path, further⟩ := cut_unique 32 _ _ _ _
    (fun space => absurd (path_of_plain start plain 32 space) (by decide))
    (fun space => absurd (target_plain url 32 space) (by decide)) behind
  have named := List.append_cancel_left further
  rw [headers_open, line, List.cons_append, List.cons_append] at named
  obtain ⟨host, _⟩ := cut_unique 13 _ _ _ _ (fun ret => absurd (plain 13 (host_of_subset start ret)) (by decide))
    (fun ret => absurd (url.hostPlain 13 ret).1 (by decide)) named
  exact ⟨host, path⟩

theorem request_asks (url : Url) (path host : List UInt8) (hostSame : host = url.host) (pathSame : path = url.target)
    (short : path.length ≤ 127) : Requests url (buildRequest path host) := by
  rw [hostSame, pathSame, build_request_spelled _ _ (pathSame ▸ short) url.hostShort]
  obtain ⟨get, version, headers⟩ := request_lengths
  have closing : ascii "\r\n\r\n" <:+ requestHeaders := by decide +kernel
  refine ⟨⟨_, by rw [← headers_open]⟩, ?_, ?_⟩
  · rw [← List.append_assoc, ← List.append_assoc, ← List.append_assoc]
    exact closing.trans (List.suffix_append _ _)
  · have hostShort := url.hostShort
    rw [pathSame] at short
    simp only [List.length_append]
    omega

end RoDos.Wget
