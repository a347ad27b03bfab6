import Mathlib.Algebra.Ring.Nat
import RoDos.Tokens

set_option autoImplicit false

namespace RoDos.Wget

open Base

-- What the command finds around it: the interface, the resolver and the TCP layer.
structure Network where
  online : Bool
  dnsResolve : List UInt8 → UInt32
  tcpConnect : UInt32 → UInt16 → Int

inductive Call where
  | tcpConnect (destIp : UInt32) (destPort : UInt16)
  | tcpSend (socket : Int) (data : List UInt8)
deriving DecidableEq, Repr

structure Arguments where
  url : List UInt8
  outputFile : List UInt8
deriving DecidableEq, Repr

-- A round of the loop takes at least one byte, so the length of the line is fuel enough.
def parseArguments : Nat → List UInt8 → Arguments → Arguments
  | 0, _, arguments => arguments
  | fuel + 1, p, arguments =>
      let (token, rest) := getToken p 128
      if token = [] then arguments
      else if token = ascii "-filename" ∨ token = ascii "-O" then
        if rest = [] then parseArguments fuel rest arguments
        else
          let (name, further) := getToken rest 64
          parseArguments fuel further { arguments with outputFile := name }
      else parseArguments fuel rest { arguments with url := token.take 255 }

-- The scheme is passed over, HTTPS too.
def hostStart (url : List UInt8) : List UInt8 :=
  if (ascii "http://").isPrefixOf url then url.drop 7
  else if (ascii "https://").isPrefixOf url then url.drop 8
  else url

def hostOf (start : List UInt8) : List UInt8 := (start.takeWhile fun byte => byte ≠ 47 ∧ byte ≠ 58).take 127

-- Only a slash right behind the host begins a path; the default stands for a port as well.
def pathOf (start : List UInt8) : List UInt8 :=
  let behind := start.drop (hostOf start).length
  if behind.head? = some 47 then behind.take 127 else [47]

def hostDigit (byte : UInt8) : Bool := (48 ≤ byte ∧ byte ≤ 57) ∨ byte = 46

def isIp (host : List UInt8) : Bool := host.all hostDigit

-- The stores into parts, each with its index.
def parseParts : List UInt8 → UInt32 → Nat → List (Nat × UInt32)
  | [], val, idx => [(idx, val)]
  | byte :: rest, val, idx =>
      if byte = 46 then (idx, val) :: parseParts rest 0 (idx + 1)
      else parseParts rest (val * 10 + UInt32.ofNat (byte.toNat - 48)) idx

def part (stores : List (Nat × UInt32)) (idx : Nat) : UInt32 := (stores.lookup idx).getD 0

def joinParts (stores : List (Nat × UInt32)) : UInt32 :=
  part stores 0 <<< 24 ||| part stores 1 <<< 16 ||| part stores 2 <<< 8 ||| part stores 3

def appendUpTo (limit : Nat) (req s : List UInt8) : List UInt8 := req ++ s.take (limit - req.length)

def requestHeaders : List UInt8 := ascii "\r\nUser-Agent: RO-DOS/1.1\r\nConnection: close\r\nAccept: */*\r\n\r\n"

def buildRequest (path host : List UInt8) : List UInt8 :=
  let req := appendUpTo 500 (ascii "GET ") path
  let req := appendUpTo 500 req (ascii " HTTP/1.0\r\nHost: ")
  let req := appendUpTo 500 req host
  appendUpTo 511 req requestHeaders

def connectAndSend (net : Network) (ip : UInt32) (path host : List UInt8) : List Call :=
  let socket := net.tcpConnect ip 80
  if socket < 0 then [.tcpConnect ip 80] else [.tcpConnect ip 80, .tcpSend socket (buildRequest path host)]

-- none stands for a store outside parts, after which nothing is certain.
def contactHost (net : Network) (path host : List UInt8) : Option (List Call) :=
  if isIp host then
    let stores := parseParts host 0 0
    if ∀ store ∈ stores, store.1 < 4 then some (connectAndSend net (joinParts stores) path host) else none
  else
    let ip := net.dnsResolve host
    if ip = 0 then some [] else some (connectAndSend net ip path host)

-- The calls into the TCP layer up to the request.
def cmdWget (net : Network) (args : List UInt8) : Option (List Call) :=
  if net.online then
    let url := (parseArguments args.length args ⟨[], []⟩).url
    let start := hostStart url
    if url = [] ∨ start = [] ∨ start.head? = some 47 then some []
    else contactHost net (pathOf start) (hostOf start)
  else some []

end RoDos.Wget
