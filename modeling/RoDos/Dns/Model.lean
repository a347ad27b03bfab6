import Mathlib.Algebra.Ring.Nat
import RoDos.Base.CString
import RoDos.Base.Runs

set_option autoImplicit false

namespace RoDos.Dns

open Base

def dot : UInt8 := 46

-- Every entry stands for a name and the same name with www. before it.
def staticDns : List (List UInt8 × UInt32) :=
  [(ascii "example.com", 0x5DB8D822), (ascii "www.example.com", 0x5DB8D822), (ascii "httpbin.org", 0x36F7F036),
    (ascii "www.httpbin.org", 0x36F7F036), (ascii "info.cern.ch", 0xBC14FC0B), (ascii "www.info.cern.ch", 0xBC14FC0B),
    (ascii "google.com", 0x8EFA7F0E), (ascii "www.google.com", 0x8EFA7F0E)]

def staticEntry (host : List UInt8) : Option UInt32 :=
  (staticDns.find? fun entry => entry.1 = host).map Prod.snd

-- The labels of the name that goes into the question; none when one is too long. label is the
-- one being read. A dot at the end of the name starts no further label.
def qnameLabels (label : List UInt8) : List UInt8 → Option (List UInt8)
  | [] => if 63 < label.length then none else some (UInt8.ofNat label.length :: label)
  | byte :: rest =>
      if byte = dot then
        if 63 < label.length then none
        else if rest = [] then some (UInt8.ofNat label.length :: label)
        else (qnameLabels [] rest).map fun labels => (UInt8.ofNat label.length :: label) ++ labels
      else qnameLabels (label ++ [byte]) rest

def qname (host : List UInt8) : Option (List UInt8) :=
  if host = [] then some [0] else (qnameLabels [] host).map fun labels => labels ++ [0]

-- The walk over a name; skip counts the bytes of the current label still ahead. none when it leaves the buffer.
def skipName : Nat → List UInt8 → Option (List UInt8)
  | _, [] => none
  | skip + 1, _ :: rest => skipName skip rest
  | 0, byte :: rest => if byte = 0 then some rest else skipName byte.toNat rest

def skipQuestions : Nat → List UInt8 → Option (List UInt8)
  | 0, p => some p
  | count + 1, p => (skipName 0 p).bind fun rest => skipQuestions count (rest.drop 4)

def skipOwner (p : List UInt8) : Option (List UInt8) :=
  match p with
  | [] => none
  | byte :: _ => if byte &&& 0xC0 = 0xC0 then some (p.drop 2) else skipName 0 p

def beWord (p : List UInt8) (i : Nat) : Nat := (p.getD i 0).toNat * 2 ^ 8 + (p.getD (i + 1) 0).toNat

def beAddress (p : List UInt8) : UInt32 :=
  ((p.getD 0 0).toUInt32 <<< 24) ||| ((p.getD 1 0).toUInt32 <<< 16) ||| ((p.getD 2 0).toUInt32 <<< 8) |||
    (p.getD 3 0).toUInt32

-- The outer none is a read behind the buffer, the inner one an answer section without an A record.
def parseAnswers : Nat → List UInt8 → Option (Option UInt32)
  | 0, _ => some none
  | count + 1, p =>
      (skipOwner p).bind fun record =>
        if record.length < 10 then none
        else if beWord record 0 = 1 ∧ beWord record 8 = 4 then
          if record.length < 14 then none else some (some (beAddress (record.drop 10)))
        else parseAnswers count (record.drop (10 + beWord record 8))

-- What udp_process stores into last_dns_ip, if anything. The length in the UDP header counts,
-- and neither it nor len bounds the walk over the records.
def udpProcess (packet : List UInt8) (len : Nat) : Option (Option UInt32) :=
  if len < 8 then some none
  else
    let payloadLen := (beWord packet 4 + 2 ^ 32 - 8) % 2 ^ 32
    if beWord packet 0 ≠ 53 ∨ payloadLen < 12 then some none
    else if packet.length < 20 then none
    else (skipQuestions (beWord packet 12) (packet.drop 20)).bind fun p => parseAnswers (beWord packet 14) p

def ipReceive (buffer : List UInt8) (len : Nat) : Option (Option UInt32) :=
  if len < 14 then some none
  else if beWord buffer 12 ≠ 0x0800 then some none
  else if len < 34 then some none
  else if buffer.getD 23 0 = 17 then udpProcess (buffer.drop 34) (len - 34)
  else some none

def rxBufferSize : Nat := 2048

inductive Phase where
  | idle
  | waiting (hostname : List UInt8) (retry : Nat)
deriving DecidableEq, Repr

-- A response as a name server sent it; name is the question of the query it responds to.
structure Response where
  name : List UInt8
  frame : List UInt8
deriving DecidableEq, Repr

-- The resolver's variables, the receive buffer of netif_poll, the questions sent so far, the
-- responses to them, and what dns_resolve returned for which host.
structure Net where
  lastDnsHost : List UInt8
  lastDnsIp : UInt32
  rxBuffer : List UInt8
  phase : Phase
  queries : List (List UInt8)
  responses : List Response
  results : List (List UInt8 × UInt32)
deriving DecidableEq, Repr

def firstNet : Net := ⟨[], 0, List.replicate rxBufferSize 0, .idle, [], [], []⟩

def finish (net : Net) (hostname : List UInt8) (ip : UInt32) : Net :=
  { net with phase := .idle, results := net.results ++ [(hostname, ip)] }

-- The start of dns_resolve, up to its first query. A name of 64 bytes or more runs on behind last_dns_host; overrun is
-- what last_dns_ip holds then.
def dnsResolve (net : Net) (hostname : List UInt8) (overrun : UInt32) : Net :=
  if net.lastDnsHost = hostname ∧ net.lastDnsIp ≠ 0 then finish net hostname net.lastDnsIp
  else
    match staticEntry hostname with
    | some ip => finish { net with lastDnsIp := ip, lastDnsHost := hostname } hostname ip
    | none =>
        match qname hostname with
        | none => finish net hostname 0
        | some name =>
            { net with
              lastDnsIp := if 64 ≤ hostname.length then overrun else 0
              lastDnsHost := hostname
              phase := .waiting hostname 0
              queries := net.queries ++ [name] }

-- About three seconds without an answer: the query is sent again, five times in all.
def giveUp (net : Net) : Option Net :=
  match net.phase with
  | .idle => none
  | .waiting hostname retry =>
      if net.lastDnsIp ≠ 0 then none
      else if retry + 1 < 5 then
        (qname hostname).map fun name =>
          { net with phase := .waiting hostname (retry + 1), queries := net.queries ++ [name] }
      else some (finish net hostname 0)

def polled (net : Net) : Net :=
  match net.phase with
  | .idle => net
  | .waiting hostname _ => if net.lastDnsIp = 0 then net else finish net hostname net.lastDnsIp

def filled (net : Net) (frame : List UInt8) : List UInt8 := frame ++ net.rxBuffer.drop frame.length

-- netif_poll with a frame; none where the walk over its records leaves rx_buffer.
def netifPoll (net : Net) (frame : List UInt8) : Option Net :=
  if frame = [] ∨ rxBufferSize < frame.length then none
  else
    (ipReceive (filled net frame) frame.length).map fun stored =>
      polled { net with rxBuffer := filled net frame, lastDnsIp := stored.getD net.lastDnsIp }

-- A response may arrive at any time and any number of times, or never; other is a frame that is not one, quiet a poll
-- without a frame.
inductive NetOp where
  | resolve (hostname : List UInt8) (overrun : UInt32)
  | quiet
  | giveUp
  | answer (response : Response)
  | arrive (i : Nat)
  | other (frame : List UInt8)
deriving DecidableEq, Repr

def stepOp (net : Net) : NetOp → Option Net
  | .resolve hostname overrun => if net.phase = .idle then some (dnsResolve net (cString hostname) overrun) else none
  | .quiet => some (polled net)
  | .giveUp => giveUp net
  | .answer response =>
      if response.name ∈ net.queries then some { net with responses := net.responses ++ [response] } else none
  | .arrive i => net.responses[i]?.bind fun response => netifPoll net response.frame
  | .other frame => if ipReceive (filled net frame) frame.length = some none then netifPoll net frame else none

def NetStep (net : Net) (op : NetOp) (next : Net) : Prop := stepOp net op = some next

def Started (net : Net) : Prop := net = firstNet

end RoDos.Dns
