import RoDos.Net.Words

set_option autoImplicit false

namespace RoDos.Dhcp

open Base Tcp Net

def dhcpOffer : UInt8 := 2

def optMsgType : UInt8 := 53

def optServerId : UInt8 := 54

def optSubnet : UInt8 := 1

def optRouter : UInt8 := 3

def optDns : UInt8 := 6

def optEnd : UInt8 := 255

-- options[312] is the last field of the packet, at 240.
def optionsSize : Nat := 312

def dhcpMinSize : UInt32 := 240

structure NetworkInterface extends Interface where
  dnsServer : UInt32

structure DhcpClient where
  xid : UInt32
  offeredIp : UInt32
  serverIp : UInt32

-- The variables of the option loop, the addresses as they lie in the packet.
structure Parsed where
  msgType : UInt8
  serverIp : UInt32
  subnet : UInt32
  router : UInt32
  dns : UInt32

def takeOption (parsed : Parsed) (code : UInt8) (options : List UInt8) (i : Nat) : Parsed :=
  if code = optMsgType then { parsed with msgType := options.getD i 0 }
  else if code = optServerId then { parsed with serverIp := native32 options i }
  else if code = optSubnet then { parsed with subnet := native32 options i }
  else if code = optRouter then { parsed with router := native32 options i }
  else if code = optDns then { parsed with dns := native32 options i }
  else parsed

def isAddress (code : UInt8) : Bool := code = optServerId ∨ code = optSubnet ∨ code = optRouter ∨ code = optDns

-- How many value bytes the switch loads, whatever the length byte says.
def loadSize (code : UInt8) : Nat := if code = optMsgType then 1 else if isAddress code then 4 else 0

-- With the places of options that are read, in order.
def parseOptions (options : List UInt8) (i : Nat) (parsed : Parsed) : Parsed × List Nat :=
  if i < optionsSize then
    let code := options.getD i 0
    if code = optEnd then (parsed, [i])
    else if code = 0 then
      let rest := parseOptions options (i + 1) parsed
      (rest.1, i :: rest.2)
    else
      let rest := parseOptions options (i + 2 + (options.getD (i + 1) 0).toNat) (takeOption parsed code options (i + 2))
      (rest.1, i :: (i + 1) :: (List.range' (i + 2) (loadSize code) ++ rest.2))
  else (parsed, [])
termination_by optionsSize - i

def parseStart (client : DhcpClient) : Parsed := ⟨0, client.serverIp, 0, 0, 0⟩

def orDefault (value default : UInt32) : UInt32 := if value = 0 then default else htonl value

def netifSetIp (iface : NetworkInterface) (ip netmask gateway dns : UInt32) : NetworkInterface :=
  { iface with ipAddr := ip, netmask := netmask, gateway := gateway, dnsServer := dns }

def parsedOptions (client : DhcpClient) (packet : List UInt8) : Parsed × List Nat :=
  parseOptions (packet.drop 240) 0 (parseStart client)

def finishOffer (client : DhcpClient) (iface : NetworkInterface) (packet : List UInt8) (parsed : Parsed) :
    DhcpClient × NetworkInterface × Int :=
  if parsed.msgType = dhcpOffer then
    let offered := htonl (native32 packet 16)
    ({ client with offeredIp := offered, serverIp := parsed.serverIp },
      netifSetIp iface offered (orDefault parsed.subnet 0x00FFFFFF) (orDefault parsed.router 0)
        (orDefault parsed.dns 0x08080808), 1)
  else ({ client with serverIp := parsed.serverIp }, iface, 0)

-- packet is what lies in memory from the packet on, its first len bytes are the packet's own.
def dhcpProcess (client : DhcpClient) (iface : Option NetworkInterface) (packet : Option (List UInt8)) (len : UInt32) :
    DhcpClient × Option NetworkInterface × Int :=
  match iface, packet with
  | some iface, some packet =>
      if len < dhcpMinSize then (client, some iface, -1)
      else if native32 packet 4 ≠ client.xid then (client, some iface, 0)
      else
        let done := finishOffer client iface packet (parsedOptions client packet).1
        (done.1, some done.2.1, done.2.2)
  | iface, _ => (client, iface, -1)

end RoDos.Dhcp
