import RoDos.Dhcp.Options

set_option autoImplicit false

namespace RoDos.Dhcp

open Base Tcp Net

def optionCodes (options : List UInt8) (i : Nat) : List UInt8 :=
  if i < optionsSize then
    let code := options.getD i 0
    if code = optEnd then []
    else if code = 0 then optionCodes options (i + 1)
    else code :: optionCodes options (i + 2 + (options.getD (i + 1) 0).toNat)
  else []
termination_by optionsSize - i

def upper24 (address : UInt32) : UInt32 := address >>> 8

def lower24 (address : UInt32) : UInt32 := address &&& 0x00FFFFFF

def sameNetwork (iface : Interface) (destIp : UInt32) : Prop := destIp &&& iface.netmask = iface.ipAddr &&& iface.netmask

def gatewayMac (iface : Interface) (cache : List ArpEntry) : Mac := (arpResolve cache iface.gateway).getD routerMac

structure RoutesBy24 (iface : Interface) (offered : UInt32) (cache : List ArpEntry) (destIp : UInt32) : Prop where
  same : sameNetwork iface destIp ↔ upper24 destIp = upper24 offered
  far : upper24 destIp ≠ upper24 offered → ∀ protocol data behind,
    (ipSend iface cache destIp protocol data behind).take 6 = (gatewayMac iface cache).bytes

theorem option_codes_subnet (options : List UInt8) (i : Nat) (parsed : Parsed)
    (absent : optSubnet ∉ optionCodes options i) : (parseOptions options i parsed).1.subnet = parsed.subnet := by
  induction i, parsed using parseOptions.induct options with
  | case1 i parsed inside code stop => rw [parse_stop options i parsed inside stop]
  | case2 i parsed inside code more pad ih =>
      have byte : options.getD i 0 = 0 := pad
      have notEnd : ¬ (0 : UInt8) = optEnd := by decide
      rw [optionCodes, if_pos inside, byte] at absent
      dsimp only at absent
      rw [if_neg notEnd, if_pos rfl] at absent
      rw [parse_pad options i parsed inside pad]
      exact ih absent
  | case3 i parsed inside code more used ih =>
      rw [optionCodes, if_pos inside] at absent
      dsimp only at absent
      rw [if_neg more, if_neg used, List.mem_cons, not_or] at absent
      rw [parse_option options i parsed inside code rfl used more _ rfl]
      have kept : (takeOption parsed code options (i + 2)).subnet = parsed.subnet := by
        rw [takeOption, if_neg (Ne.symm absent.1)]
        split_ifs
        all_goals rfl
      exact (ih absent.2).trans kept
  | case4 i parsed past => rw [parse_over options i parsed (Nat.not_lt.mp past)]

section
variable (client after : DhcpClient) (iface configured : NetworkInterface) (packet : List UInt8) (len : UInt32)
  (done : dhcpProcess client (some iface) (some packet) len = (after, some configured, 1))
include done

theorem offer_configures : configured = netifSetIp iface (fromBigEndian (packet.drop 16))
    (orDefault (parsedOptions client packet).1.subnet 0x00FFFFFF)
    (orDefault (parsedOptions client packet).1.router 0) (orDefault (parsedOptions client packet).1.dns 0x08080808) := by
  rw [dhcpProcess] at done
  dsimp only at done
  split_ifs at done with short other
  · cases done
  · cases done
  rw [finishOffer, htonl_native] at done
  dsimp only at done
  split_ifs at done with offer
  · cases done
    rfl
  · cases done

variable (absent : optSubnet ∉ optionCodes (packet.drop 240) 0)
include absent

theorem default_network (destIp : UInt32) :
    sameNetwork configured.toInterface destIp ↔ lower24 destIp = lower24 (fromBigEndian (packet.drop 16)) := by
  have subnet : (parsedOptions client packet).1.subnet = 0 := option_codes_subnet _ 0 (parseStart client) absent
  rw [offer_configures client after iface configured packet len done, subnet]
  exact Iff.rfl

theorem default_routes (cache : List ArpEntry) (destIp : UInt32) :
    RoutesBy24 configured.toInterface (fromBigEndian (packet.drop 16)) cache destIp ↔
      (lower24 destIp = lower24 (fromBigEndian (packet.drop 16)) ↔
        upper24 destIp = upper24 (fromBigEndian (packet.drop 16))) := by
  have network := default_network client after iface configured packet len done absent destIp
  constructor
  · intro routes
    rw [← network]
    exact routes.same
  · intro agree
    refine ⟨network.trans agree, fun far protocol data behind => ?_⟩
    have other : ¬ sameNetwork configured.toInterface destIp := fun same => far ((network.trans agree).mp same)
    have dest : destMac configured.toInterface cache destIp = gatewayMac configured.toInterface cache := if_neg other
    rw [ipSend, dest, List.append_assoc, List.append_assoc, List.append_assoc, List.take_left' (gatewayMac _ _).six]
end

def bareOffer : List UInt8 := packetWith replyHeader zeroOptions [.option offerType] []

def bareConfigured : NetworkInterface := offered unconfigured replyHeader [.option offerType]

theorem bare_offer : dhcpProcess expecting (some unconfigured) (some bareOffer) 552 =
    (⟨0x12345678, 0x0A00020F, 0⟩, some bareConfigured, 1) := by
  have kind : (seen (parseStart expecting) [.option offerType]).msgType = dhcpOffer := rfl
  rw [bareOffer, process_seen expecting unconfigured replyHeader zeroOptions [.option offerType] [] (by decide) 552 (by decide)
    (by decide +kernel), if_pos kind]
  rfl

theorem bare_offer_codes : optSubnet ∉ optionCodes (bareOffer.drop 240) 0 := by decide +kernel

theorem bare_offer_address : fromBigEndian (bareOffer.drop 16) = 0x0A00020F := by decide +kernel

theorem default_routes_router : RoutesBy24 bareConfigured.toInterface 0x0A00020F [] 0x0B00010F := by
  have routes := default_routes expecting ⟨0x12345678, 0x0A00020F, 0⟩ unconfigured bareConfigured bareOffer 552 bare_offer
    bare_offer_codes [] 0x0B00010F
  rw [bare_offer_address] at routes
  exact routes.mpr (iff_of_false (by decide) (by decide))

theorem default_routes_elsewhere :
    ¬ ∀ client after iface configured packet len cache destIp,
      dhcpProcess client (some iface) (some packet) len = (after, some configured, 1) →
      optSubnet ∉ optionCodes (packet.drop 240) 0 →
      RoutesBy24 configured.toInterface (fromBigEndian (packet.drop 16)) cache destIp := by
  intro claimed
  have routes := claimed expecting _ unconfigured bareConfigured bareOffer 552 [] 0x0A000202 bare_offer bare_offer_codes
  have network := default_network expecting _ unconfigured bareConfigured bareOffer 552 bare_offer bare_offer_codes 0x0A000202
  rw [bare_offer_address] at routes network
  exact absurd (network.mp (routes.same.mpr (by decide))) (by decide)

end RoDos.Dhcp
