import RoDos.Base.Writes
import RoDos.Dhcp.Bounds

set_option autoImplicit false

namespace RoDos.Dhcp

open Base Tcp Net

structure DhcpOption where
  code : UInt8
  data : List UInt8
  used : code ≠ 0
  notEnd : code ≠ optEnd
  short : data.length ≤ 255
  loaded : loadSize code ≤ data.length

inductive Item where
  | pad
  | option (held : DhcpOption)

def dhcpAddOption (offset : Nat) (code len : UInt8) (data : List UInt8) : Writes × Nat :=
  ((offset, code) :: (offset + 1, len) :: copyRun (offset + 2) (data.take len.toNat), offset + 2 + len.toNat)

def writeItem (offset : Nat) : Item → Writes × Nat
  | .pad => ([(offset, 0)], offset + 1)
  | .option held => dhcpAddOption offset held.code (UInt8.ofNat held.data.length) held.data

def writeOptions : Nat → List Item → Writes
  | offset, [] => [(offset, optEnd)]
  | offset, item :: rest => (writeItem offset item).1 ++ writeOptions (writeItem offset item).2 rest

def Item.encoded : Item → List UInt8
  | .pad => [0]
  | .option held => held.code :: UInt8.ofNat held.data.length :: held.data

def encoding (items : List Item) : List UInt8 := items.flatMap Item.encoded

def Item.value (code : UInt8) : Item → Option (List UInt8)
  | .pad => none
  | .option held => if held.code = code then some held.data else none

def lastValue (items : List Item) (code : UInt8) : Option (List UInt8) := (items.filterMap (Item.value code)).getLast?

-- What the last option of each code says; an address as it lies in the packet.
def seen (before : Parsed) (items : List Item) : Parsed where
  msgType := ((lastValue items optMsgType).map fun value => value.getD 0 0).getD before.msgType
  serverIp := ((lastValue items optServerId).map fun value => native32 value 0).getD before.serverIp
  subnet := ((lastValue items optSubnet).map fun value => native32 value 0).getD before.subnet
  router := ((lastValue items optRouter).map fun value => native32 value 0).getD before.router
  dns := ((lastValue items optDns).map fun value => native32 value 0).getD before.dns

def hostAddress (items : List Item) (code : UInt8) (default : UInt32) : UInt32 :=
  match (lastValue items code).map fromBigEndian with
  | none => default
  | some address => if address = 0 then default else address

theorem last_value_snoc (items : List Item) (item : Item) (code : UInt8) :
    lastValue (items ++ [item]) code = (item.value code).or (lastValue items code) := by
  rw [lastValue, List.filterMap_append, List.getLast?_append, lastValue]
  congr 1
  cases known : item.value code with
  | none => rw [List.filterMap_cons_none known, List.filterMap_nil, List.getLast?_nil]
  | some value => rw [List.filterMap_cons_some known, List.filterMap_nil, List.getLast?_singleton]

theorem size_byte (held : DhcpOption) : (UInt8.ofNat held.data.length).toNat = held.data.length :=
  UInt8.toNat_ofNat_of_lt' (Nat.lt_succ_of_le held.short)

theorem written_item (offset : Nat) (item : Item) :
    writeItem offset item = (copyRun offset item.encoded, offset + item.encoded.length) := by
  cases item with
  | pad => rfl
  | option held =>
      rw [writeItem, dhcpAddOption, size_byte, List.take_length, Item.encoded, copyRun, copyRun, List.length_cons,
        List.length_cons, Nat.add_assoc offset, Nat.add_comm 2]

theorem written_options (offset : Nat) (items : List Item) :
    writeOptions offset items = copyRun offset (encoding items ++ [optEnd]) := by
  induction items generalizing offset with
  | nil => rfl
  | cons item rest ih =>
      have split : encoding (item :: rest) = item.encoded ++ encoding rest := List.flatMap_cons
      rw [writeOptions, written_item, ih, split, List.append_assoc, copy_run_append offset]

theorem stored_options (options : Buffer optionsSize) (items : List Item)
    (room : (encoding items).length + 1 ≤ optionsSize) :
    (options.store (writeOptions 0 items)).bytes =
      encoding items ++ optEnd :: options.bytes.drop ((encoding items).length + 1) := by
  have length : (encoding items ++ [optEnd]).length = (encoding items).length + 1 := List.length_append
  have stored := set_all_run options.bytes 0 (encoding items ++ [optEnd])
    (by rw [length, Nat.zero_add, options.width]; exact room)
  rw [List.take_zero, List.nil_append, length, Nat.zero_add, List.append_assoc, List.singleton_append] at stored
  rw [← stored, ← written_options]
  rfl

section
variable (front rest : List UInt8) (parsed : Parsed)

def takeItem (parsed : Parsed) : Item → Parsed
  | .pad => parsed
  | .option held => takeOption parsed held.code held.data 0

theorem native_behind (data : List UInt8) (enough : 4 ≤ data.length) :
    native32 (front ++ (data ++ rest)) front.length = native32 data 0 := by
  have byte (k : Nat) (inside : k < data.length) : (front ++ (data ++ rest)).getD (front.length + k) 0 = data.getD k 0 := by
    rw [get_behind, List.getD_append _ _ _ _ inside]
  rw [native32, native32, ← Nat.add_zero front.length, byte 0 (by omega), Nat.add_zero, byte 1 (by omega), byte 2 (by omega),
    byte 3 (by omega)]

theorem take_behind (held : DhcpOption) :
    takeOption parsed held.code (front ++ (held.data ++ rest)) front.length = takeOption parsed held.code held.data 0 := by
  have loaded := held.loaded
  rw [loadSize] at loaded
  by_cases kind : held.code = optMsgType
  · rw [if_pos kind] at loaded
    have byte := get_behind front (held.data ++ rest) 0
    rw [Nat.add_zero, List.getD_append _ _ _ _ loaded] at byte
    rw [takeOption, if_pos kind, takeOption, if_pos kind, byte]
  rw [if_neg kind] at loaded
  by_cases address : isAddress held.code = true
  · rw [if_pos address] at loaded
    rw [takeOption, takeOption, native_behind front rest held.data loaded, if_neg kind, if_neg kind]
  · rw [isAddress, decide_eq_true_eq, not_or, not_or, not_or] at address
    obtain ⟨server, subnet, router, dns⟩ := address
    rw [takeOption, if_neg kind, if_neg server, if_neg subnet, if_neg router, if_neg dns, takeOption, if_neg kind,
      if_neg server, if_neg subnet, if_neg router, if_neg dns]

theorem parse_item (item : Item) (inside : front.length < optionsSize) :
    (parseOptions (front ++ (item.encoded ++ rest)) front.length parsed).1 =
      (parseOptions (front ++ (item.encoded ++ rest)) (front.length + item.encoded.length) (takeItem parsed item)).1 := by
  have here := get_behind front (item.encoded ++ rest) 0
  have next := get_behind front (item.encoded ++ rest) 1
  rw [Nat.add_zero] at here
  cases item with
  | pad => rw [parse_pad _ _ _ inside here]; rfl
  | option held =>
      have jump : front.length + 2 + ((front ++ ((Item.option held).encoded ++ rest)).getD (front.length + 1) 0).toNat =
          front.length + (Item.option held).encoded.length := by
        rw [next, show ((Item.option held).encoded ++ rest).getD 1 0 = UInt8.ofNat held.data.length from rfl, size_byte]
        rw [Nat.add_assoc, Nat.add_comm 2]
        rfl
      rw [parse_option _ _ _ inside held.code here held.used held.notEnd _ jump]
      have split : front ++ ((Item.option held).encoded ++ rest) =
          (front ++ [held.code, UInt8.ofNat held.data.length]) ++ (held.data ++ rest) := by
        simp only [Item.encoded, List.append_assoc, List.cons_append, List.nil_append]
      have width : (front ++ [held.code, UInt8.ofNat held.data.length]).length = front.length + 2 := List.length_append
      have taken := take_behind (front ++ [held.code, UInt8.ofNat held.data.length]) rest parsed held
      rw [width, ← split] at taken
      rw [taken, takeItem]

theorem parse_items (items : List Item) (room : front.length + (encoding items).length < optionsSize) :
    (parseOptions (front ++ (encoding items ++ optEnd :: rest)) front.length parsed).1 = items.foldl takeItem parsed := by
  induction items generalizing front parsed with
  | nil =>
      have here := get_behind front (optEnd :: rest) 0
      rw [Nat.add_zero] at here
      exact congrArg Prod.fst (parse_stop _ _ parsed room here)
  | cons item items ih =>
      have split : encoding (item :: items) = item.encoded ++ encoding items := List.flatMap_cons
      rw [split, List.length_append] at room
      have further := ih (front ++ item.encoded) (takeItem parsed item) (by rw [List.length_append]; omega)
      rw [List.append_assoc, List.length_append] at further
      rw [split, List.append_assoc, parse_item front _ parsed item (by omega), further, List.foldl_cons]
end

theorem take_item_seen (before : Parsed) (items : List Item) (item : Item) :
    takeItem (seen before items) item = seen before (items ++ [item]) := by
  simp only [seen, last_value_snoc]
  cases item with
  | pad => rfl
  | option held =>
      have kinds : optMsgType ≠ optServerId ∧ optMsgType ≠ optSubnet ∧ optMsgType ≠ optRouter ∧ optMsgType ≠ optDns ∧
          optServerId ≠ optSubnet ∧ optServerId ≠ optRouter ∧ optServerId ≠ optDns ∧ optSubnet ≠ optRouter ∧
          optSubnet ≠ optDns ∧ optRouter ≠ optDns := by decide
      obtain ⟨h1, h2, h3, h4, h5, h6, h7, h8, h9, h10⟩ := kinds
      rw [takeItem, takeOption]
      split_ifs with kind server subnet router dns
      · simp [Item.value, kind, h1, h2, h3, h4]
      · simp [Item.value, server, h1.symm, h5, h6, h7]
      · simp [Item.value, subnet, h2.symm, h5.symm, h8, h9]
      · simp [Item.value, router, h3.symm, h6.symm, h8.symm, h10]
      · simp [Item.value, dns, h4.symm, h7.symm, h9.symm, h10.symm]
      · simp [Item.value, kind, server, subnet, router, dns]

theorem items_seen (before : Parsed) (items : List Item) : items.foldl takeItem before = seen before items := by
  induction items using List.reverseRecOn with
  | nil => rfl
  | append_singleton items item ih => rw [List.foldl_append, ih, List.foldl_cons, List.foldl_nil, take_item_seen]

theorem or_default_seen (items : List Item) (code : UInt8) (default : UInt32) :
    orDefault (((lastValue items code).map fun value => native32 value 0).getD 0) default = hostAddress items code default := by
  rw [hostAddress]
  cases lastValue items code with
  | none => exact if_pos rfl
  | some value =>
      have swapped : htonl (native32 value 0) = fromBigEndian value := htonl_native value 0
      have zero : native32 value 0 = 0 ↔ fromBigEndian value = 0 := by
        rw [← swapped]
        constructor
        · intro same
          rw [same]
          rfl
        · intro same
          rw [← htonl_htonl (native32 value 0), same]
          rfl
      rw [Option.map_some, Option.map_some, Option.getD_some, orDefault, swapped]
      exact if_congr zero rfl rfl

theorem native_front (front rest : List UInt8) (i : Nat) (inside : i + 4 ≤ front.length) :
    native32 (front ++ rest) i = native32 front i := by
  have byte (k : Nat) (own : k < front.length) : (front ++ rest).getD k 0 = front.getD k 0 :=
    List.getD_append _ _ _ _ own
  rw [native32, native32, byte i (by omega), byte (i + 1) (by omega), byte (i + 2) (by omega), byte (i + 3) (by omega)]

def packetWith (header : Buffer 240) (options : Buffer optionsSize) (items : List Item) (behind : List UInt8) : List UInt8 :=
  header.bytes ++ ((options.store (writeOptions 0 items)).bytes ++ behind)

def yourAddress (header : Buffer 240) : UInt32 := fromBigEndian (header.bytes.drop 16)

section
variable (client : DhcpClient) (iface : NetworkInterface) (header : Buffer 240) (options : Buffer optionsSize)
  (items : List Item) (behind : List UInt8) (room : (encoding items).length + 1 ≤ optionsSize)

include room in
theorem parsed_seen :
    (parsedOptions client (packetWith header options items behind)).1 = seen (parseStart client) items := by
  have laid := parse_items [] (options.bytes.drop ((encoding items).length + 1) ++ behind) (parseStart client) items
    (by rw [List.length_nil, Nat.zero_add]; exact room)
  rw [List.nil_append, List.length_nil] at laid
  rw [parsedOptions, packetWith, List.drop_left' header.width, stored_options options items room, List.append_assoc,
    List.cons_append, laid, items_seen]

theorem header_word (i : Nat) (inside : i + 4 ≤ 240) :
    native32 (packetWith header options items behind) i = native32 header.bytes i :=
  native_front _ _ i (by rw [header.width]; exact inside)

def offered (iface : NetworkInterface) (header : Buffer 240) (items : List Item) : NetworkInterface :=
  { iface with
    ipAddr := yourAddress header
    netmask := hostAddress items optSubnet 0x00FFFFFF
    gateway := hostAddress items optRouter 0
    dnsServer := hostAddress items optDns 0x08080808 }

theorem finish_seen : finishOffer client iface (packetWith header options items behind) (seen (parseStart client) items) =
    if (seen (parseStart client) items).msgType = dhcpOffer then
      (⟨client.xid, yourAddress header, (seen (parseStart client) items).serverIp⟩, offered iface header items, 1)
    else (⟨client.xid, client.offeredIp, (seen (parseStart client) items).serverIp⟩, iface, 0) := by
  have address : htonl (native32 (packetWith header options items behind) 16) = yourAddress header := by
    rw [header_word header options items behind 16 (by decide), htonl_native, yourAddress]
  have subnet : orDefault (seen (parseStart client) items).subnet 0x00FFFFFF = _ := or_default_seen items optSubnet _
  have router : orDefault (seen (parseStart client) items).router 0 = _ := or_default_seen items optRouter _
  have dns : orDefault (seen (parseStart client) items).dns 0x08080808 = _ := or_default_seen items optDns _
  rw [finishOffer, address, subnet, router, dns]
  rfl

variable (len : UInt32) (full : 552 ≤ len) (matching : native32 header.bytes 4 = client.xid)
include full matching room

theorem process_seen : dhcpProcess client (some iface) (some (packetWith header options items behind)) len =
    if (seen (parseStart client) items).msgType = dhcpOffer then
      (⟨client.xid, yourAddress header, (seen (parseStart client) items).serverIp⟩, some (offered iface header items), 1)
    else (⟨client.xid, client.offeredIp, (seen (parseStart client) items).serverIp⟩, some iface, 0) := by
  have long : ¬ len < dhcpMinSize := by
    rw [UInt32.lt_iff_toNat_lt]
    rw [UInt32.le_iff_toNat_le] at full
    exact Nat.not_lt.mpr (Nat.le_trans (by decide) full)
  have expected : ¬ native32 (packetWith header options items behind) 4 ≠ client.xid := by
    rw [header_word header options items behind 4 (by decide), matching]
    exact not_not_intro rfl
  rw [dhcpProcess]
  dsimp only
  rw [if_neg long, if_neg expected, parsed_seen client header options items behind room, finish_seen]
  split_ifs
  · rfl
  · rfl

theorem dhcp_options_seen :
    (parsedOptions client (packetWith header options items behind)).1 = seen (parseStart client) items ∧
    dhcpProcess client (some iface) (some (packetWith header options items behind)) len =
      if (seen (parseStart client) items).msgType = dhcpOffer then
        (⟨client.xid, yourAddress header, (seen (parseStart client) items).serverIp⟩,
          some (offered iface header items), 1)
      else (⟨client.xid, client.offeredIp, (seen (parseStart client) items).serverIp⟩, some iface, 0) :=
  ⟨parsed_seen client header options items behind room,
    process_seen client iface header options items behind room len full matching⟩
end

def zeroOptions : Buffer optionsSize := ⟨List.replicate optionsSize 0, List.length_replicate⟩

def expecting : DhcpClient := ⟨0x12345678, 0, 0⟩

def unconfigured : NetworkInterface := ⟨⟨qemuInterface.macAddr, 0, 0, 0⟩, 0⟩

def replyHeader : Buffer 240 :=
  ⟨[2, 1, 6, 0, 0x78, 0x56, 0x34, 0x12] ++ List.replicate 8 0 ++ [10, 0, 2, 15] ++ List.replicate 216 0 ++
    [0x63, 0x82, 0x53, 0x63], by decide +kernel⟩

def offerType : DhcpOption := ⟨optMsgType, [dhcpOffer], by decide, by decide, by decide, by decide⟩

def routerOption : DhcpOption := ⟨optRouter, [10, 0, 2, 2], by decide, by decide, by decide, by decide⟩

theorem dhcp_options_seen_router :
    (dhcpProcess expecting (some unconfigured)
      (some (packetWith replyHeader zeroOptions [.option offerType, .pad, .option routerOption] [])) 552).2.1.map
        (fun iface => (iface.ipAddr, iface.gateway)) = some (0x0A00020F, 0x0A000202) := by
  have taken := dhcp_options_seen expecting unconfigured replyHeader zeroOptions
    [.option offerType, .pad, .option routerOption] [] (by decide) 552 (by decide) (by decide +kernel)
  rw [taken.2]
  decide +kernel

theorem encoding_laid (i : Nat) (items : List Item) (rest : List UInt8) : Laid i (encoding items ++ optEnd :: rest) := by
  induction items generalizing i with
  | nil => exact Laid.stop i rest
  | cons item items ih =>
      have split : encoding (item :: items) = item.encoded ++ encoding items := List.flatMap_cons
      rw [split, List.append_assoc]
      cases item with
      | pad => exact Laid.pad i _ (ih (i + 1))
      | option held =>
          have loaded : loadSize held.code ≤ (held.data ++ (encoding items ++ optEnd :: rest)).length := by
            rw [List.length_append]
            exact Nat.le_add_right_of_le held.loaded
          apply Laid.option i _ _ _ held.used held.notEnd loaded
          rw [size_byte, List.drop_left]
          exact ih _

end RoDos.Dhcp
