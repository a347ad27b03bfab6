import RoDos.Base.OnesComplement
import RoDos.Tcp.Socket

set_option autoImplicit false

namespace RoDos.Tcp

open Base

-- The words of ip_checksum are loaded as the machine has them, the last byte on its own.
def sumNativeWords : List UInt8 → UInt32 → UInt32
  | [], sum => sum
  | [byte], sum => sum + byte.toUInt32
  | low :: high :: rest, sum => sumNativeWords rest (sum + (low.toUInt32 + 256 * high.toUInt32))

def ipChecksum (data : List UInt8) : UInt16 :=
  let sum := sumNativeWords data 0
  let once := (sum >>> 16) + (sum &&& (0xFFFF : UInt32))
  (~~~ (once + (once >>> 16))).toUInt16

-- The loops of dhcp_discover and tcp_checksum.
def sumNetworkWords : List UInt8 → UInt32 → UInt32
  | [], sum => sum
  | [byte], sum => sum + (byte.toUInt16 <<< 8).toUInt32
  | high :: low :: rest, sum => sumNetworkWords rest (sum + ((high.toUInt16 <<< 8) ||| low.toUInt16).toUInt32)

theorem carries_toNat (sum : UInt32) : ((sum &&& (0xFFFF : UInt32)) + (sum >>> 16)).toNat = addCarries sum.toNat := by
  have low : (sum &&& (0xFFFF : UInt32)).toNat = sum.toNat % 65536 := by
    rw [UInt32.toNat_and]
    exact Nat.and_two_pow_sub_one_eq_mod sum.toNat 16
  have high : (sum >>> 16).toNat = sum.toNat / 65536 := by
    rw [UInt32.toNat_shiftRight]
    exact Nat.shiftRight_eq_div_pow sum.toNat 16
  have below := sum.toNat_lt
  rw [UInt32.toNat_add, low, high, addCarries]
  omega

theorem high_half (sum : UInt32) : sum >>> 16 = 0 ↔ sum.toNat < 65536 := by
  rw [← UInt32.toNat_inj, UInt32.toNat_shiftRight]
  show sum.toNat >>> 16 = 0 ↔ _
  rw [Nat.shiftRight_eq_div_pow]
  omega

def foldCarries (sum : UInt32) : UInt32 :=
  if sum >>> 16 = 0 then sum else foldCarries ((sum &&& (0xFFFF : UInt32)) + (sum >>> 16))
termination_by sum.toNat
decreasing_by
  rename_i carried
  rw [carries_toNat]
  exact add_carries_lt _ (Nat.not_lt.mp fun small => carried ((high_half sum).mpr small))

def htons (value : UInt16) : UInt16 := (value <<< 8) ||| (value >>> 8)

def swappedChecksum (sum : UInt32) : UInt16 := htons (~~~ (foldCarries sum)).toUInt16

-- dhcp_discover adds up the twenty bytes of its IP header.
def dhcpChecksum (header : List UInt8) : UInt16 := swappedChecksum (sumNetworkWords (header.take 20) 0)

def bigEndian16 (value : UInt16) : List UInt8 := [(value >>> 8).toUInt8, value.toUInt8]

def pseudoHeader (srcIp destIp : UInt32) (length : UInt16) : List UInt8 :=
  bigEndian srcIp ++ bigEndian destIp ++ [0, 6] ++ bigEndian16 length

def tcpChecksum (srcIp destIp : UInt32) (data : List UInt8) : UInt16 :=
  swappedChecksum (sumNetworkWords data (sumNetworkWords (pseudoHeader srcIp destIp (UInt16.ofNat data.length)) 0))

-- A uint16_t as it is stored in a header field.
def stored (value : UInt16) : List UInt8 := [value.toUInt8, (value >>> 8).toUInt8]

def storeField (bytes : List UInt8) (offset : Nat) (value : UInt16) : List UInt8 :=
  bytes.take offset ++ stored value ++ bytes.drop (offset + 2)

def uncheckedSegment (packet : Packet) : List UInt8 :=
  bigEndian16 packet.srcPort ++ bigEndian16 packet.destPort ++ bigEndian packet.seq ++ bigEndian packet.ack ++
    [0x50, packet.flags] ++ bigEndian16 packet.windowSize ++ [0, 0, 0, 0] ++ packet.payload

def segmentOf (ipAddr : UInt32) (packet : Packet) : List UInt8 :=
  storeField (uncheckedSegment packet) 16 (tcpChecksum ipAddr packet.destIp (uncheckedSegment packet))

theorem byte_pair (high low : UInt8) : ((high.toUInt16 <<< 8) ||| low.toUInt16).toNat = 256 * high.toNat + low.toNat := by
  have highBelow := high.toNat_lt
  have lowBelow := low.toNat_lt
  have shifted : (high.toUInt16 <<< 8).toNat = high.toNat <<< 8 := by
    rw [UInt16.toNat_shiftLeft, UInt8.toNat_toUInt16]
    show high.toNat <<< 8 % 2 ^ 16 = high.toNat <<< 8
    rw [Nat.shiftLeft_eq]
    omega
  rw [UInt16.toNat_or, shifted, UInt8.toNat_toUInt16, ← Nat.shiftLeft_add_eq_or_of_lt lowBelow, Nat.shiftLeft_eq]
  omega

theorem htons_toNat (value : UInt16) : (htons value).toNat = swapBytes value.toNat := by
  have below := value.toNat_lt
  have high : (value <<< 8).toNat = (value.toNat % 256) <<< 8 := by
    rw [UInt16.toNat_shiftLeft]
    show value.toNat <<< 8 % 2 ^ 16 = _
    rw [Nat.shiftLeft_eq, Nat.shiftLeft_eq]
    omega
  have low : (value >>> 8).toNat = value.toNat / 256 := by
    rw [UInt16.toNat_shiftRight]
    exact Nat.shiftRight_eq_div_pow value.toNat 8
  rw [htons, UInt16.toNat_or, high, low, ← Nat.shiftLeft_add_eq_or_of_lt (by omega), Nat.shiftLeft_eq, swapBytes]
  omega

theorem complement_toNat (sum : UInt32) : (~~~ sum).toUInt16.toNat = 65535 - sum.toNat % 65536 := by
  have below := sum.toNat_lt
  rw [UInt32.toNat_toUInt16, UInt32.toNat_not]
  show (2 ^ 32 - 1 - sum.toNat) % 2 ^ 16 = _
  omega

theorem sum_native_words (data : List UInt8) (sum : UInt32) (fits : sum.toNat + littleSum data < 2 ^ 32) :
    (sumNativeWords data sum).toNat = sum.toNat + littleSum data := by
  induction data, sum using sumNativeWords.induct with
  | case1 sum => rfl
  | case2 byte sum =>
      rw [sumNativeWords, UInt32.toNat_add, UInt8.toNat_toUInt32]
      exact Nat.mod_eq_of_lt fits
  | case3 low high rest sum summed =>
      have first := low.toNat_lt
      have second := high.toNat_lt
      have word : (sum + (low.toUInt32 + 256 * high.toUInt32)).toNat = sum.toNat + (low.toNat + 256 * high.toNat) := by
        simp only [UInt32.toNat_add, UInt32.toNat_mul, UInt8.toNat_toUInt32]
        show (sum.toNat + (low.toNat + 256 * high.toNat % 2 ^ 32) % 2 ^ 32) % 2 ^ 32 = _
        rw [littleSum] at fits
        omega
      rw [littleSum] at fits
      rw [sumNativeWords, summed (by omega), word, littleSum]
      omega

theorem sum_network_words (data : List UInt8) (sum : UInt32) (fits : sum.toNat + bigSum data < 2 ^ 32) :
    (sumNetworkWords data sum).toNat = sum.toNat + bigSum data := by
  induction data, sum using sumNetworkWords.induct with
  | case1 sum => rfl
  | case2 byte sum =>
      have word : (byte.toUInt16 <<< 8).toNat = 256 * byte.toNat := by simpa using byte_pair byte 0
      rw [sumNetworkWords, UInt32.toNat_add, UInt16.toNat_toUInt32, word]
      exact Nat.mod_eq_of_lt fits
  | case3 high low rest sum summed =>
      rw [bigSum] at fits
      have word : (sum + ((high.toUInt16 <<< 8) ||| low.toUInt16).toUInt32).toNat =
          sum.toNat + (256 * high.toNat + low.toNat) := by
        rw [UInt32.toNat_add, UInt16.toNat_toUInt32, byte_pair]
        exact Nat.mod_eq_of_lt (by omega)
      rw [sumNetworkWords, summed (by omega), word, bigSum]
      omega

theorem fold_carries (sum : UInt32) : (foldCarries sum).toNat = endAround sum.toNat := by
  induction sum using foldCarries.induct with
  | case1 sum small =>
      rw [foldCarries, if_pos small]
      exact (end_around_small _ (Nat.le_of_lt_succ ((high_half sum).mp small))).symm
  | case2 sum carried folded => rw [foldCarries, if_neg carried, folded, carries_toNat, end_around_carries]

theorem ip_checksum_toNat (data : List UInt8) (fits : littleSum data < 2 ^ 32) :
    (ipChecksum data).toNat = 65535 - endAround (littleSum data) := by
  have zero : (0 : UInt32).toNat = 0 := rfl
  have sum : (sumNativeWords data 0).toNat = littleSum data := by
    rw [sum_native_words data 0 (by rw [zero]; omega), zero, Nat.zero_add]
  have twice := add_carries_twice (littleSum data) fits
  have small := end_around_le (littleSum data)
  rw [ipChecksum, complement_toNat, UInt32.add_comm (sumNativeWords data 0 >>> 16)]
  generalize once : (sumNativeWords data 0 &&& (0xFFFF : UInt32)) + (sumNativeWords data 0 >>> 16) = carried
  have first : carried.toNat = addCarries (littleSum data) := by rw [← once, carries_toNat, sum]
  have high : (carried >>> 16).toNat = carried.toNat / 65536 := by
    rw [UInt32.toNat_shiftRight]
    exact Nat.shiftRight_eq_div_pow carried.toNat 16
  have total : (carried + (carried >>> 16)).toNat % 65536 = endAround (littleSum data) := by
    rw [UInt32.toNat_add, high, first, ← twice]
    simp only [addCarries] at twice ⊢
    omega
  rw [total]

theorem swapped_checksum_toNat (sum : UInt32) :
    (swappedChecksum sum).toNat = swapBytes (65535 - endAround sum.toNat) := by
  have small := end_around_le sum.toNat
  rw [swappedChecksum, htons_toNat, complement_toNat, fold_carries]
  congr 2
  omega

theorem checksums_same (data : List UInt8) (sum : UInt32) (same : sum.toNat = bigSum data) (fits : littleSum data < 2 ^ 32) :
    ipChecksum data = swappedChecksum sum := by
  have small := end_around_le (littleSum data)
  rw [← UInt16.toNat_inj, ip_checksum_toNat data fits, swapped_checksum_toNat, same, end_around_swap,
    swap_bytes_complement _ (swap_bytes_le _ small), swap_bytes_twice _ small]

theorem words_fit (data : List UInt8) (short : data.length ≤ 65547) : bigSum data < 2 ^ 32 ∧ littleSum data < 2 ^ 32 := by
  have big := big_sum_le data
  have little := little_sum_le data
  constructor
  · omega
  · omega

theorem network_sum (data : List UInt8) (short : data.length ≤ 65547) : (sumNetworkWords data 0).toNat = bigSum data := by
  have fits := (words_fit data short).1
  have zero : (0 : UInt32).toNat = 0 := rfl
  rw [sum_network_words data 0 (by rw [zero]; omega), zero, Nat.zero_add]

theorem pseudo_header_length (srcIp destIp : UInt32) (length : UInt16) : (pseudoHeader srcIp destIp length).length = 12 := rfl

theorem pseudo_sum (srcIp destIp : UInt32) (length : UInt16) (data : List UInt8) :
    bigSum (pseudoHeader srcIp destIp length ++ data) = bigSum (pseudoHeader srcIp destIp length) + bigSum data :=
  big_sum_append _ _ (by rw [pseudo_header_length])

theorem tcp_sum (srcIp destIp : UInt32) (length : UInt16) (data : List UInt8) (short : data.length ≤ 65535) :
    (sumNetworkWords data (sumNetworkWords (pseudoHeader srcIp destIp length) 0)).toNat =
      bigSum (pseudoHeader srcIp destIp length ++ data) := by
  have front := pseudo_header_length srcIp destIp length
  have fits := (words_fit (pseudoHeader srcIp destIp length ++ data) (by rw [List.length_append]; omega)).1
  have head := network_sum (pseudoHeader srcIp destIp length) (by omega)
  rw [pseudo_sum] at fits ⊢
  rw [sum_network_words data _ (by omega), head]

section
variable (bytes : List UInt8) (offset : Nat)

theorem stored_sum (value : UInt16) : bigSum (stored value) = swapBytes value.toNat := by
  have below := value.toNat_lt
  have low : value.toUInt8.toNat = value.toNat % 256 := UInt16.toNat_toUInt8 value
  have high : (value >>> 8).toUInt8.toNat = value.toNat / 256 := by
    rw [UInt16.toNat_toUInt8, UInt16.toNat_shiftRight]
    show value.toNat >>> 8 % 256 = _
    rw [Nat.shiftRight_eq_div_pow]
    omega
  simp only [stored, bigSum, low, high, swapBytes]
  omega

theorem stored_length (value : UInt16) : (stored value).length = 2 := rfl

theorem store_field_length (value : UInt16) (inside : offset + 1 < bytes.length) :
    (storeField bytes offset value).length = bytes.length := by
  simp only [storeField, stored, List.length_append, List.length_take, List.length_drop, List.length_cons, List.length_nil]
  omega

theorem store_field_sum (value : UInt16) (even : offset % 2 = 0) (inside : offset + 1 < bytes.length)
    (first : bytes.getD offset 0 = 0) (second : bytes.getD (offset + 1) 0 = 0) :
    bigSum (storeField bytes offset value) = bigSum bytes + swapBytes value.toNat := by
  have front : (bytes.take offset).length % 2 = 0 := by
    rw [List.length_take, Nat.min_eq_left (by omega)]
    exact even
  have zeros : bytes.drop offset = [0, 0] ++ bytes.drop (offset + 2) := by
    rw [List.drop_eq_getElem_cons (by omega), List.drop_eq_getElem_cons inside]
    rw [List.getD_eq_getElem _ _ (by omega)] at first
    rw [List.getD_eq_getElem _ _ inside] at second
    rw [first, second]
    rfl
  have whole : bigSum bytes = bigSum (bytes.take offset) + bigSum (bytes.drop (offset + 2)) := by
    have split := big_sum_append (bytes.take offset) (bytes.drop offset) front
    rw [List.take_append_drop, zeros] at split
    rw [split]
    simp [bigSum]
  rw [storeField, List.append_assoc, big_sum_append _ _ front, big_sum_append _ _ (by rw [stored_length]), stored_sum,
    whole]
  omega

theorem sealed_sum (sum : UInt32) : endAround (sum.toNat + swapBytes (swappedChecksum sum).toNat) = 0xFFFF := by
  rw [swapped_checksum_toNat, swap_bytes_twice _ (Nat.sub_le _ _), end_around_complement]
end

theorem sealed_header (header : List UInt8) (offset : Nat) (short : header.length ≤ 65535) (even : offset % 2 = 0)
    (inside : offset + 1 < header.length) (first : header.getD offset 0 = 0) (second : header.getD (offset + 1) 0 = 0) :
    endAround (bigSum (storeField header offset (ipChecksum header))) = 0xFFFF := by
  have sum := network_sum header (by omega)
  rw [store_field_sum header offset _ even inside first second, ← sum,
    checksums_same header _ sum (words_fit header (by omega)).2]
  exact sealed_sum _

theorem unchecked_length (packet : Packet) : (uncheckedSegment packet).length = 20 + packet.payload.length := by
  simp [uncheckedSegment, bigEndian16, bigEndian]
  omega

theorem sealed_segment (ipAddr : UInt32) (packet : Packet) (short : packet.payload.length ≤ 1480) :
    endAround (bigSum (pseudoHeader ipAddr packet.destIp (UInt16.ofNat (segmentOf ipAddr packet).length) ++
      segmentOf ipAddr packet)) = 0xFFFF := by
  have length := unchecked_length packet
  have fields : (uncheckedSegment packet).getD 16 0 = 0 ∧ (uncheckedSegment packet).getD 17 0 = 0 := ⟨rfl, rfl⟩
  have sum := tcp_sum ipAddr packet.destIp (UInt16.ofNat (uncheckedSegment packet).length) (uncheckedSegment packet)
    (by omega)
  rw [segmentOf, store_field_length _ _ _ (by omega), pseudo_sum,
    store_field_sum _ _ _ (by decide) (by omega) fields.1 fields.2, ← Nat.add_assoc, ← pseudo_sum, ← sum]
  exact sealed_sum _

theorem checksums_agree :
    (∀ data : List UInt8, data.length ≤ 65535 →
      stored (ipChecksum data) = stored (swappedChecksum (sumNetworkWords data 0))) ∧
    (∀ header : List UInt8, header.length = 20 → dhcpChecksum header = ipChecksum header) ∧
    (∀ (srcIp destIp : UInt32) (data : List UInt8), data.length ≤ 65535 →
      tcpChecksum srcIp destIp data = ipChecksum (pseudoHeader srcIp destIp (UInt16.ofNat data.length) ++ data)) ∧
    (∀ (header : List UInt8) (offset : Nat), header.length ≤ 65535 → offset % 2 = 0 → offset + 1 < header.length →
      header.getD offset 0 = 0 → header.getD (offset + 1) 0 = 0 →
      endAround (bigSum (storeField header offset (ipChecksum header))) = 0xFFFF) ∧
    ∀ (ipAddr : UInt32) (packet : Packet), packet.payload.length ≤ 1480 →
      endAround (bigSum (pseudoHeader ipAddr packet.destIp (UInt16.ofNat (segmentOf ipAddr packet).length) ++
        segmentOf ipAddr packet)) = 0xFFFF := by
  refine ⟨fun data short => ?_, fun header length => ?_, fun srcIp destIp data short => ?_, sealed_header, sealed_segment⟩
  · rw [checksums_same data _ (network_sum data (by omega)) (words_fit data (by omega)).2]
  · rw [dhcpChecksum, List.take_of_length_le (by omega)]
    exact (checksums_same header _ (network_sum header (by omega)) (words_fit header (by omega)).2).symm
  · have front := pseudo_header_length srcIp destIp (UInt16.ofNat data.length)
    have total : (pseudoHeader srcIp destIp (UInt16.ofNat data.length) ++ data).length ≤ 65547 := by
      rw [List.length_append]
      omega
    exact (checksums_same _ _ (tcp_sum srcIp destIp _ data short) (words_fit _ total).2).symm

def zeroedHeader : List UInt8 := [0x45, 0, 0, 43, 0, 0, 0, 0, 64, 6, 0, 0, 10, 0, 2, 15, 10, 0, 2, 2]

def threeBytes : Packet := ⟨0x0A000202, 80, 10007, 8, 501, flagPsh ||| flagAck, 8192, [71, 69, 84]⟩

theorem checksums_agree_header : dhcpChecksum zeroedHeader = ipChecksum zeroedHeader ∧
    endAround (bigSum (storeField zeroedHeader 10 (ipChecksum zeroedHeader))) = 0xFFFF ∧
    endAround (bigSum (pseudoHeader 0x0A00020F 0x0A000202 23 ++ segmentOf 0x0A00020F threeBytes)) = 0xFFFF := by
  obtain ⟨_, dhcp, _, header, segment⟩ := checksums_agree
  exact ⟨dhcp zeroedHeader rfl, header zeroedHeader 10 (by decide) (by decide) (by decide) rfl rfl,
    segment 0x0A00020F threeBytes (by decide)⟩

end RoDos.Tcp
