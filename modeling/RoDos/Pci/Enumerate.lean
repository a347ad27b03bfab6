import Mathlib.Algebra.Ring.Nat
import Mathlib.Tactic.Common

set_option autoImplicit false

namespace RoDos.Pci

-- The registers of every function of every device, by the bus, the device, the function and the offset.
abbrev ConfigSpace := Nat → Nat → Nat → Nat → UInt32

structure PciDevice where
  vendorId : UInt16
  deviceId : UInt16
  bus : UInt8
  device : UInt8
  function : UInt8
  classCode : UInt8
  subclass : UInt8
  progIf : UInt8
  revision : UInt8
  bar0 : UInt32
  bar1 : UInt32
  irq : UInt8
deriving DecidableEq

-- What the host bridge returns at 0x0CFC for an address that was written to 0x0CF8.
def configData (space : ConfigSpace) (address : Nat) : UInt32 :=
  space (address >>> 16 % 2 ^ 8) (address >>> 11 % 2 ^ 5) (address >>> 8 % 2 ^ 3) (address % 2 ^ 8)

def pciConfigRead (space : ConfigSpace) (bus device function offset : Nat) : UInt32 :=
  configData space (bus <<< 16 ||| device <<< 11 ||| function <<< 8 ||| (offset &&& 0xFC) ||| 0x80000000)

def pciDeviceExists (space : ConfigSpace) (bus device function : Nat) : Bool :=
  let vendor := pciConfigRead space bus device function 0
  vendor ≠ 0xFFFFFFFF ∧ vendor &&& 0xFFFF ≠ 0xFFFF

def pciGetDeviceInfo (space : ConfigSpace) (bus device function : Nat) : PciDevice :=
  let vendorDevice := pciConfigRead space bus device function 0x00
  let classInfo := pciConfigRead space bus device function 0x08
  { bus := UInt8.ofNat bus
    device := UInt8.ofNat device
    function := UInt8.ofNat function
    vendorId := (vendorDevice &&& 0xFFFF).toUInt16
    deviceId := (vendorDevice >>> 16 &&& 0xFFFF).toUInt16
    revision := (classInfo &&& 0xFF).toUInt8
    progIf := (classInfo >>> 8 &&& 0xFF).toUInt8
    subclass := (classInfo >>> 16 &&& 0xFF).toUInt8
    classCode := (classInfo >>> 24 &&& 0xFF).toUInt8
    bar0 := pciConfigRead space bus device function 0x10
    bar1 := pciConfigRead space bus device function 0x14
    irq := (pciConfigRead space bus device function 0x3C &&& 0xFF).toUInt8 }

-- devices[count] = record, and count++, while the array has room.
def pushRecord (maxDevices : Int) (devices : List PciDevice) (record : PciDevice) : List PciDevice :=
  if (devices.length : Int) < maxDevices then devices ++ [record] else devices

-- The innermost loop, from a function on; a device that is not marked multi-function ends it at function 0.
def scanFunctions (space : ConfigSpace) (maxDevices : Int) (bus device function : Nat) :
    Nat → List PciDevice → List PciDevice
  | 0, devices => devices
  | left + 1, devices =>
      if pciDeviceExists space bus device function then
        let devices := pushRecord maxDevices devices (pciGetDeviceInfo space bus device function)
        if function = 0 ∧ pciConfigRead space bus device 0 0x0C &&& 0x00800000 = 0 then devices
        else scanFunctions space maxDevices bus device (function + 1) left devices
      else scanFunctions space maxDevices bus device (function + 1) left devices

-- The records that are written, in the order of the array; their number is what is returned.
def pciEnumerateDevices (space : ConfigSpace) (maxDevices : Int) : List PciDevice :=
  (List.range 8).foldl (fun devices bus =>
    (List.range 32).foldl (fun devices device => scanFunctions space maxDevices bus device 0 8 devices) devices) []

structure Place where
  bus : Nat
  device : Nat
  function : Nat
deriving DecidableEq

def Place.Before (first second : Place) : Prop :=
  first.bus < second.bus ∨ first.bus = second.bus ∧
    (first.device < second.device ∨ first.device = second.device ∧ first.function < second.function)

-- A function that is not there answers with ones in place of its vendor.
def Present (space : ConfigSpace) (bus device function : Nat) : Prop := space bus device function 0 &&& 0xFFFF ≠ 0xFFFF

def MultiFunction (space : ConfigSpace) (bus device : Nat) : Prop := space bus device 0 0x0C &&& 0x00800000 ≠ 0

def Selected (space : ConfigSpace) (place : Place) : Prop :=
  place.bus < 8 ∧ place.device < 32 ∧ place.function < 8 ∧ Present space place.bus place.device place.function ∧
    (place.function = 0 ∨ ¬ Present space place.bus place.device 0 ∨ MultiFunction space place.bus place.device)

def recordOf (space : ConfigSpace) (place : Place) : PciDevice := pciGetDeviceInfo space place.bus place.device place.function

theorem config_address (bus device function offset : Nat) (inDevice : device < 32) (inFunction : function < 8)
    (inBus : bus < 256) (inOffset : offset < 256) :
    (bus <<< 16 ||| device <<< 11 ||| function <<< 8 ||| offset ||| 0x80000000) =
      2 ^ 31 + bus * 2 ^ 16 + device * 2 ^ 11 + function * 2 ^ 8 + offset := by
  have low : function <<< 8 ||| offset = function * 2 ^ 8 + offset := by
    rw [← Nat.shiftLeft_add_eq_or_of_lt inOffset, Nat.shiftLeft_eq]
  have middle : device <<< 11 ||| (function * 2 ^ 8 + offset) = device * 2 ^ 11 + (function * 2 ^ 8 + offset) := by
    rw [← Nat.shiftLeft_add_eq_or_of_lt (by omega), Nat.shiftLeft_eq]
  have high : bus <<< 16 ||| (device * 2 ^ 11 + (function * 2 ^ 8 + offset)) =
      bus * 2 ^ 16 + (device * 2 ^ 11 + (function * 2 ^ 8 + offset)) := by
    rw [← Nat.shiftLeft_add_eq_or_of_lt (by omega), Nat.shiftLeft_eq]
  have enable : 1 <<< 31 ||| (bus * 2 ^ 16 + (device * 2 ^ 11 + (function * 2 ^ 8 + offset))) =
      1 * 2 ^ 31 + (bus * 2 ^ 16 + (device * 2 ^ 11 + (function * 2 ^ 8 + offset))) := by
    rw [← Nat.shiftLeft_add_eq_or_of_lt (by omega), Nat.shiftLeft_eq]
  have bit : (0x80000000 : Nat) = 1 <<< 31 := rfl
  rw [bit, Nat.or_comm, Nat.or_assoc, Nat.or_assoc, low, middle, high, enable]
  omega

theorem config_read_space (space : ConfigSpace) (bus device function offset : Nat) (inBus : bus < 256)
    (inDevice : device < 32) (inFunction : function < 8) :
    pciConfigRead space bus device function offset = space bus device function (offset &&& 0xFC) := by
  have inOffset : offset &&& 0xFC < 256 := Nat.lt_of_le_of_lt Nat.and_le_right (by decide)
  rw [pciConfigRead, config_address bus device function _ inDevice inFunction inBus inOffset, configData]
  simp only [Nat.shiftRight_eq_div_pow]
  congr 1 <;> omega

theorem exists_present (space : ConfigSpace) (bus device function : Nat) (inBus : bus < 256) (inDevice : device < 32)
    (inFunction : function < 8) : pciDeviceExists space bus device function = true ↔ Present space bus device function := by
  rw [pciDeviceExists, config_read_space space bus device function 0 inBus inDevice inFunction, decide_eq_true_iff]
  refine ⟨And.right, fun present => ⟨fun ones => present ?_, present⟩⟩
  have zero : 0 &&& 0xFC = 0 := rfl
  rw [zero] at ones
  rw [ones]
  decide

theorem push_all (maxDevices : Int) (records devices : List PciDevice) :
    records.foldl (pushRecord maxDevices) devices = devices ++ records.take (maxDevices.toNat - devices.length) := by
  induction records generalizing devices with
  | nil => rw [List.foldl_nil, List.take_nil, List.append_nil]
  | cons record records ih =>
      rw [List.foldl_cons, ih, pushRecord]
      by_cases room : (devices.length : Int) < maxDevices
      · have left : maxDevices.toNat - devices.length = maxDevices.toNat - (devices ++ [record]).length + 1 := by
          rw [List.length_append, List.length_singleton]
          omega
        rw [if_pos room, left, List.take_succ_cons, List.append_assoc, List.singleton_append]
      · have full : maxDevices.toNat - devices.length = 0 := by omega
        rw [if_neg room, full, List.take_zero, List.take_zero]

section
variable (space : ConfigSpace) (maxDevices : Int) (bus device : Nat)

theorem scan_further (function left : Nat) (behind : 0 < function) (devices : List PciDevice) :
    scanFunctions space maxDevices bus device function left devices =
      (((List.range' function left).filter (pciDeviceExists space bus device)).map (pciGetDeviceInfo space bus device)).foldl
        (pushRecord maxDevices) devices := by
  induction left generalizing function devices with
  | zero => rfl
  | succ left ih =>
      rw [scanFunctions, List.range'_succ, List.filter_cons]
      by_cases present : pciDeviceExists space bus device function = true
      · rw [if_pos present, if_pos present, if_neg (by omega), ih _ (Nat.succ_pos _), List.map_cons, List.foldl_cons]
      · rw [if_neg present, if_neg present, ih _ (Nat.succ_pos _)]

def chosen (function : Nat) : Bool :=
  pciDeviceExists space bus device function &&
    (function = 0 || !pciDeviceExists space bus device 0 || pciConfigRead space bus device 0 0x0C &&& 0x00800000 ≠ 0)

theorem scan_functions_chosen (devices : List PciDevice) : scanFunctions space maxDevices bus device 0 8 devices =
    (((List.range 8).filter (chosen space bus device)).map (pciGetDeviceInfo space bus device)).foldl
      (pushRecord maxDevices) devices := by
  have all : List.range 8 = 0 :: List.range' 1 7 := rfl
  rw [all, scanFunctions, List.filter_cons]
  by_cases present : pciDeviceExists space bus device 0 = true
  · have first : chosen space bus device 0 = true := by rw [chosen, present]; rfl
    rw [if_pos present, if_pos first, List.map_cons, List.foldl_cons]
    by_cases single : pciConfigRead space bus device 0 0x0C &&& 0x00800000 = 0
    · have none' : (List.range' 1 7).filter (chosen space bus device) = [] := by
        refine List.filter_eq_nil_iff.mpr fun function member => ?_
        have behind := (List.mem_range'_1.mp member).1
        rw [chosen, present, single]
        simp only [ne_eq, not_true_eq_false, decide_false, Bool.not_true, Bool.or_false, Bool.and_eq_true, decide_eq_true_eq]
        omega
      rw [if_pos ⟨rfl, single⟩, none']
      rfl
    · have same : (List.range' 1 7).filter (chosen space bus device) = (List.range' 1 7).filter (pciDeviceExists space bus device) := by
        refine List.filter_congr fun function _ => ?_
        simp only [chosen, ne_eq, single, not_false_eq_true, decide_true, Bool.or_true, Bool.and_true]
      rw [if_neg fun both => single both.2, same, scan_further space maxDevices bus device 1 7 Nat.one_pos]
  · have absent : pciDeviceExists space bus device 0 = false := Bool.not_eq_true _ |>.mp present
    have first : ¬ chosen space bus device 0 = true := by
      rw [chosen, absent]
      exact Bool.false_ne_true
    have same : (List.range' 1 7).filter (chosen space bus device) = (List.range' 1 7).filter (pciDeviceExists space bus device) := by
      refine List.filter_congr fun function _ => ?_
      simp only [chosen, absent, Bool.not_false, Bool.or_true, Bool.true_or, Bool.and_true]
    rw [if_neg present, if_neg first, same, scan_further space maxDevices bus device 1 7 Nat.one_pos]
end

def placesOf (space : ConfigSpace) : List Place :=
  (List.range 8).flatMap fun bus => (List.range 32).flatMap fun device =>
    ((List.range 8).filter (chosen space bus device)).map fun function => ⟨bus, device, function⟩

theorem enumerate_places (space : ConfigSpace) (maxDevices : Int) :
    pciEnumerateDevices space maxDevices = ((placesOf space).map (recordOf space)).take maxDevices.toNat := by
  have pushed := push_all maxDevices ((placesOf space).map (recordOf space)) []
  rw [List.nil_append, List.length_nil, Nat.sub_zero] at pushed
  rw [← pushed, pciEnumerateDevices, placesOf, List.foldl_map, List.foldl_flatMap]
  refine congrArg (fun loop => (List.range 8).foldl loop []) (funext fun devices => funext fun bus => ?_)
  rw [List.foldl_flatMap]
  refine congrArg (fun loop => (List.range 32).foldl loop devices) (funext fun devices => funext fun device => ?_)
  rw [scan_functions_chosen, List.foldl_map, List.foldl_map]
  rfl

theorem places_sorted (space : ConfigSpace) : (placesOf space).Pairwise Place.Before := by
  refine List.pairwise_flatMap.mpr ⟨fun bus _ => List.pairwise_flatMap.mpr ⟨fun device _ => ?_, ?_⟩, ?_⟩
  · have sorted := List.Pairwise.filter (chosen space bus device) (List.pairwise_lt_range (n := 8))
    exact List.pairwise_map.mpr (sorted.imp fun below => Or.inr ⟨rfl, Or.inr ⟨rfl, below⟩⟩)
  · refine (List.pairwise_lt_range (n := 32)).imp fun below first inFirst second inSecond => ?_
    obtain ⟨_, _, rfl⟩ := List.mem_map.mp inFirst
    obtain ⟨_, _, rfl⟩ := List.mem_map.mp inSecond
    exact Or.inr ⟨rfl, Or.inl below⟩
  · refine (List.pairwise_lt_range (n := 8)).imp fun below first inFirst second inSecond => ?_
    obtain ⟨_, _, inFirst⟩ := List.mem_flatMap.mp inFirst
    obtain ⟨_, _, rfl⟩ := List.mem_map.mp inFirst
    obtain ⟨_, _, inSecond⟩ := List.mem_flatMap.mp inSecond
    obtain ⟨_, _, rfl⟩ := List.mem_map.mp inSecond
    exact Or.inl below

theorem chosen_selected (space : ConfigSpace) (bus device function : Nat) (inBus : bus < 8) (inDevice : device < 32)
    (inFunction : function < 8) : chosen space bus device function = true ↔ Selected space ⟨bus, device, function⟩ := by
  have own := exists_present space bus device function (by omega) inDevice inFunction
  have first := exists_present space bus device 0 (by omega) inDevice (by decide)
  have header := config_read_space space bus device 0 0x0C (by omega) inDevice (by decide)
  have offset : 0x0C &&& 0xFC = 0x0C := rfl
  rw [offset] at header
  rw [Selected, MultiFunction, ← own, ← first, ← header, chosen]
  simp only [Bool.and_eq_true, Bool.or_eq_true, decide_eq_true_eq, Bool.not_eq_true', Bool.not_eq_true, inBus, inDevice,
    inFunction, true_and, or_assoc]

theorem places_selected (space : ConfigSpace) (place : Place) : place ∈ placesOf space ↔ Selected space place := by
  obtain ⟨bus, device, function⟩ := place
  rw [placesOf]
  constructor
  · intro member
    obtain ⟨bus', inBus, member⟩ := List.mem_flatMap.mp member
    obtain ⟨device', inDevice, member⟩ := List.mem_flatMap.mp member
    obtain ⟨function', inFunction, same⟩ := List.mem_map.mp member
    obtain ⟨range, chosen'⟩ := List.mem_filter.mp inFunction
    cases same
    exact (chosen_selected space bus device function (List.mem_range.mp inBus) (List.mem_range.mp inDevice)
      (List.mem_range.mp range)).mp chosen'
  · intro selected
    obtain ⟨inBus, inDevice, inFunction, _⟩ := id selected
    have chosen' := (chosen_selected space bus device function inBus inDevice inFunction).mpr selected
    refine List.mem_flatMap.mpr ⟨bus, List.mem_range.mpr inBus, List.mem_flatMap.mpr ⟨device, List.mem_range.mpr inDevice, ?_⟩⟩
    exact List.mem_map.mpr ⟨function, List.mem_filter.mpr ⟨List.mem_range.mpr inFunction, chosen'⟩, rfl⟩

def Names (record : PciDevice) (place : Place) : Prop :=
  record.bus.toNat = place.bus ∧ record.device.toNat = place.device ∧ record.function.toNat = place.function

theorem record_names (space : ConfigSpace) (place : Place) (selected : Selected space place) :
    Names (recordOf space place) place := by
  obtain ⟨inBus, inDevice, inFunction, _⟩ := selected
  have byte : ∀ n, n < 32 → (UInt8.ofNat n).toNat = n := fun n below =>
    UInt8.toNat_ofNat_of_lt' (Nat.lt_of_lt_of_le below (by decide))
  exact ⟨byte _ (by omega), byte _ inDevice, byte _ (by omega)⟩

theorem enumerates_selected (space : ConfigSpace) (maxDevices : Int) :
    ((pciEnumerateDevices space maxDevices).length : Int) ≤ max maxDevices 0 ∧
      ∃ places : List Place, places.Pairwise Place.Before ∧ (∀ place, place ∈ places ↔ Selected space place) ∧
        (∀ place ∈ places, Names (recordOf space place) place) ∧
        pciEnumerateDevices space maxDevices = (places.map (recordOf space)).take maxDevices.toNat := by
  have names : ∀ place ∈ placesOf space, Names (recordOf space place) place :=
    fun place member => record_names space place ((places_selected space place).mp member)
  refine ⟨?_, placesOf space, places_sorted space, places_selected space, names, enumerate_places space maxDevices⟩
  have short := List.length_take_le maxDevices.toNat ((placesOf space).map (recordOf space))
  rw [enumerate_places]
  omega

end RoDos.Pci
