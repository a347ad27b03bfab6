import RoDos.Base.Runs
import RoDos.Base.Slots
import RoDos.Tcp.Frames

set_option autoImplicit false

namespace RoDos.Arp

open Base Tcp

def arpCacheSize : Nat := 16

structure ArpCache where
  entries : List ArpEntry
  size : entries.length = arpCacheSize

def arpInit (cache : ArpCache) : ArpCache :=
  ⟨cache.entries.map fun entry => { entry with valid := false }, by rw [List.length_map]; exact cache.size⟩

def cacheFull (cache : ArpCache) : Bool := cache.entries.all ArpEntry.valid

-- The first empty slot, or the first of all when the cache is full.
def arpSlot (cache : ArpCache) : Nat := (cache.entries.findIdx? fun entry => !entry.valid).getD 0

-- The loop looks for an empty slot only, not for an entry of the same host.
def arpAddEntry (cache : ArpCache) (ipAddr : UInt32) : Option Mac → ArpCache × Int
  | none => (cache, -1)
  | some macAddr =>
      (⟨cache.entries.set (arpSlot cache) ⟨ipAddr, macAddr, true⟩, by rw [List.length_set]; exact cache.size⟩, 0)

def OnePerIp (cache : ArpCache) : Prop :=
  ∀ (i j : Nat) (one two : ArpEntry), cache.entries[i]? = some one → cache.entries[j]? = some two →
    one.valid = true → two.valid = true → one.ip = two.ip → i = j

structure Learning where
  cache : ArpCache
  learnt : UInt32 → Option Mac

structure ArpCall where
  ipAddr : UInt32
  macAddr : Option Mac

def evicted (cache : ArpCache) : Option UInt32 :=
  if cacheFull cache then cache.entries.head?.map ArpEntry.ip else none

def learn (state : Learning) (call : ArpCall) : Learning :=
  { cache := (arpAddEntry state.cache call.ipAddr call.macAddr).1
    learnt := match call.macAddr with
      | none => state.learnt
      | some macAddr => fun ip =>
          if ip = call.ipAddr then some macAddr
          else if evicted state.cache = some ip then none
          else state.learnt ip }

def ArpStep (state : Learning) (call : ArpCall) (next : Learning) : Prop := next = learn state call

def ArpStarted (state : Learning) : Prop := ∃ cache, state = ⟨arpInit cache, fun _ => none⟩

def FreshHost (cache : ArpCache) (ipAddr : UInt32) : Prop :=
  arpResolve cache.entries ipAddr = none ∨ evicted cache = some ipAddr

def AddsFresh (state : Learning) (call : ArpCall) : Prop := call.macAddr ≠ none → FreshHost state.cache call.ipAddr

def AddsOnce (cache : ArpCache) (call : ArpCall) : Prop :=
  OnePerIp (arpAddEntry cache call.ipAddr call.macAddr).1 ∧
    ∀ macAddr, call.macAddr = some macAddr →
      arpResolve (arpAddEntry cache call.ipAddr call.macAddr).1.entries call.ipAddr = some macAddr

def slotOf (entry : ArpEntry) : Option (UInt32 × Mac) := if entry.valid then some (entry.ip, entry.mac) else none

def slotsOf (cache : ArpCache) : List (Option (UInt32 × Mac)) := cache.entries.map slotOf

theorem slot_of_some (entry : ArpEntry) (held : UInt32 × Mac) :
    slotOf entry = some held ↔ entry.valid = true ∧ entry.ip = held.1 ∧ entry.mac = held.2 := by
  rw [slotOf]
  by_cases valid : entry.valid = true
  · rw [if_pos valid, Option.some.injEq, Prod.ext_iff, iff_true_intro valid, true_and]
  · rw [if_neg valid]
    exact iff_of_false nofun fun both => valid both.1

section
variable (cache : ArpCache)

theorem slots_length : (slotsOf cache).length = arpCacheSize := (List.length_map _).trans cache.size

theorem slots_get (i : Nat) (held : UInt32 × Mac) : (slotsOf cache)[i]? = some (some held) ↔
    ∃ entry, cache.entries[i]? = some entry ∧ entry.valid = true ∧ entry.ip = held.1 ∧ entry.mac = held.2 := by
  rw [slotsOf, List.getElem?_map, Option.map_eq_some_iff]
  exact exists_congr fun entry => and_congr_right fun _ => slot_of_some entry held

theorem one_per_ip_slots : OnePerIp cache ↔ KeysOnce (slotsOf cache) := by
  constructor
  · intro once i j one two first second same
    obtain ⟨entry, here, valid, ip, _⟩ := (slots_get cache i one).mp first
    obtain ⟨other, there, also, ip', _⟩ := (slots_get cache j two).mp second
    exact once i j entry other here there valid also (ip.trans (same.trans ip'.symm))
  · intro once i j one two first second valid also same
    exact once i j (one.ip, one.mac) (two.ip, two.mac) ((slots_get cache i _).mpr ⟨one, first, valid, rfl, rfl⟩)
      ((slots_get cache j _).mpr ⟨two, second, also, rfl, rfl⟩) same

theorem resolve_slots (ipAddr : UInt32) : arpResolve cache.entries ipAddr = findSlot (slotsOf cache) ipAddr := by
  rw [arpResolve, slotsOf, findSlot]
  induction cache.entries with
  | nil => rfl
  | cons entry rest ih =>
      rw [List.find?_cons, List.map_cons, List.findSome?_cons, slotOf]
      by_cases valid : entry.valid = true
      · by_cases same : entry.ip = ipAddr
        · simp [valid, same]
        · simpa [valid, same] using ih
      · simpa [valid] using ih

theorem slot_inside : arpSlot cache < (slotsOf cache).length := by
  rw [slots_length, arpSlot]
  cases found : cache.entries.findIdx? fun entry => !entry.valid with
  | none => exact Nat.succ_pos 15
  | some i => exact Nat.lt_of_lt_of_eq (List.findIdx?_eq_some_iff_getElem.mp found).1 cache.size

theorem added_slots (ipAddr : UInt32) (macAddr : Mac) :
    slotsOf (arpAddEntry cache ipAddr (some macAddr)).1 = (slotsOf cache).set (arpSlot cache) (some (ipAddr, macAddr)) := by
  rw [slotsOf, arpAddEntry, List.map_set]
  rfl

theorem slot_evicts : heldKey (slotsOf cache) (arpSlot cache) = evicted cache := by
  rw [heldKey, slotsOf, List.getElem?_map, arpSlot, evicted]
  cases found : cache.entries.findIdx? fun entry => !entry.valid with
  | none =>
      have full : cacheFull cache = true := by
        rw [cacheFull, List.all_eq_true]
        exact fun entry member => by simpa using List.findIdx?_eq_none_iff.mp found entry member
      rw [if_pos full, Option.getD_none, ← List.head?_eq_getElem?]
      cases first : cache.entries.head? with
      | none => rfl
      | some entry =>
          have valid := List.all_eq_true.mp full entry (List.mem_of_mem_head? first)
          simp [slotOf, valid]
  | some i =>
      obtain ⟨inside, empty, _⟩ := List.findIdx?_eq_some_iff_getElem.mp found
      have invalid : cache.entries[i].valid = false := by simpa using empty
      have room : ¬ cacheFull cache = true := by
        intro full
        have valid := List.all_eq_true.mp full _ (List.getElem_mem inside)
        rw [invalid] at valid
        cases valid
      rw [if_neg room, Option.getD_some, List.getElem?_eq_getElem inside]
      simp [slotOf, invalid]

variable (once : OnePerIp cache)
include once

theorem fresh_host_iff (ipAddr : UInt32) : FreshBut (slotsOf cache) (arpSlot cache) ipAddr ↔ FreshHost cache ipAddr := by
  rw [fresh_but_iff _ _ _ ((one_per_ip_slots cache).mp once), FreshHost, resolve_slots, slot_evicts]

theorem added_once_iff (ipAddr : UInt32) (macAddr : Mac) :
    OnePerIp (arpAddEntry cache ipAddr (some macAddr)).1 ↔ FreshHost cache ipAddr := by
  rw [one_per_ip_slots, added_slots,
    keys_once_set _ _ _ _ (slot_inside cache) ((one_per_ip_slots cache).mp once), fresh_host_iff cache once]

theorem added_resolve (ipAddr : UInt32) (macAddr : Mac) (fresh : FreshHost cache ipAddr) (other : UInt32) :
    arpResolve (arpAddEntry cache ipAddr (some macAddr)).1.entries other =
      if other = ipAddr then some macAddr
      else if evicted cache = some other then none else arpResolve cache.entries other := by
  rw [resolve_slots, resolve_slots, added_slots, ← slot_evicts]
  exact find_slot_set _ _ _ _ (slot_inside cache) ((one_per_ip_slots cache).mp once)
    ((fresh_host_iff cache once ipAddr).mpr fresh) other

theorem adds_once_iff (call : ArpCall) :
    AddsOnce cache call ↔ (call.macAddr ≠ none → FreshHost cache call.ipAddr) := by
  rw [AddsOnce]
  cases given : call.macAddr with
  | none => exact iff_of_true ⟨once, nofun⟩ fun some' => absurd rfl some'
  | some macAddr =>
      constructor
      · intro kept _
        exact (added_once_iff cache once call.ipAddr macAddr).mp kept.1
      · intro fresh
        have host := fresh nofun
        refine ⟨(added_once_iff cache once call.ipAddr macAddr).mpr host, fun mac same => ?_⟩
        cases same
        rw [added_resolve cache once call.ipAddr macAddr host, if_pos rfl]
end

structure Follows (state : Learning) : Prop where
  once : OnePerIp state.cache
  latest : ∀ ipAddr, arpResolve state.cache.entries ipAddr = state.learnt ipAddr

theorem started_follows (state : Learning) (boot : ArpStarted state) : Follows state := by
  obtain ⟨cache, rfl⟩ := boot
  have invalid (entry : ArpEntry) (member : entry ∈ (arpInit cache).entries) : entry.valid = false := by
    obtain ⟨old, _, same⟩ := List.mem_map.mp member
    rw [← same]
  refine ⟨fun i j one two here there valid => ?_, fun ipAddr => ?_⟩
  · rw [invalid one (List.mem_of_getElem? here)] at valid
    cases valid
  · rw [arpResolve, List.find?_eq_none.mpr fun entry member => by simp [invalid entry member]]
    rfl

theorem learn_follows (state : Learning) (call : ArpCall) (follows : Follows state) (fresh : AddsFresh state call) :
    Follows (learn state call) := by
  have once := ((adds_once_iff state.cache follows.once call).mpr fresh).1
  refine ⟨once, fun ipAddr => ?_⟩
  rw [AddsFresh] at fresh
  rw [learn]
  dsimp only
  cases given : call.macAddr with
  | none => exact follows.latest ipAddr
  | some macAddr =>
      rw [given] at fresh
      rw [added_resolve state.cache follows.once call.ipAddr macAddr (fresh nofun) ipAddr, follows.latest]

theorem latest_address_used (state : Learning) (run : Run ArpStarted ArpStep AddsFresh state) :
    OnePerIp state.cache ∧ (∀ ipAddr, arpResolve state.cache.entries ipAddr = state.learnt ipAddr) ∧
      ∀ call, AddsOnce state.cache call ↔ AddsFresh state call := by
  have step (before next : Learning) (call : ArpCall) (inv : Follows before) (fresh : AddsFresh before call)
      (taken : ArpStep before call next) : Follows next := by
    rw [show next = learn before call from taken]
    exact learn_follows before call inv fresh
  have follows := run_invariant Follows started_follows step state run
  exact ⟨follows.once, follows.latest, adds_once_iff state.cache follows.once⟩

def emptyCache : ArpCache := ⟨List.replicate arpCacheSize ⟨0, broadcast, false⟩, List.length_replicate⟩

def firstLearning : Learning := ⟨arpInit emptyCache, fun _ => none⟩

def otherMac : Mac := ⟨[0x52, 0x54, 0, 0, 0, 1], rfl⟩

def routerLearnt : Learning := learn firstLearning ⟨0x0A000202, some routerMac⟩

def bothLearnt : Learning := learn routerLearnt ⟨0x0A000203, some otherMac⟩

theorem latest_address_used_router : arpResolve bothLearnt.cache.entries 0x0A000202 = some routerMac ∧
    arpResolve bothLearnt.cache.entries 0x0A000203 = some otherMac := by
  have first : AddsFresh firstLearning ⟨0x0A000202, some routerMac⟩ := fun _ => Or.inl rfl
  have second : AddsFresh routerLearnt ⟨0x0A000203, some otherMac⟩ := fun _ => Or.inl rfl
  have run : Run ArpStarted ArpStep AddsFresh bothLearnt :=
    .step routerLearnt _ _ (.step firstLearning _ _ (.start _ ⟨emptyCache, rfl⟩) first rfl) second rfl
  have latest := (latest_address_used _ run).2.1
  rw [latest, latest]
  exact ⟨rfl, rfl⟩

-- A host that comes back with another address: the second entry is never found.
theorem latest_address_not_used :
    ¬ ∀ state call, Run ArpStarted ArpStep (fun _ _ => True) state → AddsOnce state.cache call := by
  intro claimed
  have run : Run ArpStarted ArpStep (fun _ _ => True) (learn firstLearning ⟨0x0A000202, some routerMac⟩) :=
    .step firstLearning _ _ (.start _ ⟨emptyCache, rfl⟩) trivial rfl
  have latest := (claimed _ ⟨0x0A000202, some otherMac⟩ run).2 otherMac rfl
  have first : (arpResolve (arpAddEntry (learn firstLearning ⟨0x0A000202, some routerMac⟩).cache 0x0A000202
      (some otherMac)).1.entries 0x0A000202).map Mac.bytes = some routerMac.bytes := rfl
  rw [latest] at first
  exact absurd first (by decide)

end RoDos.Arp
