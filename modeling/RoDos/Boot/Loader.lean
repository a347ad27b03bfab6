import RoDos.Base.Memory
import Mathlib.Data.Nat.Bitwise

set_option autoImplicit false

namespace RoDos.Boot

open Base

-- Words of 16 bits in real mode. Every address here is below 0xA0000.
def load16 (memory : Memory) (a : Nat) : Nat := (memory a).toNat + 2 ^ 8 * (memory (a + 1)).toNat

def store8 (memory : Memory) (a value : Nat) : Memory := fun other => if other = a then UInt8.ofNat value else memory other

def store16 (memory : Memory) (a value : Nat) : Memory := store8 (store8 memory a value) (a + 1) (value / 2 ^ 8)

def store32 (memory : Memory) (a value : Nat) : Memory := store16 (store16 memory a value) (a + 2) (value / 2 ^ 16)

def pushWords (memory : Memory) (sp : Nat) : List Nat → Memory
  | [] => memory
  | word :: words => pushWords (store16 memory (sp - 2) word) (sp - 2) words

-- div word: the quotient and the remainder of DX:AX, or a divide error.
def div16 (dx ax divisor : Nat) : Option (Nat × Nat) :=
  if divisor = 0 ∨ 2 ^ 16 ≤ (dx * 2 ^ 16 + ax) / divisor then none
  else some ((dx * 2 ^ 16 + ax) / divisor, (dx * 2 ^ 16 + ax) % divisor)

-- What int 13h is asked to read, and where to, as its registers say. AX is 0x0201: one sector.
structure Request where
  ch : Nat
  cl : Nat
  dh : Nat
  dl : Nat
  es : Nat
  bx : Nat
deriving DecidableEq

-- Two bits of the cylinder stand in CL above the sector.
def Request.cylinder (request : Request) : Nat := request.ch + 2 ^ 8 * (request.cl / 2 ^ 6)

def Request.sector (request : Request) : Nat := request.cl % 2 ^ 6

def Request.head (request : Request) : Nat := request.dh

-- 18 sectors on a track and 2 heads.
def Request.lba (request : Request) : Nat := (request.cylinder * 2 + request.head) * 18 + (request.sector - 1)

def Request.address (request : Request) : Nat := request.es * 2 ^ 4 + request.bx

-- The disk, the words that the call and read_sectors push, and the flags, CS and IP that an int pushes.
structure Bios where
  disk : Nat → Nat → UInt8
  drive : Nat
  saved : List Nat
  savedWords : saved.length = 10
  frame : List Nat
  frameWords : frame.length = 3

-- The variables of the boot sector; kernel_lba, kernel_sectors and kernel_dest follow each other.
def secPerTrk : Nat := 0x7C18

def numHeads : Nat := 0x7C1A

def driveNum : Nat := 0x7C24

structure Loader where
  memory : Memory
  -- The results of the next reads, and the reads so far with kernel_lba in their time.
  pattern : List Bool
  reads : List (Request × Nat)

section
variable (bios : Bios) (kernelLba : Nat)

def kernelSectors : Nat := kernelLba + 2

def kernelDest : Nat := kernelLba + 4

def stackTop : Nat := 0x7C00 - 2 * 10

-- A sector goes to ES:BX on success, nothing on failure. All registers but AX are kept.
def int13Read (memory : Memory) (request : Request) (success : Bool) : Memory :=
  let pushed := pushWords memory stackTop bios.frame
  if success then
    fun a => if request.address ≤ a ∧ a < request.address + 512 then bios.disk request.lba (a - request.address) else pushed a
  else pushed

-- From ES:BX = destination to mov dl, [drive_num].
def readRequest (memory : Memory) : Option Request :=
  let ax := load16 memory (kernelDest kernelLba + 2)
  let bx := load16 memory (kernelDest kernelLba)
  let bx := bx >>> 4
  let ax := (ax <<< 12) % 2 ^ 16
  let ax := ax ||| bx
  let es := ax
  let bx := load16 memory (kernelDest kernelLba)
  let bx := bx &&& 0x0F
  let ax := load16 memory kernelLba
  (div16 0 ax (load16 memory secPerTrk)).bind fun (ax, dx) =>
    let cl := (dx + 1) % 2 ^ 8
    (div16 0 ax (load16 memory numHeads)).map fun (ax, dx) =>
      { ch := ax % 2 ^ 8, cl := cl, dh := dx % 2 ^ 8, dl := (memory driveNum).toNat, es := es, bx := bx }

-- inc, dec, add and adc behind a successful read.
def advance (memory : Memory) : Memory :=
  let memory := store16 memory kernelLba ((load16 memory kernelLba + 1) % 2 ^ 16)
  let memory := store16 memory (kernelSectors kernelLba) ((load16 memory (kernelSectors kernelLba) + 2 ^ 16 - 1) % 2 ^ 16)
  let sum := load16 memory (kernelDest kernelLba) + 512
  let memory := store16 memory (kernelDest kernelLba) (sum % 2 ^ 16)
  store16 memory (kernelDest kernelLba + 2) ((load16 memory (kernelDest kernelLba + 2) + sum / 2 ^ 16) % 2 ^ 16)

-- One turn of the loop. A retry resets the drive by another int; reads succeed when the pattern has ended.
def readOnce (loader : Loader) : Option Loader :=
  (readRequest kernelLba loader.memory).map fun request =>
    let success := loader.pattern.headD true
    let memory := int13Read bios loader.memory request success
    { memory := if success then advance kernelLba memory else pushWords memory stackTop bios.frame
      pattern := loader.pattern.tail
      reads := loader.reads ++ [(request, load16 loader.memory kernelLba)] }

def readLoop : Nat → Loader → Option Loader
  | 0, _ => none
  | fuel + 1, loader =>
      if load16 loader.memory (kernelSectors kernelLba) = 0 then some loader
      else (readOnce bios kernelLba loader).bind (readLoop fuel)

-- From code_start to the loop of read_sectors, and on until it returns.
def codeStart (lba sectors dest : Nat) (initial : Memory) : Memory :=
  let memory := store8 initial driveNum bios.drive
  let memory := store32 memory kernelLba lba
  let memory := store16 memory (kernelSectors kernelLba) sectors
  let memory := store32 memory (kernelDest kernelLba) dest
  pushWords memory 0x7C00 bios.saved

def bootLoad (lba sectors dest : Nat) (pattern : List Bool) (initial : Memory) (fuel : Nat) : Option Loader :=
  readLoop bios kernelLba fuel ⟨codeStart bios kernelLba lba sectors dest initial, pattern, []⟩

def Own (a : Nat) : Prop :=
  kernelLba ≤ a ∧ a < kernelLba + 8 ∨ a = driveNum ∨ 0x7C00 - 2 * 13 ≤ a ∧ a < 0x7C00

structure SoundRead (read : Request × Nat) : Prop where
  cylinder : read.1.cylinder < 80
  head : read.1.head < 2
  sector : 1 ≤ read.1.sector ∧ read.1.sector ≤ 18
  lba : read.1.lba = read.2

structure KernelLoaded (lba sectors dest : Nat) (initial : Memory) (final : Loader) : Prop where
  stored : ∀ i j, i < sectors → j < 512 → final.memory (dest + 512 * i + j) = bios.disk (lba + i) j
  kept : ∀ a, ¬ Own kernelLba a → (a < dest ∨ dest + 512 * sectors ≤ a) → final.memory a = initial a
  reads : ∀ read ∈ final.reads, SoundRead read
end

theorem load_store16_here (memory : Memory) (a value : Nat) : load16 (store16 memory a value) a = value % 2 ^ 16 := by
  have low : store16 memory a value a = UInt8.ofNat value := by
    rw [store16, store8, if_neg (by omega), store8, if_pos rfl]
  have high : store16 memory a value (a + 1) = UInt8.ofNat (value / 2 ^ 8) := by
    rw [store16, store8, if_pos rfl]
  rw [load16, low, high, UInt8.toNat_ofNat', UInt8.toNat_ofNat']
  omega

theorem store16_elsewhere (memory : Memory) (a value other : Nat) (apart : other < a ∨ a + 1 < other) :
    store16 memory a value other = memory other := by
  rw [store16, store8, if_neg (by omega), store8, if_neg (by omega)]

theorem load_store16_apart (memory : Memory) (a b value : Nat) (apart : b + 1 < a ∨ a + 1 < b) :
    load16 (store16 memory a value) b = load16 memory b := by
  rw [load16, load16, store16_elsewhere _ _ _ _ (by omega), store16_elsewhere _ _ _ _ (by omega)]

theorem push_words_elsewhere (memory : Memory) (sp : Nat) (words : List Nat) (room : 2 * words.length ≤ sp) (a : Nat)
    (outside : a < sp - 2 * words.length ∨ sp ≤ a) : pushWords memory sp words a = memory a := by
  induction words generalizing memory sp with
  | nil => rfl
  | cons word words ih =>
      rw [List.length_cons] at room outside
      rw [pushWords, ih _ _ (by omega) (by omega), store16_elsewhere _ _ _ _ (by omega)]

theorem load16_congr (memory other : Memory) (a : Nat) (same : ∀ b, a ≤ b → b < a + 2 → memory b = other b) :
    load16 memory a = load16 other a := by
  rw [load16, load16, same a (Nat.le_refl a) (by omega), same (a + 1) (by omega) (by omega)]

section
variable (kernelLba : Nat) (memory : Memory)

theorem advance_words : load16 (advance kernelLba memory) kernelLba = (load16 memory kernelLba + 1) % 2 ^ 16 ∧
    load16 (advance kernelLba memory) (kernelLba + 2) = (load16 memory (kernelLba + 2) + 2 ^ 16 - 1) % 2 ^ 16 ∧
    load16 (advance kernelLba memory) (kernelLba + 4) = (load16 memory (kernelLba + 4) + 512) % 2 ^ 16 ∧
    load16 (advance kernelLba memory) (kernelLba + 4 + 2) =
      (load16 memory (kernelLba + 4 + 2) + (load16 memory (kernelLba + 4) + 512) / 2 ^ 16) % 2 ^ 16 := by
  unfold advance kernelSectors kernelDest
  refine ⟨?_, ?_, ?_, ?_⟩
  · rw [load_store16_apart _ _ _ _ (by omega), load_store16_apart _ _ _ _ (by omega), load_store16_apart _ _ _ _ (by omega),
      load_store16_here, Nat.mod_mod]
  · rw [load_store16_apart _ _ _ _ (by omega), load_store16_apart _ _ _ _ (by omega), load_store16_here, Nat.mod_mod,
      load_store16_apart _ _ _ _ (by omega)]
  · rw [load_store16_apart _ _ _ _ (by omega), load_store16_here, Nat.mod_mod, load_store16_apart _ _ _ _ (by omega),
      load_store16_apart _ _ _ _ (by omega)]
  · rw [load_store16_here, Nat.mod_mod, load_store16_apart _ _ _ _ (by omega), load_store16_apart _ _ _ _ (by omega),
      load_store16_apart _ _ _ _ (by omega), load_store16_apart _ _ _ _ (by omega), load_store16_apart _ _ _ _ (by omega)]

theorem advance_elsewhere (a : Nat) (outside : a < kernelLba ∨ kernelLba + 8 ≤ a) : advance kernelLba memory a = memory a := by
  unfold advance kernelSectors kernelDest
  rw [store16_elsewhere _ _ _ _ (by omega), store16_elsewhere _ _ _ _ (by omega), store16_elsewhere _ _ _ _ (by omega),
    store16_elsewhere _ _ _ _ (by omega)]
end

-- The kernel fits on the disk behind its first sector, and in the memory between the boot sector and 0xA0000; the
-- variables lie in the boot sector, whose parameter block is the one of a floppy.
structure Bootable (kernelLba lba sectors dest : Nat) (initial : Memory) : Prop where
  onDisk : lba + sectors ≤ 2880
  inMemory : 0x7E00 ≤ dest ∧ dest + 512 * sectors ≤ 0xA0000
  placed : 0x7C26 ≤ kernelLba ∧ kernelLba + 8 ≤ 0x7E00
  track : load16 initial secPerTrk = 18
  heads : load16 initial numHeads = 2

structure Loading (bios : Bios) (kernelLba lba sectors dest : Nat) (initial : Memory) (i : Nat) (loader : Loader) : Prop where
  current : load16 loader.memory kernelLba = lba + i
  left : load16 loader.memory (kernelLba + 2) = sectors - i
  low : load16 loader.memory (kernelLba + 4) = (dest + 512 * i) % 2 ^ 16
  high : load16 loader.memory (kernelLba + 4 + 2) = (dest + 512 * i) / 2 ^ 16
  stored : ∀ k j, k < i → j < 512 → loader.memory (dest + 512 * k + j) = bios.disk (lba + k) j
  kept : ∀ a, ¬ Own kernelLba a → (a < dest ∨ dest + 512 * i ≤ a) → loader.memory a = initial a
  reads : ∀ read ∈ loader.reads, SoundRead read

section
variable (bios : Bios) (kernelLba lba sectors dest : Nat) (initial : Memory)
  (boot : Bootable kernelLba lba sectors dest initial) (i : Nat) (loader : Loader)
include boot

theorem block_kept (memory : Memory) (kept : ∀ a, ¬ Own kernelLba a → (a < dest ∨ dest + 512 * i ≤ a) → memory a = initial a) :
    load16 memory secPerTrk = 18 ∧ load16 memory numHeads = 2 := by
  have placed := boot.placed
  have inMemory := boot.inMemory
  have own : ∀ a, 0x7C00 ≤ a → a < driveNum → memory a = initial a := by
    intro a low high
    rw [driveNum] at high
    refine kept a ?_ (Or.inl (by omega))
    rw [Own, driveNum]
    omega
  refine ⟨(load16_congr memory initial _ fun a low high => ?_).trans boot.track,
    (load16_congr memory initial _ fun a low high => ?_).trans boot.heads⟩
  · rw [secPerTrk] at low high
    exact own a (by omega) (Nat.lt_of_lt_of_le high (by decide))
  · rw [numHeads] at low high
    exact own a (by omega) (Nat.lt_of_lt_of_le high (by decide))

theorem bootable_sectors (below : i < sectors) : lba + i < 2880 ∧ dest + 512 * i + 512 ≤ 0xA0000 := by
  have onDisk := boot.onDisk
  have inMemory := boot.inMemory
  omega

variable (loading : Loading bios kernelLba lba sectors dest initial i loader)
include loading

theorem request_sound (below : i < sectors) : ∃ request, readRequest kernelLba loader.memory = some request ∧
    SoundRead (request, lba + i) ∧ request.address = dest + 512 * i := by
  obtain ⟨onDisk, inMemory⟩ := bootable_sectors kernelLba lba sectors dest initial boot i below
  obtain ⟨track, heads⟩ := block_kept kernelLba lba sectors dest initial boot i loader.memory loading.kept
  have trackDiv : div16 0 (lba + i) 18 = some ((lba + i) / 18, (lba + i) % 18) := by
    rw [div16, Nat.zero_mul, Nat.zero_add, if_neg (by omega)]
  have headDiv : div16 0 ((lba + i) / 18) 2 = some ((lba + i) / 18 / 2, (lba + i) / 18 % 2) := by
    rw [div16, Nat.zero_mul, Nat.zero_add, if_neg (by omega)]
  have segment : (((dest + 512 * i) / 2 ^ 16) <<< 12) % 2 ^ 16 ||| ((dest + 512 * i) % 2 ^ 16) >>> 4 =
      (dest + 512 * i) / 2 ^ 16 * 2 ^ 12 + (dest + 512 * i) % 2 ^ 16 / 2 ^ 4 := by
    rw [Nat.shiftRight_eq_div_pow, Nat.mod_eq_of_lt (by rw [Nat.shiftLeft_eq]; omega),
      ← Nat.shiftLeft_add_eq_or_of_lt (show (dest + 512 * i) % 2 ^ 16 / 2 ^ 4 < 2 ^ 12 by omega), Nat.shiftLeft_eq]
  have offset : (dest + 512 * i) % 2 ^ 16 &&& 0x0F = (dest + 512 * i) % 2 ^ 16 % 2 ^ 4 := Nat.and_two_pow_sub_one_eq_mod _ 4
  refine ⟨⟨(lba + i) / 18 / 2 % 2 ^ 8, ((lba + i) % 18 + 1) % 2 ^ 8, (lba + i) / 18 % 2 % 2 ^ 8, (loader.memory driveNum).toNat,
    (dest + 512 * i) / 2 ^ 16 * 2 ^ 12 + (dest + 512 * i) % 2 ^ 16 / 2 ^ 4, (dest + 512 * i) % 2 ^ 16 % 2 ^ 4⟩, ?_, ?_, ?_⟩
  · simp only [readRequest, kernelDest, loading.current, loading.low, loading.high, track, heads, segment, offset, trackDiv,
      headDiv, Option.bind_some, Option.map_some]
  · constructor <;> simp only [Request.cylinder, Request.head, Request.sector, Request.lba] <;> omega
  · dsimp only [Request.address]
    omega

theorem loading_pushed (pattern : List Bool) (reads : List (Request × Nat)) (sound : ∀ read ∈ reads, SoundRead read) :
    Loading bios kernelLba lba sectors dest initial i ⟨pushWords loader.memory stackTop bios.frame, pattern, reads⟩ := by
  have placed := boot.placed
  have inMemory := boot.inMemory
  have same : ∀ a, a < 0x7C00 - 2 * 13 ∨ 0x7C00 ≤ a → pushWords loader.memory stackTop bios.frame a = loader.memory a := by
    intro a outside
    refine push_words_elsewhere _ _ _ ?_ a ?_ <;> rw [bios.frameWords, stackTop] <;> omega
  have word : ∀ a, 0x7C00 ≤ a → load16 (pushWords loader.memory stackTop bios.frame) a = load16 loader.memory a :=
    fun a high => load16_congr _ _ a fun b low _ => same b (Or.inr (by omega))
  exact {
    current := (word _ (by omega)).trans loading.current
    left := (word _ (by omega)).trans loading.left
    low := (word _ (by omega)).trans loading.low
    high := (word _ (by omega)).trans loading.high
    stored := fun k j before inside => (same _ (Or.inr (by omega))).trans (loading.stored k j before inside)
    kept := fun a own outside => (same a (by rw [Own] at own; omega)).trans (loading.kept a own outside)
    reads := sound }

theorem loading_advanced (below : i < sectors) (request : Request) (here : request.address = dest + 512 * i)
    (asked : request.lba = lba + i) (pattern : List Bool) (reads : List (Request × Nat))
    (sound : ∀ read ∈ reads, SoundRead read) : Loading bios kernelLba lba sectors dest initial (i + 1)
      ⟨advance kernelLba (int13Read bios loader.memory request true), pattern, reads⟩ := by
  have placed := boot.placed
  obtain ⟨onDisk, inMemory⟩ := bootable_sectors kernelLba lba sectors dest initial boot i below
  have pushed := loading_pushed bios kernelLba lba sectors dest initial boot i loader loading pattern reads sound
  have sector : ∀ a, dest + 512 * i ≤ a → a < dest + 512 * i + 512 →
      int13Read bios loader.memory request true a = bios.disk (lba + i) (a - (dest + 512 * i)) := by
    intro a low high
    rw [int13Read, if_pos rfl, here, asked, if_pos ⟨low, high⟩]
  have same : ∀ a, a < dest + 512 * i ∨ dest + 512 * i + 512 ≤ a →
      int13Read bios loader.memory request true a = pushWords loader.memory stackTop bios.frame a := by
    intro a outside
    rw [int13Read, if_pos rfl, here, if_neg (by omega)]
  have word : ∀ a, a + 2 ≤ 0x7E00 → load16 (int13Read bios loader.memory request true) a =
      load16 (pushWords loader.memory stackTop bios.frame) a :=
    fun a low => load16_congr _ _ a fun b _ high => same b (Or.inl (by have := boot.inMemory; omega))
  obtain ⟨current, left, low, high⟩ := advance_words kernelLba (int13Read bios loader.memory request true)
  have elsewhere := advance_elsewhere kernelLba (int13Read bios loader.memory request true)
  rw [word _ (by omega), pushed.current] at current
  rw [word _ (by omega), pushed.left] at left
  rw [word _ (by omega), pushed.low] at low
  rw [word _ (by omega), word _ (by omega), pushed.high, pushed.low] at high
  exact {
    current := current.trans (by omega)
    left := left.trans (by have := boot.onDisk; omega)
    low := low.trans (by omega)
    high := high.trans (by omega)
    stored := fun k j before inside => by
      refine (elsewhere _ (by have := boot.inMemory; omega)).trans ?_
      by_cases last : k = i
      · subst last
        rw [sector _ (by omega) (by omega), show dest + 512 * k + j - (dest + 512 * k) = j by omega]
      · exact (same _ (by omega)).trans (pushed.stored k j (by omega) inside)
    kept := fun a own outside => by
      refine (elsewhere a (by rw [Own] at own; omega)).trans ?_
      exact (same a (by omega)).trans (pushed.kept a own (by omega))
    reads := sound }

theorem read_once_loading (below : i < sectors) : ∃ next, readOnce bios kernelLba loader = some next ∧
    next.pattern = loader.pattern.tail ∧
    Loading bios kernelLba lba sectors dest initial (if loader.pattern.headD true then i + 1 else i) next := by
  obtain ⟨request, asked, sound, here⟩ := request_sound bios kernelLba lba sectors dest initial boot i loader loading below
  have sounds : ∀ read ∈ loader.reads ++ [(request, load16 loader.memory kernelLba)], SoundRead read := by
    intro read made
    rw [List.mem_append, List.mem_singleton, loading.current] at made
    exact made.elim (loading.reads read) fun last => last ▸ sound
  refine ⟨_, by rw [readOnce, asked, Option.map_some], rfl, ?_⟩
  cases outcome : loader.pattern.headD true with
  | true => exact loading_advanced bios kernelLba lba sectors dest initial boot i loader loading below request here sound.lba _ _ sounds
  | false =>
      have once := loading_pushed bios kernelLba lba sectors dest initial boot i loader loading loader.pattern loader.reads loading.reads
      exact loading_pushed bios kernelLba lba sectors dest initial boot i _ once _ _ sounds
end

section
variable (bios : Bios) (kernelLba lba sectors dest : Nat) (initial : Memory)
  (boot : Bootable kernelLba lba sectors dest initial)
include boot

-- Each turn stores a sector or uses up a failing result.
theorem read_loop_loads (turns : Nat) : ∀ (i : Nat) (loader : Loader), Loading bios kernelLba lba sectors dest initial i loader →
    i ≤ sectors → loader.pattern.length + (sectors - i) ≤ turns →
    ∃ final, readLoop bios kernelLba (turns + 1) loader = some final ∧
      Loading bios kernelLba lba sectors dest initial sectors final := by
  have stopped : ∀ turns loader, Loading bios kernelLba lba sectors dest initial sectors loader →
      readLoop bios kernelLba (turns + 1) loader = some loader := by
    intro turns loader loading
    rw [readLoop, kernelSectors, loading.left, Nat.sub_self, if_pos rfl]
  induction turns with
  | zero =>
      intro i loader loading within few
      obtain rfl : i = sectors := by omega
      exact ⟨loader, stopped 0 loader loading, loading⟩
  | succ turns ih =>
      intro i loader loading within few
      by_cases finished : i = sectors
      · subst finished
        exact ⟨loader, stopped _ loader loading, loading⟩
      obtain ⟨next, once, tail, going⟩ :=
        read_once_loading bios kernelLba lba sectors dest initial boot i loader loading (by omega)
      rw [readLoop, kernelSectors, loading.left, if_neg (by omega), once, Option.bind_some]
      refine ih _ next going ?_ ?_
      · split <;> omega
      · rw [tail, List.length_tail]
        cases results : loader.pattern with
        | nil => simp only [List.headD_nil, if_true, List.length_nil]; rw [results, List.length_nil] at few; omega
        | cons result rest =>
            rw [results, List.length_cons] at few
            rw [List.headD_cons, List.length_cons]
            split <;> omega

theorem code_start_loading (pattern : List Bool) :
    Loading bios kernelLba lba sectors dest initial 0 ⟨codeStart bios kernelLba lba sectors dest initial, pattern, []⟩ := by
  have placed := boot.placed
  have onDisk := boot.onDisk
  have inMemory := boot.inMemory
  have pushed : ∀ memory a, a < 0x7C00 - 2 * 10 ∨ 0x7C00 ≤ a → pushWords memory 0x7C00 bios.saved a = memory a := by
    intro memory a outside
    refine push_words_elsewhere _ _ _ ?_ a ?_ <;> rw [bios.savedWords] <;> omega
  have word : ∀ memory a, 0x7C00 ≤ a → load16 (pushWords memory 0x7C00 bios.saved) a = load16 memory a :=
    fun memory a high => load16_congr _ _ a fun b low _ => pushed memory b (Or.inr (by omega))
  constructor
  · dsimp only [codeStart, store32, kernelSectors, kernelDest]
    rw [word _ _ (by omega), load_store16_apart _ _ _ _ (by omega), load_store16_apart _ _ _ _ (by omega),
      load_store16_apart _ _ _ _ (by omega), load_store16_apart _ _ _ _ (by omega), load_store16_here]
    omega
  · dsimp only [codeStart, store32, kernelSectors, kernelDest]
    rw [word _ _ (by omega), load_store16_apart _ _ _ _ (by omega), load_store16_apart _ _ _ _ (by omega), load_store16_here]
    omega
  · dsimp only [codeStart, store32, kernelSectors, kernelDest]
    rw [word _ _ (by omega), load_store16_apart _ _ _ _ (by omega), load_store16_here]
    rfl
  · dsimp only [codeStart, store32, kernelSectors, kernelDest]
    rw [word _ _ (by omega), load_store16_here]
    omega
  · intro k j before _
    exact absurd before (Nat.not_lt_zero k)
  · intro a own _
    dsimp only [codeStart, store32, kernelSectors, kernelDest]
    rw [Own] at own
    rw [pushed _ a (by omega), store16_elsewhere _ _ _ _ (by omega), store16_elsewhere _ _ _ _ (by omega),
      store16_elsewhere _ _ _ _ (by omega), store16_elsewhere _ _ _ _ (by omega), store16_elsewhere _ _ _ _ (by omega),
      store8, if_neg (by omega)]
  · exact List.forall_mem_nil _

theorem kernel_loaded (pattern : List Bool) : ∃ fuel final,
    bootLoad bios kernelLba lba sectors dest pattern initial fuel = some final ∧
    KernelLoaded bios kernelLba lba sectors dest initial final := by
  obtain ⟨final, done, loading⟩ := read_loop_loads bios kernelLba lba sectors dest initial boot (pattern.length + sectors) 0 _
    (code_start_loading bios kernelLba lba sectors dest initial boot pattern) (Nat.zero_le _) (Nat.le_refl _)
  exact ⟨_, final, done, loading.stored, loading.kept, loading.reads⟩
end

theorem kernel_loaded_default : ∃ fuel final,
    bootLoad ⟨fun sector j => UInt8.ofNat (sector + j), 0, List.replicate 10 0, rfl, List.replicate 3 0, rfl⟩ 0x7CA0 1 64 0x10000
      [false, true, false] (fun a => if a = 0x7C18 then 18 else if a = 0x7C1A then 2 else 0) fuel = some final ∧
    KernelLoaded ⟨fun sector j => UInt8.ofNat (sector + j), 0, List.replicate 10 0, rfl, List.replicate 3 0, rfl⟩ 0x7CA0 1 64 0x10000
      (fun a => if a = 0x7C18 then 18 else if a = 0x7C1A then 2 else 0) final :=
  kernel_loaded _ _ _ _ _ _ ⟨by decide, by decide, by decide, by decide, by decide⟩ _

end RoDos.Boot
