import RoDos.Base.Blocks
import Mathlib.Data.Fintype.Basic

set_option autoImplicit false

namespace RoDos.Clock

open Base

-- The clock has counted a number of seconds since the start of 2000; it has two digits for the year, and every fourth
-- year is a leap year. The months are counted from 0.
def monthDays (month : Nat) : Nat :=
  match month % 12 with
  | 1 => if month / 12 % 4 = 0 then 29 else 28
  | 3 | 5 | 8 | 10 => 30
  | _ => 31

def day (tick : Nat) : Nat := tick / 86400

def month (day : Nat) : Nat := blockOf monthDays day

def place (day : Nat) : Nat := day - blockStart monthDays (month day)

def bcd (value : Nat) : UInt8 := UInt8.ofNat (value / 10 * 16 + value % 10)

def cmosReg (tick : Nat) (reg : UInt8) : UInt8 :=
  if reg = 0x00 then bcd (tick % 60)
  else if reg = 0x02 then bcd (tick / 60 % 60)
  else if reg = 0x04 then bcd (tick / 3600 % 24)
  else if reg = 0x07 then bcd (place (day tick) + 1)
  else if reg = 0x08 then bcd (month (day tick) % 12 + 1)
  else if reg = 0x09 then bcd (month (day tick) / 12 % 100)
  else 0

-- The instants of a call: the three reads of port 0x71 between its start and its end.
structure Call where
  start : Nat
  first : Nat
  second : Nat
  third : Nat
  stop : Nat
  begun : start ≤ first
  onward : first ≤ second ∧ second ≤ third
  ended : third ≤ stop

-- outb(0x70, reg) selects the register that inb(0x71) reads at the given instant.
def getCmosReg (reg : UInt8) (instant : Nat) : UInt8 := cmosReg instant reg

def bcd2bin (val : UInt8) : UInt8 := (val >>> 4) * 10 + (val &&& 0x0F)

def sysGetTime (call : Call) : UInt8 × UInt8 × UInt8 :=
  (bcd2bin (getCmosReg 0x04 call.first), bcd2bin (getCmosReg 0x02 call.second), bcd2bin (getCmosReg 0x00 call.third))

def sysGetDate (call : Call) : UInt8 × UInt8 × UInt16 :=
  (bcd2bin (getCmosReg 0x07 call.first), bcd2bin (getCmosReg 0x08 call.second),
    2000 + (bcd2bin (getCmosReg 0x09 call.third)).toUInt16)

def timeAt (tick : Nat) : UInt8 × UInt8 × UInt8 :=
  (UInt8.ofNat (tick / 3600 % 24), UInt8.ofNat (tick / 60 % 60), UInt8.ofNat (tick % 60))

def dateAt (tick : Nat) : UInt8 × UInt8 × UInt16 :=
  (UInt8.ofNat (place (day tick) + 1), UInt8.ofNat (month (day tick) % 12 + 1),
    2000 + UInt16.ofNat (month (day tick) / 12 % 100))

def TimeRight (call : Call) : Prop := ∃ moment, call.start ≤ moment ∧ moment ≤ call.stop ∧ sysGetTime call = timeAt moment

def DateRight (call : Call) : Prop := ∃ moment, call.start ≤ moment ∧ moment ≤ call.stop ∧ sysGetDate call = dateAt moment

theorem bcd2bin_bcd (value : Nat) (digits : value < 100) : bcd2bin (bcd value) = UInt8.ofNat value := by
  have all : ∀ value : Fin 100, bcd2bin (bcd value) = UInt8.ofNat value := by decide +kernel
  exact all ⟨value, digits⟩

theorem byte_inj (a b : Nat) (small : a < 100) (otherSmall : b < 100) : UInt8.ofNat a = UInt8.ofNat b ↔ a = b := by
  constructor
  · intro same
    have values := congrArg UInt8.toNat same
    rw [UInt8.toNat_ofNat', UInt8.toNat_ofNat'] at values
    omega
  · exact congrArg UInt8.ofNat

theorem year_inj (a b : Nat) (small : a < 100) (otherSmall : b < 100) :
    (2000 : UInt16) + (UInt8.ofNat a).toUInt16 = 2000 + UInt16.ofNat b ↔ a = b := by
  have base : (2000 : UInt16).toNat = 2000 := rfl
  rw [← UInt16.toNat_inj, UInt16.toNat_add, UInt16.toNat_add, UInt8.toNat_toUInt16, UInt8.toNat_ofNat', UInt16.toNat_ofNat', base]
  omega

theorem month_days_bounds (month : Nat) : 28 ≤ monthDays month ∧ monthDays month ≤ 31 := by
  rw [monthDays]
  split
  · split <;> decide
  all_goals decide

theorem month_days_least (month : Nat) : 28 ≤ monthDays month := (month_days_bounds month).1

theorem place_lt (day : Nat) : place day < monthDays (month day) := by
  obtain ⟨low, high⟩ := block_bounds monthDays 28 month_days_least (by decide) day
  rw [blockStart] at high
  rw [place, month]
  omega

-- A cycle of the clock's dates: 100 years of which 25 are leap years.
theorem month_start_cycles (month turns : Nat) :
    blockStart monthDays (month + turns * 1200) = blockStart monthDays month + turns * 36525 := by
  have leap (month : Nat) : monthDays (month + 48) = monthDays month := by
    have ofYear : (month + 48) % 12 = month % 12 := by omega
    have year : (month + 48) / 12 % 4 = month / 12 % 4 := by omega
    rw [monthDays, monthDays, ofYear, year]
  have four : blockStart monthDays 48 = 1461 := by decide +kernel
  have periods : turns * 1200 = turns * 25 * 48 := by omega
  rw [periods, block_start_periodic monthDays 48 leap, four]
  omega

theorem month_days_cycles (month turns : Nat) : monthDays (month + turns * 1200) = monthDays month := by
  have first := month_start_cycles month turns
  have next := month_start_cycles (month + 1) turns
  rw [Nat.add_right_comm, blockStart, blockStart] at next
  omega

theorem comes_up_iff (start stop value period : Nat) (small : value < period) (window : start ≤ stop) :
    (∃ moment, start ≤ moment ∧ moment ≤ stop ∧ moment % period = value) ↔
      (value + (period - start % period)) % period ≤ stop - start := by
  have positive : 0 < period := Nat.zero_lt_of_lt small
  have inside := Nat.mod_lt start positive
  have whole := Nat.div_add_mod start period
  constructor
  · rintro ⟨moment, low, high, rfl⟩
    have turn : moment + (period - start % period) = moment - start + period * (start / period + 1) := by
      rw [Nat.mul_succ]
      omega
    rw [Nat.mod_add_mod, turn, Nat.add_mul_mod_self_left]
    exact (Nat.mod_le _ _).trans (by omega)
  · intro short
    refine ⟨start + (value + (period - start % period)) % period, Nat.le_add_right _ _, by omega, ?_⟩
    have turn : start + (value + (period - start % period)) = value + period * (start / period + 1) := by
      rw [Nat.mul_succ]
      omega
    rw [Nat.add_mod_mod, turn, Nat.add_mul_mod_self_left, Nat.mod_eq_of_lt small]

def namedSecond (call : Call) : Nat := call.first / 3600 % 24 * 3600 + call.second / 60 % 60 * 60 + call.third % 60

-- No hour ends between the first two reads and no minute between the last two, or the call is so long that the second it
-- names comes up.
def TimeSteady (call : Call) : Prop :=
  call.first / 3600 = call.second / 3600 ∧ call.second / 60 = call.third / 60 ∨
    60 ≤ call.stop - call.start ∧ (namedSecond call + (86400 - call.start % 86400)) % 86400 ≤ call.stop - call.start

theorem named_second_lt (call : Call) : namedSecond call < 86400 := by
  rw [namedSecond]
  omega

theorem time_named_iff (call : Call) (moment : Nat) :
    sysGetTime call = timeAt moment ↔ moment % 86400 = namedSecond call := by
  have digits (value modulus : Nat) (small : 0 < modulus ∧ modulus ≤ 60) : value % modulus < 100 :=
    (Nat.mod_lt value small.1).trans_le (by omega)
  have hours := byte_inj _ _ (digits (call.first / 3600) 24 (by decide)) (digits (moment / 3600) 24 (by decide))
  have minutes := byte_inj _ _ (digits (call.second / 60) 60 (by decide)) (digits (moment / 60) 60 (by decide))
  have seconds := byte_inj _ _ (digits call.third 60 (by decide)) (digits moment 60 (by decide))
  have read : sysGetTime call = (UInt8.ofNat (call.first / 3600 % 24), UInt8.ofNat (call.second / 60 % 60),
      UInt8.ofNat (call.third % 60)) := by
    rw [← bcd2bin_bcd _ (digits (call.first / 3600) 24 (by decide)), ← bcd2bin_bcd _ (digits (call.second / 60) 60 (by decide)),
      ← bcd2bin_bcd _ (digits call.third 60 (by decide))]
    rfl
  rw [read, timeAt, Prod.mk.injEq, Prod.mk.injEq, hours, minutes, seconds, namedSecond]
  omega

theorem time_right_iff (call : Call) : TimeRight call ↔ TimeSteady call := by
  have begun := call.begun
  have onward := call.onward
  have ended := call.ended
  have comes := comes_up_iff call.start call.stop (namedSecond call) 86400 (named_second_lt call) (by omega)
  simp only [TimeRight, time_named_iff, TimeSteady]
  rw [comes]
  constructor
  · intro short
    by_cases long : 60 ≤ call.stop - call.start
    · exact Or.inr ⟨long, short⟩
    · obtain ⟨moment, low, high, named⟩ := comes.mpr short
      rw [namedSecond] at named
      -- The seconds agree within less than a minute, so the moment is the last read.
      have last : moment = call.third := by omega
      rw [last] at named
      have minute : call.second / 60 = call.third / 60 := by omega
      exact Or.inl ⟨by omega, minute⟩
  · rintro (⟨hour, minute⟩ | ⟨_, short⟩)
    · refine comes.mp ⟨call.third, by omega, ended, ?_⟩
      rw [namedSecond]
      omega
    · exact short

def namedMonth (call : Call) : Nat := month (day call.second) % 12 + 12 * (month (day call.third) / 12 % 100)

def namedDay (call : Call) : Nat := blockStart monthDays (namedMonth call) + place (day call.first)

-- No month ends between the first two reads and no year between the last two, or the call is so long that the day it
-- names exists and comes up.
def DateSteady (call : Call) : Prop :=
  month (day call.first) = month (day call.second) ∧ month (day call.second) / 12 = month (day call.third) / 12 ∨
    28 ≤ day call.stop - day call.start ∧ place (day call.first) < monthDays (namedMonth call) ∧
      (namedDay call + (36525 - day call.start % 36525)) % 36525 ≤ day call.stop - day call.start

theorem date_named_iff (call : Call) (moment : Nat) : sysGetDate call = dateAt moment ↔
    place (day moment) = place (day call.first) ∧ month (day moment) % 1200 = namedMonth call := by
  have placed (day : Nat) : place day + 1 < 100 := by
    have inside := place_lt day
    have few := (month_days_bounds (month day)).2
    omega
  have month' (day : Nat) : month day % 12 + 1 < 100 := by omega
  have year (day : Nat) : month day / 12 % 100 < 100 := by omega
  have days := byte_inj _ _ (placed (day call.first)) (placed (day moment))
  have months := byte_inj _ _ (month' (day call.second)) (month' (day moment))
  have years := year_inj _ _ (year (day call.third)) (year (day moment))
  have read : sysGetDate call = (UInt8.ofNat (place (day call.first) + 1), UInt8.ofNat (month (day call.second) % 12 + 1),
      2000 + (UInt8.ofNat (month (day call.third) / 12 % 100)).toUInt16) := by
    rw [← bcd2bin_bcd _ (placed (day call.first)), ← bcd2bin_bcd _ (month' (day call.second)),
      ← bcd2bin_bcd _ (year (day call.third))]
    rfl
  rw [read, dateAt, Prod.mk.injEq, Prod.mk.injEq, days, months, years, namedMonth]
  omega

theorem place_month_iff (day place' month' : Nat) (cycle : month' < 1200) :
    place day = place' ∧ month day % 1200 = month' ↔
      place' < monthDays month' ∧ day % 36525 = blockStart monthDays month' + place' := by
  have split := Nat.div_add_mod (month day) 1200
  have days := Nat.div_add_mod day 36525
  have ends := month_start_cycles 0 1
  have reach := block_start_le monthDays 28 month_days_least (month' + 1) 1200 cycle
  rw [blockStart] at reach
  rw [Nat.zero_add, Nat.one_mul, blockStart] at ends
  constructor
  · rintro ⟨rfl, rfl⟩
    have inside := place_lt day
    obtain ⟨low, _⟩ := block_bounds monthDays 28 month_days_least (by decide) day
    have start := month_start_cycles (month day % 1200) (month day / 1200)
    have size := month_days_cycles (month day % 1200) (month day / 1200)
    have whole : month day % 1200 + month day / 1200 * 1200 = month day := by omega
    rw [whole] at start size
    have here : day = blockStart monthDays (month day) + place day := by
      rw [place]
      exact (Nat.add_sub_cancel' low).symm
    refine ⟨by omega, ?_⟩
    omega
  · rintro ⟨inside, here⟩
    have start := month_start_cycles month' (day / 36525)
    have size := month_days_cycles month' (day / 36525)
    have found : month day = month' + day / 36525 * 1200 := by
      refine block_of_eq monthDays 28 month_days_least (by decide) day _ ?_ ?_
      · omega
      · rw [blockStart]
        omega
    refine ⟨?_, by omega⟩
    rw [place, found]
    omega

theorem named_is_first (call : Call) (named : Nat) (short : day call.stop - day call.start < 28)
    (from' : day call.start ≤ named) (until' : named ≤ day call.stop) (samePlace : place named = place (day call.first))
    (sameMonth : month named % 1200 = namedMonth call) :
    month (day call.first) = month (day call.second) ∧ month (day call.second) / 12 = month (day call.third) / 12 := by
  have begun : day call.start ≤ day call.first := Nat.div_le_div_right call.begun
  have onward : day call.first ≤ day call.second := Nat.div_le_div_right call.onward.1
  have further : day call.second ≤ day call.third := Nat.div_le_div_right call.onward.2
  have ended : day call.third ≤ day call.stop := Nat.div_le_div_right call.ended
  have apart := same_place_apart monthDays 28 month_days_least (by decide)
  have start (day : Nat) : blockStart monthDays (month day) ≤ day :=
    (block_bounds monthDays 28 month_days_least (by decide) day).1
  have same : named = day call.first := by
    rcases Nat.lt_trichotomy (month named) (month (day call.first)) with before | same | behind
    · have gap := apart named (day call.first) before samePlace
      omega
    · have low := start named
      have lowFirst := start (day call.first)
      rw [place, place, same] at samePlace
      rw [same] at low
      omega
    · have gap := apart (day call.first) named behind samePlace.symm
      omega
  have months : month (day call.first) ≤ month (day call.second) :=
    block_of_le monthDays 28 month_days_least (by decide) _ _ onward
  have later : month (day call.second) ≤ month (day call.third) :=
    block_of_le monthDays 28 month_days_least (by decide) _ _ further
  have near : month (day call.third) < month (day call.first) + 12 := by
    by_contra far
    have gap := block_of_apart monthDays 28 month_days_least (by decide) (day call.first) (day call.third) 11 (Nat.le_of_not_lt far)
    omega
  rw [same, namedMonth] at sameMonth
  omega

theorem date_right_iff (call : Call) : DateRight call ↔ DateSteady call := by
  have cycle : namedMonth call < 1200 := by
    rw [namedMonth]
    omega
  have begun := call.begun
  have onward := call.onward
  have ended := call.ended
  have window : day call.start ≤ day call.stop := Nat.div_le_div_right (by omega)
  have placed (named : Nat) := place_month_iff named (place (day call.first)) (namedMonth call) cycle
  have comes (inside : place (day call.first) < monthDays (namedMonth call)) :=
    comes_up_iff (day call.start) (day call.stop) (namedDay call) 36525 (by
      have reach := block_start_le monthDays 28 month_days_least (namedMonth call + 1) 1200 cycle
      have ends := month_start_cycles 0 1
      rw [blockStart] at reach
      rw [Nat.zero_add, Nat.one_mul, blockStart] at ends
      rw [namedDay]
      omega) window
  simp only [DateRight, date_named_iff, DateSteady]
  constructor
  · rintro ⟨moment, low, high, named⟩
    have from' : day call.start ≤ day moment := Nat.div_le_div_right low
    have until' : day moment ≤ day call.stop := Nat.div_le_div_right high
    by_cases long : 28 ≤ day call.stop - day call.start
    · obtain ⟨inside, here⟩ := (placed _).mp named
      exact Or.inr ⟨long, inside, (comes inside).mp ⟨day moment, from', until', here⟩⟩
    · exact Or.inl (named_is_first call (day moment) (Nat.lt_of_not_le long) from' until' named.1 named.2)
  · rintro (⟨sameMonth, sameYear⟩ | ⟨_, inside, short⟩)
    · refine ⟨call.first, begun, by omega, rfl, ?_⟩
      rw [namedMonth]
      omega
    · obtain ⟨named, low, high, here⟩ := (comes inside).mpr short
      have moment : day (max call.start (named * 86400)) = named := by
        rw [day] at low ⊢
        omega
      refine ⟨max call.start (named * 86400), Nat.le_max_left _ _, ?_, ?_⟩
      · rw [day] at high
        omega
      · rw [moment]
        exact (placed named).mpr ⟨inside, here⟩

theorem clock_right_iff (call : Call) : (TimeRight call ↔ TimeSteady call) ∧ (DateRight call ↔ DateSteady call) :=
  ⟨time_right_iff call, date_right_iff call⟩

def acrossHour : Call := ⟨39599, 39599, 39600, 39600, 39600, by decide, by decide, by decide⟩

theorem clock_not_right : ¬ ∀ call, TimeRight call ∧ DateRight call := by
  intro claimed
  have steady := (time_right_iff acrossHour).mp (claimed acrossHour).1
  rw [TimeSteady] at steady
  exact absurd steady (by decide)

end RoDos.Clock
