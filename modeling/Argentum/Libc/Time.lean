import Mathlib
import Argentum.Lib.Gregorian

/-!
# Argentum.Libc.Time

`gmtime` and `mktime` of the kernel's C library (`kernel/lib/gmtime.c`, `kernel/lib/mktime.c`),
and the i386 RTC driver's `cmos_get_time` and `arch_get_time_seconds`
(`kernel/arch/i386/arch_time.c`), which hand the clock to `mktime`.

`time_t` is newlib's 64-bit type, modelled as `Int`. The `int` locals and the fields of
`struct tm` are `Int`s under C's truncating `/` and `%` (`Int.tdiv`, `Int.tmod`). Where an `int`
can overflow it goes through `int32Wrap`, the two's-complement wrap of the i386 and ARM code:
the day count `*timer / 86400`, and `mktime`'s sum, which is computed in `int` before it becomes
a `time_t`. `gmtime`'s year loop runs on fuel (`gmtimeYears`); `days` passes always take it to
its exit (`gmtimeYears_exit`).

The loop keeps `days` equal to the day number less the days of the years it has passed
(`YearState.at`) and leaves when `days < 365`. On 31 December of a leap year `days` is still 365
at the start of that year, so the loop takes the year's 366 days off and stops in the next year
with `days = -1`; on every other day it stops in the day's own year (`gmtimeYears_result`).
`mktime` counts leap days in the closed form of `Gregorian.daysFrom_eq`, so `mktime (gmtime t)`
is `t` up to the `int` wrap (`mktime_gmtime`), which bites from 2038-01-19T03:14:08Z on.
-/

namespace Argentum.Libc

open Gregorian

/-- `struct tm`: the fields `gmtime` sets and `mktime` reads. -/
structure Tm where
  tmSec : Int
  tmMin : Int
  tmHour : Int
  tmMday : Int
  tmMon : Int
  tmYear : Int
  tmWday : Int
  tmYday : Int
  tmIsdst : Int
  deriving DecidableEq, Repr

/-- A value converted to a 32-bit `int`, wrapping in two's complement. -/
def int32Wrap (x : Int) : Int := (x + 2147483648) % 4294967296 - 2147483648

theorem int32Wrap_of_lt {x : Int} (h0 : -2147483648 ≤ x) (h1 : x < 2147483648) :
    int32Wrap x = x := by
  unfold int32Wrap
  omega

/-- `daysto[is_leap][mon]`: the days to the start of each month. -/
def daysto (isLeap : Bool) (mon : Nat) : Int :=
  (if isLeap then [0, 31, 60, 91, 121, 152, 182, 213, 244, 274, 305, 335]
    else [0, 31, 59, 90, 120, 151, 181, 212, 243, 273, 304, 334]).getD mon 0

/-- The leap-year test of `gmtime` and `cmos_get_time`, with C's `%`. -/
def isLeapYear (year : Int) : Bool :=
  (year.tmod 4 == 0 && year.tmod 100 != 0) || year.tmod 400 == 0

/-- The locals `days`, `year` and `is_leap` of `gmtime`'s year loop. -/
structure YearState where
  days : Int
  year : Int
  isLeap : Bool
  deriving DecidableEq, Repr

/-- `while (days >= 365) { days -= is_leap ? 366 : 365; year++; is_leap = …; }`, for at most
`fuel` passes. -/
def gmtimeYears : Nat → YearState → YearState
  | 0, s => s
  | fuel + 1, s =>
    if 365 ≤ s.days then
      gmtimeYears fuel
        { days := s.days - if s.isLeap then 366 else 365
          year := s.year + 1
          isLeap := isLeapYear (s.year + 1) }
    else s

/-- `for (mon = 0; (mon < 11) && (days >= daysto[is_leap][mon + 1]); mon++);`, from `mon` on,
for at most `fuel` passes. -/
def gmtimeMonth (isLeap : Bool) (days : Int) : Nat → Nat → Nat
  | 0, mon => mon
  | fuel + 1, mon =>
    if mon < 11 ∧ daysto isLeap (mon + 1) ≤ days then gmtimeMonth isLeap days fuel (mon + 1)
    else mon

/-- What `gmtime` does after the year loop: the month search and the fields of `ts`. `days` is
the day count before the loop, from which the weekday is taken. -/
def gmtimeFill (days secs : Int) (s : YearState) : Tm :=
  let mon := gmtimeMonth s.isLeap s.days 11 0
  { tmSec := secs.tmod 60
    tmMin := (secs.tdiv 60).tmod 60
    tmHour := secs.tdiv 3600
    tmMday := s.days - daysto s.isLeap mon + 1
    tmMon := mon
    tmYear := s.year - 1900
    tmWday := (int32Wrap (days + 4)).tmod 7
    tmYday := s.days
    tmIsdst := 0 }

section
variable (days secs : Int) (s : YearState)

@[simp] theorem gmtimeFill_tmSec : (gmtimeFill days secs s).tmSec = secs.tmod 60 := rfl
@[simp] theorem gmtimeFill_tmMin : (gmtimeFill days secs s).tmMin = (secs.tdiv 60).tmod 60 := rfl
@[simp] theorem gmtimeFill_tmHour : (gmtimeFill days secs s).tmHour = secs.tdiv 3600 := rfl
@[simp] theorem gmtimeFill_tmYear : (gmtimeFill days secs s).tmYear = s.year - 1900 := rfl
@[simp] theorem gmtimeFill_tmYday : (gmtimeFill days secs s).tmYday = s.days := rfl

@[simp] theorem gmtimeFill_tmMon :
    (gmtimeFill days secs s).tmMon = gmtimeMonth s.isLeap s.days 11 0 := rfl

@[simp] theorem gmtimeFill_tmMday : (gmtimeFill days secs s).tmMday =
    s.days - daysto s.isLeap (gmtimeMonth s.isLeap s.days 11 0) + 1 := rfl

@[simp] theorem gmtimeFill_tmWday :
    (gmtimeFill days secs s).tmWday = (int32Wrap (days + 4)).tmod 7 := rfl

end

/-- `gmtime(&timer)`. `secs` is below 86400 in size and needs no wrap. -/
def gmtime (timer : Int) : Tm :=
  let days := int32Wrap (timer.tdiv 86400)
  gmtimeFill days (timer.tmod 86400) (gmtimeYears days.toNat ⟨days, 1970, false⟩)

/-- `mktime(timeptr)`. Every `+`, `-` and `*` is on `int`s and wraps; wrapping once at the end
is the same, except for the operands of the three divisions, which are wrapped before they are
divided. -/
def mktime (tm : Tm) : Int :=
  int32Wrap (tm.tmSec + tm.tmMin * 60 + tm.tmHour * 3600 + tm.tmYday * 86400 +
    (tm.tmYear - 70) * 31536000 +
    -- add a day every 4 years starting in 1973
    (int32Wrap (tm.tmYear - 69)).tdiv 4 * 86400 -
    -- subtract a day back out every 100 years starting in 2001
    (int32Wrap (tm.tmYear - 1)).tdiv 100 * 86400 +
    -- add a day back in every 400 years starting in 2001
    (int32Wrap (tm.tmYear + 299)).tdiv 400 * 86400)

/-- The RTC's date and time registers as `cmos_read` returns them, BCD already decoded. -/
structure CmosTime where
  sec : Nat
  min : Nat
  hour : Nat
  mday : Nat
  mon : Nat
  year : Nat
  wday : Nat
  deriving DecidableEq, Repr

/-- `cmos_get_time`: the RTC keeps the year in two digits, counted from 2000. The table is read
at `mon - 1`, which the RTC keeps from 1 to 12. -/
def cmosGetTime (r : CmosTime) : Tm :=
  let isLeap := isLeapYear r.year
  { tmSec := r.sec
    tmMin := r.min
    tmHour := r.hour
    tmMday := r.mday
    tmMon := (r.mon : Int) - 1
    tmYear := r.year + (2000 - 1900)
    tmYday := daysto isLeap (r.mon - 1) + r.mday - 1
    tmWday := (r.wday : Int) - 1
    tmIsdst := 0 }

/-- `arch_get_time_seconds` on i386. -/
def archGetTimeSeconds (r : CmosTime) : Int := mktime (cmosGetTime r)

/-! ## The calendar the code should follow -/

/-- The days from 1 January 1970 to the day `tm` names by its year and day of the year. -/
def Tm.epochDays (tm : Tm) : Int := daysFrom 1970 (tm.tmYear - 70).toNat + tm.tmYday

/-- The seconds from the epoch to the time `tm` names. -/
def Tm.epochSeconds (tm : Tm) : Int :=
  tm.epochDays * 86400 + tm.tmHour * 3600 + tm.tmMin * 60 + tm.tmSec

/-- A broken-down time of a day from 1970 on: every field in its range, and `tm_yday` the day of
the year on which `tm_mday` of `tm_mon` falls. -/
structure Tm.Valid (tm : Tm) : Prop where
  year_ge : 70 ≤ tm.tmYear
  mon_range : 0 ≤ tm.tmMon ∧ tm.tmMon ≤ 11
  mday_pos : 1 ≤ tm.tmMday
  mday_le : tm.tmMday ≤ monthLength (Gregorian.isLeap (1900 + tm.tmYear)) tm.tmMon.toNat
  yday_eq : tm.tmYday =
    daysBeforeMonth (Gregorian.isLeap (1900 + tm.tmYear)) tm.tmMon.toNat + tm.tmMday - 1
  hour_range : 0 ≤ tm.tmHour ∧ tm.tmHour < 24
  min_range : 0 ≤ tm.tmMin ∧ tm.tmMin < 60
  sec_range : 0 ≤ tm.tmSec ∧ tm.tmSec < 60

/-- The day number `d` is 31 December of a leap year. -/
def LeapYearEnd (d : Int) : Prop :=
  ∃ n : Nat, Gregorian.isLeap (1970 + n) = true ∧ d = daysFrom 1970 n + 365

/-! ## The year loop -/

theorem isLeapYear_eq (y : Int) : isLeapYear y = Gregorian.isLeap y := by
  -- C's `%` and the floor `%` leave the same remainder 0: both say the divisor divides `y`
  have hzero (m : Int) : y.tmod m = 0 ↔ y % m = 0 := by
    rw [← Int.dvd_iff_tmod_eq_zero, Int.dvd_iff_emod_eq_zero]
  rw [Bool.eq_iff_iff]
  simp [isLeapYear, Gregorian.isLeap, hzero]

/-- The loop's locals once it has passed `k` years of the day number `d`. -/
def YearState.at (d : Int) (k : Nat) : YearState :=
  ⟨d - daysFrom 1970 k, 1970 + k, Gregorian.isLeap (1970 + k)⟩

@[simp] theorem YearState.at_days (d : Int) (k : Nat) :
    (YearState.at d k).days = d - daysFrom 1970 k := rfl

@[simp] theorem YearState.at_year (d : Int) (k : Nat) : (YearState.at d k).year = 1970 + k := rfl

@[simp] theorem YearState.at_isLeap (d : Int) (k : Nat) :
    (YearState.at d k).isLeap = Gregorian.isLeap (1970 + k) := rfl

theorem YearState.at_zero (d : Int) : YearState.at d 0 = ⟨d, 1970, false⟩ := by
  simp [YearState.at, Gregorian.isLeap]

theorem gmtimeYears_of_lt {s : YearState} (fuel : Nat) (h : s.days < 365) :
    gmtimeYears fuel s = s := by
  cases fuel with
  | zero => rfl
  | succ fuel => simp [gmtimeYears, Int.not_le.mpr h]

/-- One pass of the loop passes one year. -/
theorem gmtimeYears_at_succ {d : Int} {k : Nat} (fuel : Nat) (h : 365 ≤ d - daysFrom 1970 k) :
    gmtimeYears (fuel + 1) (YearState.at d k) = gmtimeYears fuel (YearState.at d (k + 1)) := by
  have h' : 365 ≤ (YearState.at d k).days := h
  rw [gmtimeYears, if_pos h']
  show gmtimeYears fuel ⟨d - daysFrom 1970 k - (if Gregorian.isLeap (1970 + k) then 366 else 365),
    1970 + k + 1, isLeapYear (1970 + k + 1)⟩ = _
  congr 1
  simp only [YearState.at, daysFrom_succ, yearLength, isLeapYear_eq, YearState.mk.injEq]
  push_cast
  exact ⟨by ring, by ring, by rw [Int.add_assoc]⟩

/-- What `fuel` passes do from `YearState.at d k`: they pass years while `days ≥ 365` and stop
at the first year where it is not, or where the fuel runs out. -/
theorem gmtimeYears_at (d : Int) (fuel k : Nat) :
    ∃ k', gmtimeYears fuel (YearState.at d k) = YearState.at d k' ∧ k ≤ k' ∧ k' ≤ k + fuel ∧
      (∀ j, k ≤ j → j < k' → 365 ≤ d - daysFrom 1970 j) ∧
      (k' < k + fuel → d - daysFrom 1970 k' < 365) := by
  induction fuel generalizing k with
  | zero => exact ⟨k, rfl, le_refl k, le_refl k, fun j h1 h2 => by omega, fun h => by omega⟩
  | succ fuel ih =>
    by_cases h : 365 ≤ d - daysFrom 1970 k
    · obtain ⟨k', hrun, hk, hk', hpass, hstop⟩ := ih (k + 1)
      refine ⟨k', by rw [gmtimeYears_at_succ fuel h, hrun], by omega, by omega, ?_,
        fun hlt => hstop (by omega)⟩
      intro j hj hjk
      rcases Nat.lt_or_eq_of_le hj with hlt | rfl
      · exact hpass j hlt hjk
      · exact h
    · exact ⟨k, gmtimeYears_of_lt _ (Int.lt_of_not_ge h), le_refl k, by omega,
        fun j h1 h2 => by omega, fun _ => Int.lt_of_not_ge h⟩

/-- `days` passes run the loop to its exit, `days < 365`. -/
theorem gmtimeYears_exit (d : Int) :
    ∃ k, gmtimeYears d.toNat (YearState.at d 0) = YearState.at d k ∧
      (∀ j < k, 365 ≤ d - daysFrom 1970 j) ∧ d - daysFrom 1970 k < 365 := by
  obtain ⟨k, hrun, -, hk, hpass, hstop⟩ := gmtimeYears_at d d.toNat 0
  refine ⟨k, hrun, fun j hj => hpass j (Nat.zero_le j) hj, ?_⟩
  rcases Nat.lt_or_eq_of_le hk with hlt | heq
  · exact hstop hlt
  · -- the fuel ran out after `d` years, which hold more than `d` days
    have := le_daysFrom (e := 1970) k
    omega

/-- The loop stops in the year of the day number `d`, except on 31 December of a leap year,
where it takes that year's 366 days off and stops in the next. -/
theorem gmtimeYears_result {d : Int} {n k : Nat}
    (hn : daysFrom 1970 n ≤ d ∧ d < daysFrom 1970 (n + 1))
    (hpass : ∀ j < k, 365 ≤ d - daysFrom 1970 j) (hstop : d - daysFrom 1970 k < 365) :
    (k = n ∧ ¬(Gregorian.isLeap (1970 + n) = true ∧ d = daysFrom 1970 n + 365)) ∨
      (k = n + 1 ∧ Gregorian.isLeap (1970 + n) = true ∧ d = daysFrom 1970 n + 365) := by
  have hlen := yearLength_le (1970 + (n : Int))
  have hsucc := daysFrom_succ (e := 1970) n
  -- the loop cannot stop before the year of `d`: each earlier year leaves 365 days or more
  have hkn : n ≤ k := by
    by_contra hlt
    have := daysFrom_mono (e := 1970) (show k + 1 ≤ n by omega)
    have := daysFrom_lt_of_lt (e := 1970) (show k < k + 1 by omega)
    omega
  rcases Nat.lt_or_eq_of_le hkn with hlt | rfl
  · -- it passed the year of `d`, so that year had 366 days and `d` was its last
    have hpn := hpass n hlt
    have hleap : Gregorian.isLeap (1970 + n) = true := by
      by_contra hnot
      rw [yearLength, if_neg hnot] at hsucc
      omega
    rw [yearLength_of_isLeap hleap] at hsucc
    have hk : k = n + 1 := by
      by_contra hne
      have := hpass (n + 1) (by omega)
      omega
    exact Or.inr ⟨hk, hleap, by omega⟩
  · exact Or.inl ⟨rfl, fun hy => by obtain ⟨_, hd⟩ := hy; omega⟩

/-! ## The month search -/

theorem daysto_eq (isLeap : Bool) {mon : Nat} (hmon : mon < 12) :
    daysto isLeap mon = daysBeforeMonth isLeap mon := by
  revert mon
  cases isLeap <;> decide

/-- The search stops at the month in which `days` falls, December at the latest. -/
theorem gmtimeMonth_spec (isLeap : Bool) {days : Int} (fuel mon : Nat) (hfuel : mon + fuel = 11)
    (hmon : daysto isLeap mon ≤ days) :
    let m := gmtimeMonth isLeap days fuel mon
    m ≤ 11 ∧ daysto isLeap m ≤ days ∧ (m = 11 ∨ days < daysto isLeap (m + 1)) := by
  induction fuel generalizing mon with
  | zero => exact ⟨by simp [gmtimeMonth]; omega, hmon, .inl (by simp [gmtimeMonth]; omega)⟩
  | succ fuel ih =>
    simp only [gmtimeMonth]
    split
    · next hnext => exact ih (mon + 1) (by omega) hnext.2
    · next hstop =>
      refine ⟨by omega, hmon, ?_⟩
      by_cases h11 : mon < 11
      · exact .inr (Int.lt_of_not_ge fun hle => hstop ⟨h11, hle⟩)
      · exact .inl (by omega)

/-- On a day `yd` of a year, `0 ≤ yd < 365`, the search finds the month in which the day falls. -/
theorem gmtimeMonth_mem (isLeap : Bool) {yd : Int} (h0 : 0 ≤ yd) (h365 : yd < 365) :
    let m := gmtimeMonth isLeap yd 11 0
    m ≤ 11 ∧ daysBeforeMonth isLeap m ≤ yd ∧ yd < daysBeforeMonth isLeap (m + 1) := by
  intro m
  have hjan : daysto isLeap 0 ≤ yd := by
    rw [daysto_eq isLeap (by decide)]
    exact h0
  obtain ⟨hm11, hlo, hhi⟩ := gmtimeMonth_spec isLeap 11 0 rfl hjan
  refine ⟨hm11, by rwa [daysto_eq isLeap (by omega)] at hlo, ?_⟩
  by_cases hdec : m = 11
  · -- December runs to the end of the year, which has 365 days or more
    have hyear : daysBeforeMonth isLeap 12 = if isLeap then 366 else 365 := by
      cases isLeap <;> rfl
    rw [hdec, hyear]
    split <;> omega
  · have hnext := hhi.resolve_left hdec
    rwa [daysto_eq isLeap (by omega)] at hnext

/-! ## `gmtime` and `mktime` against the calendar -/

/-- For a time from the epoch on whose day count fits in an `int`, `gmtime` fills `ts` from the
state in which the year loop exits. -/
theorem gmtime_eq {t : Int} (ht : 0 ≤ t) (hfit : t / 86400 < 2147483648) :
    ∃ k, (∀ j < k, 365 ≤ t / 86400 - daysFrom 1970 j) ∧ t / 86400 - daysFrom 1970 k < 365 ∧
      gmtime t = gmtimeFill (t / 86400) (t % 86400) (YearState.at (t / 86400) k) := by
  obtain ⟨k, hrun, hpass, hstop⟩ := gmtimeYears_exit (t / 86400)
  refine ⟨k, hpass, hstop, ?_⟩
  have hdays : int32Wrap (t.tdiv 86400) = t / 86400 := by
    rw [Int.tdiv_eq_ediv_of_nonneg ht]
    exact int32Wrap_of_lt (by omega) hfit
  simp only [gmtime, hdays, Int.tmod_eq_emod_of_nonneg ht]
  rw [← YearState.at_zero, hrun]

/-- On a day with `days = -1` left, the month search stops at January and the day of the month
is 0. -/
theorem gmtimeFill_days_neg_one {s : YearState} (days secs : Int) (h : s.days = -1) :
    (gmtimeFill days secs s).tmMon = 0 ∧ (gmtimeFill days secs s).tmMday = 0 := by
  simp only [gmtimeFill, h]
  cases s.isLeap <;> decide

/-- On 31 December of a leap year, `gmtime` returns day -1 of the next year. -/
theorem gmtime_of_leapYearEnd {t : Int} (ht : 0 ≤ t) (hfit : t / 86400 < 2147483648) {n : Nat}
    (hleap : Gregorian.isLeap (1970 + n) = true) (hd : t / 86400 = daysFrom 1970 n + 365) :
    (gmtime t).tmYear = n + 71 ∧ (gmtime t).tmYday = -1 ∧ (gmtime t).tmMon = 0 ∧
      (gmtime t).tmMday = 0 := by
  obtain ⟨k, hpass, hstop, htm⟩ := gmtime_eq ht hfit
  have hlen := daysFrom_succ (e := 1970) n
  rw [yearLength_of_isLeap hleap] at hlen
  rcases gmtimeYears_result (n := n) ⟨by omega, by omega⟩ hpass hstop with ⟨-, hne⟩ | ⟨rfl, -, -⟩
  · exact absurd ⟨hleap, hd⟩ hne
  · -- the loop took the 366 days of the leap year off and stopped in the next with `days = -1`
    have hdays : (YearState.at (t / 86400) (n + 1)).days = -1 := by
      rw [YearState.at_days]
      omega
    obtain ⟨hmon, hmday⟩ := gmtimeFill_days_neg_one (t / 86400) (t % 86400) hdays
    rw [htm]
    refine ⟨?_, hdays, hmon, hmday⟩
    rw [gmtimeFill_tmYear, YearState.at_year]
    push_cast
    ring

/-- On 31 December of every leap year, `gmtime` returns day -1 of the next year: `tm_mday` is 0,
which no month has, and `tm_yday` is -1. -/
theorem gmtime_leap_year_last_day (n : Nat) (hleap : Gregorian.isLeap (1970 + n) = true)
    (sec : Int) (hsec : 0 ≤ sec ∧ sec < 86400) (hfit : daysFrom 1970 n + 365 < 2147483648) :
    let tm := gmtime ((daysFrom 1970 n + 365) * 86400 + sec)
    tm.tmYear = n + 71 ∧ tm.tmYday = -1 ∧ tm.tmMon = 0 ∧ tm.tmMday = 0 := by
  have hd0 := le_daysFrom (e := 1970) n
  have hdiv : ((daysFrom 1970 n + 365) * 86400 + sec) / 86400 = daysFrom 1970 n + 365 := by
    omega
  exact gmtime_of_leapYearEnd (by omega) (by omega) hleap hdiv

/-- 1972-12-31T00:00:00Z, `t = 94608000`: `gmtime` says day -1 of 1973. -/
theorem gmtime_leap_year_last_day_1972 :
    Gregorian.isLeap (1970 + (2 : Nat)) = true ∧ daysFrom 1970 2 + 365 = 1095 ∧
      (gmtime ((daysFrom 1970 2 + 365) * 86400 + 0)).tmYear = 2 + 71 ∧
      (gmtime ((daysFrom 1970 2 + 365) * 86400 + 0)).tmYday = -1 ∧
      (gmtime ((daysFrom 1970 2 + 365) * 86400 + 0)).tmMday = 0 := by
  obtain ⟨hyear, hyday, -, hmday⟩ :=
    gmtime_leap_year_last_day 2 (by decide) 0 (by decide) (by decide)
  exact ⟨by decide, by decide, hyear, hyday, hmday⟩

/-- `mktime`'s three divisions count the leap days from 1970 to `1970 + k`. -/
theorem daysFrom_epoch (k : Nat) :
    daysFrom 1970 k = 365 * k + ((1 + k : Int) / 4 - (69 + k) / 100 + (369 + k) / 400) := by
  rw [daysFrom_eq]
  unfold leapsThrough
  omega

/-- `mktime` of a time from 1970 on is its seconds from the epoch, wrapped to an `int` (up to a
year in which `tm_year + 299` would overflow). -/
theorem mktime_eq {tm : Tm} (hy : 70 ≤ tm.tmYear) (hy' : tm.tmYear < 2147483348) :
    mktime tm = int32Wrap tm.epochSeconds := by
  obtain ⟨k, hk⟩ : ∃ k : Nat, tm.tmYear = 70 + k := ⟨(tm.tmYear - 70).toNat, by omega⟩
  have h69 : int32Wrap (tm.tmYear - 69) = 1 + k := by
    rw [int32Wrap_of_lt (by omega) (by omega)]
    omega
  have h1 : int32Wrap (tm.tmYear - 1) = 69 + k := by
    rw [int32Wrap_of_lt (by omega) (by omega)]
    omega
  have h299 : int32Wrap (tm.tmYear + 299) = 369 + k := by
    rw [int32Wrap_of_lt (by omega) (by omega)]
    omega
  have hidx : (tm.tmYear - 70).toNat = k := by omega
  rw [mktime, h69, h1, h299, Int.tdiv_eq_ediv_of_nonneg (by omega),
    Int.tdiv_eq_ediv_of_nonneg (by omega), Int.tdiv_eq_ediv_of_nonneg (by omega)]
  rw [Tm.epochSeconds, Tm.epochDays, hidx, daysFrom_epoch, hk]
  congr 1
  ring

/-- The year `gmtime` returns is from 1970 on, and as small as the day count: one more than a
day count's worth of years would hold more days. -/
theorem gmtime_year {t : Int} (ht : 0 ≤ t) (hfit : t / 86400 < 2147483648) :
    70 ≤ (gmtime t).tmYear ∧ (gmtime t).tmYear < 2147483348 := by
  obtain ⟨k, hpass, -, htm⟩ := gmtime_eq ht hfit
  -- the loop passed years `0, …, k - 1`, each leaving 365 days or more
  have hk : 365 * (k : Int) ≤ t / 86400 := by
    rcases k with _ | k
    · omega
    · have := hpass k (Nat.lt_succ_self k)
      have := le_daysFrom (e := 1970) k
      push_cast
      omega
  rw [htm, gmtimeFill_tmYear, YearState.at_year]
  omega

/-- The time `gmtime` returns names `t`: its year and day of the year count the days of `t`, and
its hours, minutes and seconds the seconds of that day. -/
theorem gmtime_epochSeconds {t : Int} (ht : 0 ≤ t) (hfit : t / 86400 < 2147483648) :
    (gmtime t).epochSeconds = t := by
  obtain ⟨k, -, -, htm⟩ := gmtime_eq ht hfit
  have hsecs : 0 ≤ t % 86400 := by omega
  have hidx : (1970 + (k : Int) - 1900 - 70).toNat = k := by omega
  rw [htm, Tm.epochSeconds, Tm.epochDays]
  simp only [gmtimeFill_tmYear, gmtimeFill_tmYday, gmtimeFill_tmHour, gmtimeFill_tmMin,
    gmtimeFill_tmSec, YearState.at_year, YearState.at_days, hidx,
    Int.tdiv_eq_ediv_of_nonneg hsecs, Int.tmod_eq_emod_of_nonneg hsecs,
    Int.tmod_eq_emod_of_nonneg (Int.ediv_nonneg hsecs (by decide : (0 : Int) ≤ 60))]
  omega

/-- `mktime (gmtime t)` is `t` wrapped to an `int`: every time from the epoch on comes back,
31 December of leap years included, until `t` leaves the `int` range. -/
theorem mktime_gmtime {t : Int} (ht : 0 ≤ t) (hfit : t / 86400 < 2147483648) :
    mktime (gmtime t) = int32Wrap t := by
  obtain ⟨hy, hy'⟩ := gmtime_year ht hfit
  rw [mktime_eq hy hy', gmtime_epochSeconds ht hfit]

/-- From 2038-01-19T03:14:08Z on, `mktime`'s `int` sum wraps: `mktime (gmtime t)` is `2^32`
seconds, some 136 years, short of `t`. -/
theorem mktime_gmtime_wraps {t : Int} (hlo : 2147483648 ≤ t) (hhi : t < 4294967296) :
    mktime (gmtime t) = t - 4294967296 := by
  rw [mktime_gmtime (by omega) (by omega), int32Wrap]
  omega

/-- The first second past `INT_MAX`. -/
theorem mktime_gmtime_wraps_2038 : mktime (gmtime 2147483648) = 2147483648 - 4294967296 :=
  mktime_gmtime_wraps (by decide) (by decide)

/-- On every day but 31 December of a leap year, `gmtime` returns a valid broken-down time. -/
theorem gmtime_valid {t : Int} (ht : 0 ≤ t) (hfit : t / 86400 < 2147483648)
    (hend : ¬LeapYearEnd (t / 86400)) : (gmtime t).Valid := by
  obtain ⟨k, hpass, hstop, htm⟩ := gmtime_eq ht hfit
  obtain ⟨n, hn⟩ := exists_year (e := 1970) (show 0 ≤ t / 86400 by omega)
  rcases gmtimeYears_result hn hpass hstop with ⟨rfl, -⟩ | ⟨-, hleap, hd⟩
  swap
  · exact absurd ⟨n, hleap, hd⟩ hend
  -- the loop stopped in the day's own year `1970 + k`, `yd` days into it
  obtain ⟨hm11, hlo, hhi⟩ := gmtimeMonth_mem (Gregorian.isLeap (1970 + k))
    (show 0 ≤ t / 86400 - daysFrom 1970 k by omega) hstop
  rw [daysBeforeMonth_succ] at hhi
  have hy : (1900 : Int) + (1970 + k - 1900) = 1970 + k := by ring
  have hsecs : 0 ≤ t % 86400 := by omega
  rw [htm]
  refine
    { year_ge := ?_
      mon_range := ?_
      mday_pos := ?_
      mday_le := ?_
      yday_eq := ?_
      hour_range := ?_
      min_range := ?_
      sec_range := ?_ } <;>
    simp only [gmtimeFill_tmYear, gmtimeFill_tmYday, gmtimeFill_tmMon, gmtimeFill_tmMday,
      gmtimeFill_tmHour, gmtimeFill_tmMin, gmtimeFill_tmSec, YearState.at_year,
      YearState.at_days, YearState.at_isLeap, hy, Int.toNat_natCast,
      Int.tdiv_eq_ediv_of_nonneg hsecs, Int.tmod_eq_emod_of_nonneg hsecs,
      Int.tmod_eq_emod_of_nonneg (Int.ediv_nonneg hsecs (by decide : (0 : Int) ≤ 60)),
      daysto_eq _ (Nat.lt_succ_of_le hm11)] <;>
    omega

/-! ## A valid time is named by its seconds -/

namespace Tm.Valid

variable {tm : Tm} (h : tm.Valid)
include h

/-- The day of the year falls in the month `tm_mon`. -/
theorem month_mem :
    daysBeforeMonth (Gregorian.isLeap (1900 + tm.tmYear)) tm.tmMon.toNat ≤ tm.tmYday ∧
      tm.tmYday < daysBeforeMonth (Gregorian.isLeap (1900 + tm.tmYear)) (tm.tmMon.toNat + 1) := by
  rw [daysBeforeMonth_succ]
  have := h.yday_eq
  have := h.mday_pos
  have := h.mday_le
  omega

/-- The day number of `tm` falls in the year `tm_year`. -/
theorem epochDays_mem :
    daysFrom 1970 (tm.tmYear - 70).toNat ≤ tm.epochDays ∧
      tm.epochDays < daysFrom 1970 ((tm.tmYear - 70).toNat + 1) := by
  have hyear : (1970 : Int) + ((tm.tmYear - 70).toNat : Nat) = 1900 + tm.tmYear := by
    have := h.year_ge
    omega
  have hmon := h.month_mem
  have hlast := daysBeforeMonth_mono (Gregorian.isLeap (1900 + tm.tmYear))
    (show tm.tmMon.toNat + 1 ≤ 12 by have := h.mon_range; omega)
  have hfirst := daysBeforeMonth_mono (Gregorian.isLeap (1900 + tm.tmYear))
    (Nat.zero_le tm.tmMon.toNat)
  rw [daysBeforeMonth_twelve] at hlast
  rw [Tm.epochDays, daysFrom_succ, hyear]
  simp only [daysBeforeMonth] at hfirst
  omega

/-- The seconds of the day are below a day. -/
theorem secs_mem :
    0 ≤ tm.tmHour * 3600 + tm.tmMin * 60 + tm.tmSec ∧
      tm.tmHour * 3600 + tm.tmMin * 60 + tm.tmSec < 86400 := by
  have := h.hour_range
  have := h.min_range
  have := h.sec_range
  omega

end Tm.Valid

/-- Two valid times with the same seconds from the epoch are the same time: the seconds fix the
day and the time of day, the day fixes the year (`Gregorian.year_unique`) and the day of the
year, and that fixes the month (`Gregorian.month_unique`) and the day of the month. -/
theorem Tm.Valid.unique {a b : Tm} (ha : a.Valid) (hb : b.Valid)
    (hab : a.epochSeconds = b.epochSeconds) :
    a.tmYear = b.tmYear ∧ a.tmYday = b.tmYday ∧ a.tmMon = b.tmMon ∧ a.tmMday = b.tmMday ∧
      a.tmHour = b.tmHour ∧ a.tmMin = b.tmMin ∧ a.tmSec = b.tmSec := by
  have hsa := ha.secs_mem
  have hsb := hb.secs_mem
  unfold Tm.epochSeconds at hab
  have hdays : a.epochDays = b.epochDays := by omega
  have hidx := year_unique ha.epochDays_mem (hdays ▸ hb.epochDays_mem)
  have hyear : a.tmYear = b.tmYear := by
    have := ha.year_ge
    have := hb.year_ge
    omega
  have hyday : a.tmYday = b.tmYday := by
    unfold Tm.epochDays at hdays
    rw [hidx] at hdays
    omega
  have hmon := month_unique ha.month_mem (hyear ▸ hyday ▸ hb.month_mem)
  have hmon' : a.tmMon = b.tmMon := by
    have := ha.mon_range
    have := hb.mon_range
    omega
  have hya := ha.yday_eq
  have hyb := hb.yday_eq
  rw [hyear, hmon] at hya
  refine ⟨hyear, hyday, hmon', by omega, ?_⟩
  have := ha.hour_range
  have := hb.hour_range
  have := ha.min_range
  have := hb.min_range
  have := ha.sec_range
  have := hb.sec_range
  omega

/-- `gmtime (mktime tm)` gives back every valid time before 2038-01-19T03:14:08Z, except
31 December of a leap year. -/
theorem gmtime_mktime {tm : Tm} (h : tm.Valid) (hfit : tm.epochSeconds < 2147483648)
    (hend : ¬(Gregorian.isLeap (1900 + tm.tmYear) = true ∧ tm.tmYday = 365)) :
    let tm' := gmtime (mktime tm)
    tm'.tmYear = tm.tmYear ∧ tm'.tmYday = tm.tmYday ∧ tm'.tmMon = tm.tmMon ∧
      tm'.tmMday = tm.tmMday ∧ tm'.tmHour = tm.tmHour ∧ tm'.tmMin = tm.tmMin ∧
      tm'.tmSec = tm.tmSec := by
  obtain ⟨hd0, hd1⟩ := h.epochDays_mem
  have hsecs := h.secs_mem
  have hle := le_daysFrom (e := 1970) (tm.tmYear - 70).toNat
  have hy := h.year_ge
  have hpos : 0 ≤ tm.epochSeconds := by unfold Tm.epochSeconds; omega
  have hdiv : tm.epochSeconds / 86400 = tm.epochDays := by unfold Tm.epochSeconds; omega
  have hmk : mktime tm = tm.epochSeconds := by
    rw [mktime_eq hy (by unfold Tm.epochSeconds at hfit; omega), int32Wrap_of_lt (by omega) hfit]
  -- the day is not the last of a leap year, so `gmtime` stops in its year
  have hnot : ¬LeapYearEnd (mktime tm / 86400) := by
    rintro ⟨n, hleap, hd⟩
    rw [hmk, hdiv] at hd
    have hlen := daysFrom_succ (e := 1970) n
    rw [yearLength_of_isLeap hleap] at hlen
    have hidx := year_unique (⟨by omega, by omega⟩ :
      daysFrom 1970 n ≤ tm.epochDays ∧ tm.epochDays < daysFrom 1970 (n + 1)) ⟨hd0, hd1⟩
    have hyear : (1970 : Int) + n = 1900 + tm.tmYear := by omega
    rw [hyear] at hleap
    refine hend ⟨hleap, ?_⟩
    unfold Tm.epochDays at hd
    rw [← hidx] at hd
    omega
  rw [hmk] at hnot ⊢
  have hvalid := gmtime_valid hpos (by omega) hnot
  exact hvalid.unique h (gmtime_epochSeconds hpos (by omega))

/-! ## The clock of the i386 RTC -/

/-- The RTC's two-digit year passes the leap-year test as the year `2000 + year` would: 2000 is
a multiple of 400. -/
theorem isLeapYear_cmos (year : Int) : isLeapYear year = Gregorian.isLeap (2000 + year) := by
  rw [isLeapYear_eq, Bool.eq_iff_iff, isLeap_iff, isLeap_iff]
  omega

/-- The registers hold a date and time of the years 2000 to 2099. -/
structure CmosTime.Valid (r : CmosTime) : Prop where
  mon_range : 1 ≤ r.mon ∧ r.mon ≤ 12
  mday_pos : 1 ≤ r.mday
  mday_le : r.mday ≤ monthLength (Gregorian.isLeap (2000 + r.year)) (r.mon - 1)
  hour_lt : r.hour < 24
  min_lt : r.min < 60
  sec_lt : r.sec < 60

/-- `cmos_get_time` turns a valid reading into a valid broken-down time. -/
theorem cmosGetTime_valid {r : CmosTime} (h : r.Valid) : (cmosGetTime r).Valid := by
  have hyear : (1900 : Int) + (r.year + (2000 - 1900)) = 2000 + r.year := by ring
  have hmon : ((r.mon : Int) - 1).toNat = r.mon - 1 := by omega
  have hmday := h.mday_le
  have := h.mday_pos
  have := h.mon_range
  have := h.hour_lt
  have := h.min_lt
  have := h.sec_lt
  refine
    { year_ge := ?_
      mon_range := ?_
      mday_pos := ?_
      mday_le := ?_
      yday_eq := ?_
      hour_range := ?_
      min_range := ?_
      sec_range := ?_ } <;>
    simp only [cmosGetTime, hyear, hmon, isLeapYear_cmos, daysto_eq _ (show r.mon - 1 < 12 by omega)]
  all_goals first | exact_mod_cast hmday | omega

/-- `arch_get_time_seconds` before 2038-01-19T03:14:08Z, read back by `gmtime`, is the RTC's
date and time, except on 31 December of a leap year. -/
theorem archGetTimeSeconds_gmtime {r : CmosTime} (h : r.Valid)
    (hfit : (cmosGetTime r).epochSeconds < 2147483648)
    (hend : ¬(Gregorian.isLeap (2000 + r.year) = true ∧ r.mon = 12 ∧ r.mday = 31)) :
    let tm := gmtime (archGetTimeSeconds r)
    tm.tmYear = r.year + 100 ∧ tm.tmMon = (r.mon : Int) - 1 ∧ tm.tmMday = r.mday ∧
      tm.tmHour = r.hour ∧ tm.tmMin = r.min ∧ tm.tmSec = r.sec := by
  have hv := cmosGetTime_valid h
  -- the last day of a leap year is day 365, in December only
  have hlast : ¬(Gregorian.isLeap (1900 + (cmosGetTime r).tmYear) = true ∧
      (cmosGetTime r).tmYday = 365) := by
    rintro ⟨hleap, hyday⟩
    have hyear : (1900 : Int) + (cmosGetTime r).tmYear = 2000 + r.year := by
      simp only [cmosGetTime]
      ring
    have h11 : daysBeforeMonth true 11 = 335 := rfl
    rw [hyear] at hleap
    have hmon := hv.month_mem
    rw [hyear, hleap, hyday] at hmon
    have hdec : (cmosGetTime r).tmMon.toNat = 11 := by
      by_contra hne
      have := daysBeforeMonth_mono true
        (show (cmosGetTime r).tmMon.toNat + 1 ≤ 11 by have := hv.mon_range; omega)
      omega
    have hmday := hv.yday_eq
    rw [hyear, hleap, hyday, hdec, h11] at hmday
    simp only [cmosGetTime] at hdec hmday
    exact hend ⟨hleap, by omega, by omega⟩
  obtain ⟨hy, hd, hm, hmd, hh, hmi, hs⟩ := gmtime_mktime hv hfit hlast
  exact ⟨hy, hm, hmd, hh, hmi, hs⟩

/-- The RTC at 2024-02-29 12:15:30. -/
theorem archGetTimeSeconds_gmtime_2024 :
    let tm := gmtime (archGetTimeSeconds ⟨30, 15, 12, 29, 2, 24, 4⟩)
    tm.tmYear = 24 + 100 ∧ tm.tmMon = (2 : Int) - 1 ∧ tm.tmMday = 29 ∧ tm.tmHour = 12 ∧
      tm.tmMin = 15 ∧ tm.tmSec = 30 :=
  archGetTimeSeconds_gmtime ⟨by decide, by decide, by decide, by decide, by decide, by decide⟩
    (by decide) (by decide)

/-- On 31 December of a leap year the RTC's clock, read back by `gmtime`, is day 0 of the next
year's January. -/
theorem archGetTimeSeconds_leap_year_last_day {r : CmosTime} (h : r.Valid)
    (hfit : (cmosGetTime r).epochSeconds < 2147483648)
    (hleap : Gregorian.isLeap (2000 + r.year) = true) (hdec : r.mon = 12) (h31 : r.mday = 31) :
    (gmtime (archGetTimeSeconds r)).tmYear = r.year + 101 ∧
      (gmtime (archGetTimeSeconds r)).tmMday = 0 := by
  have hv := cmosGetTime_valid h
  have hsecs := hv.secs_mem
  have hyday : (cmosGetTime r).tmYday = 365 := by
    simp only [cmosGetTime, hdec, h31, isLeapYear_cmos, hleap]
    rfl
  have hidx : ((cmosGetTime r).tmYear - 70).toNat = 30 + r.year := by
    simp only [cmosGetTime]
    omega
  have hd : (cmosGetTime r).epochSeconds / 86400 = daysFrom 1970 (30 + r.year) + 365 := by
    unfold Tm.epochSeconds Tm.epochDays
    rw [hidx, hyday]
    omega
  have hle := le_daysFrom (e := 1970) (30 + r.year)
  have hpos : 0 ≤ (cmosGetTime r).epochSeconds := by omega
  have hmk : archGetTimeSeconds r = (cmosGetTime r).epochSeconds := by
    rw [archGetTimeSeconds, mktime_eq hv.year_ge (by simp only [cmosGetTime]; omega),
      int32Wrap_of_lt (by omega) hfit]
  have hleap' : Gregorian.isLeap (1970 + ((30 + r.year : Nat) : Int)) = true := by
    push_cast
    rwa [show (1970 : Int) + (30 + r.year) = 2000 + r.year by ring]
  obtain ⟨hy, -, -, hmday⟩ := gmtime_of_leapYearEnd hpos (by omega) hleap' hd
  rw [hmk]
  refine ⟨?_, hmday⟩
  rw [hy]
  push_cast
  ring

end Argentum.Libc
