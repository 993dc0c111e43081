import Mathlib.Tactic.Ring

/-!
# Argentum.Lib.Gregorian

The proleptic Gregorian calendar, counted in days. A year is a leap year when 4 divides it and
100 does not, or when 400 does (`isLeap`); it has 365 or 366 days (`yearLength`).
`daysFrom e n` is the number of days from 1 January of the year `e` to 1 January of `e + n`;
`daysFrom_eq` gives it in closed form, `365 n` and the leap years among `e, …, e + n - 1`,
counted by `leapsThrough` with three floor divisions. A day number `d ≥ 0` from 1 January of
`e` falls in one year `e + n`, the one with `daysFrom e n ≤ d < daysFrom e (n + 1)`
(`exists_year`, `year_unique`).

Months are numbered from 0. `daysBeforeMonth leap m` is the day of the year on which the month
`m` starts; a day of the year falls in one month (`month_unique`).
-/

namespace Gregorian

/-- Divisible by 4 and not by 100, or divisible by 400. -/
def isLeap (y : Int) : Bool := (y % 4 == 0 && y % 100 != 0) || y % 400 == 0

def yearLength (y : Int) : Int := if isLeap y then 366 else 365

/-- The number of leap years among `1, …, y`, for `y ≥ 0`. -/
def leapsThrough (y : Int) : Int := y / 4 - y / 100 + y / 400

theorem isLeap_iff (y : Int) :
    isLeap y = true ↔ (y % 4 = 0 ∧ y % 100 ≠ 0) ∨ y % 400 = 0 := by
  simp [isLeap]

theorem yearLength_of_isLeap {y : Int} (h : isLeap y = true) : yearLength y = 366 := by
  simp [yearLength, h]

theorem yearLength_ge (y : Int) : 365 ≤ yearLength y := by
  unfold yearLength
  split <;> omega

theorem yearLength_le (y : Int) : yearLength y ≤ 366 := by
  unfold yearLength
  split <;> omega

/-- A year is one day longer than 365 exactly when it is one of the years `leapsThrough`
counts. -/
theorem yearLength_eq (y : Int) :
    yearLength y = 365 + (leapsThrough y - leapsThrough (y - 1)) := by
  unfold yearLength leapsThrough
  by_cases h : isLeap y = true
  · rw [if_pos h]
    rw [isLeap_iff] at h
    omega
  · rw [if_neg h]
    rw [isLeap_iff] at h
    omega

/-- The days from 1 January of `e` to 1 January of `e + n`. -/
def daysFrom (e : Int) : Nat → Int
  | 0 => 0
  | n + 1 => daysFrom e n + yearLength (e + n)

variable {e : Int}

@[simp] theorem daysFrom_zero : daysFrom e 0 = 0 := rfl

theorem daysFrom_succ (n : Nat) : daysFrom e (n + 1) = daysFrom e n + yearLength (e + n) := rfl

/-- The closed form: 365 days a year and one for each leap year passed. -/
theorem daysFrom_eq (n : Nat) :
    daysFrom e n = 365 * n + (leapsThrough (e + n - 1) - leapsThrough (e - 1)) := by
  induction n with
  | zero => simp
  | succ n ih =>
    have hlast : e + ((n + 1 : Nat) : Int) - 1 = e + n := by push_cast; ring
    rw [daysFrom_succ, ih, yearLength_eq, hlast]
    push_cast
    ring

/-- Each year passed adds at least 365 days. -/
theorem daysFrom_add_le (m k : Nat) : daysFrom e m + 365 * k ≤ daysFrom e (m + k) := by
  induction k with
  | zero => simp
  | succ k ih =>
    have hlen := yearLength_ge (e + (m + k : Nat))
    rw [← Nat.add_assoc, daysFrom_succ]
    push_cast at ih hlen ⊢
    omega

theorem le_daysFrom (n : Nat) : 365 * (n : Int) ≤ daysFrom e n := by
  simpa using daysFrom_add_le (e := e) 0 n

theorem daysFrom_lt_of_lt {j k : Nat} (h : j < k) : daysFrom e j + 365 ≤ daysFrom e k := by
  have hle := daysFrom_add_le (e := e) j (k - j)
  rw [Nat.add_sub_cancel' h.le] at hle
  have hk : (365 : Int) ≤ 365 * ((k - j : Nat) : Int) := by
    have : 1 ≤ k - j := by omega
    omega
  omega

theorem daysFrom_mono {j k : Nat} (h : j ≤ k) : daysFrom e j ≤ daysFrom e k := by
  rcases Nat.lt_or_eq_of_le h with hlt | rfl
  · have := daysFrom_lt_of_lt (e := e) hlt
    omega
  · exact le_refl _

/-- Every day number from 0 on falls in some year. -/
theorem exists_year {d : Int} (hd : 0 ≤ d) :
    ∃ n : Nat, daysFrom e n ≤ d ∧ d < daysFrom e (n + 1) := by
  -- the years start at `daysFrom e 0 = 0`, and the one after `d.toNat` starts past `d`
  have hpast : d < daysFrom e (d.toNat + 1) := by
    have := le_daysFrom (e := e) (d.toNat + 1)
    push_cast at this
    omega
  classical
  let n := Nat.find (p := fun n => d < daysFrom e (n + 1)) ⟨_, hpast⟩
  refine ⟨n, ?_, Nat.find_spec (p := fun n => d < daysFrom e (n + 1)) ⟨_, hpast⟩⟩
  rcases hn : n with _ | m
  · simpa using hd
  · have hmin := Nat.find_min (p := fun n => d < daysFrom e (n + 1)) ⟨_, hpast⟩
      (m := m) (by omega)
    exact not_lt.mp hmin

/-- A day number falls in one year only. -/
theorem year_unique {d : Int} {n m : Nat} (hn : daysFrom e n ≤ d ∧ d < daysFrom e (n + 1))
    (hm : daysFrom e m ≤ d ∧ d < daysFrom e (m + 1)) : n = m := by
  by_contra hne
  rcases Nat.lt_or_gt_of_ne hne with hlt | hlt
  · have := daysFrom_mono (e := e) (show n + 1 ≤ m by omega)
    omega
  · have := daysFrom_mono (e := e) (show m + 1 ≤ n by omega)
    omega

/-- Month lengths, January being month 0. -/
def monthLength (leap : Bool) : Nat → Int
  | 1 => if leap then 29 else 28
  | 3 | 5 | 8 | 10 => 30
  | _ => 31

/-- The day of the year on which month `m` starts. -/
def daysBeforeMonth (leap : Bool) : Nat → Int
  | 0 => 0
  | m + 1 => daysBeforeMonth leap m + monthLength leap m

theorem monthLength_pos (leap : Bool) (m : Nat) : 0 < monthLength leap m := by
  unfold monthLength
  split <;> (try split) <;> omega

theorem daysBeforeMonth_succ (leap : Bool) (m : Nat) :
    daysBeforeMonth leap (m + 1) = daysBeforeMonth leap m + monthLength leap m := rfl

/-- The twelve months make up the year. -/
theorem daysBeforeMonth_twelve (y : Int) : daysBeforeMonth (isLeap y) 12 = yearLength y := by
  unfold yearLength
  cases isLeap y <;> rfl

theorem daysBeforeMonth_strictMono (leap : Bool) {j k : Nat} (h : j < k) :
    daysBeforeMonth leap j < daysBeforeMonth leap k := by
  induction k with
  | zero => omega
  | succ k ih =>
    have hpos := monthLength_pos leap k
    rw [daysBeforeMonth_succ]
    rcases Nat.lt_succ_iff_lt_or_eq.mp h with hlt | rfl
    · have := ih hlt
      omega
    · omega

theorem daysBeforeMonth_mono (leap : Bool) {j k : Nat} (h : j ≤ k) :
    daysBeforeMonth leap j ≤ daysBeforeMonth leap k := by
  rcases Nat.lt_or_eq_of_le h with hlt | rfl
  · exact (daysBeforeMonth_strictMono leap hlt).le
  · exact le_refl _

/-- A day of the year falls in one month only. -/
theorem month_unique {leap : Bool} {yd : Int} {m m' : Nat}
    (hm : daysBeforeMonth leap m ≤ yd ∧ yd < daysBeforeMonth leap (m + 1))
    (hm' : daysBeforeMonth leap m' ≤ yd ∧ yd < daysBeforeMonth leap (m' + 1)) : m = m' := by
  by_contra hne
  rcases Nat.lt_or_gt_of_ne hne with hlt | hlt
  · have := daysBeforeMonth_mono leap (show m + 1 ≤ m' by omega)
    omega
  · have := daysBeforeMonth_mono leap (show m' + 1 ≤ m by omega)
    omega

end Gregorian
