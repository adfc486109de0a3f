/-
Dates of the proleptic Gregorian calendar.

A `Date` carries its own validity. `Date.shift` goes a number of days forward or
back, one day at a time, and is what normalises a day that its month does not
have; `shift_first` says that it does nothing to one that it has.
-/
import Mathlib.Tactic

set_option autoImplicit false

namespace Civil

def isLeap (year : ℤ) : Bool :=
  year % 4 = 0 && (year % 100 ≠ 0 || year % 400 = 0)

def daysInMonth (year : ℤ) (month : ℕ) : ℕ :=
  if month = 2 then (if isLeap year then 29 else 28)
  else if month ∈ [4, 6, 9, 11] then 30
  else 31

theorem daysInMonth_bounds (year : ℤ) (month : ℕ) :
    1 ≤ daysInMonth year month ∧ daysInMonth year month ≤ 31 := by
  unfold daysInMonth
  split_ifs <;> omega

/-- A day of the calendar. -/
@[ext] structure Date where
  year : ℤ
  month : ℕ
  day : ℕ
  month_pos : 1 ≤ month
  month_le : month ≤ 12
  day_pos : 1 ≤ day
  day_le : day ≤ daysInMonth year month
  deriving DecidableEq

/-- A day that the calendar has. -/
def Valid (year : ℤ) (month day : ℕ) : Prop :=
  (1 ≤ month ∧ month ≤ 12) ∧ 1 ≤ day ∧ day ≤ daysInMonth year month

instance (year : ℤ) (month day : ℕ) : Decidable (Valid year month day) :=
  inferInstanceAs (Decidable (_ ∧ _))

def Date.of (year : ℤ) (month day : ℕ) (h : Valid year month day) : Date :=
  ⟨year, month, day, h.1.1, h.1.2, h.2.1, h.2.2⟩

/-- The first of a month. -/
def firstOf (year : ℤ) (month : ℕ) (hpos : 1 ≤ month) (hle : month ≤ 12) : Date :=
  ⟨year, month, 1, hpos, hle, le_rfl, (daysInMonth_bounds year month).1⟩

/-- The day after. -/
def Date.next (date : Date) : Date :=
  if hday : date.day < daysInMonth date.year date.month then
    { date with day := date.day + 1, day_pos := by omega, day_le := by omega }
  else if hmonth : date.month < 12 then
    firstOf date.year (date.month + 1) (by omega) (by omega)
  else firstOf (date.year + 1) 1 (by omega) (by omega)

/-- The last of a month. -/
def lastOf (year : ℤ) (month : ℕ) (hpos : 1 ≤ month) (hle : month ≤ 12) : Date :=
  ⟨year, month, daysInMonth year month, hpos, hle, (daysInMonth_bounds year month).1, le_rfl⟩

/-- The day before. -/
def Date.prev (date : Date) : Date :=
  if hday : 1 < date.day then
    { date with day := date.day - 1, day_pos := by omega,
                day_le := le_trans (by omega) date.day_le }
  else if hmonth : 1 < date.month then
    lastOf date.year (date.month - 1) (by omega) (le_trans (by omega) date.month_le)
  else lastOf (date.year - 1) 12 (by omega) (by omega)

/-- Some days later, or earlier. -/
def Date.shift (date : Date) : ℤ → Date
  | .ofNat n => Date.next^[n] date
  | .negSucc n => Date.prev^[n + 1] date

/-- From the first of a month, a day of that month is reached without leaving
it. -/
theorem shift_first (date : Date) :
    (firstOf date.year date.month date.month_pos date.month_le).shift (date.day - 1) = date := by
  -- one day at a time
  have hnext : ∀ n : ℕ, n < daysInMonth date.year date.month →
      (Date.next^[n] (firstOf date.year date.month date.month_pos date.month_le)).year =
          date.year ∧
        (Date.next^[n] (firstOf date.year date.month date.month_pos date.month_le)).month =
          date.month ∧
        (Date.next^[n] (firstOf date.year date.month date.month_pos date.month_le)).day =
          n + 1 := by
    intro n
    induction n with
    | zero => intro _; exact ⟨rfl, rfl, rfl⟩
    | succ n ih =>
        intro hn
        obtain ⟨hy, hm, hd⟩ := ih (by omega)
        rw [Function.iterate_succ_apply', Date.next, dif_pos (by rw [hy, hm, hd]; exact hn)]
        exact ⟨hy, hm, congrArg (· + 1) hd⟩
  have hpos := date.day_pos
  have hle := date.day_le
  have hshift : ((date.day : ℤ) - 1) = Int.ofNat (date.day - 1) := by
    simp only [Int.ofNat_eq_natCast]
    omega
  obtain ⟨hy, hm, hd⟩ := hnext (date.day - 1) (by omega)
  rw [hshift]
  apply Date.ext
  · exact hy
  · exact hm
  · exact hd.trans (by omega)

theorem year_le_next (date : Date) : date.year ≤ date.next.year := by
  unfold Date.next
  split_ifs
  · exact le_rfl
  · exact le_rfl
  · exact (by omega : date.year ≤ date.year + 1)

theorem year_next_le (date : Date) : date.next.year ≤ date.year + 1 := by
  unfold Date.next
  split_ifs
  · exact (by omega : date.year ≤ date.year + 1)
  · exact (by omega : date.year ≤ date.year + 1)
  · exact le_rfl

theorem year_prev_bounds (date : Date) :
    date.year - 1 ≤ date.prev.year ∧ date.prev.year ≤ date.year := by
  unfold Date.prev
  split_ifs
  · exact ⟨(by omega : date.year - 1 ≤ date.year), le_rfl⟩
  · exact ⟨(by omega : date.year - 1 ≤ date.year), le_rfl⟩
  · exact ⟨le_rfl, (by omega : date.year - 1 ≤ date.year)⟩

/-- Days forward, one at a time. -/
theorem year_next_iterate (date : Date) (k : ℕ) :
    date.year ≤ (Date.next^[k] date).year ∧ (Date.next^[k] date).year ≤ date.year + k := by
  induction k with
  | zero => exact ⟨le_rfl, by simp⟩
  | succ k ih =>
      rw [Function.iterate_succ_apply']
      have hup := year_le_next (Date.next^[k] date)
      have hone := year_next_le (Date.next^[k] date)
      push_cast
      omega

/-- And back. -/
theorem year_prev_iterate (date : Date) (k : ℕ) :
    date.year - k ≤ (Date.prev^[k] date).year ∧ (Date.prev^[k] date).year ≤ date.year := by
  induction k with
  | zero => exact ⟨by simp, le_rfl⟩
  | succ k ih =>
      rw [Function.iterate_succ_apply']
      have hone := year_prev_bounds (Date.prev^[k] date)
      push_cast
      omega

/-- A number of days is not a larger number of years. -/
theorem year_shift_bounds (date : Date) (n : ℤ) :
    date.year - |n| ≤ (date.shift n).year ∧ (date.shift n).year ≤ date.year + |n| := by
  cases n with
  | ofNat k =>
      have h := year_next_iterate date k
      have habs : |Int.ofNat k| = (k : ℤ) := abs_of_nonneg (Int.natCast_nonneg k)
      rw [habs]
      exact ⟨by change date.year - k ≤ (Date.next^[k] date).year; omega, h.2⟩
  | negSucc k =>
      have h := year_prev_iterate date (k + 1)
      have habs : |Int.negSucc k| = ((k + 1 : ℕ) : ℤ) := by
        rw [abs_of_neg (Int.negSucc_lt_zero k)]
        rfl
      rw [habs]
      exact ⟨h.1, by
        change (Date.prev^[k + 1] date).year ≤ date.year + ((k + 1 : ℕ) : ℤ)
        omega⟩

/-- Going forward the year does not go back. -/
theorem year_le_shift (date : Date) {n : ℤ} (h : 0 ≤ n) : date.year ≤ (date.shift n).year := by
  obtain ⟨k, rfl⟩ := Int.eq_ofNat_of_zero_le h
  exact (year_next_iterate date k).1

end Civil
