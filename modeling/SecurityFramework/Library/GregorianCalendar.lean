import Mathlib.Algebra.BigOperators.Intervals
import Mathlib.Algebra.Order.Group.Int

/-!
# The proleptic Gregorian calendar

Days are counted year by year and month by month.
-/

namespace Gregorian
open Finset

def IsLeapYear (year : ℤ) : Prop := 4 ∣ year ∧ (¬100 ∣ year ∨ 400 ∣ year)

instance (year : ℤ) : Decidable (IsLeapYear year) :=
  inferInstanceAs (Decidable (4 ∣ year ∧ (¬100 ∣ year ∨ 400 ∣ year)))

def yearLength (year : ℤ) : ℤ := if IsLeapYear year then 366 else 365

/-- The months are counted from one. -/
def monthLength (year : ℤ) (month : ℕ) : ℤ :=
  if month = 2 then if IsLeapYear year then 29 else 28
  else if month = 4 ∨ month = 6 ∨ month = 9 ∨ month = 11 then 30
  else 31

/-- The days from the start of one year to the start of another, negative when that is earlier. -/
def daysFrom (epoch year : ℤ) : ℤ :=
  ∑ n ∈ range (year - epoch).toNat, yearLength (epoch + n) -
    ∑ n ∈ range (epoch - year).toNat, yearLength (year + n)

def daysBeforeMonth (year : ℤ) (month : ℕ) : ℤ :=
  ∑ m ∈ range (month - 1), monthLength year (m + 1)

def leapDaysBefore (year : ℤ) : ℤ := (year - 1) / 4 - (year - 1) / 100 + (year - 1) / 400

theorem leapDaysBefore_succ (year : ℤ) :
    leapDaysBefore (year + 1) - leapDaysBefore year = if IsLeapYear year then 1 else 0 := by
  rw [leapDaysBefore, leapDaysBefore]
  by_cases hleap : IsLeapYear year
  · rw [if_pos hleap]
    rw [IsLeapYear] at hleap
    omega
  · rw [if_neg hleap]
    rw [IsLeapYear] at hleap
    omega

theorem yearLength_eq (year : ℤ) :
    yearLength year = 365 + (leapDaysBefore (year + 1) - leapDaysBefore year) := by
  rw [leapDaysBefore_succ, yearLength]
  split <;> rfl

@[simp] theorem daysFrom_self (year : ℤ) : daysFrom year year = 0 := by simp [daysFrom]

theorem daysFrom_succ (epoch year : ℤ) :
    daysFrom epoch (year + 1) = daysFrom epoch year + yearLength year := by
  rw [daysFrom, daysFrom]
  rcases le_or_gt epoch year with h | h
  · have hafter : (year + 1 - epoch).toNat = (year - epoch).toNat + 1 := by omega
    have hbefore : (epoch - year).toNat = 0 := by omega
    have hbefore' : (epoch - (year + 1)).toNat = 0 := by omega
    have hlast : epoch + ((year - epoch).toNat : ℤ) = year := by omega
    rw [hafter, sum_range_succ, hlast, hbefore, hbefore', sum_range_zero, sum_range_zero]
    omega
  · have hafter : (year - epoch).toNat = 0 := by omega
    have hafter' : (year + 1 - epoch).toNat = 0 := by omega
    have hbefore : (epoch - year).toNat = (epoch - (year + 1)).toNat + 1 := by omega
    have hfirst : ∀ n : ℕ, year + ((n + 1 : ℕ) : ℤ) = year + 1 + n := by
      intro n
      omega
    rw [hbefore, sum_range_succ', hafter, hafter', sum_range_zero]
    have hzero : year + ((0 : ℕ) : ℤ) = year := by omega
    simp only [hfirst, hzero]
    omega

theorem daysFrom_eq (epoch year : ℤ) :
    daysFrom epoch year =
      365 * (year - epoch) + (leapDaysBefore year - leapDaysBefore epoch) := by
  induction year using Int.inductionOn' (b := epoch) with
  | zero => simp
  | succ year _ ih =>
    rw [daysFrom_succ, ih, yearLength_eq]
    omega
  | pred year _ ih =>
    have hsucc := daysFrom_succ epoch (year - 1)
    rw [sub_add_cancel, yearLength_eq, sub_add_cancel] at hsucc
    omega

theorem daysBeforeMonth_succ (year : ℤ) {month : ℕ} (h : 1 ≤ month) :
    daysBeforeMonth year (month + 1) = daysBeforeMonth year month + monthLength year month := by
  have hmonths : month + 1 - 1 = month - 1 + 1 := by omega
  rw [daysBeforeMonth, daysBeforeMonth, hmonths, sum_range_succ, Nat.sub_add_cancel h]
end Gregorian
