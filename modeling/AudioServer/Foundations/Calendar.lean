import Mathlib.Tactic.Lemma
import Mathlib.Data.Nat.Notation

/-! The proleptic Gregorian calendar: dates by their number, as `datetime.date.fromordinal` and
`toordinal` count them from the first of January of the year 1. -/

namespace AudioServer.Foundations.Calendar

@[ext] structure Date where
  year : ℕ
  month : ℕ
  day : ℕ
deriving DecidableEq

def isLeap (year : ℕ) : Bool := year % 4 = 0 ∧ (year % 100 ≠ 0 ∨ year % 400 = 0)

def daysBeforeYear (year : ℕ) : ℕ :=
  (year - 1) * 365 + (year - 1) / 4 - (year - 1) / 100 + (year - 1) / 400

def daysInMonth (leap : Bool) (month : ℕ) : ℕ :=
  [0, 31, 28, 31, 30, 31, 30, 31, 31, 30, 31, 30, 31].getD month 0 +
    if month = 2 then leap.toNat else 0

def daysBeforeMonth (leap : Bool) (month : ℕ) : ℕ :=
  [0, 0, 31, 59, 90, 120, 151, 181, 212, 243, 273, 304, 334].getD month 0 +
    if 2 < month then leap.toNat else 0

def Date.toordinal (date : Date) : ℕ :=
  daysBeforeYear date.year + daysBeforeMonth (isLeap date.year) date.month + date.day

/-- The year of a day, and how many days of the year are before it. -/
def yearDay (n : ℕ) : ℕ × ℕ :=
  let n400 := n / 146097
  let n100 := n % 146097 / 36524
  let n4 := n % 146097 % 36524 / 1461
  let n1 := n % 146097 % 36524 % 1461 / 365
  let year := n400 * 400 + 1 + (n100 * 100 + n4 * 4 + n1)
  if n1 = 4 ∨ n100 = 4 then (year - 1, 365) else (year, n % 146097 % 36524 % 1461 % 365)

/-- The month and the day of it. The first guess of the month is right or one too high. -/
def monthDay (leap : Bool) (n : ℕ) : ℕ × ℕ :=
  let month := (n + 50) / 32
  if n < daysBeforeMonth leap month then
    (month - 1, n - (daysBeforeMonth leap month - daysInMonth leap (month - 1)) + 1)
  else (month, n - daysBeforeMonth leap month + 1)

def fromordinal (n : ℕ) : Date :=
  let year := (yearDay (n - 1)).1
  let month := monthDay (isLeap year) (yearDay (n - 1)).2
  ⟨year, month.1, month.2⟩

lemma yearDay_leap {n : ℕ} (h : (yearDay n).2 = 365) : isLeap (yearDay n).1 = true := by
  simp only [yearDay] at h ⊢
  split at h
  · rename_i hlast
    rw [if_pos hlast, isLeap, decide_eq_true_eq]
    omega
  · omega

lemma yearDay_lt (n : ℕ) : (yearDay n).2 < 365 + (isLeap (yearDay n).1).toNat := by
  by_cases h : (yearDay n).2 = 365
  · rw [yearDay_leap h, h]
    decide
  · have hle : (yearDay n).2 ≤ 365 := by
      simp only [yearDay]
      split <;> omega
    omega

lemma daysBeforeYear_cycles (a : ℕ) {b c d : ℕ} (hb : b ≤ 3) (hc : c ≤ 24) (hd : d ≤ 3) :
    daysBeforeYear (a * 400 + 1 + (b * 100 + c * 4 + d)) =
      a * 146097 + b * 36524 + c * 1461 + d * 365 := by
  have hyears : a * 400 + 1 + (b * 100 + c * 4 + d) - 1 = a * 400 + b * 100 + c * 4 + d := by omega
  have h4 : (a * 400 + b * 100 + c * 4 + d) / 4 = a * 100 + b * 25 + c := by omega
  have h100 : (a * 400 + b * 100 + c * 4 + d) / 100 = a * 4 + b := by omega
  have h400 : (a * 400 + b * 100 + c * 4 + d) / 400 = a := by omega
  rw [daysBeforeYear, hyears, h4, h100, h400]
  omega

lemma daysBeforeYear_yearDay (n : ℕ) : daysBeforeYear (yearDay n).1 + (yearDay n).2 = n := by
  simp only [yearDay]
  generalize ha : n / 146097 = a
  generalize hb : n % 146097 / 36524 = b
  generalize hc : n % 146097 % 36524 / 1461 = c
  generalize hd : n % 146097 % 36524 % 1461 / 365 = d
  split
  · rename_i hlast
    -- the last day of 400 years, or of four
    by_cases hcentury : b = 4
    · have hyear : a * 400 + 1 + (b * 100 + c * 4 + d) - 1 =
          a * 400 + 1 + (3 * 100 + 24 * 4 + 3) := by omega
      rw [hyear, daysBeforeYear_cycles a (by decide) (by decide) (by decide)]
      omega
    · have hyear : a * 400 + 1 + (b * 100 + c * 4 + d) - 1 =
          a * 400 + 1 + (b * 100 + c * 4 + 3) := by omega
      rw [hyear, daysBeforeYear_cycles a (by omega) (by omega) (by decide)]
      omega
  · rw [daysBeforeYear_cycles a (by omega) (by omega) (by omega)]
    omega

lemma monthDay_days : ∀ leap n, n < 365 + leap.toNat →
    daysBeforeMonth leap (monthDay leap n).1 + (monthDay leap n).2 = n + 1 := by
  decide +kernel

theorem toordinal_fromordinal {n : ℕ} (h : 1 ≤ n) : (fromordinal n).toordinal = n := by
  have hyear := daysBeforeYear_yearDay (n - 1)
  have hmonth := monthDay_days _ _ (yearDay_lt (n - 1))
  rw [Date.toordinal, fromordinal]
  simp only []
  omega

lemma fromordinal_inj {m n : ℕ} (hm : 1 ≤ m) (hn : 1 ≤ n) (h : fromordinal m = fromordinal n) :
    m = n := by
  rw [← toordinal_fromordinal hm, h, toordinal_fromordinal hn]

example : fromordinal 738886 = ⟨2024, 1, 1⟩ := by decide

end AudioServer.Foundations.Calendar
