import AudioServer.Db.Models
import AudioServer.Foundations.Outcomes

/-! The years 1 to 9999, beyond which the arithmetic of datetimes raises. -/

namespace AudioServer.Core.Datetimes

open AudioServer.Foundations.Outcomes AudioServer.Db.Models

def dayLength : Instant := 86400000000

/-- 0001-01-01, counted from 1970-01-01 as every day is. -/
def dateMin : Day := -719162

def dateMax : Day := 2932896

def IsDate (day : Day) : Prop := dateMin ≤ day ∧ day ≤ dateMax

def IsDatetime (wall : Instant) : Prop := dateMin * dayLength ≤ wall ∧ wall < (dateMax + 1) * dayLength

instance (day : Day) : Decidable (IsDate day) := inferInstanceAs (Decidable (_ ∧ _))
instance (wall : Instant) : Decidable (IsDatetime wall) := inferInstanceAs (Decidable (_ ∧ _))

def datetime (wall : Instant) : Except Exn Instant := do
  require (IsDatetime wall) .overflowError
  .ok wall

variable {wall : Instant}

lemma datetime_ok {value : Instant} : datetime wall = .ok value ↔ IsDatetime wall ∧ wall = value := by
  rw [datetime]
  by_cases h : IsDatetime wall
  · rw [require_of h, ok_bind, Except.ok.injEq]
    simp [h]
  · rw [require_of_not h, error_bind]
    simp [h]

lemma datetime_error {exn : Exn} (h : datetime wall = .error exn) :
    ¬ IsDatetime wall ∧ exn = .overflowError := by
  rw [datetime] at h
  by_cases hrange : IsDatetime wall
  · rw [require_of hrange, ok_bind] at h
    cases h
  · rw [require_of_not hrange, error_bind] at h
    cases h
    exact ⟨hrange, rfl⟩

lemma IsDatetime.date (h : IsDatetime wall) : IsDate (wall / dayLength) := by
  have hrange : ∀ w : ℤ, -719162 * 86400000000 ≤ w ∧ w < (2932896 + 1) * 86400000000 →
      -719162 ≤ w / 86400000000 ∧ w / 86400000000 ≤ 2932896 := by
    intro w
    omega
  exact hrange wall h

end AudioServer.Core.Datetimes
