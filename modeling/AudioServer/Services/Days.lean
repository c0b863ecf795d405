import AudioServer.Core.Datetimes

/-! The calendar days in Japan and the moments they cover. -/

namespace AudioServer.Services.Days

open AudioServer.Foundations.Outcomes AudioServer.Core.Datetimes AudioServer.Db.Models

/-- Asia/Tokyo is nine hours ahead of UTC and keeps no summer time. -/
def dayTimezone : Duration := 32400000000

def dayOf (moment : Instant) : Except Exn Day := do
  let local_ ← datetime (moment + dayTimezone)
  .ok (local_ / dayLength)

def dayWindow (day : Day) : Except Exn (Instant × Instant) := do
  let start := day * dayLength
  let first ← datetime (start - dayTimezone)
  let next ← datetime (start + dayLength)
  let last ← datetime (next - dayTimezone)
  .ok (first, last)

/-- The day of a moment, and the moments of a day, whether or not datetimes reach that far. -/
def localDay (moment : Instant) : Day := (moment + dayTimezone) / dayLength

def localWindow (day : Day) : Instant × Instant :=
  (day * dayLength - dayTimezone, (day + 1) * dayLength - dayTimezone)

variable {day : Day} {moment : Instant}

lemma window_iff : (localWindow day).1 ≤ moment ∧ moment < (localWindow day).2 ↔ localDay moment = day := by
  rw [localDay, Int.ediv_eq_iff_of_pos (by decide), localWindow, sub_le_iff_le_add, lt_sub_iff_add_lt,
    add_one_mul]

lemma dayOf_ok : dayOf moment = .ok day ↔
    IsDatetime (moment + dayTimezone) ∧ localDay moment = day := by
  constructor
  · intro h
    obtain ⟨local_, hlocal, h⟩ := bind_ok h
    obtain ⟨hrange, rfl⟩ := datetime_ok.mp hlocal
    cases h
    exact ⟨hrange, rfl⟩
  · rintro ⟨hrange, rfl⟩
    rw [dayOf, datetime_ok.mpr ⟨hrange, rfl⟩]
    rfl

lemma dayOf_error {exn : Exn} (h : dayOf moment = .error exn) : exn = .overflowError := by
  rw [dayOf] at h
  cases hlocal : datetime (moment + dayTimezone) with
  | ok local_ =>
    rw [hlocal, ok_bind] at h
    cases h
  | error raised =>
    rw [hlocal, error_bind] at h
    cases h
    exact (datetime_error hlocal).2

lemma window_range : (IsDatetime (day * dayLength - dayTimezone) ∧
    IsDatetime (day * dayLength + dayLength) ∧
    IsDatetime (day * dayLength + dayLength - dayTimezone)) ↔ dateMin < day ∧ day < dateMax := by
  have hrange : ∀ d : ℤ,
      ((-719162 * 86400000000 ≤ d * 86400000000 - 32400000000 ∧
          d * 86400000000 - 32400000000 < (2932896 + 1) * 86400000000) ∧
        (-719162 * 86400000000 ≤ d * 86400000000 + 86400000000 ∧
          d * 86400000000 + 86400000000 < (2932896 + 1) * 86400000000) ∧
        (-719162 * 86400000000 ≤ d * 86400000000 + 86400000000 - 32400000000 ∧
          d * 86400000000 + 86400000000 - 32400000000 < (2932896 + 1) * 86400000000)) ↔
      -719162 < d ∧ d < 2932896 := by
    intro d
    omega
  exact hrange day

lemma dayWindow_ok {window : Instant × Instant} : dayWindow day = .ok window ↔
    (dateMin < day ∧ day < dateMax) ∧ window = localWindow day := by
  have hlast : (day + 1) * dayLength - dayTimezone = day * dayLength + dayLength - dayTimezone := by
    rw [add_one_mul]
  rw [← window_range, localWindow, hlast]
  constructor
  · intro h
    obtain ⟨first, hfirst, h⟩ := bind_ok h
    obtain ⟨next, hnext, h⟩ := bind_ok h
    obtain ⟨last, hlast, h⟩ := bind_ok h
    obtain ⟨hfirstRange, rfl⟩ := datetime_ok.mp hfirst
    obtain ⟨hnextRange, rfl⟩ := datetime_ok.mp hnext
    obtain ⟨hlastRange, rfl⟩ := datetime_ok.mp hlast
    cases h
    exact ⟨⟨hfirstRange, hnextRange, hlastRange⟩, rfl⟩
  · rintro ⟨⟨hfirst, hnext, hlast⟩, rfl⟩
    rw [dayWindow, datetime_ok.mpr ⟨hfirst, rfl⟩, ok_bind, datetime_ok.mpr ⟨hnext, rfl⟩, ok_bind,
      datetime_ok.mpr ⟨hlast, rfl⟩]
    rfl

lemma local_range (h : dateMin < localDay moment ∧ localDay moment < dateMax) :
    IsDatetime (moment + dayTimezone) := by
  have hrange : ∀ m : ℤ,
      -719162 < (m + 32400000000) / 86400000000 ∧ (m + 32400000000) / 86400000000 < 2932896 →
      -719162 * 86400000000 ≤ m + 32400000000 ∧ m + 32400000000 < (2932896 + 1) * 86400000000 := by
    intro m
    omega
  exact hrange moment h

end AudioServer.Services.Days
