import AudioServer.Services.Daily

/-! The windows of the days within the years 1 to 9999, beyond which the arithmetic
of datetimes raises. -/

namespace AudioServer.Services.DayRange

open AudioServer.Foundations.Outcomes AudioServer.Core.Datetimes AudioServer.Db.Models
open AudioServer.Services.Daily AudioServer.Services.Days

/-- The query of `get_day`, which the `day` filter of `list_recordings` shares. -/
def recordingsOfDay (db : Database) (day : Day) : Except Exn (List Recording) := do
  let window ← dayWindow day
  .ok ((db.recordings.filter
    (fun r => window.1 ≤ r.startedAt ∧ r.startedAt < window.2)).insertionSort ListOrder)

/-- The day can be read, and its window holds the moments `day_of` puts in it and no others. -/
def Tiles (day : Day) : Prop :=
  ∃ window, dayWindow day = .ok window ∧ ∀ moment, IsDatetime moment →
    (window.1 ≤ moment ∧ moment < window.2 ↔ dayOf moment = .ok day)

def OnOneDay (moment : Instant) : Prop :=
  ∃! day, IsDate day ∧ ∃ window, dayWindow day = .ok window ∧ window.1 ≤ moment ∧ moment < window.2

def InsideDays (moment : Instant) : Prop :=
  (dateMin + 1) * dayLength ≤ moment + dayTimezone ∧ moment + dayTimezone < dateMax * dayLength

instance (moment : Instant) : Decidable (InsideDays moment) := inferInstanceAs (Decidable (_ ∧ _))

section Range

variable {day : Day} {moment : Instant}

lemma tiles_iff : Tiles day ↔ dateMin < day ∧ day < dateMax := by
  constructor
  · rintro ⟨window, hwindow, _⟩
    exact (dayWindow_ok.mp hwindow).1
  · intro h
    refine ⟨localWindow day, dayWindow_ok.mpr ⟨h, rfl⟩, ?_⟩
    intro moment _
    rw [window_iff, dayOf_ok]
    exact ⟨fun hday => ⟨local_range (hday ▸ h), hday⟩, fun hday => hday.2⟩

lemma insideDays_iff : InsideDays moment ↔ dateMin < localDay moment ∧ localDay moment < dateMax := by
  have hrange : ∀ m : ℤ,
      ((-719162 + 1) * 86400000000 ≤ m + 32400000000 ∧ m + 32400000000 < 2932896 * 86400000000) ↔
        -719162 < (m + 32400000000) / 86400000000 ∧ (m + 32400000000) / 86400000000 < 2932896 := by
    intro m
    omega
  exact hrange moment

lemma onOneDay_iff : OnOneDay moment ↔ InsideDays moment := by
  rw [insideDays_iff]
  constructor
  · rintro ⟨day, ⟨_, window, hwindow, hin⟩, _⟩
    obtain ⟨hinside, rfl⟩ := dayWindow_ok.mp hwindow
    rwa [window_iff.mp hin]
  · intro hinside
    have hdate : IsDate (localDay moment) := ⟨hinside.1.le, hinside.2.le⟩
    refine ⟨localDay moment, ⟨hdate, _, dayWindow_ok.mpr ⟨hinside, rfl⟩, window_iff.mpr rfl⟩, ?_⟩
    rintro other ⟨_, window, hwindow, hother⟩
    obtain ⟨_, rfl⟩ := dayWindow_ok.mp hwindow
    exact (window_iff.mp hother).symm

lemma recordingsOfDay_ok {db : Database} {recordings : List Recording} :
    recordingsOfDay db day = .ok recordings ↔
      (dateMin < day ∧ day < dateMax) ∧ recordings = dayRecordings db day := by
  constructor
  · intro h
    obtain ⟨window, hwindow, h⟩ := bind_ok h
    obtain ⟨hinside, rfl⟩ := dayWindow_ok.mp hwindow
    cases h
    exact ⟨hinside, rfl⟩
  · rintro ⟨hinside, rfl⟩
    rw [recordingsOfDay, dayWindow_ok.mpr ⟨hinside, rfl⟩]
    rfl

end Range

theorem days_tile_iff (db : Database) (day : Day) (moment : Instant) (hdate : IsDate day) :
    (Tiles day ↔ day ≠ dateMin ∧ day ≠ dateMax) ∧
    ((∃ recordings, recordingsOfDay db day = .ok recordings) ↔ day ≠ dateMin ∧ day ≠ dateMax) ∧
    (OnOneDay moment ↔ InsideDays moment) := by
  have hinside : dateMin < day ∧ day < dateMax ↔ day ≠ dateMin ∧ day ≠ dateMax :=
    ⟨fun h => ⟨h.1.ne', h.2.ne⟩, fun h =>
      ⟨lt_of_le_of_ne hdate.1 h.1.symm, lt_of_le_of_ne hdate.2 h.2⟩⟩
  refine ⟨?_, ?_, onOneDay_iff⟩
  · rw [tiles_iff, hinside]
  · simp only [recordingsOfDay_ok, hinside, exists_and_left, exists_eq, and_true]

theorem epoch_day_tiles : Tiles 0 ∧ OnOneDay 0 := by
  obtain ⟨htiles, -, hday⟩ := days_tile_iff (.empty none) 0 0 (by decide)
  exact ⟨htiles.mpr (by decide), hday.mpr (by decide)⟩

theorem last_day_raises : IsDate dateMax ∧ dayWindow dateMax = .error .overflowError ∧
    ¬ ∀ day, IsDate day → Tiles day := by
  have hraises : dayWindow dateMax = .error .overflowError := by decide
  refine ⟨by decide, hraises, ?_⟩
  intro h
  obtain ⟨window, hwindow, _⟩ := h dateMax (by decide)
  rw [hraises] at hwindow
  cases hwindow

end AudioServer.Services.DayRange
