import AudioServer.Services.DayRange

/-! The reads of the days as the service makes them. They return what the days hold, where the
datetimes they compute stay within the years 1 to 9999. -/

namespace AudioServer.Services.DayReads

open AudioServer.Foundations.Outcomes AudioServer.Core.Datetimes AudioServer.Api.Responses
open AudioServer.Db.Models AudioServer.Services.Days AudioServer.Services.DayRange
open AudioServer.Services.Daily (DailyRecordingDigest DayCount DayDetail DayListEntry ListOrder analysed
  analysedRow countRecording dayRecordings revisionKey sourceOf summaryOf)

def collect (db : Database) (day : Day) :
    Except Exn (List DailyRecordingDigest × List SourceRevision) := do
  let recordings ← recordingsOfDay db day
  let sources := (recordings.filterMap (analysedRow db)).zipIdx.filterMap sourceOf
  .ok (sources.map (·.digest), sources.map (fun s =>
    ⟨s.recording.id, (db.documents s.recording.id).analysisRevision⟩))

/-- Only a finished summary is held against its day. -/
def isStale (db : Database) (day : Day) (summary : Option DailySummary) : Except Exn Bool :=
  match summary.filter (fun s => s.status = .completed) with
  | none => .ok false
  | some summary => do
    let current ← collect db day
    .ok (revisionKey current.2 ≠ revisionKey summary.sourceRevisions)

def getDay (db : Database) (summaries : List DailySummary) (day : Day) : Except Exn DayDetail := do
  let recordings ← recordingsOfDay db day
  let ids := recordings.map (·.id)
  let summary := summaryOf summaries day
  let stale ← isStale db day summary
  .ok {
    day := day
    recordings := recordings
    analysedIds := ids.filter (analysed db)
    activeJobIds := ids.filter (fun id => (db.activeJob id).isSome)
    summary := summary
    stale := stale
    job := newestJob (db.jobs.filter (fun j => j.summaryDate = some day)) }

/-- The loop over the rows, newest first. The day of a row is taken before the loop can end at it. -/
def countDays (db : Database) (wanted : ℕ) :
    List Recording → List DayCount → Except Exn (List DayCount)
  | [], counts => .ok counts
  | r :: rest, counts => do
    let day ← dayOf r.startedAt
    if ¬ counts.any (fun c => c.day = day) ∧ wanted ≤ counts.length then .ok counts
    else countDays db wanted rest (countRecording day (analysed db r.id) counts)

def dayEntry (db : Database) (summaries : List DailySummary) (c : DayCount) :
    Except Exn DayListEntry := do
  let summary := summaryOf summaries c.day
  let stale ← isStale db c.day summary
  .ok {
    day := c.day
    recordingCount := c.recordings
    analysedCount := c.analysed
    summaryStatus := summary.map (·.status)
    summaryStale := stale }

def listDays (db : Database) (summaries : List DailySummary) (limit offset : ℕ) :
    Except Exn (List DayListEntry) := do
  let newestFirst := (db.recordings.insertionSort ListOrder).reverse
  let counts ← countDays db (limit + offset) newestFirst []
  ((counts.insertionSort (fun a b => b.day ≤ a.day)).drop offset |>.take limit).mapM
    (dayEntry db summaries)

section Reads

variable {db : Database} {summaries : List DailySummary} {day : Day}

lemma collect_ok {collected : List DailyRecordingDigest × List SourceRevision} :
    collect db day = .ok collected ↔
      (dateMin < day ∧ day < dateMax) ∧ collected = Daily.collect db day := by
  constructor
  · intro h
    obtain ⟨recordings, hrecordings, h⟩ := bind_ok h
    obtain ⟨hinside, rfl⟩ := recordingsOfDay_ok.mp hrecordings
    cases h
    exact ⟨hinside, rfl⟩
  · rintro ⟨hinside, rfl⟩
    rw [collect, recordingsOfDay_ok.mpr ⟨hinside, rfl⟩]
    rfl

lemma isStale_inside (h : dateMin < day ∧ day < dateMax) (summary : Option DailySummary) :
    isStale db day summary = .ok (summary.any (Daily.isStale db day)) := by
  cases summary with
  | none => rfl
  | some summary =>
    by_cases hstatus : summary.status = .completed
    · have hfilter : (some summary).filter (fun s : DailySummary => s.status = .completed) =
          some summary := by simp [hstatus]
      rw [isStale, hfilter]
      simp only [collect_ok.mpr ⟨h, rfl⟩, ok_bind, Option.any_some, Daily.isStale, hstatus, decide_true,
        Bool.true_and, Except.ok.injEq, ne_eq, decide_not]
      rfl
    · have hfilter : (some summary).filter (fun s : DailySummary => s.status = .completed) = none := by
        simp [hstatus]
      rw [isStale, hfilter]
      simp only [Option.any_some, Daily.isStale, hstatus, decide_false, Bool.false_and]

lemma isStale_value {summary : Option DailySummary} {stale : Bool}
    (h : isStale db day summary = .ok stale) : stale = summary.any (Daily.isStale db day) := by
  by_cases hinside : dateMin < day ∧ day < dateMax
  · exact Except.ok.inj (h.symm.trans (isStale_inside hinside summary))
  · cases summary with
    | none => exact (Except.ok.inj h).symm
    | some summary =>
      by_cases hstatus : summary.status = .completed
      · have hfilter : (some summary).filter (fun s : DailySummary => s.status = .completed) =
            some summary := by simp [hstatus]
        rw [isStale, hfilter] at h
        obtain ⟨current, hcurrent, _⟩ := bind_ok h
        exact absurd (collect_ok.mp hcurrent).1 hinside
      · have hfilter : (some summary).filter (fun s : DailySummary => s.status = .completed) = none := by
          simp [hstatus]
        rw [isStale, hfilter] at h
        simp only [← Except.ok.inj h, Option.any_some, Daily.isStale, hstatus, decide_false,
          Bool.false_and]

lemma getDay_ok {detail : DayDetail} : getDay db summaries day = .ok detail ↔
    (dateMin < day ∧ day < dateMax) ∧ detail = Daily.getDay db summaries day := by
  constructor
  · intro h
    obtain ⟨recordings, hrecordings, h⟩ := bind_ok h
    obtain ⟨stale, hstale, h⟩ := bind_ok h
    obtain ⟨hinside, rfl⟩ := recordingsOfDay_ok.mp hrecordings
    rw [isStale_value hstale] at h
    cases h
    exact ⟨hinside, rfl⟩
  · rintro ⟨hinside, rfl⟩
    rw [getDay, recordingsOfDay_ok.mpr ⟨hinside, rfl⟩, ok_bind]
    dsimp only
    rw [isStale_inside hinside]
    rfl

lemma countDays_inside (wanted : ℕ) {rows : List Recording}
    (h : ∀ r ∈ rows, IsDatetime (r.startedAt + dayTimezone)) (counts : List DayCount) :
    countDays db wanted rows counts = .ok (Daily.countDays db wanted rows counts) := by
  induction rows generalizing counts with
  | nil => rfl
  | cons r rest ih =>
    obtain ⟨hr, hrest⟩ := List.forall_mem_cons.mp h
    rw [countDays, Daily.countDays, dayOf_ok.mpr ⟨hr, rfl⟩, ok_bind]
    split
    · rfl
    · exact ih hrest _

lemma countDays_first {wanted : ℕ} {r : Recording} {rest : List Recording} {counts counts' : List DayCount}
    (h : countDays db wanted (r :: rest) counts = .ok counts') :
    IsDatetime (r.startedAt + dayTimezone) := by
  rw [countDays] at h
  obtain ⟨day, hday, _⟩ := bind_ok h
  exact (dayOf_ok.mp hday).1

lemma dayEntry_value {c : DayCount} {entry : DayListEntry} (h : dayEntry db summaries c = .ok entry) :
    entry = Daily.dayEntry db summaries c := by
  obtain ⟨stale, hstale, h⟩ := bind_ok h
  rw [isStale_value hstale] at h
  cases h
  rfl

lemma dayEntry_inside {c : DayCount} (h : dateMin < c.day ∧ c.day < dateMax) :
    dayEntry db summaries c = .ok (Daily.dayEntry db summaries c) := by
  rw [dayEntry, isStale_inside h]
  rfl

end Reads

end AudioServer.Services.DayReads
