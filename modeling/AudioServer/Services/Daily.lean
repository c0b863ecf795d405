import AudioServer.Api.Responses
import AudioServer.Services.Days
import AudioServer.Worker.Persisters

/-! What the days hold: the recordings by their calendar day in Japan, and the day summary written
from them. -/

namespace AudioServer.Services.Daily

open AudioServer.Foundations.Strings AudioServer.Api.Schemas AudioServer.Api.Responses
open AudioServer.Core.Datetimes AudioServer.Db.Models AudioServer.Processing.Contracts
open AudioServer.Services.Days AudioServer.Worker.Persisters

def inWindow (day : Day) (recording : Recording) : Prop :=
  (localWindow day).1 ≤ recording.startedAt ∧ recording.startedAt < (localWindow day).2

instance (day : Day) (recording : Recording) : Decidable (inWindow day recording) :=
  inferInstanceAs (Decidable (_ ∧ _))

/-- `ORDER BY started_at, id`. -/
def ListOrder (a b : Recording) : Prop :=
  a.startedAt < b.startedAt ∨ (a.startedAt = b.startedAt ∧ a.id ≤ b.id)

instance : DecidableRel ListOrder := fun _ _ => inferInstanceAs (Decidable (_ ∨ _))

instance : Std.Total ListOrder where
  total a b := by
    rcases lt_trichotomy a.startedAt b.startedAt with h | h | h
    · exact .inl (.inl h)
    · exact (le_total a.id b.id).imp (fun hid => .inr ⟨h, hid⟩) (fun hid => .inr ⟨h.symm, hid⟩)
    · exact .inr (.inl h)

instance : IsTrans Recording ListOrder where
  trans a b c hab hbc := by
    rcases hab with h | ⟨h, hid⟩
    · rcases hbc with k | ⟨k, _⟩
      · exact .inl (h.trans k)
      · exact .inl (k ▸ h)
    · rcases hbc with k | ⟨k, kid⟩
      · exact .inl (h ▸ k)
      · exact .inr ⟨h.trans k, hid.trans kid⟩

def dayRecordings (db : Database) (day : Day) : List Recording :=
  (db.recordings.filter (inWindow day ·)).insertionSort ListOrder

structure DailyRecordingDigest where
  index : ℕ
  recordingId : RecordingId
  timeLabel : Text
  descriptionJa : Text
  descriptionZhHk : Text
  summaryJa : Text
  summaryZhHk : Text
  tagsJa : List Text
  highlightsJa : List Text
deriving DecidableEq

def digit (n : ℤ) : Char := Char.ofNat (48 + n.toNat)

def twoDigits (n : ℤ) : Text := [digit (n / 10), digit (n % 10)]

def timeLabel (moment : Instant) : Text :=
  let minutes := (moment + dayTimezone) % dayLength / 60000000
  twoDigits (minutes / 60) ++ ':' :: twoDigits (minutes % 60)

def bilingual (value : BilingualDescription) : Option BilingualDescription :=
  if Blank value.ja then none else some value

def japaneseValues (values : List Text) : List Text := values.filter (¬ Blank ·)

def maxHighlightsPerRecording : ℕ := 3

def digestFromAnalysis (index : ℕ) (recording : Recording) (analysis : Analysis) :
    Option DailyRecordingDigest := do
  let result ← analysis.result
  let description ← bilingual result.description
  let summary := (result.summary.bind bilingual).getD ⟨[], []⟩
  some {
    index := index
    recordingId := recording.id
    timeLabel := timeLabel recording.startedAt
    descriptionJa := description.ja
    descriptionZhHk := description.zhHk
    summaryJa := summary.ja
    summaryZhHk := summary.zhHk
    tagsJa := japaneseValues (result.tags.map (·.ja))
    highlightsJa :=
      (japaneseValues (result.highlights.map (·.originalJa))).take maxHighlightsPerRecording }

def analysedRow (db : Database) (recording : Recording) : Option (Recording × Analysis) :=
  ((db.documents recording.id).analysis.filter (fun a => a.status = .completed)).map (recording, ·)

def analysedRows (db : Database) (day : Day) : List (Recording × Analysis) :=
  (dayRecordings db day).filterMap (analysedRow db)

structure Source where
  recording : Recording
  digest : DailyRecordingDigest

def sourceOf (row : (Recording × Analysis) × ℕ) : Option Source :=
  (digestFromAnalysis row.2 row.1.1 row.1.2).map (⟨row.1.1, ·⟩)

def sources (db : Database) (day : Day) : List Source :=
  (analysedRows db day).zipIdx.filterMap sourceOf

def collect (db : Database) (day : Day) : List DailyRecordingDigest × List SourceRevision :=
  ((sources db day).map (·.digest),
    (sources db day).map (fun s =>
      ⟨s.recording.id, (db.documents s.recording.id).analysisRevision⟩))

def KeyOrder (a b : SourceRevision) : Prop :=
  a.recordingId < b.recordingId ∨
    (a.recordingId = b.recordingId ∧ a.analysisRevision ≤ b.analysisRevision)

instance : DecidableRel KeyOrder := fun _ _ => inferInstanceAs (Decidable (_ ∨ _))

def revisionKey (revisions : List SourceRevision) : List SourceRevision :=
  revisions.insertionSort KeyOrder

def matchesRevisions (db : Database) (day : Day) (revisions : List SourceRevision) : Prop :=
  revisionKey (collect db day).2 = revisionKey revisions

instance (db : Database) (day : Day) (revisions : List SourceRevision) :
    Decidable (matchesRevisions db day revisions) := inferInstanceAs (Decidable (_ = _))

def isStale (db : Database) (day : Day) (summary : DailySummary) : Bool :=
  summary.status = .completed && !decide (matchesRevisions db day summary.sourceRevisions)

structure DailyResult where
  status : PipelineAnalysisStatus
  provider : Text
  model : Option Text
  schemaVersion : ℕ
  data : Option DailySummaryResultV1
  errorCode : Option Text
  errorMessage : Option Text

def writtenSummary (day : Day) (result : DailyResult) (revisions : List SourceRevision) :
    DailySummary where
  summaryDate := day
  provider := result.provider
  model := result.model
  schemaVersion := (toString result.schemaVersion).toList
  status := storedStatus result.status
  result := result.data
  sourceRevisions := revisions
  errorCode := result.errorCode
  errorMessage := result.errorMessage

def persistSummary (day : Day) (result : DailyResult) (revisions : List SourceRevision)
    (summaries : List DailySummary) : List DailySummary :=
  if summaries.any (fun s => s.summaryDate = day) then
    summaries.map (fun s => if s.summaryDate = day then writtenSummary day result revisions else s)
  else summaries ++ [writtenSummary day result revisions]

def summaryOf (summaries : List DailySummary) (day : Day) : Option DailySummary :=
  summaries.find? (fun s => s.summaryDate = day)

def analysed (db : Database) (id : RecordingId) : Bool :=
  (db.documents id).analysis.any (fun a => a.status = .completed)

structure DayDetail where
  day : Day
  recordings : List Recording
  analysedIds : List RecordingId
  activeJobIds : List RecordingId
  summary : Option DailySummary
  stale : Bool
  job : Option ProcessingJob
deriving DecidableEq

def getDay (db : Database) (summaries : List DailySummary) (day : Day) : DayDetail where
  day := day
  recordings := dayRecordings db day
  analysedIds := ((dayRecordings db day).map (·.id)).filter (analysed db)
  activeJobIds := ((dayRecordings db day).map (·.id)).filter (fun id => (db.activeJob id).isSome)
  summary := summaryOf summaries day
  stale := (summaryOf summaries day).any (isStale db day)
  job := newestJob (db.jobs.filter (fun j => j.summaryDate = some day))

structure DayListEntry where
  day : Day
  recordingCount : ℕ
  analysedCount : ℕ
  summaryStatus : Option AnalysisStatus
  summaryStale : Bool
deriving DecidableEq

structure DayCount where
  day : Day
  recordings : ℕ
  analysed : ℕ

def countRecording (day : Day) (isAnalysed : Bool) (counts : List DayCount) : List DayCount :=
  let more (c : DayCount) : DayCount :=
    ⟨day, c.recordings + 1, if isAnalysed then c.analysed + 1 else c.analysed⟩
  if counts.any (fun c => c.day = day) then
    counts.map (fun c => if c.day = day then more c else c)
  else counts ++ [more ⟨day, 0, 0⟩]

def countDays (db : Database) (wanted : ℕ) : List Recording → List DayCount → List DayCount
  | [], counts => counts
  | r :: rest, counts =>
    if ¬ counts.any (fun c => c.day = localDay r.startedAt) ∧ wanted ≤ counts.length then counts
    else countDays db wanted rest (countRecording (localDay r.startedAt) (analysed db r.id) counts)

def dayEntry (db : Database) (summaries : List DailySummary) (c : DayCount) : DayListEntry where
  day := c.day
  recordingCount := c.recordings
  analysedCount := c.analysed
  summaryStatus := (summaryOf summaries c.day).map (·.status)
  summaryStale := (summaryOf summaries c.day).any (isStale db c.day)

def listDays (db : Database) (summaries : List DailySummary) (limit offset : ℕ) :
    List DayListEntry :=
  let newestFirst := (db.recordings.insertionSort ListOrder).reverse
  let counts := countDays db (limit + offset) newestFirst []
  ((counts.insertionSort (fun a b => b.day ≤ a.day)).drop offset |>.take limit).map
    (dayEntry db summaries)

section Digests

variable {db : Database} {day : Day}

lemma inWindow_iff {r : Recording} : inWindow day r ↔ localDay r.startedAt = day := window_iff

lemma digestFromAnalysis_some {index : ℕ} {recording : Recording} {analysis : Analysis}
    {digest : DailyRecordingDigest} (h : digestFromAnalysis index recording analysis = some digest) :
    digest.index = index ∧ digest.recordingId = recording.id := by
  obtain ⟨result, _, h⟩ := Option.bind_eq_some_iff.mp h
  obtain ⟨description, _, h⟩ := Option.bind_eq_some_iff.mp h
  cases h
  exact ⟨rfl, rfl⟩

lemma dayRecordings_mem {r : Recording} :
    r ∈ dayRecordings db day ↔ r ∈ db.recordings ∧ inWindow day r := by
  rw [dayRecordings, List.mem_insertionSort, List.mem_filter, decide_eq_true_iff]

lemma analysedRow_some {r : Recording} {row : Recording × Analysis}
    (h : analysedRow db r = some row) :
    row.1 = r ∧ (db.documents r.id).analysis = some row.2 ∧ row.2.status = .completed := by
  obtain ⟨analysis, hfinished, rfl⟩ := Option.map_eq_some_iff.mp h
  obtain ⟨hanalysis, hstatus⟩ := Option.filter_eq_some_iff.mp hfinished
  exact ⟨rfl, hanalysis, by simpa using hstatus⟩

lemma source_ok {s : Source} (h : s ∈ sources db day) :
    s.recording ∈ db.recordings ∧ inWindow day s.recording ∧
      ∃ a, (db.documents s.recording.id).analysis = some a ∧ a.status = .completed ∧
        digestFromAnalysis s.digest.index s.recording a = some s.digest := by
  obtain ⟨⟨row, index⟩, hrow, hs⟩ := List.mem_filterMap.mp h
  obtain ⟨digest, hdigest, rfl⟩ := Option.map_eq_some_iff.mp hs
  have hmem : row ∈ analysedRows db day := List.fst_mem_of_mem_zipIdx hrow
  obtain ⟨r, hr, ha⟩ := List.mem_filterMap.mp hmem
  obtain ⟨hrec, hanalysis, hstatus⟩ := analysedRow_some ha
  obtain ⟨hdb, hday⟩ := dayRecordings_mem.mp hr
  obtain ⟨hindex, _⟩ := digestFromAnalysis_some hdigest
  dsimp only at hdigest hindex ⊢
  subst hrec hindex
  exact ⟨hdb, hday, row.2, hanalysis, hstatus, hdigest⟩

lemma collect_revision {s : SourceRevision} (h : s ∈ (collect db day).2) :
    (∃ r ∈ db.recordings, r.id = s.recordingId) ∧
      s.analysisRevision = (db.documents s.recordingId).analysisRevision := by
  obtain ⟨source, hsource, rfl⟩ := List.mem_map.mp h
  exact ⟨⟨source.recording, (source_ok hsource).1, rfl⟩, rfl⟩

lemma collect_digest {digest : DailyRecordingDigest} (h : digest ∈ (collect db day).1) :
    ∃ r ∈ db.recordings, r.id = digest.recordingId ∧
      ⟨r.id, (db.documents r.id).analysisRevision⟩ ∈ (collect db day).2 ∧
      ∃ a, (db.documents r.id).analysis = some a ∧ a.status = .completed ∧
        digestFromAnalysis digest.index r a = some digest := by
  obtain ⟨source, hsource, rfl⟩ := List.mem_map.mp h
  obtain ⟨hdb, _, a, ha, hstatus, hdigest⟩ := source_ok hsource
  refine ⟨source.recording, hdb, (digestFromAnalysis_some hdigest).2.symm, ?_, a, ha, hstatus,
    hdigest⟩
  exact List.mem_map_of_mem (f := fun s : Source =>
    (⟨s.recording.id, (db.documents s.recording.id).analysisRevision⟩ : SourceRevision)) hsource

lemma revisionKey_perm (revisions : List SourceRevision) :
    (revisionKey revisions).Perm revisions := List.perm_insertionSort ..

lemma matchesRevisions_perm {revisions : List SourceRevision}
    (h : matchesRevisions db day revisions) : revisions.Perm (collect db day).2 := by
  rw [matchesRevisions] at h
  exact (revisionKey_perm revisions).symm.trans (h ▸ revisionKey_perm (collect db day).2)

end Digests

end AudioServer.Services.Daily
