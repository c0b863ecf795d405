import AudioServer.Activity.Repository
import AudioServer.Foundations.Journals

/-! The timeline of a job: its rows of activity, in the order they were committed, and the
transition each of them stands for. -/

namespace AudioServer.Activity.Timeline

open AudioServer.Foundations.Outcomes AudioServer.Foundations.Strings AudioServer.Foundations.Journals
open AudioServer.Db.Models AudioServer.Activity.Repository

inductive Mark
  | queued
  | started (attempt : ℕ)
  | staged (attempt : ℕ) (stage : Option JobStage)
  | closed (attempt : ℕ)
deriving DecidableEq

def mark (row : ProcessingActivity) : Mark :=
  match row.eventType with
  | .jobQueued | .manualRetryQueued => .queued
  | .processingStarted => .started row.attemptCount
  | .stageStarted => .staged row.attemptCount row.stage
  | .retryScheduled | .leaseRecovered | .processingCompleted | .processingFailed =>
    .closed row.attemptCount

abbrev rowsOf (rows : List ProcessingActivity) (id : JobId) : List ProcessingActivity :=
  entriesOf ProcessingActivity.jobId rows id

abbrev marksOf (rows : List ProcessingActivity) (id : JobId) : List Mark := (rowsOf rows id).map mark

abbrev record (rows : List ProcessingActivity) (row : ProcessingActivity) : List ProcessingActivity :=
  note SameEvent rows row

@[simp] lemma bounded_jobId (row : ProcessingActivity) : (bounded row).jobId = row.jobId := rfl

@[simp] lemma bounded_occurredAt (row : ProcessingActivity) :
    (bounded row).occurredAt = row.occurredAt := rfl

@[simp] lemma mark_bounded (row : ProcessingActivity) : mark (bounded row) = mark row := rfl

lemma sameEvent_symm (a b : ProcessingActivity) (h : SameEvent a b) : SameEvent b a :=
  ⟨h.1.symm, h.2.1.symm, h.2.2.1.symm, h.2.2.2.symm⟩

lemma sameEvent_mark {a b : ProcessingActivity} (h : SameEvent a b) :
    a.jobId = b.jobId ∧ mark a = mark b := by
  obtain ⟨hjob, hattempt, htype, hstage⟩ := h
  refine ⟨hjob, ?_⟩
  rw [mark, mark, htype, hattempt, hstage]

lemma sameEvent_staged {a b : ProcessingActivity} {attempt : ℕ} {stage : Option JobStage}
    (hjob : a.jobId = b.jobId) (ha : mark a = .staged attempt stage)
    (hb : mark b = .staged attempt stage) : SameEvent a b := by
  have hkey : ∀ row : ProcessingActivity, mark row = .staged attempt stage →
      row.eventType = .stageStarted ∧ row.attemptCount = attempt ∧ row.stage = stage := by
    intro row h
    rw [mark] at h
    cases htype : row.eventType with
    | stageStarted =>
      rw [htype] at h
      cases h
      exact ⟨rfl, rfl, rfl⟩
    | _ =>
      rw [htype] at h
      cases h
  obtain ⟨htype, hattempt, hstage⟩ := hkey a ha
  obtain ⟨htype', hattempt', hstage'⟩ := hkey b hb
  exact ⟨hjob, hattempt.trans hattempt'.symm, htype.trans htype'.symm, hstage.trans hstage'.symm⟩

lemma record_fresh {rows : List ProcessingActivity} {row : ProcessingActivity}
    (h : mark row ∉ marksOf rows row.jobId) : record rows row = rows ++ [row] := by
  apply note_fresh
  intro a ha hsame
  obtain ⟨hjob, hmark⟩ := sameEvent_mark hsame
  refine h (List.mem_map.mpr ⟨a, ?_, hmark.symm⟩)
  exact (mem_entriesOf _).mpr ⟨ha, hjob.symm⟩

lemma record_staged {rows : List ProcessingActivity} {row : ProcessingActivity} {attempt : ℕ}
    {stage : Option JobStage} (hrow : mark row = .staged attempt stage)
    (h : mark row ∈ marksOf rows row.jobId) : record rows row = rows := by
  obtain ⟨a, ha, hmark⟩ := List.mem_map.mp h
  obtain ⟨hmem, hjob⟩ := (mem_entriesOf _).mp ha
  exact note_known SameEvent hmem (sameEvent_staged hjob.symm hrow (hmark.trans hrow))

lemma rowsOf_record {rows : List ProcessingActivity} {row : ProcessingActivity} {id : JobId}
    (h : row.jobId ≠ id) : rowsOf (record rows row) id = rowsOf rows id := by
  have hrow : ∀ a ∈ [row], a.jobId ≠ id := by simpa using h
  exact entriesOf_notes SameEvent _ hrow

/-- The rows `_append_job_activity` writes: a job without a recording has none. -/
def lines (recordingId : Option RecordingId) (event : Option (RecordingId → ProcessingActivity)) :
    List ProcessingActivity :=
  match recordingId, event with
  | some id, some event => [bounded (event id)]
  | _, _ => []

@[simp] lemma lines_silent (recordingId : Option RecordingId) : lines recordingId none = [] := by
  cases recordingId <;> rfl

@[simp] lemma lines_some (id : RecordingId) (event : RecordingId → ProcessingActivity) :
    lines (some id) (some event) = [bounded (event id)] := rfl

abbrev recordAll (rows new : List ProcessingActivity) : List ProcessingActivity := new.foldl record rows

lemma appendActivity_rows {db db' : Database} {event : ProcessingActivity}
    (h : appendActivity db event = .ok db') :
    db' = { db with activity := record db.activity (bounded event) } := by
  obtain ⟨_, _, h⟩ := bind_ok h
  obtain ⟨_, _, h⟩ := bind_ok h
  have hkey : (db.activity.any (SameEvent event ·)) = db.activity.any (SameEvent (bounded event) ·) :=
    rfl
  rw [hkey] at h
  rw [record, note]
  split at h
  · rename_i hknown
    rw [if_pos hknown]
    cases h
    rfl
  · rename_i hnew
    rw [if_neg hnew]
    cases h
    rfl

end AudioServer.Activity.Timeline
