import AudioServer.Jobs.Calls
import AudioServer.Services.Recordings

/-! The committed transactions of the server that touch recordings and jobs. -/

namespace AudioServer.Services.Transactions

open AudioServer.Foundations.Outcomes AudioServer.Foundations.Runs AudioServer.Db.Models
open AudioServer.Jobs.Queue AudioServer.Jobs.Calls AudioServer.Services.Recordings

/-- `create` is the transaction `ingest` and `ingest_web` end with. -/
inductive ServerCall
  | queue (call : QueueCall)
  | create (service : RecordingService) (recording : Recording) (row : RowDefaults) (now : Instant)
  | retry (service : RecordingService) (id : RecordingId) (row : RowDefaults) (now : Instant)
  | reprocess (service : RecordingService) (id : RecordingId) (row : RowDefaults) (now : Instant)
  | reprocessAnalysis (service : RecordingService) (id : RecordingId) (row : RowDefaults)
      (now : Instant)
  | reprocessTranslation (service : RecordingService) (id : RecordingId) (row : RowDefaults)
      (now : Instant)
  | deleteRecording (id : RecordingId)
  | dailySummary (day : Day) (maxAttempts : ℕ) (availableAt : Instant) (row : RowDefaults)
  | switches (settings : ProcessingSettings)

def forget {α : Type} (x : Except Exn (α × Database)) : Except Exn (Unit × Database) :=
  x.map (Prod.map (fun _ => ()) id)

def ServerCall.exec : ServerCall → Database → Except Exn (Unit × Database)
  | .queue call, db => forget (call.exec db)
  | .create service recording row now, db => forget (createRecordingAndJob service recording row now db)
  | .retry service id row now, db => forget (Recordings.retry service id row now db)
  | .reprocess service id row now, db => forget (Recordings.reprocess service id row now db)
  | .reprocessAnalysis service id row now, db =>
    forget (Recordings.reprocessAnalysis service id row now db)
  | .reprocessTranslation service id row now, db =>
    forget (Recordings.reprocessTranslation service id row now db)
  | .deleteRecording id, db => Recordings.deleteRecording id db
  | .dailySummary day maxAttempts availableAt row, db =>
    (createDailySummaryJob db day maxAttempts availableAt row).map (fun db => ((), db))
  | .switches settings, db => .ok ((), { db with settings := some settings })

def ServerStep (db : Database) (call : ServerCall) (db' : Database) : Prop :=
  db' = settled db (call.exec db)

abbrev ServerRun (db : Database) (es : List (Event Database ServerCall)) (db' : Database) : Prop :=
  Run ServerStep db es db'

lemma forget_ok {α : Type} {x : Except Exn (α × Database)} {u : Unit} {db : Database}
    (h : forget x = .ok (u, db)) : ∃ a, x = .ok (a, db) := by
  obtain ⟨a, ha, _⟩ := map_ok h
  exact ⟨a, ha⟩

lemma dailySummary_exec {day : Day} {maxAttempts : ℕ} {availableAt : Instant} {row : RowDefaults}
    {db db' : Database} {u : Unit}
    (h : (ServerCall.dailySummary day maxAttempts availableAt row).exec db = .ok (u, db')) :
    createDailySummaryJob db day maxAttempts availableAt row = .ok db' := by
  rw [ServerCall.exec] at h
  cases hc : createDailySummaryJob db day maxAttempts availableAt row with
  | error e =>
    rw [hc] at h
    cases h
  | ok t =>
    rw [hc] at h
    cases h
    rfl

lemma queueStep_of_server {db db' : Database} {call : QueueCall}
    (h : ServerStep db (.queue call) db') : QueueStep db call db' := by
  rw [QueueStep, h, ServerCall.exec]
  cases call.exec db <;> rfl

lemma serverStep_cases {db db' : Database} {call : ServerCall} (h : ServerStep db call db') :
    call.exec db = .ok ((), db') ∨ db' = db := by
  rcases settled_cases db (call.exec db) with ⟨_, t, hok, hs⟩ | ⟨_, _, hs⟩
  · exact .inl (by rw [h, hs, hok])
  · exact .inr (h.trans hs)

end AudioServer.Services.Transactions
