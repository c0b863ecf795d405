import AudioServer.Jobs.Transitions
import AudioServer.Services.Transactions

/-! What the transactions outside the queue write into the timeline: a job is added with its
line, or a recording leaves with its jobs and all their rows. -/

namespace AudioServer.Services.Openings

open AudioServer.Foundations.Outcomes AudioServer.Foundations.Journals AudioServer.Db.Models
open AudioServer.Activity.Repository AudioServer.Activity.Timeline
open AudioServer.Jobs.Queue AudioServer.Jobs.Effects AudioServer.Jobs.Calls AudioServer.Jobs.Transitions
open AudioServer.Services.Recordings AudioServer.Services.Transactions

structure Unclaimed (job : ProcessingJob) : Prop where
  status : job.status = .queued
  attempts : job.attemptCount = 0
  token : job.claimToken = none

lemma newJob_unclaimed (id : JobId) (recordingId : Option RecordingId) (day : Option Day)
    (kind : JobKind) (followUp : Option JobKind) (maxAttempts : ℕ) (availableAt createdAt : Instant) :
    Unclaimed (newJob id recordingId day kind followUp maxAttempts availableAt createdAt) :=
  ⟨rfl, rfl, rfl⟩

def Queues (eventType : ProcessingActivityType) : Prop :=
  eventType = .jobQueued ∨ eventType = .manualRetryQueued

def deletes : ServerCall → Option RecordingId
  | .deleteRecording id => some id
  | _ => none

inductive Booked (gone : Option RecordingId) (db db' : Database) : Prop
  | same (hjobs : db'.jobs = db.jobs) (hrows : db'.activity = db.activity)
  | opened (job : ProcessingJob) (eventType : ProcessingActivityType) (hnew : Unclaimed job)
      (htype : Queues eventType) (hfresh : ∀ j ∈ db.jobs, j.id ≠ job.id)
      (hjobs : db'.jobs = db.jobs ++ [job])
      (hrows : db'.activity = recordAll db.activity (queuedLines eventType job))
  | erased (id : RecordingId) (hgone : gone = some id)
      (hjobs : db'.jobs = db.jobs.filter (fun j => j.recordingId ≠ some id))
      (hrows : db'.activity = db.activity.filter (fun a => a.recordingId ≠ id))

lemma created_booked {service : RecordingService} {recording created : Recording} {row : RowDefaults}
    {now : Instant} {db db' : Database} (gone : Option RecordingId)
    (h : createRecordingAndJob service recording row now db = .ok (created, db')) :
    Booked gone db db' := by
  obtain ⟨_, _, _, hjobs, _, _, _, hfresh⟩ := createRecordingAndJob_ok h
  obtain ⟨db₁, hr, h⟩ := bind_ok h
  obtain ⟨db₂, hj, h⟩ := bind_ok h
  obtain ⟨db₃, ha, h⟩ := bind_ok h
  cases h
  obtain ⟨rfl, _⟩ := insertJob_ok hj
  obtain ⟨rfl, _⟩ := insertRecording_ok hr
  refine .opened _ .jobQueued (newJob_unclaimed ..) (.inl rfl) hfresh hjobs ?_
  rw [appendActivity_rows ha]
  rfl

lemma enqueued_booked {service : RecordingService} {id : RecordingId} {allowed : List RecordingStatus}
    {code message : String} {kind : JobKind} {needsTranscript : Bool} {row : RowDefaults}
    {now : Instant} {db db' : Database} {job : ProcessingJob} (gone : Option RecordingId)
    (h : enqueueProcessing service id allowed code message kind needsTranscript row now db =
      .ok (job, db')) : Booked gone db db' := by
  obtain ⟨_, _, _, hjobs, _, _, _, _, hfresh⟩ := enqueueProcessing_ok h
  obtain ⟨recording, hr, h⟩ := bind_ok h
  obtain ⟨_, rfl⟩ := recording_some (found_ok.mp hr)
  obtain ⟨_, _, h⟩ := bind_ok h
  obtain ⟨_, _, h⟩ := bind_ok h
  obtain ⟨_, _, h⟩ := bind_ok h
  obtain ⟨db₁, hj, h⟩ := bind_ok h
  obtain ⟨db₂, ha, h⟩ := bind_ok h
  cases h
  obtain ⟨rfl, _⟩ := insertJob_ok hj
  refine .opened _ .manualRetryQueued (newJob_unclaimed ..) (.inr rfl) hfresh hjobs ?_
  rw [appendActivity_rows ha]
  by_cases hk : kind = .full
  · simp only [hk, if_true]
    rfl
  · simp only [hk, if_false]
    rfl

lemma deleted_booked {id : RecordingId} {db db' : Database} {u : Unit}
    (h : deleteRecording id db = .ok (u, db')) : Booked (some id) db db' := by
  obtain ⟨_, _, h⟩ := bind_ok h
  obtain ⟨_, _, h⟩ := bind_ok h
  obtain ⟨_, _, h⟩ := bind_ok h
  cases h
  exact .erased id rfl rfl rfl

lemma serverStep_booked {db db' : Database} {call : ServerCall} (h : ServerStep db call db') :
    (∃ c, call = .queue c ∧ QueueStep db c db') ∨ Booked (deletes call) db db' := by
  rcases serverStep_cases h with hexec | rfl
  · cases call with
    | queue call => exact .inl ⟨call, rfl, queueStep_of_server h⟩
    | create service recording row now =>
      obtain ⟨_, hc⟩ := forget_ok hexec
      exact .inr (created_booked none hc)
    | retry service id row now =>
      obtain ⟨_, hc⟩ := forget_ok hexec
      exact .inr (enqueued_booked none hc)
    | reprocess service id row now =>
      obtain ⟨_, hc⟩ := forget_ok hexec
      exact .inr (enqueued_booked none hc)
    | reprocessAnalysis service id row now =>
      obtain ⟨_, hc⟩ := forget_ok hexec
      exact .inr (enqueued_booked none hc)
    | reprocessTranslation service id row now =>
      obtain ⟨_, hc⟩ := forget_ok hexec
      exact .inr (enqueued_booked none hc)
    | deleteRecording id => exact .inr (deleted_booked hexec)
    | dailySummary day maxAttempts availableAt row =>
      obtain ⟨rfl, _, hfresh⟩ := createDailySummaryJob_ok (dailySummary_exec hexec)
      exact .inr (.opened _ .jobQueued (newJob_unclaimed ..) (.inl rfl) hfresh rfl rfl)
    | switches settings =>
      cases hexec
      exact .inr (.same rfl rfl)
  · exact .inr (.same rfl rfl)

end AudioServer.Services.Openings
