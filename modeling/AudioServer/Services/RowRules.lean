import AudioServer.Services.Consistency

/-! The rule for what every row of the job table satisfies by itself: a new row has it, and a step
of a row keeps it. -/

namespace AudioServer.Services.RowRules

open AudioServer.Foundations.Outcomes AudioServer.Foundations.Runs AudioServer.Db.Models
open AudioServer.Jobs.Queue AudioServer.Jobs.Effects AudioServer.Jobs.Calls
open AudioServer.Services.Recordings AudioServer.Services.Transactions
open AudioServer.Services.Consistency

structure RowRule (P : ProcessingJob → Prop) : Prop where
  fresh : ∀ id recordingId day kind followUp maxAttempts availableAt createdAt,
    P (newJob id recordingId day kind followUp maxAttempts availableAt createdAt)
  step : ∀ job job', P job → RowStep job job' → P job'

def AllRows (P : ProcessingJob → Prop) (db : Database) : Prop := ∀ j ∈ db.jobs, P j

variable {P : ProcessingJob → Prop} {db db' : Database}

lemma RowRule.moved (h : RowRule P) {token : Option ClaimToken} (hp : AllRows P db)
    (hmoved : Moved token db db') : AllRows P db' := by
  obtain ⟨job, job', row, now, hm, _⟩ := hmoved
  intro j hj
  rcases hm.origin hj with ⟨hold, _⟩ | rfl | hnew
  · exact hp j hold
  · exact h.step job j (hp job hm.stored) hm.step
  · obtain ⟨_, _, _, _, rfl⟩ := handedOn_mem hnew
    exact h.fresh _ _ _ _ _ _ _ _

lemma RowRule.queueStep (h : RowRule P) {call : QueueCall} (hids : UniqueJobIds db)
    (hp : AllRows P db) (hstep : QueueStep db call db') : AllRows P db' :=
  hstep.keeps (AllRows P) (fun _ _ => h.moved) hids hp

lemma allRows_snoc {job : ProcessingJob} (hp : AllRows P db) (hjob : P job)
    (hjobs : db'.jobs = db.jobs ++ [job]) : AllRows P db' := by
  intro j hj
  rw [hjobs, List.mem_append, List.mem_singleton] at hj
  rcases hj with hold | rfl
  · exact hp j hold
  · exact hjob

lemma RowRule.enqueued (h : RowRule P) {service : RecordingService} {id : RecordingId}
    {allowed : List RecordingStatus} {code message : String} {kind : JobKind} {needsTranscript : Bool}
    {row : RowDefaults} {now : Instant} {job : ProcessingJob} (hp : AllRows P db)
    (henqueued : enqueueProcessing service id allowed code message kind needsTranscript row now db =
      .ok (job, db')) : AllRows P db' := by
  obtain ⟨rfl, _, _, hjobs, _⟩ := enqueueProcessing_ok henqueued
  exact allRows_snoc hp (h.fresh _ _ _ _ _ _ _ _) hjobs

lemma RowRule.serverStep (h : RowRule P) {call : ServerCall} (hids : UniqueJobIds db)
    (hp : AllRows P db) (hstep : ServerStep db call db') : AllRows P db' := by
  rcases serverStep_cases hstep with hexec | rfl
  · cases call with
    | queue q => exact h.queueStep hids hp (queueStep_of_server hstep)
    | create service recording row now =>
      obtain ⟨_, hc⟩ := forget_ok hexec
      obtain ⟨_, _, _, hjobs, _⟩ := createRecordingAndJob_ok hc
      exact allRows_snoc hp (h.fresh _ _ _ _ _ _ _ _) hjobs
    | retry service id row now =>
      obtain ⟨_, hc⟩ := forget_ok hexec
      exact h.enqueued hp hc
    | reprocess service id row now =>
      obtain ⟨_, hc⟩ := forget_ok hexec
      exact h.enqueued hp hc
    | reprocessAnalysis service id row now =>
      obtain ⟨_, hc⟩ := forget_ok hexec
      exact h.enqueued hp hc
    | reprocessTranslation service id row now =>
      obtain ⟨_, hc⟩ := forget_ok hexec
      exact h.enqueued hp hc
    | deleteRecording id =>
      obtain ⟨_, _, hjobs, _⟩ := deleteRecording_ok hexec
      intro j hj
      rw [hjobs] at hj
      exact hp j (List.mem_of_mem_filter hj)
    | dailySummary day maxAttempts availableAt row =>
      obtain ⟨rfl, _⟩ := createDailySummaryJob_ok (dailySummary_exec hexec)
      exact allRows_snoc hp (h.fresh _ _ _ _ _ _ _ _) rfl
    | switches settings =>
      cases hexec
      exact hp
  · exact hp

end AudioServer.Services.RowRules
