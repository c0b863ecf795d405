import AudioServer.Services.Consistency

/-! Where the claim tokens of the job table come from. -/

namespace AudioServer.Services.Leases

open AudioServer.Foundations.Outcomes AudioServer.Foundations.Runs AudioServer.Db.Models
open AudioServer.Jobs.Queue AudioServer.Jobs.Effects AudioServer.Jobs.Calls
open AudioServer.Services.Recordings AudioServer.Services.Transactions
open AudioServer.Services.Consistency

def TokenFrom (token : Option ClaimToken) (db : Database) (row : ProcessingJob) : Prop :=
  ∀ t, row.claimToken = some t → token = some t ∨
    ∃ j ∈ db.jobs, SameJob j row ∧ j.claimToken = some t ∧ j.workerId = row.workerId ∧
      j.status = row.status ∧ j.attemptCount = row.attemptCount

lemma tokenFrom_stored {token : Option ClaimToken} {db : Database} {job : ProcessingJob}
    (h : job ∈ db.jobs) : TokenFrom token db job :=
  fun _ ht => .inr ⟨job, h, ⟨rfl, rfl, rfl, rfl, rfl, rfl, rfl⟩, ht, rfl, rfl, rfl⟩

lemma tokenFrom_none {token : Option ClaimToken} {db : Database} {job : ProcessingJob}
    (h : job.claimToken = none) : TokenFrom token db job := by
  intro t ht
  rw [h] at ht
  cases ht

lemma sameJob_trans {a b c : ProcessingJob} (h : SameJob a b) (k : SameJob b c) : SameJob a c :=
  ⟨k.1.trans h.1, k.2.1.trans h.2.1, k.2.2.1.trans h.2.2.1, k.2.2.2.1.trans h.2.2.2.1,
    k.2.2.2.2.1.trans h.2.2.2.2.1, k.2.2.2.2.2.1.trans h.2.2.2.2.2.1,
    k.2.2.2.2.2.2.trans h.2.2.2.2.2.2⟩

lemma moved_tokenFrom {token : Option ClaimToken} {db db' : Database} (h : Moved token db db')
    {row : ProcessingJob} (hrow : row ∈ db'.jobs) : TokenFrom token db row := by
  obtain ⟨job, job', defaults, now, hm, hq⟩ := h
  rcases hm.origin hrow with ⟨hold, _⟩ | rfl | hnew
  · exact tokenFrom_stored hold
  · have hstep := hm.step
    have hstored := hm.stored
    cases hstep with
    | claimed queue taken at_ hs =>
      intro t ht
      exact .inl ((hq hs).symm.trans ht)
    | renewed stage at_ lease hs =>
      intro t ht
      exact .inr ⟨job, hstored, hm.step.same, ht, rfl, rfl, rfl⟩
    | completed at_ hs => exact tokenFrom_none rfl
    | retried availableAt at_ stage code errorType message hs hlt => exact tokenFrom_none rfl
    | failed at_ stage code errorType message hs => exact tokenFrom_none rfl
  · obtain ⟨_, _, kind, _, rfl⟩ := handedOn_mem hnew
    exact tokenFrom_none rfl

lemma queueStep_tokenFrom {db db' : Database} {call : QueueCall} (hids : UniqueJobIds db)
    (h : QueueStep db call db') {row : ProcessingJob} (hrow : row ∈ db'.jobs) :
    TokenFrom call.token db row := by
  apply h.keeps (fun t => ∀ row ∈ t.jobs, TokenFrom call.token db row) ?_ hids
    (fun _ => tokenFrom_stored) row hrow
  intro s t hs hm row hrow token ht
  rcases moved_tokenFrom hm hrow token ht with
    hcall | ⟨j, hj, hsame, hjt, hworker, hstatus, hattempt⟩
  · exact .inl hcall
  · rcases hs j hj token hjt with hcall | ⟨k, hk, hsame', hkt, hworker', hstatus', hattempt'⟩
    · exact .inl hcall
    · exact .inr ⟨k, hk, sameJob_trans hsame' hsame, hkt, hworker'.trans hworker,
        hstatus'.trans hstatus, hattempt'.trans hattempt⟩

def callToken : ServerCall → Option ClaimToken
  | .queue call => call.token
  | _ => none

lemma tokenFrom_added {db db' : Database} {job row : ProcessingJob}
    (hjobs : db'.jobs = db.jobs ++ [job]) (hnone : job.claimToken = none) (hrow : row ∈ db'.jobs) :
    TokenFrom none db row := by
  rw [hjobs, List.mem_append, List.mem_singleton] at hrow
  rcases hrow with hold | rfl
  · exact tokenFrom_stored hold
  · exact tokenFrom_none hnone

lemma enqueued_tokenFrom {service : RecordingService} {id : RecordingId}
    {allowed : List RecordingStatus} {code message : String} {kind : JobKind} {needsTranscript : Bool}
    {defaults : RowDefaults} {now : Instant} {db db' : Database} {job row : ProcessingJob}
    (h : enqueueProcessing service id allowed code message kind needsTranscript defaults now db =
      .ok (job, db')) (hrow : row ∈ db'.jobs) : TokenFrom none db row := by
  obtain ⟨rfl, _, _, hjobs, _⟩ := enqueueProcessing_ok h
  exact tokenFrom_added hjobs rfl hrow

lemma serverStep_tokenFrom {db db' : Database} {call : ServerCall} (hids : UniqueJobIds db)
    (h : ServerStep db call db') {row : ProcessingJob} (hrow : row ∈ db'.jobs) :
    TokenFrom (callToken call) db row := by
  rcases serverStep_cases h with hexec | rfl
  · cases call with
    | queue call => exact queueStep_tokenFrom hids (queueStep_of_server h) hrow
    | create service recording defaults now =>
      obtain ⟨_, hc⟩ := forget_ok hexec
      obtain ⟨_, _, _, hjobs, _⟩ := createRecordingAndJob_ok hc
      exact tokenFrom_added hjobs rfl hrow
    | retry service id defaults now =>
      obtain ⟨_, hc⟩ := forget_ok hexec
      exact enqueued_tokenFrom hc hrow
    | reprocess service id defaults now =>
      obtain ⟨_, hc⟩ := forget_ok hexec
      exact enqueued_tokenFrom hc hrow
    | reprocessAnalysis service id defaults now =>
      obtain ⟨_, hc⟩ := forget_ok hexec
      exact enqueued_tokenFrom hc hrow
    | reprocessTranslation service id defaults now =>
      obtain ⟨_, hc⟩ := forget_ok hexec
      exact enqueued_tokenFrom hc hrow
    | deleteRecording id =>
      obtain ⟨_, _, hjobs, _⟩ := deleteRecording_ok hexec
      rw [hjobs] at hrow
      exact tokenFrom_stored (List.mem_of_mem_filter hrow)
    | dailySummary day maxAttempts availableAt defaults =>
      obtain ⟨rfl, _⟩ := createDailySummaryJob_ok (dailySummary_exec hexec)
      exact tokenFrom_added rfl rfl hrow
    | switches settings =>
      cases hexec
      exact tokenFrom_stored hrow
  · exact tokenFrom_stored hrow

def Given (db : Database) (claim : ClaimedJob) : Prop :=
  ∀ j ∈ db.jobs, j.claimToken = some claim.claimToken →
    j.id = claim.id ∧ j.recordingId = claim.recordingId ∧ j.kind = claim.kind

lemma tokenFrom_given {token : Option ClaimToken} {db db' : Database} {claim : ClaimedJob}
    (hgiven : Given db claim) (hfresh : token ≠ some claim.claimToken)
    (hrows : ∀ row ∈ db'.jobs, TokenFrom token db row) : Given db' claim := by
  intro row hrow ht
  rcases hrows row hrow _ ht with hcall | ⟨j, hj, hsame, hjt, _⟩
  · exact absurd hcall hfresh
  · obtain ⟨hid, hrec, hkind⟩ := hgiven j hj hjt
    exact ⟨hsame.1.trans hid, hsame.2.1.trans hrec, hsame.2.2.2.1.trans hkind⟩

lemma tokenFrom_owns {token : Option ClaimToken} {db : Database} {claim : ClaimedJob}
    {row : ProcessingJob} (hfrom : TokenFrom token db row) (hfresh : token ≠ some claim.claimToken)
    (ho : Owns claim row) : ∃ j ∈ db.jobs, SameJob j row ∧ Owns claim j := by
  obtain ⟨hid, hstatus, htoken, hworker⟩ := ho
  rcases hfrom _ htoken with hcall | ⟨j, hj, hsame, hjt, hjw, hjs, _⟩
  · exact absurd hcall hfresh
  · exact ⟨j, hj, hsame, hsame.1.symm.trans hid, hjs.trans hstatus, hjt, hjw.trans hworker⟩

end AudioServer.Services.Leases
