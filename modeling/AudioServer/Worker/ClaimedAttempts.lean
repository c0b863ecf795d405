import AudioServer.Services.Openings
import AudioServer.Worker.Invariant

/-! Every step of the server as a queue call or a booking, and the attempt each claim was made for. -/

namespace AudioServer.Worker.ClaimedAttempts

open AudioServer.Foundations.Outcomes AudioServer.Foundations.Runs AudioServer.Db.Models
open AudioServer.Jobs.Queue AudioServer.Jobs.Effects AudioServer.Jobs.Calls AudioServer.Jobs.Transitions
open AudioServer.Services.Recordings AudioServer.Services.Transactions AudioServer.Services.Openings
open AudioServer.Services.Consistency AudioServer.Services.Leases
open AudioServer.Worker.Persisters AudioServer.Worker.CommittedResults AudioServer.Worker.System
open AudioServer.Worker.Invariant

def queueCall : Act → Option QueueCall
  | .server (.queue call) => some call
  | .commit queue claim work now row =>
    some (.complete queue claim (some (recordingPersister claim (work.persist claim))) now row)
  | _ => none

def deletedBy : Act → Option RecordingId
  | .server call => deletes call
  | _ => none

lemma perform_queueCall {w : World} {act : Act} {call : QueueCall} (h : queueCall act = some call) :
    QueueStep w.db call (perform w act).db ∧ Act.token act = call.token := by
  cases act with
  | server server =>
    cases server with
    | queue c =>
      cases h
      have hstep : ServerStep w.db (.queue call) (perform w (.server (.queue call))).db := rfl
      exact ⟨queueStep_of_server hstep, rfl⟩
    | _ => cases h
  | commit queue claim work now row =>
    cases h
    exact ⟨commit_queueStep w queue claim work now row, rfl⟩
  | _ => cases h

lemma perform_booked {w : World} {act : Act} (h : queueCall act = none) :
    Booked (deletedBy act) w.db (perform w act).db := by
  rcases perform_db w act with hexec | ⟨hsame, _⟩
  · cases act with
    | server call =>
      have hstep : ServerStep w.db call (perform w (.server call)).db := rfl
      rcases serverStep_booked hstep with ⟨c, rfl, _⟩ | hbooked
      · cases h
      · exact hbooked
    | load claim => exact .same rfl rfl
    | commit queue claim work now row => cases h
    | updateTranscript id expectedRevision updates =>
      obtain ⟨_, hdb⟩ := edited_tables hexec
      rw [hdb]
      exact .same rfl rfl
    | updateAnalysis id expectedRevision result now =>
      obtain ⟨_, hdb⟩ := edited_tables hexec
      rw [hdb]
      exact .same rfl rfl
    | updateTranslations id expectedRevision updates =>
      obtain ⟨_, hdb⟩ := edited_tables hexec
      rw [hdb]
      exact .same rfl rfl
  · rw [hsame]
    exact .same rfl rfl

lemma allowed_claim {w : World} {act : Act} {call : QueueCall} {claim : ClaimedJob}
    (hallowed : act.Allowed w) (hcall : queueCall act = some call) (hclaim : call.claim = some claim) :
    claim ∈ w.claims := by
  cases act with
  | server server =>
    cases server with
    | queue c =>
      cases hcall
      cases call with
      | claimNext => cases hclaim
      | heartbeat =>
        cases hclaim
        exact hallowed
      | advanceStage =>
        cases hclaim
        exact hallowed
      | complete =>
        cases hclaim
        exact hallowed.1
      | fail =>
        cases hclaim
        exact hallowed
      | recoverExpired => cases hclaim
    | _ => cases hcall
  | commit queue c work now row =>
    cases hcall
    cases hclaim
    exact hallowed.1
  | _ => cases hcall

def Numbered (w : World) : Prop :=
  ∀ c ∈ w.claims, ∀ j ∈ w.db.jobs, j.claimToken = some c.claimToken → c.attemptCount = j.attemptCount

lemma step_numbered {w w' : World} {act : Act} (hok : WorldInvariant w) (h : Numbered w)
    (hstep : WorldStep w act w') : Numbered w' := by
  obtain ⟨hallowed, rfl⟩ := hstep
  intro c hc row hrow ht
  rcases List.mem_append.mp hc with hnew | hold
  · obtain ⟨queue, now, token, kinds, locked, job, rfl, rfl, hmoves⟩ := handedOut_claim hnew
    rcases hmoves.origin hrow with ⟨hstored, _⟩ | rfl | hnext
    · obtain ⟨other, hother, he⟩ := hok.issued row hstored _ ht
      exact absurd he (hallowed other hother)
    · rfl
    · obtain ⟨_, _, kind, _, rfl⟩ := handedOn_mem hnext
      cases ht
  · rcases perform_tokenFrom hok.statuses act row hrow _ ht with
      hdrawn | ⟨j, hj, _, hjt, _, _, hattempt⟩
    · exact absurd hdrawn (token_fresh hallowed c hold)
    · exact (h c hold j hj hjt).trans hattempt

lemma held_answers {w : World} (hok : WorldInvariant w) (hnumbered : Numbered w) {claim : ClaimedJob}
    (hclaim : claim ∈ w.claims) {job : ProcessingJob} (hjob : job ∈ w.db.jobs) (howns : Owns claim job) :
    Answers claim job :=
  ⟨(hok.given claim hclaim job hjob howns.2.2.1).2.1.symm, hnumbered claim hclaim job hjob howns.2.2.1⟩

lemma perform_noted {w : World} {act : Act} {call : QueueCall} (hok : WorldInvariant w)
    (hnumbered : Numbered w) (hallowed : act.Allowed w) (hcall : queueCall act = some call) :
    NotedRun call w.db (perform w act).db := by
  apply queueStep_noted hok.statuses.jobIds ?_ (perform_queueCall hcall).1
  intro claim hclaim j hj howns
  exact held_answers hok hnumbered (allowed_claim hallowed hcall hclaim) hj howns

end AudioServer.Worker.ClaimedAttempts
