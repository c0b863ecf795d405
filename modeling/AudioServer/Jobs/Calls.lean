import AudioServer.Foundations.Runs
import AudioServer.Jobs.Effects

/-! The queue operations as the labels of a transition system: any worker may
issue any of them at any time, with any claim it ever held. -/

namespace AudioServer.Jobs.Calls

open AudioServer.Foundations.Outcomes AudioServer.Foundations.Runs AudioServer.Db.Models
open AudioServer.Jobs.Queue AudioServer.Jobs.Effects

inductive QueueCall
  | claimNext (queue : JobQueue) (now : Instant) (token : ClaimToken) (kinds : Option (List JobKind))
      (locked : List JobId)
  | heartbeat (queue : JobQueue) (claim : ClaimedJob) (now : Instant)
  | advanceStage (queue : JobQueue) (claim : ClaimedJob) (stage : JobStage) (now : Instant)
  | complete (queue : JobQueue) (claim : ClaimedJob) (persister : Option ResultPersister)
      (now : Instant) (row : RowDefaults)
  | fail (queue : JobQueue) (claim : ClaimedJob) (failure : JobFailure) (now : Instant)
      (row : RowDefaults)
  | recoverExpired (queue : JobQueue) (now : Instant) (limit : ℕ) (locked : List JobId)
      (rows : JobId → RowDefaults)

inductive Answer
  | claimed (claim : Option ClaimedJob)
  | done
  | retried (again : Bool)
  | recovered (summary : RecoverySummary)
deriving DecidableEq

def QueueCall.exec : QueueCall → Database → Except Exn (Answer × Database)
  | .claimNext queue now token kinds locked, db =>
    (queue.claimNext now token kinds locked db).map (Prod.map Answer.claimed id)
  | .heartbeat queue claim now, db =>
    (queue.heartbeat claim now db).map (Prod.map (fun _ => Answer.done) id)
  | .advanceStage queue claim stage now, db =>
    (queue.advanceStage claim stage now db).map (Prod.map (fun _ => Answer.done) id)
  | .complete queue claim persister now row, db =>
    (queue.complete claim persister now row db).map (Prod.map (fun _ => Answer.done) id)
  | .fail queue claim failure now row, db =>
    (queue.fail claim failure now row db).map (Prod.map Answer.retried id)
  | .recoverExpired queue now limit locked rows, db =>
    (queue.recoverExpired now limit locked rows db).map (Prod.map Answer.recovered id)

def QueueCall.claim : QueueCall → Option ClaimedJob
  | .claimNext .. => none
  | .heartbeat _ claim _ => some claim
  | .advanceStage _ claim _ _ => some claim
  | .complete _ claim _ _ _ => some claim
  | .fail _ claim _ _ _ => some claim
  | .recoverExpired .. => none

def QueueCall.token : QueueCall → Option ClaimToken
  | .claimNext _ _ token _ _ => some token
  | _ => none

def QueueStep (db : Database) (call : QueueCall) (db' : Database) : Prop :=
  db' = settled db (call.exec db)

abbrev QueueRun (db : Database) (es : List (Event Database QueueCall)) (db' : Database) : Prop :=
  Run QueueStep db es db'

lemma map_ok {α β : Type} {x : Except Exn (α × Database)} {f : α → β} {b : β} {db : Database}
    (h : x.map (Prod.map f id) = .ok (b, db)) : ∃ a, x = .ok (a, db) ∧ f a = b := by
  rcases x with e | ⟨a, t⟩
  · cases h
  · cases h
    exact ⟨a, rfl, rfl⟩

def Moved (token : Option ClaimToken) (db db' : Database) : Prop :=
  ∃ job job' row now, Moves db job job' row now db' ∧
    (job.status = .queued → job'.claimToken = token)

abbrev Shifted (token : Option ClaimToken) : Database → Database → Prop :=
  Relation.ReflTransGen (Moved token)

lemma moves_moved {db db' : Database} {job job' : ProcessingJob} {row : RowDefaults} {now : Instant}
    {token : Option ClaimToken} (h : Moves db job job' row now db') (hs : job.status = .processing) :
    Moved token db db' := by
  refine ⟨job, job', row, now, h, ?_⟩
  intro hq
  rw [hs] at hq
  cases hq

lemma recovers_shifted {rows : JobId → RowDefaults} {now : Instant} {db db' : Database}
    {jobs : List ProcessingJob} {token : Option ClaimToken} (h : Recovers rows now db jobs db') :
    Shifted token db db' := by
  induction h with
  | nil => exact .refl
  | cons hexp _ _ hmoves _ _ ih => exact .head (moves_moved hmoves hexp.1) ih

lemma recovers_documents {rows : JobId → RowDefaults} {now : Instant} {db db' : Database}
    {jobs : List ProcessingJob} (h : Recovers rows now db jobs db') :
    db'.documents = db.documents := by
  induction h with
  | nil => rfl
  | cons _ _ _ _ hdocs _ ih => exact ih.trans hdocs

lemma exec_shifted {call : QueueCall} {db db' : Database} {answer : Answer} (hids : UniqueJobIds db)
    (h : call.exec db = .ok (answer, db')) : Shifted call.token db db' := by
  let row : RowDefaults := ⟨0, 0⟩
  cases call with
  | claimNext queue now token kinds locked =>
    obtain ⟨_, h, _⟩ := map_ok h
    rcases claimNext_ok h row with ⟨_, rfl⟩ | ⟨job, _, _, hmoves, _⟩
    · exact .refl
    · exact .single ⟨_, _, _, _, hmoves, fun _ => rfl⟩
  | heartbeat queue claim now =>
    obtain ⟨_, h, _⟩ := map_ok h
    obtain ⟨_, _, hj, _, hmoves, _⟩ := heartbeat_ok h row
    exact .single (moves_moved hmoves (ownedJob_some hj).2.2.1)
  | advanceStage queue claim stage now =>
    obtain ⟨_, h, _⟩ := map_ok h
    obtain ⟨_, _, hj, _, hmoves, _⟩ := advanceStage_ok h row
    exact .single (moves_moved hmoves (ownedJob_some hj).2.2.1)
  | complete queue claim persister now row =>
    obtain ⟨_, h, _⟩ := map_ok h
    obtain ⟨_, hj, hmoves, _⟩ := complete_ok h
    exact .single (moves_moved hmoves (ownedJob_some hj).2.2.1)
  | fail queue claim failure now row =>
    obtain ⟨_, h, _⟩ := map_ok h
    obtain ⟨_, _, hj, _, _, hmoves, _⟩ := fail_ok h
    exact .single (moves_moved hmoves (ownedJob_some hj).2.2.1)
  | recoverExpired queue now limit locked rows =>
    obtain ⟨_, h, _⟩ := map_ok h
    exact recovers_shifted (recoverExpired_ok hids h)

lemma QueueStep.keeps (P : Database → Prop) {db db' : Database} {call : QueueCall}
    (hmoved : ∀ db db', P db → Moved call.token db db' → P db') (hids : UniqueJobIds db)
    (h : QueueStep db call db') (hp : P db) : P db' := by
  rcases settled_cases db (call.exec db) with ⟨answer, t, hok, hs⟩ | ⟨e, _, hs⟩
  · rw [h, hs]
    have hshift : Shifted call.token db t := exec_shifted hids hok
    clear hok hs h
    induction hshift with
    | refl => exact hp
    | tail _ hm ih => exact hmoved _ _ ih hm
  · rwa [h, hs]

lemma handedOn_cases (settings : Option ProcessingSettings) (job job' : ProcessingJob)
    (row : RowDefaults) (now : Instant) : handedOn settings job job' row now = [] ∨
      ∃ kind, job.followUpKind ≠ none ∧ followUpOf settings job = some kind ∧
        handedOn settings job job' row now = [followUpJob job kind row now] := by
  unfold handedOn handOff
  split
  · cases job.recordingId with
    | none => exact .inl rfl
    | some id =>
      cases hk : followUpOf settings job with
      | none => exact .inl rfl
      | some kind =>
        refine .inr ⟨kind, ?_, rfl, rfl⟩
        intro hnone
        simp [followUpOf, hnone] at hk
  · exact .inl rfl

lemma Moved.uniqueJobIds {token : Option ClaimToken} {db db' : Database} (hids : UniqueJobIds db)
    (h : Moved token db db') : UniqueJobIds db' := by
  obtain ⟨job, job', row, now, hm, _⟩ := h
  have hfresh := hm.fresh
  rw [UniqueJobIds, hm.jobs, List.map_append, putJob_ids]
  rcases handedOn_cases db.settings job job' row now with hnone | ⟨kind, _, _, hone⟩
  · simpa [hnone] using hids
  · rw [hone, List.map_singleton, List.nodup_append]
    rw [hone] at hfresh
    refine ⟨hids, List.nodup_singleton _, ?_⟩
    rintro a ha b hb rfl
    obtain ⟨j, hj, rfl⟩ := List.mem_map.mp ha
    rw [List.mem_singleton] at hb
    exact hfresh _ (List.mem_singleton.mpr rfl) j hj hb

lemma QueueStep.uniqueJobIds {db db' : Database} {call : QueueCall} (h : QueueStep db call db')
    (hids : UniqueJobIds db) : UniqueJobIds db' :=
  h.keeps UniqueJobIds (fun _ _ => Moved.uniqueJobIds) hids hids

end AudioServer.Jobs.Calls
