import AudioServer.Jobs.Fence
import AudioServer.Worker.RunOnce

/-! What becomes of one attempt at a job: all of its results land with its completion, or none. -/

namespace AudioServer.Worker.OneOutcome

open AudioServer.Foundations.Effects AudioServer.Foundations.Runs AudioServer.Foundations.Strings
open AudioServer.Db.Models AudioServer.Activity.Repository AudioServer.Jobs.Queue
open AudioServer.Jobs.Effects AudioServer.Jobs.Calls AudioServer.Jobs.Fence
open AudioServer.Services.Transactions AudioServer.Services.Consistency AudioServer.Services.Leases
open AudioServer.Worker.RunOnce

section Statements

variable {α β : Type} {b : β} {s t : Store}

lemma query_ok {read : Database → Except Exn α} {f : α → Program β}
    (h : (query read >>= f) s = .ok b t) : ∃ a, read s.db = .ok a ∧ f a s = .ok b t := by
  obtain ⟨a, u, hq, hf⟩ := Foundations.Effects.bind_ok h
  rw [query] at hq
  cases hr : read s.db with
  | ok c =>
    rw [hr] at hq
    cases hq
    exact ⟨a, rfl, hf⟩
  | error e =>
    rw [hr] at hq
    cases hq

lemma write_ok {change : Database → Except Exn Database} {f : Unit → Program β}
    (h : (write change >>= f) s = .ok b t) :
    ∃ db, change s.db = .ok db ∧ f () ⟨db, s.summaries⟩ = .ok b t := by
  obtain ⟨_, u, hw, hf⟩ := Foundations.Effects.bind_ok h
  rw [write] at hw
  cases hc : change s.db with
  | ok db =>
    rw [hc] at hw
    cases hw
    exact ⟨db, rfl, hf⟩
  | error e =>
    rw [hc] at hw
    cases hw

lemma attempt_ok {transaction : Database → Except Exn (β × Database)}
    (h : attempt transaction s = .ok b t) :
    ∃ db, transaction s.db = .ok (b, db) ∧ t = ⟨db, s.summaries⟩ := by
  rw [attempt] at h
  rcases ht : transaction s.db with e | ⟨c, db⟩
  · rw [ht] at h
    cases h
  · rw [ht] at h
    cases h
    exact ⟨db, rfl, rfl⟩

lemma interruptible_ok {fault : Option Raised} {f : Unit → Program β}
    (h : (interruptible fault >>= f) s = .ok b t) : f () s = .ok b t := by
  obtain ⟨_, u, hi, hf⟩ := Foundations.Effects.bind_ok h
  cases fault with
  | none =>
    cases hi
    exact hf
  | some raised => cases hi

lemma interruptible_end {fault : Option Raised} (h : interruptible fault s = .ok () t) : t = s := by
  cases fault with
  | none =>
    cases h
    rfl
  | some raised => cases h

def Persists (persister : Option Persister) (s : Store) (results : Results) : Prop :=
  match persister with
  | none => results = s.results
  | some persist => persist s.db s.results = .ok () results

lemma runPersister_ok {persister : Option Persister} {f : Unit → Program β}
    (h : (runPersister persister >>= f) s = .ok b t) :
    ∃ results, Persists persister s results ∧ f () (s.withResults results) = .ok b t := by
  obtain ⟨_, u, hp, hf⟩ := Foundations.Effects.bind_ok h
  cases persister with
  | none =>
    cases hp
    exact ⟨s.results, rfl, hf⟩
  | some persist =>
    simp only [runPersister] at hp
    cases hr : persist s.db s.results with
    | ok v results =>
      rw [hr] at hp
      cases hp
      exact ⟨results, hr, hf⟩
    | error raised results =>
      rw [hr] at hp
      cases hp

lemma completeBody_ok {claim : ClaimedJob} {persister : Option Persister} {now : Instant}
    {row : RowDefaults} {faults : ℕ → Option Raised} (queue : JobQueue)
    (hbody : completeBody claim persister now row faults s = .ok () t) :
    ∃ results, Persists persister s results ∧
      queue.complete claim (some (fun _ => .ok results.documents)) now row s.db = .ok ((), t.db) ∧
      t.summaries = results.summaries := by
  obtain ⟨job, hjob, h₁⟩ := query_ok hbody
  obtain ⟨results, hpersist, h₂⟩ := runPersister_ok (interruptible_ok h₁)
  obtain ⟨db₁, hrow, h₃⟩ := write_ok (interruptible_ok h₂)
  obtain ⟨db₂, hstatus, h₄⟩ := write_ok (interruptible_ok h₃)
  obtain ⟨db₃, hevent, h₅⟩ := write_ok (interruptible_ok h₄)
  obtain ⟨db₄, hfollow, h₆⟩ := write_ok (interruptible_ok h₅)
  obtain rfl := interruptible_end h₆
  cases hrow
  cases hstatus
  refine ⟨results, hpersist, ?_, rfl⟩
  let stored : Database := { s.db with documents := results.documents }
  have hevent' : appendJobActivity (transition stored (completeRow now job) .completed)
      (completeRow now job).recordingId (jobEvent (completeRow now job).id (completeRow now job).kind
        (completeRow now job).attemptCount (completeRow now job).maxAttempts .processingCompleted
        .completed .completed now) = .ok db₃ := hevent
  have hpersisted : persistResults (some (fun _ => .ok results.documents)) s.db = .ok stored := rfl
  rw [JobQueue.complete, hjob, Foundations.Outcomes.ok_bind, hpersisted, Foundations.Outcomes.ok_bind]
  simp only [hevent', Foundations.Outcomes.ok_bind, hfollow]

end Statements

section Activity

variable {db db' : Database}

lemma appendActivity_activity {event : ProcessingActivity} (h : appendActivity db event = .ok db') :
    (∃ e ∈ db'.activity, SameEvent event e) ∧ ∀ e ∈ db.activity, e ∈ db'.activity := by
  obtain ⟨_, _, h⟩ := Foundations.Outcomes.bind_ok h
  obtain ⟨_, _, h⟩ := Foundations.Outcomes.bind_ok h
  split at h
  · rename_i hany
    cases h
    obtain ⟨e, he, hsame⟩ := List.any_eq_true.mp hany
    exact ⟨⟨e, he, of_decide_eq_true hsame⟩, fun _ he => he⟩
  · cases h
    refine ⟨⟨bounded event, List.mem_append_right _ (List.mem_singleton_self _), ?_⟩, ?_⟩
    · exact ⟨rfl, rfl, rfl, rfl⟩
    · exact fun _ he => List.mem_append_left _ he

lemma appendJobActivity_activity {recordingId : Option RecordingId}
    {event : RecordingId → ProcessingActivity} (h : appendJobActivity db recordingId event = .ok db') :
    (∀ id, recordingId = some id → ∃ e ∈ db'.activity, SameEvent (event id) e) ∧
      ∀ e ∈ db.activity, e ∈ db'.activity := by
  cases recordingId with
  | none =>
    cases h
    exact ⟨nofun, fun _ he => he⟩
  | some id =>
    obtain ⟨hevent, hkept⟩ := appendActivity_activity h
    refine ⟨?_, hkept⟩
    rintro _ ⟨⟩
    exact hevent

lemma queueFollowUp_activity {job : ProcessingJob} {row : RowDefaults} {now : Instant}
    (h : queueFollowUp db job row now = .ok db') : ∀ e ∈ db.activity, e ∈ db'.activity := by
  rw [queueFollowUp] at h
  split at h
  · obtain ⟨after, hinsert, h⟩ := Foundations.Outcomes.bind_ok h
    obtain ⟨rfl, _⟩ := insertJob_ok hinsert
    exact (appendJobActivity_activity h).2
  · cases h
    exact fun _ he => he

def completionEvent (job : ProcessingJob) (now : Instant) (id : RecordingId) : ProcessingActivity :=
  jobEvent job.id job.kind job.attemptCount job.maxAttempts .processingCompleted .completed .completed
    now id

lemma complete_event {queue : JobQueue} {claim : ClaimedJob} {persister : Option ResultPersister}
    {now : Instant} {row : RowDefaults} {u : Unit} {job : ProcessingJob}
    (hjob : ownedJob db claim = some job)
    (h : queue.complete claim persister now row db = .ok (u, db')) (id : RecordingId)
    (hid : job.recordingId = some id) : ∃ e ∈ db'.activity, SameEvent (completionEvent job now id) e := by
  obtain ⟨owned, howned, h⟩ := Foundations.Outcomes.bind_ok h
  rw [lockOwnedJob, Foundations.Outcomes.found_ok, hjob] at howned
  cases howned
  obtain ⟨stored, _, h⟩ := Foundations.Outcomes.bind_ok h
  obtain ⟨db₁, hevent, h⟩ := Foundations.Outcomes.bind_ok h
  obtain ⟨db₂, hfollow, h⟩ := Foundations.Outcomes.bind_ok h
  cases h
  obtain ⟨e, he, hsame⟩ := (appendJobActivity_activity hevent).1 id hid
  exact ⟨e, queueFollowUp_activity hfollow e he, hsame⟩

end Activity

structure CompletedTogether (claim : ClaimedJob) (persister : Option Persister) (now : Instant)
    (row : RowDefaults) (s t : Store) : Prop where
  writes : Persists persister s t.results
  job : ∃ job, ownedJob s.db claim = some job ∧ Moves s.db job (completeRow now job) row now t.db ∧
    ∀ id, job.recordingId = some id → ∃ e ∈ t.db.activity, SameEvent (completionEvent job now id) e

structure EndedByFailure (claim : ClaimedJob) (now : Instant) (row : RowDefaults) (s t : Store) :
    Prop where
  writes : t.results = s.results
  job : ∃ job job', ownedJob s.db claim = some job ∧
    (job'.status = .queued ∨ job'.status = .failed) ∧ Moves s.db job job' row now t.db

structure LeftToLease (claim : ClaimedJob) (s t : Store) : Prop where
  writes : t.results = s.results
  held : Held claim s.db → Held claim t.db

def OfAttempt (claim : ClaimedJob) (e : Event Crew CrewAct) : Prop :=
  ∃ i move run, e.label = .run i move ∧ e.before.runs[i]? = some run ∧ run.claim = claim

def Completes (claim : ClaimedJob) (e : Event Crew CrewAct) : Prop :=
  ∃ i now row faults fate run persister, e.label = .run i (.complete now row faults fate) ∧
    e.before.runs[i]? = some run ∧ run.claim = claim ∧ run.phase = .completing persister ∧
    CompletedTogether claim persister now row e.before.store e.after.store

def Fails (claim : ClaimedJob) (e : Event Crew CrewAct) : Prop :=
  ∃ i now row faults fate run failure, e.label = .run i (.fail now row faults fate) ∧
    e.before.runs[i]? = some run ∧ run.claim = claim ∧ run.phase = .failing failure ∧
    EndedByFailure claim now row e.before.store e.after.store

def Leaves (claim : ClaimedJob) (e : Event Crew CrewAct) : Prop :=
  LeftToLease claim e.before.store e.after.store

section Moves

variable {claim : ClaimedJob} {s t : Store} {now : Instant} {row : RowDefaults}

lemma LeftToLease.refl (claim : ClaimedJob) (s : Store) : LeftToLease claim s s := ⟨rfl, fun h => h⟩

lemma moves_released {db db' : Database} {job job' : ProcessingJob}
    (hjob : ownedJob db claim = some job) (hm : Moves db job job' row now db')
    (hstatus : job'.status ≠ .processing) : Held claim db ∧ ¬ Held claim db' := by
  obtain ⟨hmem, howns⟩ := ownedJob_some hjob
  refine ⟨⟨job, hmem, howns⟩, ?_⟩
  rintro ⟨j, hj, ho⟩
  rcases hm.origin hj with ⟨_, hne⟩ | rfl | hnew
  · exact hne (ho.1.trans howns.1.symm)
  · exact hstatus ho.2.1
  · exact handedOn_not_owned hnew ho

lemma moves_held {db db' : Database} {job job' : ProcessingJob} (hjob : ownedJob db claim = some job)
    (hm : Moves db job job' row now db') (hstatus : job'.status = .processing) : Held claim db' := by
  obtain ⟨_, hid, hprocessing, htoken, hworker⟩ := ownedJob_some hjob
  refine ⟨job', hm.mem_moved, ?_⟩
  have hstep := hm.step
  cases hstep with
  | claimed queue token now hqueued => simp [hprocessing] at hqueued
  | renewed stage now lease _ => exact ⟨hid, hprocessing, htoken, hworker⟩
  | completed => cases hstatus
  | retried => cases hstatus
  | failed => cases hstatus

lemma CompletedTogether.ends {persister : Option Persister}
    (h : CompletedTogether claim persister now row s t) : Held claim s.db ∧ ¬ Held claim t.db := by
  obtain ⟨job, hjob, hm, _⟩ := h.job
  exact moves_released hjob hm nofun

lemma EndedByFailure.ends (h : EndedByFailure claim now row s t) :
    Held claim s.db ∧ ¬ Held claim t.db := by
  obtain ⟨job, job', hjob, hstatus, hm⟩ := h.job
  apply moves_released hjob hm
  rcases hstatus with hstatus | hstatus <;> simp [hstatus]

end Moves

section Steps

def WithoutClaim (s t : Store) : Prop :=
  ∃ call : QueueCall, call.token = none ∧ QueueStep s.db call t.db

inductive StoreChange (run : JobRun) (move : RunMove) (s : Store) : Store → Prop
  | idle : StoreChange run move s s
  | renewed {t : Store} (hstep : WithoutClaim s t) (hleft : LeftToLease run.claim s t) :
      StoreChange run move s t
  | completed {persister : Option Persister} {now : Instant} {row : RowDefaults}
      {faults : ℕ → Option Raised} {fate : Fate Raised} {t : Store}
      (hmove : move = .complete now row faults fate) (hphase : run.phase = .completing persister)
      (hstep : WithoutClaim s t) (h : CompletedTogether run.claim persister now row s t) :
      StoreChange run move s t
  | failed {failure : JobFailure} {now : Instant} {row : RowDefaults} {faults : ℕ → Option Raised}
      {fate : Fate Raised} {t : Store} (hmove : move = .fail now row faults fate)
      (hphase : run.phase = .failing failure) (hstep : WithoutClaim s t)
      (h : EndedByFailure run.claim now row s t) : StoreChange run move s t

variable {run : JobRun} {move : RunMove} {s : Store}

lemma withoutClaim_of_exec {t : Store} {call : QueueCall} {answer : Answer} (htoken : call.token = none)
    (h : call.exec s.db = .ok (answer, t.db)) : WithoutClaim s t := by
  refine ⟨call, htoken, ?_⟩
  rw [QueueStep, h]
  rfl

lemma renewal_change {body : Database → Except Exn (Unit × Database)} (call : QueueCall)
    (fate : Fate Raised) (htoken : call.token = none)
    (hcall : ∀ u db', body s.db = .ok (u, db') → call.exec s.db = .ok (.done, db'))
    (hrenews : ∀ u db', body s.db = .ok (u, db') → ∃ job job' row now,
      ownedJob s.db run.claim = some job ∧ job'.status = .processing ∧
        Moves s.db job job' row now db' ∧ db'.documents = s.db.documents) :
    StoreChange run move s (endState (inTransaction fate (attempt body) s)) := by
  rcases transaction_cases fate (attempt body) s with hsame | ⟨_, hbody⟩
  · rw [hsame]
    exact .idle
  · generalize endState _ = t at hbody
    obtain ⟨db, hexec, rfl⟩ := attempt_ok hbody
    obtain ⟨job, job', _, _, hjob, hstatus, hm, hdocs⟩ := hrenews _ _ hexec
    refine .renewed (withoutClaim_of_exec htoken (hcall _ _ hexec))
      ⟨?_, fun _ => moves_held hjob hm hstatus⟩
    rw [Store.results, hdocs, Store.results]

lemma heartbeat_change (now : Instant) (fate : Fate Raised) : StoreChange run move s
    (endState (inTransaction fate (attempt (run.queue.heartbeat run.claim now)) s)) := by
  refine renewal_change (.heartbeat run.queue run.claim now) fate rfl ?_ ?_
  · intro u db' hexec
    rw [QueueCall.exec, hexec]
    rfl
  · intro u db' hexec
    obtain ⟨job, job', hrenewed⟩ := heartbeat_ok hexec ⟨0, 0⟩
    exact ⟨job, job', _, _, hrenewed⟩

lemma progress_change (stage : JobStage) (now : Instant) (fate : Fate Raised) :
    StoreChange run move s
      (endState (inTransaction fate (attempt (run.queue.advanceStage run.claim stage now)) s)) := by
  refine renewal_change (.advanceStage run.queue run.claim stage now) fate rfl ?_ ?_
  · intro u db' hexec
    rw [QueueCall.exec, hexec]
    rfl
  · intro u db' hexec
    obtain ⟨job, job', hrenewed⟩ := advanceStage_ok hexec ⟨0, 0⟩
    exact ⟨job, job', _, _, hrenewed⟩

lemma complete_change {persister : Option Persister} {now : Instant} {row : RowDefaults}
    {faults : ℕ → Option Raised} {fate : Fate Raised} (hmove : move = .complete now row faults fate)
    (hphase : run.phase = .completing persister) : StoreChange run move s
      (endState (inTransaction fate (completeBody run.claim persister now row faults) s)) := by
  rcases transaction_cases fate (completeBody run.claim persister now row faults) s with
    hsame | ⟨_, hbody⟩
  · rw [hsame]
    exact .idle
  · generalize endState _ = t at hbody
    obtain ⟨results, hpersist, hcomplete, hsummaries⟩ := completeBody_ok run.queue hbody
    obtain ⟨job, hjob, hm, stored, hstored, hdocs⟩ := complete_ok hcomplete
    have hresults : results = t.results := by
      cases hstored
      rw [Store.results, hdocs, hsummaries]
    have hcall : (QueueCall.complete run.queue run.claim (some (fun _ => .ok results.documents)) now
        row).exec s.db = .ok (.done, t.db) := by
      rw [QueueCall.exec, hcomplete]
      rfl
    exact .completed hmove hphase (withoutClaim_of_exec rfl hcall)
      ⟨hresults ▸ hpersist, job, hjob, hm, complete_event hjob hcomplete⟩

lemma failBody_ok {queue : JobQueue} {claim : ClaimedJob} {failure : JobFailure} {now : Instant}
    {row : RowDefaults} {faults : ℕ → Option Raised} {retried : Bool} {t : Store}
    (h : failBody queue claim failure now row faults s = .ok retried t) :
    ∃ db, queue.fail claim failure now row s.db = .ok (retried, db) ∧ t = ⟨db, s.summaries⟩ := by
  obtain ⟨again, u, hattempt, h₁⟩ := Foundations.Effects.bind_ok (interruptible_ok h)
  have h₂ := interruptible_ok h₁
  cases h₂
  exact attempt_ok hattempt

lemma fail_change {failure : JobFailure} {now : Instant} {row : RowDefaults}
    {faults : ℕ → Option Raised} {fate : Fate Raised} (hmove : move = .fail now row faults fate)
    (hphase : run.phase = .failing failure) : StoreChange run move s
      (endState (inTransaction fate (failBody run.queue run.claim failure now row faults) s)) := by
  rcases transaction_cases fate (failBody run.queue run.claim failure now row faults) s with
    hsame | ⟨retried, hbody⟩
  · rw [hsame]
    exact .idle
  · generalize endState _ = t at hbody
    obtain ⟨db, hfail, rfl⟩ := failBody_ok hbody
    obtain ⟨job, job', hjob, _, hstatus, hm, hdocs⟩ := fail_ok hfail
    have hcall : (QueueCall.fail run.queue run.claim failure now row).exec s.db =
        .ok (.retried retried, db) := by
      rw [QueueCall.exec, hfail]
      rfl
    refine .failed hmove hphase (withoutClaim_of_exec rfl hcall) ⟨?_, job, job', hjob, ?_, hm⟩
    · rw [Store.results, hdocs, Store.results]
    · cases retried with
      | true => exact .inl hstatus
      | false => exact .inr hstatus

lemma move_change (w : Crew) (i : ℕ) (run : JobRun) (move : RunMove) :
    StoreChange run move w.store (move.perform w i run).store := by
  cases move with
  | heartbeat now fate => exact heartbeat_change now fate
  | progress stage now fate =>
    rw [RunMove.perform]
    split
    · split
      · exact .idle
      · split
        · exact heartbeat_change now fate
        · exact progress_change stage now fate
    · exact .idle
  | returns persister =>
    rw [RunMove.perform]
    split <;> exact .idle
  | raises raised =>
    rw [RunMove.perform]
    split <;> exact .idle
  | complete now row faults fate =>
    rw [RunMove.perform]
    split
    · rename_i persister hphase
      exact complete_change rfl hphase
    · exact .idle
  | fail now row faults fate =>
    rw [RunMove.perform]
    split
    · rename_i failure hphase
      exact fail_change rfl hphase
    · exact .idle

lemma move_drawn (w : Crew) (i : ℕ) (run : JobRun) (move : RunMove) :
    (move.perform w i run).drawn = w.drawn := by
  cases move with
  | heartbeat now fate => rfl
  | progress stage now fate =>
    rw [RunMove.perform]
    split
    · split
      · rfl
      · split <;> rfl
    · rfl
  | _ =>
    simp only [RunMove.perform]
    split <;> rfl

inductive TableChange (w w' : Crew) : Prop
  | call (call : ServerCall) (hstep : ServerStep w.store.db call w'.store.db)
      (htoken : ∀ token, callToken call = some token → token ∉ w.drawn ∧ token ∈ w'.drawn)
  | documents (documents : RecordingId → Document)
      (hdb : w'.store.db = { w.store.db with documents := documents })

lemma TableChange.queue {w w' : Crew} {call : QueueCall}
    (hstep : QueueStep w.store.db call w'.store.db)
    (htoken : ∀ token, call.token = some token → token ∉ w.drawn ∧ token ∈ w'.drawn) :
    TableChange w w' := by
  refine .call (.queue call) ?_ htoken
  rw [ServerStep, hstep, ServerCall.exec]
  cases call.exec w.store.db <;> rfl

lemma WithoutClaim.table {w w' : Crew} (h : WithoutClaim w.store w'.store) : TableChange w w' := by
  obtain ⟨call, hnone, hstep⟩ := h
  refine .queue hstep ?_
  intro token htoken
  rw [hnone] at htoken
  cases htoken

lemma step_tables {w w' : Crew} {act : CrewAct} (h : CrewStep w act w') : TableChange w w' := by
  obtain ⟨hallowed, rfl⟩ := h
  cases act with
  | claimNext queue now token kinds locked =>
    simp only [CrewAct.perform]
    rcases hclaim : queue.claimNext now token kinds locked w.store.db with e | ⟨claim | claim, db⟩
    · exact .documents w.store.db.documents rfl
    · exact .documents w.store.db.documents rfl
    · have hstep : QueueStep w.store.db (.claimNext queue now token kinds locked) db := by
        rw [QueueStep, QueueCall.exec, hclaim]
        rfl
      refine .queue hstep ?_
      rintro _ ⟨⟩
      exact ⟨hallowed, List.mem_cons_self⟩
  | run i move =>
    cases hi : w.runs[i]? with
    | none =>
      simp only [CrewAct.perform, hi, Option.elim_none]
      exact .documents w.store.db.documents rfl
    | some run =>
      simp only [CrewAct.perform, hi, Option.elim_some]
      have hchange := move_change w i run move
      generalize move.perform w i run = w' at hchange
      rcases w' with ⟨store, drawn, runs⟩
      cases hchange with
      | idle => exact .documents w.store.db.documents rfl
      | renewed hstep => exact WithoutClaim.table hstep
      | completed _ _ hstep => exact WithoutClaim.table hstep
      | failed _ _ hstep => exact WithoutClaim.table hstep
  | server call summaries =>
    refine .call call rfl ?_
    intro token htoken
    refine ⟨hallowed.1 token htoken, ?_⟩
    simp [CrewAct.perform, htoken]
  | edit results => exact .documents results.documents rfl

lemma step_drawn {w w' : Crew} {act : CrewAct} (h : CrewStep w act w') :
    ∀ token ∈ w.drawn, token ∈ w'.drawn := by
  obtain ⟨_, rfl⟩ := h
  intro token htoken
  cases act with
  | claimNext queue now fresh kinds locked =>
    simp only [CrewAct.perform]
    split <;> exact List.mem_cons_of_mem _ htoken
  | run i move =>
    cases hi : w.runs[i]? with
    | none => simpa only [CrewAct.perform, hi, Option.elim_none] using htoken
    | some run => simpa only [CrewAct.perform, hi, Option.elim_some, move_drawn] using htoken
  | server call summaries => exact List.mem_append_right _ htoken
  | edit results => exact htoken

end Steps

section Invariant

structure CrewOk (w : Crew) : Prop where
  statuses : StatusInvariant w.store.db
  drawn : ∀ job ∈ w.store.db.jobs, ∀ token, job.claimToken = some token → token ∈ w.drawn

lemma CrewOk.init (settings : Option ProcessingSettings) : CrewOk (.init settings) := by
  refine ⟨empty_consistent settings, ?_⟩
  intro job hjob
  cases hjob

lemma TableChange.tokenFrom {w w' : Crew} (h : TableChange w w') (hids : UniqueJobIds w.store.db) :
    ∃ token, (∀ t, token = some t → t ∉ w.drawn ∧ t ∈ w'.drawn) ∧
      ∀ row ∈ w'.store.db.jobs, TokenFrom token w.store.db row := by
  cases h with
  | call call hstep htoken => exact ⟨_, htoken, fun row hrow => serverStep_tokenFrom hids hstep hrow⟩
  | documents documents hdb =>
    refine ⟨none, nofun, ?_⟩
    intro row hrow
    rw [hdb] at hrow
    exact tokenFrom_stored hrow

lemma step_crewOk {w w' : Crew} {act : CrewAct} (hok : CrewOk w) (h : CrewStep w act w') :
    CrewOk w' := by
  have htables := step_tables h
  obtain ⟨token, hfresh, hrows⟩ := htables.tokenFrom hok.statuses.jobIds
  refine ⟨?_, ?_⟩
  · cases htables with
    | call call hstep _ => exact serverStep_consistent hok.statuses hstep
    | documents documents hdb =>
      rw [hdb]
      exact ⟨hok.statuses.jobIds, hok.statuses.recordingIds, hok.statuses.rows,
        hok.statuses.references, hok.statuses.oneActive, hok.statuses.latest, hok.statuses.activeFull⟩
  · intro row hrow t ht
    rcases hrows row hrow t ht with hnew | ⟨job, hjob, _, hcarried, _⟩
    · exact (hfresh t hnew).2
    · exact step_drawn h t (hok.drawn job hjob t hcarried)

def Over (claim : ClaimedJob) (w : Crew) : Prop :=
  claim.claimToken ∈ w.drawn ∧ ¬ Held claim w.store.db

lemma step_over {claim : ClaimedJob} {w w' : Crew} {act : CrewAct} (hok : CrewOk w)
    (h : CrewStep w act w') (hover : Over claim w) : Over claim w' := by
  obtain ⟨token, hfresh, hrows⟩ := (step_tables h).tokenFrom hok.statuses.jobIds
  refine ⟨step_drawn h _ hover.1, ?_⟩
  rintro ⟨row, hrow, ho⟩
  have hother : token ≠ some claim.claimToken := fun he => (hfresh _ he).1 hover.1
  obtain ⟨job, hjob, _, howns⟩ := tokenFrom_owns (hrows row hrow) hother ho
  exact hover.2 ⟨job, hjob, howns⟩

def EndsAttempt (claim : ClaimedJob) (e : Event Crew CrewAct) : Prop :=
  Held claim e.before.store.db ∧ ¬ Held claim e.after.store.db

instance (claim : ClaimedJob) (e : Event Crew CrewAct) : Decidable (EndsAttempt claim e) :=
  inferInstanceAs (Decidable (_ ∧ _))

lemma ends_once {claim : ClaimedJob} {w w' : Crew} {es : List (Event Crew CrewAct)}
    (h : CrewRun w es w') (hok : CrewOk w) :
    (es.filter (fun e => EndsAttempt claim e)).length ≤ 1 := by
  have honce := h.at_most_once CrewOk (fun e => decide (EndsAttempt claim e)) (Over claim)
    (fun _ _ _ hok hs => step_crewOk hok hs) (fun _ _ _ hok hs => step_over hok hs) ?_ hok
  · exact honce.1
  · intro w act w' hok hs hends
    obtain ⟨⟨job, hjob, howns⟩, hlost⟩ := of_decide_eq_true hends
    have hdrawn := hok.drawn job hjob _ howns.2.2.1
    exact ⟨fun hover => hover.2 ⟨job, hjob, howns⟩, step_drawn hs _ hdrawn, hlost⟩

end Invariant

section Outcome

variable {claim : ClaimedJob} {e : Event Crew CrewAct}

lemma Completes.ends (h : Completes claim e) : EndsAttempt claim e := by
  obtain ⟨_, _, _, _, _, _, _, _, _, _, _, htogether⟩ := h
  exact htogether.ends

lemma Fails.ends (h : Fails claim e) : EndsAttempt claim e := by
  obtain ⟨_, _, _, _, _, _, _, _, _, _, _, hfailure⟩ := h
  exact hfailure.ends

lemma step_outcome (hstep : CrewStep e.before e.label e.after) (hof : OfAttempt claim e) :
    Completes claim e ∨ Fails claim e ∨ Leaves claim e := by
  obtain ⟨i, move, run, hlabel, hi, rfl⟩ := hof
  obtain ⟨_, hafter⟩ := hstep
  rw [hlabel, CrewAct.perform, hi, Option.elim_some] at hafter
  have hchange := move_change e.before i run move
  rw [← hafter] at hchange
  generalize hstore : e.after.store = t at hchange
  cases hchange with
  | idle => exact .inr (.inr (by rw [Leaves, hstore]; exact .refl _ _))
  | renewed _ hleft => exact .inr (.inr (by rw [Leaves, hstore]; exact hleft))
  | completed hmove hphase _ htogether =>
    subst hmove
    exact .inl ⟨i, _, _, _, _, run, _, hlabel, hi, rfl, hphase, hstore ▸ htogether⟩
  | failed hmove hphase _ hfailure =>
    subst hmove
    exact .inr (.inl ⟨i, _, _, _, _, run, _, hlabel, hi, rfl, hphase, hstore ▸ hfailure⟩)

/-- The attempt ends once at most. Its own run has committed everything together, or one failure and
no result, or nothing but progress. -/
structure SettledOnce (claim : ClaimedJob) (es : List (Event Crew CrewAct)) : Prop where
  once : (es.filter (fun e => EndsAttempt claim e)).length ≤ 1
  outcome :
    (∃ before e after, es = before ++ e :: after ∧ Completes claim e ∧
      ∀ f ∈ before ++ after, OfAttempt claim f → Leaves claim f) ∨
    (∃ before e after, es = before ++ e :: after ∧ Fails claim e ∧
      ∀ f ∈ before ++ after, OfAttempt claim f → Leaves claim f) ∨
    ∀ f ∈ es, OfAttempt claim f → Leaves claim f

lemma others_not {α : Type} {p : α → Bool} {before after : List α} {a : α}
    (h : ((before ++ a :: after).filter p).length ≤ 1) (ha : p a) : ∀ b ∈ before ++ after, ¬ p b := by
  intro b hb hpb
  have hone : 0 < ((before ++ after).filter p).length :=
    List.length_pos_of_mem (List.mem_filter.mpr ⟨hb, hpb⟩)
  simp only [List.filter_append, List.length_append, List.filter_cons_of_pos ha,
    List.length_cons] at h hone
  omega

end Outcome

theorem one_run_one_outcome {settings : Option ProcessingSettings} {w : Crew}
    {es : List (Event Crew CrewAct)} (hrun : CrewRun (.init settings) es w) (claim : ClaimedJob) :
    SettledOnce claim es := by
  have honce : (es.filter (fun e => EndsAttempt claim e)).length ≤ 1 := ends_once hrun (.init settings)
  have hleaves : ∀ f ∈ es, OfAttempt claim f → ¬ EndsAttempt claim f → Leaves claim f := by
    intro f hf hof hnot
    rcases step_outcome (hrun.event_step hf) hof with hcompletes | hfails | hleaves
    · exact absurd hcompletes.ends hnot
    · exact absurd hfails.ends hnot
    · exact hleaves
  refine ⟨honce, ?_⟩
  by_cases hends : ∃ e ∈ es, OfAttempt claim e ∧ EndsAttempt claim e
  · obtain ⟨e, he, hof, hend⟩ := hends
    have houtcome := step_outcome (hrun.event_step he) hof
    obtain ⟨before, after, rfl⟩ := List.append_of_mem he
    have hothers : ∀ f ∈ before ++ after, OfAttempt claim f → Leaves claim f := by
      intro f hf hoff
      refine hleaves f ?_ hoff ?_
      · rcases List.mem_append.mp hf with hf | hf
        · exact List.mem_append_left _ hf
        · exact List.mem_append_right _ (List.mem_cons_of_mem _ hf)
      · have hno := others_not honce (decide_eq_true hend) f hf
        exact fun h => hno (decide_eq_true h)
    rcases houtcome with hcompletes | hfails | hleft
    · exact .inl ⟨before, e, after, rfl, hcompletes, hothers⟩
    · exact .inr (.inl ⟨before, e, after, rfl, hfails, hothers⟩)
    · exact absurd (hleft.held hend.1) hend.2
  · refine .inr (.inr ?_)
    intro f hf hof
    exact hleaves f hf hof (fun hend => hends ⟨f, hf, hof, hend⟩)

def wholePersister : Persister := fun _ =>
  modify (fun results => { results with
    documents := Function.update results.documents 1 { Document.empty with transcriptRevision := 1 } })

def halfwayPersister : Persister := fun db => do
  wholePersister db
  throw (.processing "recording_missing".toList "PermanentProcessingError".toList
    "The recording metadata is unavailable.".toList false none)

def uploadedOnce : ServerCall := .create exampleService exampleRecording ⟨1, 0⟩ 0

def firstClaim : ClaimedJob :=
  claimOf exampleWorker 7 (claimRow exampleWorker 7 0 (newJob 1 (some 1) none .full
    (some .analysis) 2 0 0))

def attemptWith (persister : Persister) : List CrewAct :=
  [.server uploadedOnce [], .claimNext exampleWorker 0 7 none [],
    .run 0 (.progress .transcribing 1 .commits), .run 0 (.returns (some persister)),
    .run 0 (.complete 2 ⟨2, 2⟩ (fun _ => none) .commits)]

def halfway : List CrewAct :=
  attemptWith halfwayPersister ++ [.run 0 (.fail 3 ⟨3, 3⟩ (fun _ => none) .commits)]

theorem one_outcome_after_partial_write :
    let w := halfway.foldl CrewAct.perform (.init none)
    let v := (attemptWith wholePersister).foldl CrewAct.perform (.init none)
    (w.runs.map (·.claim) = [firstClaim] ∧ w.store.db.jobs.map (·.status) = [.failed] ∧
      (w.store.db.documents 1).transcriptRevision = 0 ∧
      SettledOnce firstClaim (trail CrewAct.perform (.init none) halfway)) ∧
    v.runs.map (·.claim) = [firstClaim] ∧
      v.store.db.jobs.map (·.status) = [.completed, .queued] ∧
      (v.store.db.documents 1).transcriptRevision = 1 ∧
      SettledOnce firstClaim (trail CrewAct.perform (.init none) (attemptWith wholePersister)) := by
  intro w v
  have hhalf : CrewRun (.init none) (trail CrewAct.perform (.init none) halfway) w :=
    run_trail CrewAct.Allowed CrewAct.perform (by decide +kernel)
  have hwhole : CrewRun (.init none)
      (trail CrewAct.perform (.init none) (attemptWith wholePersister)) v :=
    run_trail CrewAct.Allowed CrewAct.perform (by decide +kernel)
  exact ⟨⟨by decide +kernel, by decide +kernel, by decide +kernel,
    one_run_one_outcome hhalf firstClaim⟩, by decide +kernel, by decide +kernel, by decide +kernel,
    one_run_one_outcome hwhole firstClaim⟩

end AudioServer.Worker.OneOutcome
