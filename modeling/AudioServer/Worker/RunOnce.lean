import AudioServer.Foundations.Effects
import AudioServer.Foundations.Runs
import AudioServer.Services.Leases

/-! Workers that each claim a job, process it and complete or fail it, beside everything else the
server does. A persister writes tables of results, and can raise after any of its writes. -/

namespace AudioServer.Worker.RunOnce

open AudioServer.Foundations.Effects AudioServer.Foundations.Runs AudioServer.Foundations.Strings
open AudioServer.Db.Models AudioServer.Jobs.Queue AudioServer.Jobs.Effects AudioServer.Jobs.Calls
open AudioServer.Services.Transactions AudioServer.Services.Leases

/-- What `run_once` tells apart: `interrupt` stands for what is no `Exception`. -/
inductive Raised
  | claimLost
  | processing (code errorType message : Text) (retryable : Bool) (stage : Option JobStage)
  | exception (errorType : Text)
  | interrupt

def raisedOf : Exn → Raised
  | .claimLost _ => .claimLost
  | .processing code message retryable =>
    let errorType := if retryable then "RetryableProcessingError" else "PermanentProcessingError"
    .processing code.toList errorType.toList message.toList retryable none
  | .valueError _ => .exception "ValueError".toList
  | .overflowError => .exception "OverflowError".toList
  | .integrityError _ => .exception "IntegrityError".toList
  | .recordingService .. => .exception "RecordingServiceError".toList
  | .storageConflict => .exception "StorageConflictError".toList
  | .fileNotFound => .exception "FileNotFoundError".toList
  | .other errorType => .exception errorType.toList

structure Results where
  documents : RecordingId → Document
  summaries : List DailySummary

structure Store where
  db : Database
  summaries : List DailySummary

def Store.results (store : Store) : Results := ⟨store.db.documents, store.summaries⟩

def Store.withResults (store : Store) (results : Results) : Store :=
  ⟨{ store.db with documents := results.documents }, results.summaries⟩

abbrev Program (α : Type) := EStateM Raised Store α

abbrev Persister := Database → EStateM Raised Results Unit

section Statements

variable {α : Type}

def query (read : Database → Except Exn α) : Program α := fun store =>
  match read store.db with
  | .ok a => .ok a store
  | .error e => .error (raisedOf e) store

def write (change : Database → Except Exn Database) : Program Unit := fun store =>
  match change store.db with
  | .ok db => .ok () { store with db := db }
  | .error e => .error (raisedOf e) store

def attempt (transaction : Database → Except Exn (α × Database)) : Program α := fun store =>
  match transaction store.db with
  | .ok (a, db) => .ok a { store with db := db }
  | .error e => .error (raisedOf e) store

/-- A place where an exception can come from: the connection, the driver or a signal. -/
def interruptible (fault : Option Raised) : Program Unit := fun store =>
  match fault with
  | none => .ok () store
  | some raised => .error raised store

def runPersister (persister : Option Persister) : Program Unit := fun store =>
  match persister with
  | none => .ok () store
  | some persist =>
    match persist store.db store.results with
    | .ok _ results => .ok () (store.withResults results)
    | .error raised results => .error raised (store.withResults results)

end Statements

def completeBody (claim : ClaimedJob) (persister : Option Persister) (now : Instant)
    (row : RowDefaults) (faults : ℕ → Option Raised) : Program Unit := do
  let job ← query (lockOwnedJob · claim)
  interruptible (faults 0)
  runPersister persister
  interruptible (faults 1)
  let job := completeRow now job
  write (fun db => .ok (db.putJob job))
  interruptible (faults 2)
  write (fun db => .ok (if job.kind = .full then db.setProcessingStatus job.recordingId .completed
    else db))
  interruptible (faults 3)
  write (fun db => appendJobActivity db job.recordingId (jobEvent job.id job.kind job.attemptCount
    job.maxAttempts .processingCompleted .completed .completed now))
  interruptible (faults 4)
  write (fun db => queueFollowUp db job row now)
  interruptible (faults 5)

def failBody (queue : JobQueue) (claim : ClaimedJob) (failure : JobFailure) (now : Instant)
    (row : RowDefaults) (faults : ℕ → Option Raised) : Program Bool := do
  interruptible (faults 0)
  let retried ← attempt (queue.fail claim failure now row)
  interruptible (faults 1)
  return retried

inductive RunPhase
  | processing
  | completing (persister : Option Persister)
  | failing (failure : JobFailure)
  | returned
  | propagated

/-- `claimLost` is the flag the heartbeat thread sets. -/
structure JobRun where
  queue : JobQueue
  claim : ClaimedJob
  claimLost : Bool
  phase : RunPhase

/-- The `except` clauses of `run_once`. A failure that cannot be built raises out of its clause. -/
def handled : Raised → RunPhase
  | .claimLost => .returned
  | .processing code errorType message retryable stage =>
    if h : ¬ Blank code ∧ ¬ Blank errorType ∧ ¬ Blank message then
      .failing ⟨code, errorType, message, retryable, stage, h.1, h.2.1, h.2.2⟩
    else .propagated
  | .exception errorType =>
    if h : ¬ Blank errorType then
      .failing ⟨"unexpected_processing_failure".toList, errorType,
        "Processing failed unexpectedly.".toList, true, none, by decide, h, by decide⟩
    else .propagated
  | .interrupt => .propagated

structure Crew where
  store : Store
  drawn : List ClaimToken
  runs : List JobRun

def Crew.init (settings : Option ProcessingSettings) : Crew := ⟨⟨.empty settings, []⟩, [], []⟩

def Crew.stored (w : Crew) (store : Store) : Crew := { w with store := store }

def Crew.put (w : Crew) (i : ℕ) (run : JobRun) : Crew := { w with runs := w.runs.set i run }

inductive RunMove
  | heartbeat (now : Instant) (fate : Fate Raised)
  | progress (stage : JobStage) (now : Instant) (fate : Fate Raised)
  | returns (persister : Option Persister)
  | raises (raised : Raised)
  | complete (now : Instant) (row : RowDefaults) (faults : ℕ → Option Raised) (fate : Fate Raised)
  | fail (now : Instant) (row : RowDefaults) (faults : ℕ → Option Raised) (fate : Fate Raised)

inductive CrewAct
  | claimNext (queue : JobQueue) (now : Instant) (token : ClaimToken) (kinds : Option (List JobKind))
      (locked : List JobId)
  | run (i : ℕ) (move : RunMove)
  | server (call : ServerCall) (summaries : List DailySummary)
  | edit (results : Results)

def losesClaim {α : Type} : EStateM.Result Raised Store α → Bool
  | .error .claimLost _ => true
  | _ => false

def afterComplete : EStateM.Result Raised Store Unit → RunPhase
  | .ok .. => .returned
  | .error raised _ => handled raised

/-- `_record_failure` ignores a lost claim, and lets everything else through. -/
def afterFail : EStateM.Result Raised Store Bool → RunPhase
  | .ok .. => .returned
  | .error .claimLost _ => .returned
  | .error .. => .propagated

def RunMove.perform (w : Crew) (i : ℕ) (run : JobRun) : RunMove → Crew
  | .heartbeat now fate =>
    let result := inTransaction fate (attempt (run.queue.heartbeat run.claim now)) w.store
    (w.stored (endState result)).put i
      { run with claimLost := run.claimLost || losesClaim result }
  | .progress stage now fate =>
    match run.phase with
    | .processing =>
      if run.claimLost then w
      else if stage = .completed then
        w.stored (endState (inTransaction fate
          (attempt (run.queue.heartbeat run.claim now)) w.store))
      else
        w.stored (endState (inTransaction fate
          (attempt (run.queue.advanceStage run.claim stage now)) w.store))
    | _ => w
  | .returns persister =>
    match run.phase with
    | .processing =>
      w.put i { run with phase := if run.claimLost then .returned else .completing persister }
    | _ => w
  | .raises raised =>
    match run.phase with
    | .processing => w.put i { run with phase := handled raised }
    | _ => w
  | .complete now row faults fate =>
    match run.phase with
    | .completing persister =>
      let result := inTransaction fate (completeBody run.claim persister now row faults) w.store
      (w.stored (endState result)).put i { run with phase := afterComplete result }
    | _ => w
  | .fail now row faults fate =>
    match run.phase with
    | .failing failure =>
      let result := inTransaction fate (failBody run.queue run.claim failure now row faults) w.store
      (w.stored (endState result)).put i { run with phase := afterFail result }
    | _ => w

def CrewAct.perform (w : Crew) : CrewAct → Crew
  | .claimNext queue now token kinds locked =>
    match queue.claimNext now token kinds locked w.store.db with
    | .ok (some claim, db) =>
      { store := { w.store with db := db }
        drawn := token :: w.drawn
        runs := w.runs ++ [⟨queue, claim, false, .processing⟩] }
    | .ok (none, _) => { w with drawn := token :: w.drawn }
    | .error _ => { w with drawn := token :: w.drawn }
  | .run i move => (w.runs[i]?).elim w (fun run => move.perform w i run)
  | .server call summaries =>
    { w with
      store := ⟨Foundations.Outcomes.settled w.store.db (call.exec w.store.db), summaries⟩
      drawn := (callToken call).toList ++ w.drawn }
  | .edit results => w.stored (w.store.withResults results)

def UsesNoClaim : ServerCall → Prop
  | .queue call => call.claim = none
  | _ => True

/-- No token is drawn twice. Only `run_once` works with a claim; a worker that dies as soon as it
has claimed a job is a call of the server. -/
def CrewAct.Allowed (w : Crew) : CrewAct → Prop
  | .claimNext _ _ token _ _ => token ∉ w.drawn
  | .run .. => True
  | .server call _ => (∀ token ∈ callToken call, token ∉ w.drawn) ∧ UsesNoClaim call
  | .edit _ => True

instance : (call : ServerCall) → Decidable (UsesNoClaim call)
  | .queue _ => inferInstanceAs (Decidable (_ = _))
  | .create .. | .retry .. | .reprocess .. | .reprocessAnalysis .. => isTrue trivial
  | .reprocessTranslation .. | .deleteRecording _ | .dailySummary .. | .switches _ => isTrue trivial

instance (w : Crew) : (act : CrewAct) → Decidable (act.Allowed w)
  | .claimNext .. => inferInstanceAs (Decidable (_ ∉ _))
  | .server .. => inferInstanceAs (Decidable (_ ∧ _))
  | .run .. | .edit _ => isTrue trivial

def CrewStep (w : Crew) (act : CrewAct) (w' : Crew) : Prop := act.Allowed w ∧ w' = act.perform w

abbrev CrewRun (w : Crew) (es : List (Event Crew CrewAct)) (w' : Crew) : Prop := Run CrewStep w es w'

end AudioServer.Worker.RunOnce
