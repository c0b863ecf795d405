import AudioServer.Foundations.Effects
import AudioServer.Services.Uploads

/-! A browser upload in which one step of the database or of the file system raises. -/

namespace AudioServer.Services.BrowserUpload

open AudioServer.Foundations.Effects AudioServer.Foundations.Outcomes AudioServer.Foundations.Strings
open AudioServer.Api.Schemas AudioServer.Core.Datetimes AudioServer.Db.Models AudioServer.Jobs.Queue
open AudioServer.Services.Recordings AudioServer.Services.Storage AudioServer.Services.Uploads

inductive Discard
  | put | cleanup
deriving DecidableEq

inductive Removal
  | unreferenced | compensation
deriving DecidableEq

inductive UploadStep
  | mkstemp | openStaged | writeStaged | fsyncStaged | fsyncNew | unlinkPartial
  | openLookup | selectDuplicate | closeLookup
  | resolveKey | ensureDirectory | link | readIdentity | setMode | fsyncDestination
  | unlinkStaged (discard : Discard) | fsyncStaging (discard : Discard)
  | beginCreate | flush | appendActivity | commit
  | openRecovery | selectRecovery | selectOwner
  | resolveRemoved (removal : Removal) | unlinkOriginal (removal : Removal)
  | fsyncRemoved (removal : Removal)
deriving DecidableEq

/-- The exception one step raises, and whether the step had taken effect by then. -/
structure Fault where
  step : UploadStep
  took : Bool
  exn : Exn

structure Archive where
  db : Database
  objects : Objects
  staged : Option Object

def Archive.before (s : Store) : Archive := ⟨s.db, s.objects, none⟩

abbrev Disk := EStateM Exn Archive

def effect (fault : Option Fault) (s : UploadStep) (run : Disk Unit) : Disk Unit :=
  match fault with
  | none => run
  | some f =>
    if f.step = s then
      if f.took then run >>= fun _ => throw f.exn else throw f.exn
    else run

def step (fault : Option Fault) (s : UploadStep) : Disk Unit := effect fault s (pure ())

/-- A step whose `FileNotFoundError` is passed over, as `unlink(missing_ok=True)` does. -/
def missingOk (run : Disk Unit) : Disk Unit :=
  tryCatch run (fun exn => if exn = .fileNotFound then pure () else throw exn)

def fileExists : Exn := .other "FileExistsError"

/-- The start time the browser sends: a wall clock, with its offset unless it is naive. -/
inductive StartedAt
  | naive
  | aware (wall : Instant) (utcOffset : Duration)

/-- One call of `ingest_web`. `staged` is what the source holds, and `defaults` are the values the
row of the job is created with. -/
structure WebUpload where
  identifier : RecordingId
  startedAt : Option StartedAt
  uploadTime : Instant
  staged : Object
  probe : Except Exn AudioProbe
  defaults : RowDefaults

structure WebService where
  service : RecordingService
  audioRetentionDays : Option ℕ
  transcriptRetentionDays : Option ℕ
  maxAttempts_pos : 1 ≤ service.maxAttempts

def startedAtInvalid : Exn :=
  .recordingService "started_at_invalid" "Recording start time must include a timezone offset." 422

def effectiveStart (upload : WebUpload) : Instant × Duration :=
  match upload.startedAt with
  | some (.aware wall utcOffset) => (wall, utcOffset)
  | _ => (upload.uploadTime, 0)

def startInstant (upload : WebUpload) : Instant :=
  (effectiveStart upload).1 - (effectiveStart upload).2

def checkedProbe (web : WebService) (upload : WebUpload) : Except Exn AudioProbe := do
  let probe ← probeStaged web.service ⟨.web upload.identifier (startInstant upload), upload.staged, upload.probe⟩
  require (probe.preferredExtension ∈ webExtensions)
    (.recordingService "web_audio_type_unsupported"
      "Browser uploads must be valid MP3, WAV, or M4A audio." 415)
  .ok probe

def finalKey (upload : WebUpload) (probe : AudioProbe) : Except Exn StorageKey :=
  originalStorageKey upload.identifier (startInstant upload) probe.preferredExtension

/-- `timedelta` rounds half a microsecond to the even one. -/
def timedeltaSeconds (seconds : Seconds) : Duration :=
  let micros := seconds * 1000000
  let rest := micros - micros.floor
  if rest < 1 / 2 ∨ (rest = 1 / 2 ∧ micros.floor % 2 = 0) then micros.floor else micros.floor + 1

def retentionDate (now : Instant) (days : Option ℕ) : Except Exn (Option Instant) :=
  match days with
  | none => .ok none
  | some days => (datetime (now + days * dayLength)).map some

def rowDates (web : WebService) (upload : WebUpload) (probe : AudioProbe) :
    Except Exn (Instant × Option Instant × Option Instant) := do
  let endedAt ← datetime ((effectiveStart upload).1 + timedeltaSeconds probe.durationSeconds)
  let audioDeleteAfter ← retentionDate upload.uploadTime web.audioRetentionDays
  let transcriptDeleteAfter ← retentionDate upload.uploadTime web.transcriptRetentionDays
  .ok (endedAt, audioDeleteAfter, transcriptDeleteAfter)

def webRow (upload : WebUpload) (probe : AudioProbe) (key : StorageKey) : Recording where
  id := upload.identifier
  deviceId := "web-upload".toList
  sha256 := upload.staged.sha256
  fileSize := upload.staged.fileSize
  storageKey := key
  startedAt := startInstant upload
  durationSeconds := probe.durationSeconds
  processingStatus := .queued

def findWebDuplicate (db : Database) (sha256 : Text) : Option Recording :=
  db.recordings.find? (fun r => r.deviceId = "web-upload".toList ∧ r.sha256 = sha256)

section Storage

variable (fault : Option Fault)

/-- `create_staged_upload`. The writes of its loop are one step. -/
def createStaged (web : WebService) (upload : WebUpload) : Disk Unit := do
  effect fault .mkstemp (modify (fun a => { a with staged := some upload.staged }))
  tryCatch
    (do
      step fault .openStaged
      step fault .writeStaged
      lift (createStagedUpload web.service upload.staged)
      step fault .fsyncStaged
      step fault .fsyncNew)
    (fun exn => do
      missingOk (effect fault .unlinkPartial (modify (fun a => { a with staged := none })))
      throw exn)

def unlinkStaged : Disk Unit := do
  match (← get).staged with
  | none => throw .fileNotFound
  | some _ => modify (fun a => { a with staged := none })

def discardStaged (discard : Discard) : Disk Unit := do
  let found ← tryCatch (do effect fault (.unlinkStaged discard) unlinkStaged; pure true)
    (fun exn => if exn = .fileNotFound then pure false else throw exn)
  if found then step fault (.fsyncStaging discard) else pure ()

def linkStaged (key : StorageKey) (staged : Object) : Disk Unit := do
  match linkOriginal (← get).objects key staged with
  | none => throw fileExists
  | some objects => modify (fun a => { a with objects := objects })

def putOriginal (key : StorageKey) (staged : Object) : Disk Unit := do
  step fault .resolveKey
  step fault .ensureDirectory
  let linked ← tryCatch (do effect fault .link (linkStaged key staged); pure true)
    (fun exn => if exn = fileExists then pure false else throw exn)
  if linked then
    discardStaged fault .put
    step fault .fsyncDestination
  else
    step fault .readIdentity
    lift (compareOriginal (← get).objects key staged)
    step fault .setMode
    discardStaged fault .put

def delete (removal : Removal) (key : StorageKey) : Disk Unit := do
  step fault (.resolveRemoved removal)
  missingOk (effect fault (.unlinkOriginal removal)
    (modify (fun a => { a with objects := deleteOriginal a.objects key })))
  step fault (.fsyncRemoved removal)

end Storage

section Ingest

variable (fault : Option Fault) (web : WebService) (upload : WebUpload)

/-- The session of `_create_web_recording_and_job`. Until its commit it writes nothing. -/
def createRows (row : Recording) : Disk IngestResult := do
  step fault .beginCreate
  step fault .flush
  let (recording, db) ← lift
    (createRecordingAndJob web.service row upload.defaults upload.uploadTime (← get).db)
  step fault .appendActivity
  effect fault .commit (modify (fun a => { a with db := db }))
  pure ⟨recording, false⟩

def deleteIfUnreferenced (key : StorageKey) : Disk Unit := do
  step fault .selectOwner
  if (← get).db.recordings.any (fun r => r.storageKey = key) then pure ()
  else delete fault .unreferenced key

def recoverDuplicate (key : StorageKey) (exn : Exn) : Disk IngestResult := do
  match exn with
  | .integrityError constraint =>
    step fault .openRecovery
    step fault .selectRecovery
    match findWebDuplicate (← get).db upload.staged.sha256 with
    | some duplicate =>
      deleteIfUnreferenced fault key
      pure ⟨duplicate, true⟩
    | none =>
      deleteIfUnreferenced fault key
      throw (.integrityError constraint)
  | exn => throw exn

def createWebRecordingAndJob (probe : AudioProbe) (key : StorageKey) : Disk IngestResult := do
  let _ ← lift (rowDates web upload probe)
  tryCatch (createRows fault web upload (webRow upload probe key)) (recoverDuplicate fault upload key)

def publish (probe : AudioProbe) (key : StorageKey) : Disk IngestResult := do
  putOriginal fault key upload.staged
  tryCatch (createWebRecordingAndJob fault web upload probe key) (fun exn => do
    delete fault .compensation key
    throw exn)

def ingestStaged : Disk IngestResult := do
  let probe ← lift (checkedProbe web upload)
  step fault .openLookup
  step fault .selectDuplicate
  match findWebDuplicate (← get).db upload.staged.sha256 with
  | some duplicate =>
    putOriginal fault duplicate.storageKey upload.staged
    step fault .closeLookup
    pure ⟨duplicate, true⟩
  | none =>
    step fault .closeLookup
    let key ← lift (finalKey upload probe)
    publish fault web upload probe key

/-- The three `except` clauses discard the staged file; one of them answers with its own error. -/
def recoverFrom (exn : Exn) : Disk IngestResult := do
  discardStaged fault .cleanup
  throw (if exn = .storageConflict then storageIdentityConflict else exn)

def ingestWeb : Disk IngestResult :=
  match upload.startedAt with
  | some .naive => throw startedAtInvalid
  | _ => do
    createStaged fault web upload
    tryCatch (ingestStaged fault web upload) (recoverFrom fault)

end Ingest

end AudioServer.Services.BrowserUpload
