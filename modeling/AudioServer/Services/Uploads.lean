import AudioServer.Services.Recordings
import AudioServer.Services.Storage

/-! The two uploads and the deletion of a recording, as the database and storage
steps they take between which any other call may run. -/

namespace AudioServer.Services.Uploads

open AudioServer.Foundations.Outcomes AudioServer.Foundations.Strings AudioServer.Api.Schemas
open AudioServer.Core.Datetimes AudioServer.Db.Models AudioServer.Jobs.Queue
open AudioServer.Services.Recordings AudioServer.Services.Storage

structure ClientRecordingMetadata where
  id : RecordingId
  deviceId : Text
  checksumSha256 : Text
  fileSize : ℕ
  recordingStartTime : Instant
deriving DecidableEq

structure ClaimedIdentity where
  idempotencyKey : RecordingId
  headerDeviceId : Text
  headerSha256 : Text
  formChecksum : Text
deriving DecidableEq

structure AudioProbe where
  durationSeconds : Seconds
  preferredExtension : MediaExtension

/-- `uuid4()` and the effective start of a browser upload are part of its request. -/
inductive Request
  | ingest (metadata : ClientRecordingMetadata) (claimed : ClaimedIdentity)
  | web (identifier : RecordingId) (effectiveStart : Instant)

structure Upload where
  request : Request
  staged : Object
  probe : Except Exn AudioProbe

def Upload.web (upload : Upload) : Bool :=
  match upload.request with
  | .ingest _ _ => false
  | .web _ _ => true

def Upload.id (upload : Upload) : RecordingId :=
  match upload.request with
  | .ingest metadata _ => metadata.id
  | .web identifier _ => identifier

def Upload.deviceId (upload : Upload) : Text :=
  match upload.request with
  | .ingest metadata _ => metadata.deviceId
  | .web _ _ => "web-upload".toList

structure IngestResult where
  recording : Recording
  duplicate : Bool
deriving DecidableEq

def isChecksum (value : Text) : Prop :=
  value.length = 64 ∧ value.all (fun c => decide (c ∈ "0123456789abcdef".toList))

instance (value : Text) : Decidable (isChecksum value) := inferInstanceAs (Decidable (_ ∧ _))

def validateIdentity (metadata : ClientRecordingMetadata) (claimed : ClaimedIdentity) :
    Except Exn Unit := do
  require (metadata.id = claimed.idempotencyKey)
    (.recordingService "idempotency_key_mismatch" "Idempotency-Key does not match metadata.id." 422)
  require (metadata.deviceId = claimed.headerDeviceId)
    (.recordingService "device_id_mismatch" "X-Device-ID does not match metadata.device_id." 422)
  require (metadata.checksumSha256 = claimed.headerSha256.map Char.toLower ∧
      metadata.checksumSha256 = claimed.formChecksum.map Char.toLower ∧
      isChecksum metadata.checksumSha256)
    (.recordingService "checksum_claim_mismatch"
      "Checksum values supplied with the upload do not match." 422)

def validateStagedIdentity (staged : Object) (metadata : ClientRecordingMetadata) :
    Except Exn Unit := do
  require (staged.fileSize = metadata.fileSize)
    (.recordingService "file_size_mismatch"
      "Uploaded audio size does not match metadata.file_size." 422)
  require (staged.sha256 = metadata.checksumSha256)
    (.recordingService "checksum_mismatch" "Uploaded audio checksum does not match." 422)

/-- `_probe`: whatever the preprocessor raises is already the error the caller sees. -/
def probeStaged (service : RecordingService) (upload : Upload) : Except Exn AudioProbe := do
  let probe ← upload.probe
  require (probe.durationSeconds ≤ service.maxAudioDurationSeconds)
    (.recordingService "audio_too_long" "Uploaded audio exceeds the configured duration limit." 413)
  .ok probe

def createStagedUpload (service : RecordingService) (staged : Object) : Except Exn Unit :=
  require (staged.fileSize ≤ service.maxUploadBytes)
    (.recordingService "upload_too_large" "Uploaded audio exceeds the configured size limit." 413)

def webExtensions : List MediaExtension := [.mp3, .wav, .m4a]

/-- The part of an upload before its first look at the database: the row it would create. A browser
upload names the key of its row only when it is known to be new. -/
def stageUpload (service : RecordingService) (upload : Upload) : Except Exn Recording :=
  match upload.request with
  | .ingest metadata claimed => do
    validateIdentity metadata claimed
    createStagedUpload service upload.staged
    validateStagedIdentity upload.staged metadata
    let probe ← probeStaged service upload
    let key ← originalStorageKey metadata.id metadata.recordingStartTime probe.preferredExtension
    .ok ⟨metadata.id, metadata.deviceId, metadata.checksumSha256, metadata.fileSize, key,
      metadata.recordingStartTime, probe.durationSeconds, .queued⟩
  | .web identifier effectiveStart => do
    createStagedUpload service upload.staged
    let probe ← probeStaged service upload
    require (probe.preferredExtension ∈ webExtensions)
      (.recordingService "web_audio_type_unsupported"
        "Browser uploads must be valid MP3, WAV, or M4A audio." 415)
    .ok ⟨identifier, "web-upload".toList, upload.staged.sha256, upload.staged.fileSize,
      ⟨effectiveStart / dayLength, identifier, keyExtension probe.preferredExtension⟩,
      effectiveStart, probe.durationSeconds, .queued⟩

/-- Where `put_original` publishes: under the key of the new row, or of the row it duplicates. -/
inductive Target
  | own
  | duplicate (recording : Recording)
deriving DecidableEq

def Target.key (row : Recording) : Target → StorageKey
  | .own => row.storageKey
  | .duplicate recording => recording.storageKey

/-- The next step of an upload past its staging. What it will return or raise is known from `owner`
on. -/
inductive Point
  | lookById
  | lookByContent
  | link (target : Target)
  | compare (target : Target)
  | mode (target : Target)
  | create
  | recoverById (exn : Exn)
  | recoverByContent (exn : Exn)
  | owner (outcome : Except Exn IngestResult)
  | remove (outcome : Except Exn IngestResult)
  | sweep (exn : Exn)
deriving DecidableEq

inductive Phase
  | staged
  | running (row : Recording) (point : Point)
  | done (outcome : Except Exn IngestResult)
deriving DecidableEq

def Phase.finished : Phase → Bool
  | .done _ => true
  | _ => false

structure Store where
  db : Database
  objects : Objects

def Store.empty (settings : Option ProcessingSettings) : Store := ⟨.empty settings, fun _ => none⟩

def identityConflict : Exn :=
  .recordingService "recording_identity_conflict"
    "Recording ID is already associated with different audio." 409

def storageIdentityConflict : Exn :=
  .recordingService "storage_identity_conflict"
    "Stored audio conflicts with the uploaded recording identity." 409

def SameUpload (stored row : Recording) : Prop :=
  stored.deviceId = row.deviceId ∧ stored.sha256 = row.sha256 ∧ stored.fileSize = row.fileSize

instance (stored row : Recording) : Decidable (SameUpload stored row) :=
  inferInstanceAs (Decidable (_ ∧ _))

def contentDuplicate (db : Database) (row : Recording) : Option Recording :=
  db.recordings.find? (fun r => r.deviceId = row.deviceId ∧ r.sha256 = row.sha256)

def lookedUp (web : Bool) (row : Recording) : Phase :=
  if web then
    match datetime row.startedAt with
    | .ok _ => .running row (.link .own)
    | .error exn => .done (.error exn)
  else .running row (.link .own)

def published (row : Recording) : Target → Phase
  | .own => .running row .create
  | .duplicate recording => .done (.ok ⟨recording, true⟩)

def recovered (web : Bool) (row recording : Recording) : Phase :=
  if web ∨ recording.storageKey ≠ row.storageKey then
    .running row (.owner (.ok ⟨recording, true⟩))
  else .done (.ok ⟨recording, true⟩)

/-- After `_delete_if_unreferenced`. A browser upload that raises deletes its key once more. -/
def concluded (web : Bool) (row : Recording) : Except Exn IngestResult → Phase
  | .ok result => .done (.ok result)
  | .error exn => if web then .running row (.sweep exn) else .done (.error exn)

def Store.unlink (s : Store) (key : StorageKey) : Store :=
  { s with objects := deleteOriginal s.objects key }

@[simp] lemma Store.unlink_objects (s : Store) (key : StorageKey) :
    (s.unlink key).objects = deleteOriginal s.objects key := rfl

def insertFailed (web : Bool) (row : Recording) : Exn → Phase
  | .integrityError constraint =>
    if web then .running row (.recoverByContent (.integrityError constraint))
    else .running row (.recoverById (.integrityError constraint))
  | exn => if web then .running row (.sweep exn) else .done (.error exn)

def putFailed : Exn → Phase
  | .storageConflict => .done (.error storageIdentityConflict)
  | exn => .done (.error exn)

def advance (service : RecordingService) (defaults : RowDefaults) (now : Instant) (web : Bool)
    (staged : Object) (row : Recording) (s : Store) : Point → Store × Phase
  | .lookById =>
    match s.db.recording row.id with
    | some recording =>
      if SameUpload recording row then (s, .running row (.link (.duplicate recording)))
      else (s, .done (.error identityConflict))
    | none => (s, .running row .lookByContent)
  | .lookByContent =>
    match contentDuplicate s.db row with
    | some recording => (s, .running row (.link (.duplicate recording)))
    | none => (s, lookedUp web row)
  | .link target =>
    match linkOriginal s.objects (target.key row) staged with
    | some objects => ({ s with objects := objects }, published row target)
    | none => (s, .running row (.compare target))
  | .compare target =>
    match compareOriginal s.objects (target.key row) staged with
    | .ok _ => (s, .running row (.mode target))
    | .error exn => (s, putFailed exn)
  | .mode target =>
    if (s.objects (target.key row)).isSome then (s, published row target)
    else (s, .done (.error .fileNotFound))
  | .create =>
    match createRecordingAndJob service row defaults now s.db with
    | .ok (recording, db) => ({ s with db := db }, .done (.ok ⟨recording, false⟩))
    | .error exn => (s, insertFailed web row exn)
  | .recoverById exn =>
    match s.db.recording row.id with
    | some recording =>
      if SameUpload recording row then (s, recovered web row recording)
      else (s, .running row (.owner (.error identityConflict)))
    | none => (s, .running row (.recoverByContent exn))
  | .recoverByContent exn =>
    match contentDuplicate s.db row with
    | some recording => (s, recovered web row recording)
    | none => (s, .running row (.owner (.error exn)))
  | .owner outcome =>
    if s.db.recordings.any (fun r => r.storageKey = row.storageKey) then
      (s, concluded web row outcome)
    else (s, .running row (.remove outcome))
  | .remove outcome => (s.unlink row.storageKey, concluded web row outcome)
  | .sweep exn => (s.unlink row.storageKey, .done (.error exn))

def firstLook (web : Bool) : Point := if web then .lookByContent else .lookById

def Phase.advance (service : RecordingService) (defaults : RowDefaults) (now : Instant)
    (upload : Upload) (s : Store) : Phase → Store × Phase
  | .staged =>
    match stageUpload service upload with
    | .ok row => (s, .running row (firstLook upload.web))
    | .error exn => (s, .done (.error exn))
  | .running row point => Uploads.advance service defaults now upload.web upload.staged row s point
  | .done outcome => (s, .done outcome)

/-- The next step of `delete_recording`. The row is locked from `active` to `commit`, and the audio
is in quarantine from `commit` on. -/
inductive DeletionPoint
  | find
  | active (recording : Recording)
  | stat (recording : Recording)
  | rename (recording : Recording)
  | commit (recording : Recording) (quarantined : Option Object)
  | finalize (recording : Recording)
  | deleted (recording : Recording)
  | refused (exn : Exn)

def DeletionPoint.locked : DeletionPoint → Option Recording
  | .active recording => some recording
  | .stat recording => some recording
  | .rename recording => some recording
  | .commit recording _ => some recording
  | _ => none

def DeletionPoint.waits : DeletionPoint → Bool
  | .find => true
  | _ => false

def eraseRecording (id : RecordingId) (db : Database) : Database :=
  { db with
    recordings := db.recordings.filter (fun r => r.id ≠ id)
    jobs := db.jobs.filter (fun j => j.recordingId ≠ some id)
    activity := db.activity.filter (fun a => a.recordingId ≠ id)
    documents := Function.update db.documents id .empty }

def recordingDeleteActive : Exn :=
  .recordingService "recording_delete_active"
    "A queued or processing recording cannot be deleted." 409

def DeletionPoint.advance (id : RecordingId) (s : Store) : DeletionPoint → Store × DeletionPoint
  | .find =>
    match s.db.recording id with
    | some recording => (s, .active recording)
    | none => (s, .refused recordingNotFound)
  | .active recording =>
    if s.db.activeJob id = none then (s, .stat recording) else (s, .refused recordingDeleteActive)
  | .stat recording =>
    if (s.objects recording.storageKey).isSome then (s, .rename recording)
    else (s, .commit recording none)
  | .rename recording =>
    match s.objects recording.storageKey with
    | some object => (s.unlink recording.storageKey, .commit recording (some object))
    | none => (s, .refused .fileNotFound)
  | .commit recording _ => ({ s with db := eraseRecording id s.db }, .finalize recording)
  | .finalize recording => (s, .deleted recording)
  | .deleted recording => (s, .deleted recording)
  | .refused exn => (s, .refused exn)

end AudioServer.Services.Uploads
