import AudioServer.Foundations.Pools
import AudioServer.Jobs.Calls
import AudioServer.Services.Uploads

/-! Any number of uploads and deletions at once over one database and one object
store, with the queue's transactions in between. -/

namespace AudioServer.Services.Interleaving

open AudioServer.Foundations.Outcomes AudioServer.Foundations.Pools AudioServer.Foundations.Runs
open AudioServer.Db.Models AudioServer.Jobs.Queue AudioServer.Jobs.Calls AudioServer.Services.Recordings
open AudioServer.Services.Storage AudioServer.Services.Uploads

structure UploadCall where
  upload : Upload
  phase : Phase

structure DeletionCall where
  id : RecordingId
  point : DeletionPoint

structure Site where
  store : Store
  uploads : List UploadCall
  deletions : List DeletionCall

def Site.opened (store : Store) : Site := ⟨store, [], []⟩

inductive SiteAct
  | beginUpload (upload : Upload)
  | stepUpload (i : ℕ) (defaults : RowDefaults) (now : Instant)
  | beginDeletion (id : RecordingId)
  | stepDeletion (j : ℕ)
  | work (call : QueueCall)

/-- `uuid4()` gives an identifier nobody has had, and nobody else has it before the call answers. -/
def Site.Fresh (site : Site) (upload : Upload) : Prop :=
  (upload.web → ∀ r ∈ site.store.db.recordings, r.id ≠ upload.id) ∧
  ∀ call ∈ site.uploads, call.upload.id = upload.id →
    ¬ upload.web ∧ (call.upload.web → call.phase.finished)

instance (site : Site) (upload : Upload) : Decidable (site.Fresh upload) :=
  inferInstanceAs (Decidable ((_ → ∀ r ∈ _, _) ∧ ∀ call ∈ _, _ → _ ∧ (_ → _)))

/-- A deletion waits for the row while another one holds it. -/
def Site.Unlocked (site : Site) (j : ℕ) : Prop :=
  ∀ d ∈ site.deletions[j]?, d.point.waits → ∀ e ∈ site.deletions, e.id = d.id → e.point.locked = none

instance (site : Site) (j : ℕ) : Decidable (site.Unlocked j) :=
  inferInstanceAs (Decidable (∀ d ∈ _, _ → ∀ e ∈ _, _ → _))

def Site.allows (site : Site) : SiteAct → Prop
  | .beginUpload upload => site.Fresh upload
  | .stepDeletion j => site.Unlocked j
  | _ => True

instance (site : Site) : (act : SiteAct) → Decidable (site.allows act)
  | .beginUpload upload => inferInstanceAs (Decidable (site.Fresh upload))
  | .stepUpload _ _ _ => inferInstanceAs (Decidable True)
  | .beginDeletion _ => inferInstanceAs (Decidable True)
  | .stepDeletion j => inferInstanceAs (Decidable (site.Unlocked j))
  | .work _ => inferInstanceAs (Decidable True)

def Site.stepUpload (service : RecordingService) (site : Site) (i : ℕ) (defaults : RowDefaults)
    (now : Instant) : Site :=
  match site.uploads[i]? with
  | none => site
  | some call => ⟨(call.phase.advance service defaults now call.upload site.store).1,
      site.uploads.set i
        ⟨call.upload, (call.phase.advance service defaults now call.upload site.store).2⟩,
      site.deletions⟩

def Site.stepDeletion (site : Site) (j : ℕ) : Site :=
  match site.deletions[j]? with
  | none => site
  | some d => ⟨(d.point.advance d.id site.store).1, site.uploads,
      site.deletions.set j ⟨d.id, (d.point.advance d.id site.store).2⟩⟩

def Site.perform (service : RecordingService) (site : Site) : SiteAct → Site
  | .beginUpload upload => { site with uploads := site.uploads ++ [⟨upload, .staged⟩] }
  | .stepUpload i defaults now => site.stepUpload service i defaults now
  | .beginDeletion id => { site with deletions := site.deletions ++ [⟨id, .find⟩] }
  | .stepDeletion j => site.stepDeletion j
  | .work call =>
    { site with store := { site.store with db := settled site.store.db (call.exec site.store.db) } }

def SiteStep (service : RecordingService) (site : Site) (act : SiteAct) (site' : Site) : Prop :=
  site.allows act ∧ site' = site.perform service act

abbrev SiteRun (service : RecordingService) (site : Site) (es : List (Event Site SiteAct))
    (site' : Site) : Prop :=
  Run (SiteStep service) site es site'

lemma siteRun_trail {service : RecordingService} {site : Site} (acts : List SiteAct)
    (h : AllAllowed Site.allows (Site.perform service) site acts) :
    SiteRun service site (trail (Site.perform service) site acts)
      (acts.foldl (Site.perform service) site) :=
  run_trail Site.allows (Site.perform service) h

inductive Advanced (service : RecordingService) (defaults : RowDefaults) (now : Instant) (web : Bool)
    (staged : Object) (row : Recording) (s : Store) : Point → Store → Phase → Prop
  | conflict {r} (hr : s.db.recording row.id = some r) (hne : ¬ SameUpload r row) :
      Advanced service defaults now web staged row s .lookById s (.done (.error identityConflict))
  | unknown (hr : s.db.recording row.id = none) :
      Advanced service defaults now web staged row s .lookById s (.running row .lookByContent)
  | repeated {r point} (hpoint : point = .lookById ∧ r.id = row.id ∧ SameUpload r row ∨
        point = .lookByContent) (hr : r ∈ s.db.recordings) (hdevice : r.deviceId = row.deviceId)
      (hcontent : r.sha256 = row.sha256) :
      Advanced service defaults now web staged row s point s (.running row (.link (.duplicate r)))
  | fresh :
      Advanced service defaults now web staged row s .lookByContent s (.running row (.link .own))
  | unnamed {exn} :
      Advanced service defaults now web staged row s .lookByContent s (.done (.error exn))
  | linked {target} (hfree : s.objects (target.key row) = none) :
      Advanced service defaults now web staged row s (.link target)
        { s with objects := Function.update s.objects (target.key row) (some staged) }
        (published row target)
  | occupied {target} (hthere : (s.objects (target.key row)).isSome) :
      Advanced service defaults now web staged row s (.link target) s (.running row (.compare target))
  | matched {target} (hsame : s.objects (target.key row) = some staged) :
      Advanced service defaults now web staged row s (.compare target) s (.running row (.mode target))
  | mismatched {target exn} :
      Advanced service defaults now web staged row s (.compare target) s (.done (.error exn))
  | secured {target} (hthere : (s.objects (target.key row)).isSome) :
      Advanced service defaults now web staged row s (.mode target) s (published row target)
  | vanished {target} (hgone : s.objects (target.key row) = none) :
      Advanced service defaults now web staged row s (.mode target) s (.done (.error .fileNotFound))
  | created {recording db}
      (hcreate : createRecordingAndJob service row defaults now s.db = .ok (recording, db)) :
      Advanced service defaults now web staged row s .create { s with db := db }
        (.done (.ok ⟨recording, false⟩))
  | refused {exn} (hcreate : createRecordingAndJob service row defaults now s.db = .error exn) :
      Advanced service defaults now web staged row s .create s (insertFailed web row exn)
  | recovered {r exn point} (hpoint : point = .recoverById exn ∨ point = .recoverByContent exn)
      (hr : r ∈ s.db.recordings) (hdevice : r.deviceId = row.deviceId)
      (hcontent : r.sha256 = row.sha256) :
      Advanced service defaults now web staged row s point s (recovered web row r)
  | conflicted {exn} :
      Advanced service defaults now web staged row s (.recoverById exn) s
        (.running row (.owner (.error identityConflict)))
  | searched {exn} (hr : s.db.recording row.id = none) :
      Advanced service defaults now web staged row s (.recoverById exn) s
        (.running row (.recoverByContent exn))
  | unrecovered {exn} :
      Advanced service defaults now web staged row s (.recoverByContent exn) s
        (.running row (.owner (.error exn)))
  | owned {outcome r} (hr : r ∈ s.db.recordings) (hkey : r.storageKey = row.storageKey) :
      Advanced service defaults now web staged row s (.owner outcome) s (concluded web row outcome)
  | unowned {outcome} (hnone : ∀ r ∈ s.db.recordings, r.storageKey ≠ row.storageKey) :
      Advanced service defaults now web staged row s (.owner outcome) s
        (.running row (.remove outcome))
  | removed {outcome} :
      Advanced service defaults now web staged row s (.remove outcome) (s.unlink row.storageKey)
        (concluded web row outcome)
  | swept {exn} :
      Advanced service defaults now web staged row s (.sweep exn) (s.unlink row.storageKey)
        (.done (.error exn))

lemma contentDuplicate_some {db : Database} {row r : Recording}
    (h : contentDuplicate db row = some r) :
    r ∈ db.recordings ∧ r.deviceId = row.deviceId ∧ r.sha256 = row.sha256 :=
  ⟨List.mem_of_find?_eq_some h, by simpa using List.find?_some h⟩

lemma putFailed_done (exn : Exn) : ∃ e, putFailed exn = .done (.error e) := by
  cases exn <;> exact ⟨_, rfl⟩

lemma lookedUp_cases (web : Bool) (row : Recording) :
    lookedUp web row = .running row (.link .own) ∨ ∃ exn, lookedUp web row = .done (.error exn) := by
  rw [lookedUp]
  split
  · split
    · exact .inl rfl
    · exact .inr ⟨_, rfl⟩
  · exact .inl rfl

lemma advanced (service : RecordingService) (defaults : RowDefaults) (now : Instant) (web : Bool)
    (staged : Object) (row : Recording) (s : Store) (point : Point) :
    Advanced service defaults now web staged row s point
      (Uploads.advance service defaults now web staged row s point).1
      (Uploads.advance service defaults now web staged row s point).2 := by
  cases point with
  | lookById =>
    rw [Uploads.advance]
    cases hr : s.db.recording row.id with
    | none => exact .unknown hr
    | some r =>
      by_cases hsame : SameUpload r row
      · simp only [hsame, if_true]
        exact .repeated (.inl ⟨rfl, (recording_some hr).2, hsame⟩) (recording_some hr).1 hsame.1 hsame.2.1
      · simp only [hsame, if_false]
        exact .conflict hr hsame
  | lookByContent =>
    rw [Uploads.advance]
    cases hr : contentDuplicate s.db row with
    | none =>
      rcases lookedUp_cases web row with hnamed | ⟨exn, hunnamed⟩
      · simp only [hnamed]
        exact .fresh
      · simp only [hunnamed]
        exact .unnamed
    | some r =>
      obtain ⟨hmem, hdevice, hcontent⟩ := contentDuplicate_some hr
      exact .repeated (.inr rfl) hmem hdevice hcontent
  | link target =>
    rw [Uploads.advance]
    cases hl : linkOriginal s.objects (target.key row) staged with
    | none => exact .occupied (linkOriginal_none hl)
    | some objects =>
      obtain ⟨hfree, rfl⟩ := linkOriginal_some hl
      exact .linked hfree
  | compare target =>
    rw [Uploads.advance]
    cases hc : compareOriginal s.objects (target.key row) staged with
    | ok u => exact .matched (compareOriginal_ok hc)
    | error exn =>
      obtain ⟨e, he⟩ := putFailed_done exn
      simp only [he]
      exact .mismatched
  | mode target =>
    rw [Uploads.advance]
    split
    · rename_i hthere
      exact .secured hthere
    · rename_i hgone
      exact .vanished (by simpa using hgone)
  | create =>
    rw [Uploads.advance]
    cases hc : createRecordingAndJob service row defaults now s.db with
    | ok created => exact .created hc
    | error exn => exact .refused hc
  | recoverById exn =>
    rw [Uploads.advance]
    cases hr : s.db.recording row.id with
    | none => exact .searched hr
    | some r =>
      by_cases hsame : SameUpload r row
      · simp only [hsame, if_true]
        exact .recovered (.inl rfl) (recording_some hr).1 hsame.1 hsame.2.1
      · simp only [hsame, if_false]
        exact .conflicted
  | recoverByContent exn =>
    rw [Uploads.advance]
    cases hr : contentDuplicate s.db row with
    | none => exact .unrecovered
    | some r =>
      obtain ⟨hmem, hdevice, hcontent⟩ := contentDuplicate_some hr
      exact .recovered (.inr rfl) hmem hdevice hcontent
  | owner outcome =>
    rw [Uploads.advance]
    split
    · rename_i howned
      simp only [List.any_eq_true, decide_eq_true_eq] at howned
      obtain ⟨r, hr, hkey⟩ := howned
      exact .owned hr hkey
    · rename_i hnone
      simp only [List.any_eq_true, decide_eq_true_eq, not_exists, not_and] at hnone
      exact .unowned hnone
  | remove outcome => exact .removed
  | sweep exn => exact .swept

inductive CallStep (service : RecordingService) (defaults : RowDefaults) (now : Instant) (s : Store) :
    UploadCall → Store → UploadCall → Prop
  | staged {upload row} (hstage : stageUpload service upload = .ok row) :
      CallStep service defaults now s ⟨upload, .staged⟩ s
        ⟨upload, .running row (firstLook upload.web)⟩
  | rejected {upload exn} (hstage : stageUpload service upload = .error exn) :
      CallStep service defaults now s ⟨upload, .staged⟩ s ⟨upload, .done (.error exn)⟩
  | advanced {upload row point s' phase}
      (h : Advanced service defaults now upload.web upload.staged row s point s' phase) :
      CallStep service defaults now s ⟨upload, .running row point⟩ s' ⟨upload, phase⟩
  | ended {upload outcome} :
      CallStep service defaults now s ⟨upload, .done outcome⟩ s ⟨upload, .done outcome⟩

lemma callStep (service : RecordingService) (defaults : RowDefaults) (now : Instant) (s : Store)
    (call : UploadCall) :
    CallStep service defaults now s call (call.phase.advance service defaults now call.upload s).1
      ⟨call.upload, (call.phase.advance service defaults now call.upload s).2⟩ := by
  obtain ⟨upload, phase⟩ := call
  cases phase with
  | staged =>
    simp only [Phase.advance]
    cases hs : stageUpload service upload with
    | ok row => exact .staged hs
    | error exn => exact .rejected hs
  | running row point => exact .advanced (advanced service defaults now _ _ row s point)
  | done outcome => exact .ended

lemma CallStep.upload {service : RecordingService} {defaults : RowDefaults} {now : Instant}
    {s s' : Store} {call call' : UploadCall} (h : CallStep service defaults now s call s' call') :
    call'.upload = call.upload := by
  cases h <;> rfl

lemma CallStep.db {service : RecordingService} {defaults : RowDefaults} {now : Instant} {s s' : Store}
    {call call' : UploadCall} (h : CallStep service defaults now s call s' call') : s'.db = s.db ∨
      ∃ row created, call.phase = .running row .create ∧
        createRecordingAndJob service row defaults now s.db = .ok (created, s'.db) ∧
        call'.phase = .done (.ok ⟨created, false⟩) := by
  cases h with
  | staged | rejected | ended => exact .inl rfl
  | advanced h =>
    cases h with
    | created hcreate => exact .inr ⟨_, _, rfl, hcreate, rfl⟩
    | _ => exact .inl rfl

lemma CallStep.finished {service : RecordingService} {defaults : RowDefaults} {now : Instant}
    {s s' : Store} {call call' : UploadCall} (h : CallStep service defaults now s call s' call')
    (hend : call.phase.finished) : call'.phase.finished := by
  cases h with
  | staged | rejected | advanced => cases hend
  | ended => rfl

lemma stepUpload_some (service : RecordingService) {site : Site} {i : ℕ} (defaults : RowDefaults)
    (now : Instant) {call : UploadCall} (hi : site.uploads[i]? = some call) :
    ∃ s' call', CallStep service defaults now site.store call s' call' ∧
      site.stepUpload service i defaults now = ⟨s', site.uploads.set i call', site.deletions⟩ := by
  rw [Site.stepUpload, hi]
  exact ⟨_, _, callStep service defaults now site.store call, rfl⟩

lemma stepUpload_cases (service : RecordingService) (site : Site) (i : ℕ) (defaults : RowDefaults)
    (now : Instant) : site.stepUpload service i defaults now = site ∨
      ∃ call s' call', site.uploads[i]? = some call ∧
        CallStep service defaults now site.store call s' call' ∧
        site.stepUpload service i defaults now = ⟨s', site.uploads.set i call', site.deletions⟩ := by
  cases hi : site.uploads[i]? with
  | none =>
    rw [Site.stepUpload, hi]
    exact .inl rfl
  | some call =>
    obtain ⟨s', call', hstep, hs⟩ := stepUpload_some service defaults now hi
    exact .inr ⟨call, s', call', rfl, hstep, hs⟩

inductive Deleting (id : RecordingId) (s : Store) : DeletionPoint → Store → DeletionPoint → Prop
  | found {r} (hr : r ∈ s.db.recordings) (hid : r.id = id) : Deleting id s .find s (.active r)
  | missing : Deleting id s .find s (.refused recordingNotFound)
  | idle {r} (hidle : s.db.activeJob id = none) : Deleting id s (.active r) s (.stat r)
  | busy {r} : Deleting id s (.active r) s (.refused recordingDeleteActive)
  | there {r} : Deleting id s (.stat r) s (.rename r)
  | lost {r} (hnone : s.objects r.storageKey = none) : Deleting id s (.stat r) s (.commit r none)
  | quarantined {r object} (hobject : s.objects r.storageKey = some object) :
      Deleting id s (.rename r) (s.unlink r.storageKey) (.commit r (some object))
  | vanished {r} : Deleting id s (.rename r) s (.refused .fileNotFound)
  | committed {r object} :
      Deleting id s (.commit r object) { s with db := eraseRecording id s.db } (.finalize r)
  | finalized {r} : Deleting id s (.finalize r) s (.deleted r)
  | ended {point} (hend : point.locked = none) : Deleting id s point s point

lemma deleting (id : RecordingId) (s : Store) (point : DeletionPoint) :
    Deleting id s point (point.advance id s).1 (point.advance id s).2 := by
  cases point with
  | find =>
    rw [DeletionPoint.advance]
    cases hr : s.db.recording id with
    | none => exact .missing
    | some r => exact .found (recording_some hr).1 (recording_some hr).2
  | active r =>
    rw [DeletionPoint.advance]
    split
    · rename_i hidle
      exact .idle hidle
    · exact .busy
  | stat r =>
    rw [DeletionPoint.advance]
    split
    · exact .there
    · rename_i hnone
      exact .lost (by simpa using hnone)
  | rename r =>
    rw [DeletionPoint.advance]
    cases ho : s.objects r.storageKey with
    | none => exact .vanished
    | some object => exact .quarantined ho
  | commit r object => exact .committed
  | finalize r => exact .finalized
  | deleted r => exact .ended rfl
  | refused exn => exact .ended rfl

lemma Deleting.locked {id : RecordingId} {s s' : Store} {point point' : DeletionPoint}
    (h : Deleting id s point s' point') {r : Recording} (hr : point'.locked = some r) :
    point.locked = some r ∨ (point.waits ∧ r ∈ s.db.recordings ∧ r.id = id) := by
  cases h with
  | found hmem hid =>
    cases hr
    exact .inr ⟨rfl, hmem, hid⟩
  | missing | busy | vanished | committed | finalized => cases hr
  | _ => exact .inl hr

lemma Deleting.db {id : RecordingId} {s s' : Store} {point point' : DeletionPoint}
    (h : Deleting id s point s' point') : s'.db = s.db ∨
      ∃ r object, point = .commit r object ∧ point' = .finalize r ∧
        s' = { s with db := eraseRecording id s.db } := by
  cases h with
  | committed => exact .inr ⟨_, _, rfl, rfl, rfl⟩
  | _ => exact .inl rfl

lemma stepDeletion_cases (site : Site) (j : ℕ) : site.stepDeletion j = site ∨
    ∃ d s' point, site.deletions[j]? = some d ∧ Deleting d.id site.store d.point s' point ∧
      site.stepDeletion j = ⟨s', site.uploads, site.deletions.set j ⟨d.id, point⟩⟩ := by
  rw [Site.stepDeletion]
  cases hj : site.deletions[j]? with
  | none => exact .inl rfl
  | some d => exact .inr ⟨d, _, _, rfl, deleting d.id site.store d.point, rfl⟩

structure Prepared (upload : Upload) (row : Recording) : Prop where
  id : row.id = upload.id
  deviceId : row.deviceId = upload.deviceId
  sha256 : row.sha256 = upload.staged.sha256
  fileSize : row.fileSize = upload.staged.fileSize
  status : row.processingStatus = .queued
  key : row.storageKey.recordingId = row.id

lemma stageUpload_ok {service : RecordingService} {upload : Upload} {row : Recording}
    (h : stageUpload service upload = .ok row) : Prepared upload row := by
  obtain ⟨request, staged, probe⟩ := upload
  cases request with
  | ingest metadata claimed =>
    obtain ⟨_, _, h⟩ := bind_ok h
    obtain ⟨_, _, h⟩ := bind_ok h
    obtain ⟨_, hvalid, h⟩ := bind_ok h
    obtain ⟨probed, _, h⟩ := bind_ok h
    obtain ⟨key, hkey, h⟩ := bind_ok h
    obtain ⟨_, hsize, hsum⟩ := bind_ok hvalid
    obtain ⟨-, rfl⟩ := originalStorageKey_ok.mp hkey
    cases h
    exact ⟨rfl, rfl, (require_ok.mp hsum).symm, (require_ok.mp hsize).symm, rfl, rfl⟩
  | web identifier effectiveStart =>
    obtain ⟨_, _, h⟩ := bind_ok h
    obtain ⟨probed, _, h⟩ := bind_ok h
    obtain ⟨_, _, h⟩ := bind_ok h
    cases h
    exact ⟨rfl, rfl, rfl, rfl, rfl, rfl⟩

def Twin (row r : Recording) : Prop := r.deviceId = row.deviceId ∧ r.sha256 = row.sha256

def TwinTarget (row : Recording) : Target → Prop
  | .own => True
  | .duplicate r => Twin row r

def TwinOutcome (row : Recording) : Except Exn IngestResult → Prop
  | .ok result => Twin row result.recording
  | .error _ => True

def SoundPoint (web : Bool) (row : Recording) : Point → Prop
  | .link target => TwinTarget row target
  | .compare target => TwinTarget row target
  | .mode target => TwinTarget row target
  | .owner outcome => TwinOutcome row outcome
  | .remove outcome => TwinOutcome row outcome
  | .sweep _ => web
  | _ => True

def SoundPhase (service : RecordingService) (upload : Upload) : Phase → Prop
  | .staged => True
  | .running row point => stageUpload service upload = .ok row ∧ SoundPoint upload.web row point
  | .done (.ok result) => result.recording.deviceId = upload.deviceId ∧
      result.recording.sha256 = upload.staged.sha256
  | .done (.error _) => True

section Soundness

variable {service : RecordingService} {defaults : RowDefaults} {now : Instant} {upload : Upload}
  {row : Recording}

lemma soundPhase_done (hstage : stageUpload service upload = .ok row)
    {outcome : Except Exn IngestResult} (h : TwinOutcome row outcome) :
    SoundPhase service upload (.done outcome) := by
  have hp := stageUpload_ok hstage
  cases outcome with
  | ok result => exact ⟨h.1.trans hp.deviceId, h.2.trans hp.sha256⟩
  | error exn => exact trivial

lemma published_sound (hstage : stageUpload service upload = .ok row) {target : Target}
    (h : TwinTarget row target) : SoundPhase service upload (published row target) := by
  cases target with
  | own => exact ⟨hstage, trivial⟩
  | duplicate r => exact soundPhase_done hstage h

lemma recovered_sound (hstage : stageUpload service upload = .ok row) {r : Recording}
    (h : Twin row r) : SoundPhase service upload (recovered upload.web row r) := by
  rw [recovered]
  split
  · exact ⟨hstage, h⟩
  · have hdone : TwinOutcome row (.ok ⟨r, true⟩) := h
    exact soundPhase_done hstage hdone

lemma concluded_sound (hstage : stageUpload service upload = .ok row)
    {outcome : Except Exn IngestResult} (h : TwinOutcome row outcome) :
    SoundPhase service upload (concluded upload.web row outcome) := by
  cases outcome with
  | ok result => exact soundPhase_done hstage h
  | error exn =>
    rw [concluded]
    split
    · exact ⟨hstage, ‹_›⟩
    · exact trivial

lemma insertFailed_sound (hstage : stageUpload service upload = .ok row) (exn : Exn) :
    SoundPhase service upload (insertFailed upload.web row exn) := by
  have hother : SoundPhase service upload
      (if upload.web then .running row (.sweep exn) else .done (.error exn)) := by
    split
    · exact ⟨hstage, ‹_›⟩
    · exact trivial
  cases exn with
  | integrityError constraint =>
    rw [insertFailed]
    split
    · exact ⟨hstage, trivial⟩
    · exact ⟨hstage, trivial⟩
  | _ => exact hother

lemma Advanced.sound {s s' : Store} {point : Point} {phase : Phase}
    (h : Advanced service defaults now upload.web upload.staged row s point s' phase)
    (hstage : stageUpload service upload = .ok row) (hpoint : SoundPoint upload.web row point) :
    SoundPhase service upload phase := by
  cases h with
  | conflict | unnamed | mismatched | vanished | swept => exact trivial
  | unknown | fresh | searched | conflicted | unrecovered => exact ⟨hstage, trivial⟩
  | repeated _ _ hdevice hcontent => exact ⟨hstage, hdevice, hcontent⟩
  | occupied | matched | unowned => exact ⟨hstage, hpoint⟩
  | linked | secured => exact published_sound hstage hpoint
  | created hcreate =>
    obtain ⟨rfl, _⟩ := createRecordingAndJob_ok hcreate
    have hdone : TwinOutcome row (.ok ⟨{ row with processingStatus := .queued }, false⟩) :=
      ⟨rfl, rfl⟩
    exact soundPhase_done hstage hdone
  | refused => exact insertFailed_sound hstage _
  | recovered _ _ hdevice hcontent => exact recovered_sound hstage ⟨hdevice, hcontent⟩
  | owned | removed => exact concluded_sound hstage hpoint

lemma CallStep.sound {s s' : Store} {call call' : UploadCall}
    (h : CallStep service defaults now s call s' call')
    (hsound : SoundPhase service call.upload call.phase) :
    SoundPhase service call'.upload call'.phase := by
  cases h with
  | staged hstage =>
    refine ⟨hstage, ?_⟩
    rw [firstLook]
    split <;> exact trivial
  | rejected => exact trivial
  | advanced h => exact h.sound hsound.1 hsound.2
  | ended => exact hsound

def SoundCalls (service : RecordingService) (site : Site) : Prop :=
  ∀ call ∈ site.uploads, SoundPhase service call.upload call.phase

lemma SiteStep.sound {site site' : Site} {act : SiteAct} (hsound : SoundCalls service site)
    (h : SiteStep service site act site') : SoundCalls service site' := by
  obtain ⟨_, rfl⟩ := h
  cases act with
  | beginUpload upload =>
    have hnew : SoundPhase service upload .staged := trivial
    exact forall_snoc hsound hnew
  | stepUpload i defaults now =>
    rw [Site.perform]
    rcases stepUpload_cases service site i defaults now with hs | ⟨call, s', call', hi, hstep, hs⟩
    · rw [hs]
      exact hsound
    · rw [hs]
      exact forall_set hsound (hstep.sound (hsound call (List.mem_of_getElem? hi)))
  | beginDeletion id => exact hsound
  | stepDeletion j =>
    rw [Site.perform]
    rcases stepDeletion_cases site j with hs | ⟨_, _, _, _, _, hs⟩
    · rw [hs]
      exact hsound
    · rw [hs]
      exact hsound
  | work call => exact hsound

end Soundness

end AudioServer.Services.Interleaving
