import AudioServer.Foundations.Effects
import AudioServer.Services.Bookmarks
import AudioServer.Services.DeletedAudio

/-! A deletion in which one step of the database or of the file system raises. -/

namespace AudioServer.Services.DeletionFaults

open AudioServer.Foundations.Effects AudioServer.Api.Schemas AudioServer.Db.Models
open AudioServer.Services.Bookmarks (detachRecordingBookmarks)
open AudioServer.Services.Days AudioServer.Services.Recordings AudioServer.Services.Storage
open AudioServer.Services.Uploads AudioServer.Services.Interleaving
open AudioServer.Services.Consistency AudioServer.Services.DeletedAudio

structure Tables where
  db : Database
  bookmarks : List Bookmark
  summaries : List DailySummary

structure Archive where
  tables : Tables
  objects : Objects
  quarantine : List Object

inductive DeletionStep
  | getRecording | selectActive | selectJobs
  | resolveKey | lstat | ensureDeletionRoot | replace | setMode | fsyncSource | fsyncDeletions
  | detachBookmarks | deleteActivity | deleteSegments | deleteAnalysis | deleteSummary | deleteJobs
  | deleteRow | commit
deriving DecidableEq

def Foreign (exn : Exn) : Prop := ∀ code message status, exn ≠ .recordingService code message status

/-- The exception one step raises. The steps do not raise the service's own error. -/
structure Fault where
  step : DeletionStep
  exn : Exn
  foreign : Foreign exn

/-- An exception does not undo what has been done to the archive. -/
abbrev Disk := EStateM Exn Archive

def step (fault : Option Fault) (s : DeletionStep) : Disk Unit :=
  match fault with
  | some f => if f.step = s then throw f.exn else pure ()
  | none => pure ()

structure StagedDeletion where
  key : StorageKey
  quarantined : Option Object

def Archive.quarantined (a : Archive) (key : StorageKey) (object : Object) : Archive :=
  { a with objects := deleteOriginal a.objects key, quarantine := object :: a.quarantine }

def stageDelete (fault : Option Fault) (key : StorageKey) : Disk StagedDeletion := do
  step fault .resolveKey
  step fault .lstat
  match (← get).objects key with
  | none => return ⟨key, none⟩
  | some object =>
    step fault .ensureDeletionRoot
    step fault .replace
    modify (·.quarantined key object)
    step fault .setMode
    step fault .fsyncSource
    step fault .fsyncDeletions
    return ⟨key, some object⟩

def restoreStagedDelete (deletion : StagedDeletion) : Disk Unit := do
  match deletion.quarantined with
  | none => return
  | some object =>
    match linkOriginal (← get).objects deletion.key object with
    | none => throw .storageConflict
    | some objects => modify (fun a => { a with
        objects := objects
        quarantine := a.quarantine.erase object })

def finalizeStagedDelete (deletion : StagedDeletion) : Disk Unit :=
  match deletion.quarantined with
  | none => pure ()
  | some object => modify (fun a => { a with quarantine := a.quarantine.erase object })

def lockTerminal (fault : Option Fault) (id : RecordingId) : Disk Recording := do
  step fault .getRecording
  match (← get).tables.db.recording id with
  | none => throw recordingNotFound
  | some recording =>
    step fault .selectActive
    if (← get).tables.db.activeJob id = none then
      step fault .selectJobs
      return recording
    else throw recordingDeleteActive

/-- The statements of the session between the handoff of the audio and its commit, on what the
session sees. -/
def erased (id : RecordingId) (now : Instant) (day : Day) (t : Tables) : Tables where
  db := eraseRecording id t.db
  bookmarks := detachRecordingBookmarks id now t.bookmarks
  summaries := t.summaries.filter (fun s => s.summaryDate ≠ day)

def eraseRows (fault : Option Fault) (id : RecordingId) (now : Instant) (recording : Recording) :
    Disk Unit := do
  step fault .detachBookmarks
  step fault .deleteActivity
  step fault .deleteSegments
  step fault .deleteAnalysis
  let day ← lift (dayOf recording.startedAt)
  step fault .deleteSummary
  step fault .deleteJobs
  step fault .deleteRow
  step fault .commit
  modify (fun a => { a with tables := erased id now day a.tables })

def isStorageError : Exn → Bool
  | .storageConflict => true
  | .other errorType => errorType = "StorageError"
  | _ => false

def deleteRollbackFailed : Exn :=
  .recordingService "recording_delete_rollback_failed"
    "The recording could not be deleted safely." 500

def storageDeleteFailed : Exn :=
  .recordingService "recording_storage_delete_failed"
    "The stored audio could not be prepared for deletion." 500

/-- The two `except` clauses. `deletion` is what `stage_delete` had returned by then. -/
def recoverFrom {α : Type} (deletion : Option StagedDeletion) (exn : Exn) : Disk α := do
  match exn with
  | .recordingService code message status => throw (.recordingService code message status)
  | exn =>
    match deletion with
    | none => pure ()
    | some deletion => tryCatch (restoreStagedDelete deletion) (fun _ => throw deleteRollbackFailed)
    throw (if isStorageError exn then storageDeleteFailed else exn)

def deleteRecording (fault : Option Fault) (id : RecordingId) (now : Instant) : Disk Unit := do
  let recording ← tryCatch (lockTerminal fault id) (recoverFrom none)
  let deletion ← tryCatch (stageDelete fault recording.storageKey) (recoverFrom none)
  tryCatch (eraseRows fault id now recording) (recoverFrom (some deletion))
  finalizeStagedDelete deletion

def afterReplace : List DeletionStep := [.setMode, .fsyncSource, .fsyncDeletions]

def StrandsAudio (fault : Option Fault) (id : RecordingId) (a : Archive) : Prop :=
  ∃ f ∈ fault, f.step ∈ afterReplace ∧ ∃ r, a.tables.db.recording id = some r ∧
    a.tables.db.activeJob id = none ∧ (a.objects r.storageKey).isSome

def Intact (a b : Archive) : Prop := b.tables = a.tables ∧ b.objects = a.objects

section Spec

variable {fault : Option Fault} {a b : Archive} {s : DeletionStep} {exn : Exn} {key : StorageKey}

lemma step_pass (h : ∀ f ∈ fault, f.step ≠ s) : step fault s a = .ok () a := by
  cases fault with
  | none => rfl
  | some f => simp only [step, if_neg (h f rfl)]; rfl

lemma step_fail {f : Fault} (hf : f ∈ fault) (hs : f.step = s) : step fault s a = .error f.exn a := by
  cases hf
  simp only [step, if_pos hs]
  rfl

lemma step_ok {u : Unit} (h : step fault s a = .ok u b) : b = a := by
  by_cases hs : ∃ f ∈ fault, f.step = s
  · obtain ⟨f, hf, hs⟩ := hs
    rw [step_fail hf hs] at h
    cases h
  · rw [step_pass (fun f hf hfs => hs ⟨f, hf, hfs⟩)] at h
    cases h
    rfl

lemma step_error (h : step fault s a = .error exn b) :
    b = a ∧ ∃ f ∈ fault, f.step = s ∧ f.exn = exn := by
  by_cases hs : ∃ f ∈ fault, f.step = s
  · obtain ⟨f, hf, hs⟩ := hs
    rw [step_fail hf hs] at h
    cases h
    exact ⟨rfl, f, hf, hs, rfl⟩
  · rw [step_pass (fun f hf hfs => hs ⟨f, hf, hfs⟩)] at h
    cases h

lemma step_bind_error {α : Type} {f : Unit → Disk α}
    (h : (step fault s >>= f) a = .error exn b) :
    (b = a ∧ ∃ f ∈ fault, f.step = s ∧ f.exn = exn) ∨ f () a = .error exn b := by
  rcases bind_error h with h | ⟨_, u, hu, h⟩
  · exact .inl (step_error h)
  · rw [step_ok hu] at h
    exact .inr h

lemma step_bind_ok {α : Type} {f : Unit → Disk α} {r : α}
    (h : (step fault s >>= f) a = .ok r b) : f () a = .ok r b := by
  obtain ⟨_, u, hu, h⟩ := bind_ok h
  rwa [step_ok hu] at h

lemma lockTerminal_error {id : RecordingId} (h : lockTerminal fault id a = .error exn b) : b = a := by
  rcases step_bind_error h with ⟨hb, _⟩ | h
  · exact hb
  rw [get_bind] at h
  cases hr : a.tables.db.recording id with
  | none =>
    rw [hr] at h
    cases h
    rfl
  | some r =>
    rw [hr] at h
    rcases step_bind_error h with ⟨hb, _⟩ | h
    · exact hb
    rw [get_bind] at h
    split at h
    · rcases step_bind_error h with ⟨hb, _⟩ | h
      · exact hb
      · cases h
    · cases h
      rfl

lemma lockTerminal_ok {id : RecordingId} {r : Recording} (h : lockTerminal fault id a = .ok r b) :
    b = a ∧ a.tables.db.recording id = some r ∧ a.tables.db.activeJob id = none := by
  have h := step_bind_ok h
  rw [get_bind] at h
  cases hr : a.tables.db.recording id with
  | none =>
    rw [hr] at h
    cases h
  | some r' =>
    rw [hr] at h
    have h := step_bind_ok h
    rw [get_bind] at h
    split at h
    · rename_i hidle
      have h := step_bind_ok h
      cases h
      exact ⟨rfl, rfl, hidle⟩
    · cases h

lemma stageDelete_error (h : stageDelete fault key a = .error exn b) : b = a ∨
    ∃ object, a.objects key = some object ∧ b = a.quarantined key object ∧
      ∃ f ∈ fault, f.step ∈ afterReplace := by
  rcases step_bind_error h with ⟨hb, _⟩ | h
  · exact .inl hb
  rcases step_bind_error h with ⟨hb, _⟩ | h
  · exact .inl hb
  rw [get_bind] at h
  cases ho : a.objects key with
  | none =>
    rw [ho] at h
    cases h
  | some object =>
    rw [ho] at h
    rcases step_bind_error h with ⟨hb, _⟩ | h
    · exact .inl hb
    rcases step_bind_error h with ⟨hb, _⟩ | h
    · exact .inl hb
    refine .inr ⟨object, rfl, ?_⟩
    rcases step_bind_error (a := a.quarantined key object) h with ⟨hb, f, hf, hs, _⟩ | h
    · exact ⟨hb, f, hf, by simp [afterReplace, hs]⟩
    rcases step_bind_error h with ⟨hb, f, hf, hs, _⟩ | h
    · exact ⟨hb, f, hf, by simp [afterReplace, hs]⟩
    rcases step_bind_error h with ⟨hb, f, hf, hs, _⟩ | h
    · exact ⟨hb, f, hf, by simp [afterReplace, hs]⟩
    · cases h

lemma stageDelete_ok {d : StagedDeletion} (h : stageDelete fault key a = .ok d b) :
    (d = ⟨key, none⟩ ∧ b = a) ∨ ∃ object, a.objects key = some object ∧ d = ⟨key, some object⟩ ∧
      b = a.quarantined key object := by
  have h := step_bind_ok (step_bind_ok h)
  rw [get_bind] at h
  cases ho : a.objects key with
  | none =>
    rw [ho] at h
    cases h
    exact .inl ⟨rfl, rfl⟩
  | some object =>
    rw [ho] at h
    have h := step_bind_ok (step_bind_ok h)
    have h := step_bind_ok (a := a.quarantined key object) h
    have h := step_bind_ok (step_bind_ok h)
    cases h
    exact .inr ⟨object, rfl, rfl, rfl⟩

/-- The session has committed nothing when it raises, and never with the service's own error. -/
lemma eraseRows_error {id : RecordingId} {now : Instant} {r : Recording}
    (h : eraseRows fault id now r a = .error exn b) : b = a ∧ Foreign exn := by
  have done {s} (h : b = a ∧ ∃ f ∈ fault, f.step = s ∧ f.exn = exn) : b = a ∧ Foreign exn := by
    obtain ⟨hb, f, _, _, rfl⟩ := h
    exact ⟨hb, f.foreign⟩
  rcases step_bind_error h with hd | h
  · exact done hd
  rcases step_bind_error h with hd | h
  · exact done hd
  rcases step_bind_error h with hd | h
  · exact done hd
  rcases step_bind_error h with hd | h
  · exact done hd
  rcases bind_error h with hday | ⟨day, _, hday, h⟩
  · obtain ⟨hb, hday⟩ := lift_error hday
    rw [dayOf_error hday]
    exact ⟨hb, fun _ _ _ h => by cases h⟩
  rw [(lift_ok hday).1] at h
  rcases step_bind_error h with hd | h
  · exact done hd
  rcases step_bind_error h with hd | h
  · exact done hd
  rcases step_bind_error h with hd | h
  · exact done hd
  rcases step_bind_error h with hd | h
  · exact done hd
  cases h

lemma recoverFrom_none (α : Type) (exn : Exn) (a : Archive) :
    ∃ exn', (recoverFrom none exn : Disk α) a = .error exn' a := by
  cases exn <;> exact ⟨_, rfl⟩

lemma recoverFrom_some (α : Type) {object : Object} (hforeign : Foreign exn)
    (ho : a.objects key = some object) :
    ∃ exn', (recoverFrom (some ⟨key, some object⟩) exn : Disk α) (a.quarantined key object) =
      .error exn' a := by
  have hback : restoreStagedDelete ⟨key, some object⟩ (a.quarantined key object) = .ok () a := by
    have hlink : linkOriginal (deleteOriginal a.objects key) key object = some a.objects := by
      rw [linkOriginal, deleteOriginal_same, deleteOriginal, Function.update_idem, ← ho,
        Function.update_eq_self]
      rfl
    show (match linkOriginal (deleteOriginal a.objects key) key object with
      | none => throw .storageConflict
      | some objects => modify (fun a => { a with
          objects := objects
          quarantine := a.quarantine.erase object }) : Disk Unit) (a.quarantined key object) = _
    rw [hlink]
    show EStateM.Result.ok () { a with quarantine := (object :: a.quarantine).erase object } = _
    rw [List.erase_cons_head]
  refine ⟨if isStorageError exn then storageDeleteFailed else exn, ?_⟩
  cases exn with
  | recordingService code message status => exact absurd rfl (hforeign code message status)
  | _ =>
    exact (bind_run_ok _ (catch_run_ok _ hback)).trans rfl

lemma recoverFrom_never_ok {α : Type} {u : α} : recoverFrom none exn a ≠ .ok u b := by
  obtain ⟨exn', he⟩ := recoverFrom_none α exn a
  rw [he]
  nofun

lemma deleteRecording_error {id : RecordingId} {now : Instant}
    (h : deleteRecording fault id now a = .error exn b) :
    b = a ∨ StrandsAudio fault id a := by
  rcases bind_error h with hlock | ⟨r, a₁, hlock, hafter⟩
  · obtain ⟨exn₁, a₁, hlock, hraised⟩ := catch_error hlock
    rw [lockTerminal_error hlock] at hraised
    obtain ⟨exn₂, hr⟩ := recoverFrom_none Recording exn₁ a
    cases hr.symm.trans hraised
    exact .inl rfl
  obtain ⟨ha₁, hrow, hidle⟩ := lockTerminal_ok (catch_ok (fun _ _ _ _ => recoverFrom_never_ok) hlock)
  subst ha₁
  rcases bind_error hafter with hstage | ⟨d, a₂, hstage, hlater⟩
  · obtain ⟨exn₁, a₂, hstage, hraised⟩ := catch_error hstage
    obtain ⟨exn₂, hr⟩ := recoverFrom_none StagedDeletion exn₁ a₂
    cases hr.symm.trans hraised
    rcases stageDelete_error hstage with hb | ⟨object, ho, _, f, hf, hs⟩
    · exact .inl hb
    · exact .inr ⟨f, hf, hs, r, hrow, hidle, by rw [ho]; rfl⟩
  have hstaged := stageDelete_ok (catch_ok (fun _ _ _ _ => recoverFrom_never_ok) hstage)
  rcases bind_error hlater with herase | ⟨u, a₃, _, hfinal⟩
  · obtain ⟨exn₁, a₃, herase, hraised⟩ := catch_error herase
    obtain ⟨ha₃, hforeign⟩ := eraseRows_error herase
    subst ha₃
    left
    rcases hstaged with ⟨rfl, rfl⟩ | ⟨object, ho, rfl, rfl⟩
    · cases exn₁ <;> cases hraised <;> rfl
    · obtain ⟨exn₂, hr⟩ := recoverFrom_some Unit hforeign ho
      cases hr.symm.trans hraised
      rfl
  · cases hq : d.quarantined <;> rw [finalizeStagedDelete, hq] at hfinal <;> cases hfinal

lemma lockTerminal_run {id : RecordingId} {r : Recording} (hr : a.tables.db.recording id = some r)
    (hidle : a.tables.db.activeJob id = none)
    (hsteps : ∀ f ∈ fault, f.step ∈ afterReplace) : lockTerminal fault id a = .ok r a := by
  have pass (s : DeletionStep) (hs : s ∉ afterReplace) : step fault s a = .ok () a :=
    step_pass (fun f hf hfs => hs (hfs ▸ hsteps f hf))
  rw [lockTerminal, bind_run_ok _ (pass _ (by decide)), get_bind, hr]
  show (step fault .selectActive >>= _) a = _
  rw [bind_run_ok _ (pass _ (by decide)), get_bind, if_pos hidle,
    bind_run_ok _ (pass _ (by decide))]
  rfl

lemma stageDelete_run {f : Fault} {object : Object} (hs : f.step ∈ afterReplace)
    (ho : a.objects key = some object) :
    stageDelete (some f) key a = .error f.exn (a.quarantined key object) := by
  have pass (a : Archive) (s : DeletionStep) (hs' : f.step ≠ s) : step (some f) s a = .ok () a :=
    step_pass (fun _ hf => by cases hf; exact hs')
  have before (s : DeletionStep) (hs' : s ∉ afterReplace) : step (some f) s a = .ok () a :=
    pass a s (fun hfs => hs' (hfs ▸ hs))
  rw [stageDelete, bind_run_ok _ (before _ (by decide)), bind_run_ok _ (before _ (by decide)),
    get_bind, ho]
  show (step (some f) .ensureDeletionRoot >>= _) a = _
  rw [bind_run_ok _ (before _ (by decide)), bind_run_ok _ (before _ (by decide))]
  show (step (some f) .setMode >>= _) (a.quarantined key object) = _
  by_cases hmode : f.step = .setMode
  · exact bind_run_error _ (step_fail rfl hmode)
  rw [bind_run_ok _ (pass _ _ hmode)]
  by_cases hsource : f.step = .fsyncSource
  · exact bind_run_error _ (step_fail rfl hsource)
  rw [bind_run_ok _ (pass _ _ hsource)]
  have hdeletions : f.step = .fsyncDeletions := by simpa [afterReplace, hmode, hsource] using hs
  exact bind_run_error _ (step_fail rfl hdeletions)

lemma deleteRecording_strands {id : RecordingId} (now : Instant) (h : StrandsAudio fault id a) :
    ∃ exn b, ∃ r : Recording, deleteRecording fault id now a = .error exn b ∧
      b.objects r.storageKey = none ∧ (a.objects r.storageKey).isSome := by
  obtain ⟨f, hf, hs, r, hr, hidle, ho⟩ := h
  cases hf
  obtain ⟨object, ho⟩ := Option.isSome_iff_exists.mp ho
  have hlock : lockTerminal (some f) id a = .ok r a := lockTerminal_run hr hidle (by
    rintro _ ⟨⟩
    exact hs)
  obtain ⟨exn, hraise⟩ := recoverFrom_none StagedDeletion f.exn
    (a.quarantined r.storageKey object)
  refine ⟨exn, a.quarantined r.storageKey object, r, ?_, deleteOriginal_same _ _, by rw [ho]; rfl⟩
  rw [deleteRecording, bind_run_ok _ (catch_run_ok _ hlock)]
  exact bind_run_error _ ((catch_run_error _ (stageDelete_run hs ho)).trans hraise)

end Spec

theorem failed_deletion_changes_nothing (fault : Option Fault) (id : RecordingId) (now : Instant)
    (a : Archive) : (∀ exn b, deleteRecording fault id now a = .error exn b → Intact a b) ↔
      ¬ StrandsAudio fault id a := by
  constructor
  · intro hintact hstrands
    obtain ⟨exn, b, r, hraise, hgone, hwas⟩ := deleteRecording_strands now hstrands
    rw [← (hintact exn b hraise).2, hgone] at hwas
    cases hwas
  · intro hstrands exn b h
    rcases deleteRecording_error h with rfl | h
    · exact ⟨rfl, rfl⟩
    · exact absurd h hstrands

def failedSite : Site := failedUpload.foldl (Site.perform exampleService) (.opened (.empty none))

def failedArchive : Archive := ⟨⟨failedSite.store.db, [], []⟩, failedSite.store.objects, []⟩

def chmodFault : Fault := ⟨.setMode, .other "OSError", by intro _ _ _ h; cases h⟩

theorem chmod_failure_strands_audio :
    (∃ es, SiteRun exampleService (.opened (.empty none)) es failedSite) ∧
      ∃ exn b, deleteRecording (some chmodFault) 5 2 failedArchive = .error exn b ∧
        ¬ Intact failedArchive b := by
  refine ⟨⟨_, siteRun_trail failedUpload (by decide +kernel)⟩, ?_⟩
  have hrow : failedArchive.tables.db.recording 5 = some failedRow := by decide +kernel
  have hidle : failedArchive.tables.db.activeJob 5 = none := by decide +kernel
  have haudio : (failedArchive.objects failedRow.storageKey).isSome := by decide +kernel
  have hstrands : StrandsAudio (some chmodFault) 5 failedArchive :=
    ⟨chmodFault, rfl, by decide, failedRow, hrow, hidle, haudio⟩
  obtain ⟨exn, b, r, hraise, hgone, hwas⟩ := deleteRecording_strands 2 hstrands
  refine ⟨exn, b, hraise, ?_⟩
  rintro ⟨_, hobjects⟩
  rw [← hobjects, hgone] at hwas
  cases hwas

end AudioServer.Services.DeletionFaults
