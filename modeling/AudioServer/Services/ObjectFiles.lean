import AudioServer.Foundations.Contention
import AudioServer.Foundations.Files
import AudioServer.Foundations.Histories
import AudioServer.Services.Storage

/-! The file system calls of the local storage backend, any number of its methods at once: what is
visible under a key is written once. -/

namespace AudioServer.Services.ObjectFiles

open AudioServer.Foundations.Pools AudioServer.Foundations.Runs AudioServer.Foundations.Contention
open AudioServer.Foundations.Histories AudioServer.Foundations.Files
open AudioServer.Db.Models AudioServer.Services.Storage

inductive Path
  | original (key : StorageKey)
  | staged (name : ℕ)
  | quarantine (name : ℕ)
deriving DecidableEq

abbrev Disk := Directory Path Object

structure StagedUpload where
  name : ℕ
  object : Object
deriving DecidableEq

structure StoredObject where
  key : StorageKey
  object : Object
deriving DecidableEq

structure StagedDeletion where
  key : StorageKey
  quarantine : Option ℕ
deriving DecidableEq

/-- A call of the backend. Its `mkstemp` or `uuid4` name is part of it. -/
inductive Request
  | createStagedUpload (upload : StagedUpload)
  | putOriginal (staged : StagedUpload) (key : StorageKey)
  | discardStaged (staged : StagedUpload)
  | delete (key : StorageKey)
  | stageDelete (key : StorageKey) (name : ℕ)
  | restoreStagedDelete (deletion : StagedDeletion)
  | finalizeStagedDelete (deletion : StagedDeletion)
deriving DecidableEq

inductive Answer
  | done
  | stored (object : StoredObject)
  | deletion (deletion : StagedDeletion)
deriving DecidableEq

inductive Point
  | start
  | compare | chmod (stored : StoredObject) | fsync (stored : StoredObject)
  | sweep (stored : StoredObject)
  | replace | chmodMoved | fsyncMoved
  | unlink
  | flush
  | returned (answer : Answer)
  | raised (exn : Exn)
deriving DecidableEq

def touch (disk : Disk) (path : Path) (next : Point) : Point :=
  if (disk path).isSome then next else .raised .fileNotFound

def createStagedUpload (upload : StagedUpload) (disk : Disk) : Point → Disk × Point
  | .start => (write disk (.staged upload.name) upload.object, .returned .done)
  | point => (disk, point)

def discardStaged (staged : StagedUpload) (disk : Disk) : Point → Disk × Point
  | .start => (unlink disk (.staged staged.name), .returned .done)
  | point => (disk, point)

def putOriginal (staged : StagedUpload) (key : StorageKey) (disk : Disk) : Point → Disk × Point
  | .start =>
    match link disk (.staged staged.name) (.original key) with
    | .ok disk => (disk, .sweep ⟨key, staged.object⟩)
    | .error .taken => (disk, .compare)
    | .error .missing => (disk, .raised .fileNotFound)
  | .compare =>
    match disk (.original key) with
    | none => (disk, .raised .fileNotFound)
    | some existing => (disk,
        if existing = staged.object then .chmod ⟨key, existing⟩ else .raised .storageConflict)
  | .chmod stored => (disk, touch disk (.original key) (.fsync stored))
  | .fsync stored => (disk, touch disk (.original key) (.sweep stored))
  | .sweep stored => (unlink disk (.staged staged.name), .returned (.stored stored))
  | point => (disk, point)

/-- The directory of the key is flushed whether or not there was a file in it. -/
def delete (key : StorageKey) (disk : Disk) : Point → Disk × Point
  | .start => (unlink disk (.original key), .flush)
  | .flush => (disk, .returned .done)
  | point => (disk, point)

/-- Originals are regular files, so the check of `lstat` never refuses one. -/
def stageDelete (key : StorageKey) (name : ℕ) (disk : Disk) : Point → Disk × Point
  | .start => (disk,
      if (disk (.original key)).isSome then .replace else .returned (.deletion ⟨key, none⟩))
  | .replace =>
    match rename disk (.original key) (.quarantine name) with
    | none => (disk, .raised .fileNotFound)
    | some disk => (disk, .chmodMoved)
  | .chmodMoved => (disk, touch disk (.quarantine name) .fsyncMoved)
  | .fsyncMoved => (disk, touch disk (.quarantine name) (.returned (.deletion ⟨key, some name⟩)))
  | point => (disk, point)

def restoreStagedDelete (deletion : StagedDeletion) (disk : Disk) : Point → Disk × Point
  | .start =>
    match deletion.quarantine with
    | none => (disk, .returned .done)
    | some name =>
      match link disk (.quarantine name) (.original deletion.key) with
      | .ok disk => (disk, .unlink)
      | .error .taken => (disk, .raised .storageConflict)
      | .error .missing => (disk, .raised .fileNotFound)
  | .unlink =>
    match deletion.quarantine with
    | none => (disk, .unlink)
    | some name =>
      match disk (.quarantine name) with
      | none => (disk, .raised .fileNotFound)
      | some _ => (unlink disk (.quarantine name), .returned .done)
  | point => (disk, point)

def finalizeStagedDelete (deletion : StagedDeletion) (disk : Disk) : Point → Disk × Point
  | .start =>
    match deletion.quarantine with
    | none => (disk, .returned .done)
    | some name => (unlink disk (.quarantine name), .returned .done)
  | point => (disk, point)

def Request.advance (disk : Disk) (point : Point) : Request → Disk × Point
  | .createStagedUpload upload => ObjectFiles.createStagedUpload upload disk point
  | .putOriginal staged key => ObjectFiles.putOriginal staged key disk point
  | .discardStaged staged => ObjectFiles.discardStaged staged disk point
  | .delete key => ObjectFiles.delete key disk point
  | .stageDelete key name => ObjectFiles.stageDelete key name disk point
  | .restoreStagedDelete deletion => ObjectFiles.restoreStagedDelete deletion disk point
  | .finalizeStagedDelete deletion => ObjectFiles.finalizeStagedDelete deletion disk point

structure FileCall where
  request : Request
  point : Point
deriving DecidableEq

abbrev Store := Pool Disk FileCall

def Point.ended : Point → Bool
  | .returned _ | .raised _ => true
  | _ => false

def ready (_ : Store) (call : FileCall) : Prop := ¬ call.point.ended

instance (store : Store) (call : FileCall) : Decidable (ready store call) :=
  inferInstanceAs (Decidable (¬ _))

def advance (call : FileCall) (disk : Disk) : Disk × FileCall :=
  ((call.request.advance disk call.point).1, ⟨call.request, (call.request.advance disk call.point).2⟩)

def Request.stagingName : Request → Option ℕ
  | .createStagedUpload upload => some upload.name
  | _ => none

def Request.quarantineName : Request → Option ℕ
  | .stageDelete _ name => some name
  | _ => none

def Request.deletion : Request → Option StagedDeletion
  | .restoreStagedDelete deletion | .finalizeStagedDelete deletion => some deletion
  | _ => none

/-- The directory that a `delete` flushes may be one that was never made. -/
inductive StoreAct
  | begin (request : Request)
  | step (i : ℕ)
  | missing (i : ℕ)

/-- Names are fresh, and a method gets only what another one has returned. -/
def CanBegin (store : Store) : Request → Prop
  | .createStagedUpload upload => ∀ call ∈ store.calls, call.request.stagingName ≠ some upload.name
  | .putOriginal staged _ | .discardStaged staged =>
    ⟨.createStagedUpload staged, .returned .done⟩ ∈ store.calls
  | .stageDelete _ name => ∀ call ∈ store.calls, call.request.quarantineName ≠ some name
  | .restoreStagedDelete deletion | .finalizeStagedDelete deletion =>
    ∃ call ∈ store.calls, call.point = .returned (.deletion deletion)
  | .delete _ => True

instance (store : Store) : (request : Request) → Decidable (CanBegin store request)
  | .createStagedUpload _ => inferInstanceAs (Decidable (∀ call ∈ _, _ ≠ _))
  | .putOriginal _ _ | .discardStaged _ => inferInstanceAs (Decidable (_ ∈ _))
  | .stageDelete _ _ => inferInstanceAs (Decidable (∀ call ∈ _, _ ≠ _))
  | .restoreStagedDelete _ | .finalizeStagedDelete _ => inferInstanceAs (Decidable (∃ call ∈ _, _ = _))
  | .delete _ => inferInstanceAs (Decidable True)

def flushes (_ : Store) (call : FileCall) : Prop := call.point = .flush

instance (store : Store) (call : FileCall) : Decidable (flushes store call) :=
  inferInstanceAs (Decidable (_ = _))

def failFlush (call : FileCall) (disk : Disk) : Disk × FileCall :=
  (disk, ⟨call.request, .raised .fileNotFound⟩)

def Store.allows (store : Store) : StoreAct → Prop
  | .begin request => CanBegin store request
  | .step i => Pool.allows ready store i
  | .missing i => Pool.allows flushes store i

instance (store : Store) : (act : StoreAct) → Decidable (Store.allows store act)
  | .begin request => inferInstanceAs (Decidable (CanBegin store request))
  | .step i => inferInstanceAs (Decidable (Pool.allows ready store i))
  | .missing i => inferInstanceAs (Decidable (Pool.allows flushes store i))

def Store.perform (store : Store) : StoreAct → Store
  | .begin request => ⟨store.shared, store.calls ++ [⟨request, .start⟩]⟩
  | .step i => Pool.perform advance store i
  | .missing i => Pool.perform failFlush store i

def StoreStep (store : Store) (act : StoreAct) (store' : Store) : Prop :=
  Store.allows store act ∧ store' = Store.perform store act

abbrev StoreRun := Run StoreStep

def Store.empty : Store := ⟨fun _ => none, []⟩

inductive Moved (disk : Disk) : Request → Point → Disk → Point → Prop
  | idle {request point} : Moved disk request point disk point
  | failed {request point exn} (hcall : point = .start → request.deletion = none) :
      Moved disk request point disk (.raised exn)
  | created {upload} : Moved disk (.createStagedUpload upload) .start
      (write disk (.staged upload.name) upload.object) (.returned .done)
  | published {staged key object} (hstaged : disk (.staged staged.name) = some object)
      (hfree : disk (.original key) = none) : Moved disk (.putOriginal staged key) .start
        (write disk (.original key) object) (.sweep ⟨key, staged.object⟩)
  | occupied {staged key} : Moved disk (.putOriginal staged key) .start disk .compare
  | found {staged key} (hsame : disk (.original key) = some staged.object) :
      Moved disk (.putOriginal staged key) .compare disk (.chmod ⟨key, staged.object⟩)
  | secured {staged key stored} : Moved disk (.putOriginal staged key) (.chmod stored) disk (.fsync stored)
  | synced {staged key stored} : Moved disk (.putOriginal staged key) (.fsync stored) disk (.sweep stored)
  | stored {staged key stored} : Moved disk (.putOriginal staged key) (.sweep stored)
      (unlink disk (.staged staged.name)) (.returned (.stored stored))
  | discarded {staged} : Moved disk (.discardStaged staged) .start
      (unlink disk (.staged staged.name)) (.returned .done)
  | deleted {key} : Moved disk (.delete key) .start (unlink disk (.original key)) .flush
  | flushed {key} : Moved disk (.delete key) .flush disk (.returned .done)
  | absent {key name} : Moved disk (.stageDelete key name) .start disk (.returned (.deletion ⟨key, none⟩))
  | present {key name} : Moved disk (.stageDelete key name) .start disk .replace
  | quarantined {key name object} (hthere : disk (.original key) = some object) :
      Moved disk (.stageDelete key name) .replace
        (write (unlink disk (.original key)) (.quarantine name) object) .chmodMoved
  | securedMoved {key name} : Moved disk (.stageDelete key name) .chmodMoved disk .fsyncMoved
  | handed {key name} : Moved disk (.stageDelete key name) .fsyncMoved disk
      (.returned (.deletion ⟨key, some name⟩))
  | nothing {request : Request} {deletion : StagedDeletion} (hrequest : request.deletion = some deletion)
      (hnone : deletion.quarantine = none) : Moved disk request .start disk (.returned .done)
  | restored {deletion name object} (hname : deletion.quarantine = some name)
      (hthere : disk (.quarantine name) = some object) (hfree : disk (.original deletion.key) = none) :
      Moved disk (.restoreStagedDelete deletion) .start
        (write disk (.original deletion.key) object) .unlink
  | conflicted {deletion name} (hname : deletion.quarantine = some name)
      (hthere : (disk (.quarantine name)).isSome)
      (htaken : (disk (.original deletion.key)).isSome) :
      Moved disk (.restoreStagedDelete deletion) .start disk (.raised .storageConflict)
  | vanished {deletion name} (hname : deletion.quarantine = some name)
      (hgone : disk (.quarantine name) = none) :
      Moved disk (.restoreStagedDelete deletion) .start disk (.raised .fileNotFound)
  | released {request : Request} {deletion : StagedDeletion} {point name}
      (hrequest : request.deletion = some deletion) (hname : deletion.quarantine = some name)
      (hpoint : request = .finalizeStagedDelete deletion ∨ point = .unlink) :
      Moved disk request point (unlink disk (.quarantine name)) (.returned .done)

section Steps

variable {disk : Disk} {request : Request} {point : Point}

lemma touch_cases (disk : Disk) (path : Path) (next : Point) :
    touch disk path next = next ∨ touch disk path next = .raised .fileNotFound := by
  unfold touch
  split
  · exact .inl rfl
  · exact .inr rfl

lemma putOriginal_moved (staged : StagedUpload) (key : StorageKey) :
    Moved disk (.putOriginal staged key) point (putOriginal staged key disk point).1
      (putOriginal staged key disk point).2 := by
  cases point with
  | start =>
    simp only [putOriginal]
    split
    · rename_i disk' hlink
      obtain ⟨object, hstaged, hfree, rfl⟩ := link_ok hlink
      exact .published hstaged hfree
    · exact .occupied
    · exact .failed (fun _ => rfl)
  | compare =>
    simp only [putOriginal]
    split
    · exact .failed (fun _ => rfl)
    · rename_i existing hexisting
      split
      · rename_i hsame
        subst hsame
        exact .found hexisting
      · exact .failed (fun _ => rfl)
  | chmod stored =>
    simp only [putOriginal]
    rcases touch_cases disk (.original key) (.fsync stored) with h | h
    · rw [h]
      exact .secured
    · rw [h]
      exact .failed (fun _ => rfl)
  | fsync stored =>
    simp only [putOriginal]
    rcases touch_cases disk (.original key) (.sweep stored) with h | h
    · rw [h]
      exact .synced
    · rw [h]
      exact .failed (fun _ => rfl)
  | sweep stored => exact .stored
  | _ => exact .idle

lemma stageDelete_moved (key : StorageKey) (name : ℕ) :
    Moved disk (.stageDelete key name) point (stageDelete key name disk point).1
      (stageDelete key name disk point).2 := by
  cases point with
  | start =>
    simp only [stageDelete]
    split
    · exact .present
    · exact .absent
  | replace =>
    simp only [stageDelete]
    split
    · exact .failed (fun _ => rfl)
    · rename_i disk' hrename
      obtain ⟨object, hthere, rfl⟩ := rename_some hrename
      exact .quarantined hthere
  | chmodMoved =>
    simp only [stageDelete]
    rcases touch_cases disk (.quarantine name) .fsyncMoved with h | h
    · rw [h]
      exact .securedMoved
    · rw [h]
      exact .failed (fun _ => rfl)
  | fsyncMoved =>
    simp only [stageDelete]
    rcases touch_cases disk (.quarantine name) (.returned (.deletion ⟨key, some name⟩)) with h | h
    · rw [h]
      exact .handed
    · rw [h]
      exact .failed (fun _ => rfl)
  | _ => exact .idle

lemma restoreStagedDelete_moved (deletion : StagedDeletion) :
    Moved disk (.restoreStagedDelete deletion) point (restoreStagedDelete deletion disk point).1
      (restoreStagedDelete deletion disk point).2 := by
  cases point with
  | start =>
    simp only [restoreStagedDelete]
    split
    · rename_i hnone
      exact .nothing rfl hnone
    · rename_i name hname
      split
      · rename_i disk' hlink
        obtain ⟨object, hthere, hfree, rfl⟩ := link_ok hlink
        exact .restored hname hthere hfree
      · rename_i hlink
        obtain ⟨hthere, htaken⟩ := link_taken hlink
        exact .conflicted hname hthere htaken
      · rename_i hlink
        exact .vanished hname (link_missing hlink)
  | unlink =>
    simp only [restoreStagedDelete]
    split
    · exact .idle
    · rename_i name hname
      split
      · exact .failed (fun h => by cases h)
      · exact .released rfl hname (.inr rfl)
  | _ => exact .idle

lemma advance_moved : Moved disk request point (request.advance disk point).1
    (request.advance disk point).2 := by
  cases request with
  | createStagedUpload upload =>
    cases point with
    | start => exact .created
    | _ => exact .idle
  | putOriginal staged key => exact putOriginal_moved staged key
  | discardStaged staged =>
    cases point with
    | start => exact .discarded
    | _ => exact .idle
  | delete key =>
    cases point with
    | start => exact .deleted
    | flush => exact .flushed
    | _ => exact .idle
  | stageDelete key name => exact stageDelete_moved key name
  | restoreStagedDelete deletion => exact restoreStagedDelete_moved deletion
  | finalizeStagedDelete deletion =>
    cases point with
    | start =>
      simp only [Request.advance, finalizeStagedDelete]
      split
      · rename_i hnone
        exact .nothing rfl hnone
      · rename_i name hname
        exact .released rfl hname (.inl rfl)
    | _ => exact .idle

end Steps

end AudioServer.Services.ObjectFiles
