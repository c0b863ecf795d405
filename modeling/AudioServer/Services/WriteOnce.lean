import AudioServer.Services.ObjectFiles

/-! What is visible under a key stays what it is, a publication is of the staged content, and a
quarantined original comes back or stays where it is. -/

namespace AudioServer.Services.WriteOnce

open AudioServer.Foundations.Pools AudioServer.Foundations.Runs AudioServer.Foundations.Contention
open AudioServer.Foundations.Histories AudioServer.Foundations.Files
open AudioServer.Db.Models AudioServer.Services.Storage AudioServer.Services.ObjectFiles

def storedOf : Point → Option StoredObject
  | .chmod stored | .fsync stored | .sweep stored | .returned (.stored stored) => some stored
  | _ => none

def heldName : Request → Point → Option ℕ
  | .stageDelete _ name, .chmodMoved | .stageDelete _ name, .fsyncMoved => some name
  | .stageDelete _ _, .returned (.deletion deletion) => deletion.quarantine
  | _, _ => none

def Taken (store : Store) (name : ℕ) : Prop :=
  ∃ call ∈ store.calls, ∃ deletion, call.request.deletion = some deletion ∧
    deletion.quarantine = some name ∧ call.point = .returned .done

def ShowsStaged (i : ℕ) (key : StorageKey) (object : Object) (e : Event Store StoreAct) : Prop :=
  e.label = .step i ∧ e.after.shared (.original key) = some object

def Shown (es : List (Event Store StoreAct)) (i : ℕ) (request : Request) (stored : StoredObject) : Prop :=
  ∃ staged key, request = .putOriginal staged key ∧ stored = ⟨key, staged.object⟩ ∧
    ∃ e ∈ es, ShowsStaged i key staged.object e

lemma Shown.snoc {es : List (Event Store StoreAct)} {i : ℕ} {request : Request} {stored : StoredObject}
    (h : Shown es i request stored) (e : Event Store StoreAct) : Shown (es ++ [e]) i request stored := by
  obtain ⟨staged, key, hput, hobject, f, hf, hshows⟩ := h
  exact ⟨staged, key, hput, hobject, f, List.mem_append_left _ hf, hshows⟩

def MovesAway (key : StorageKey) (name : ℕ) (object : Object) (e : Event Store StoreAct) : Prop :=
  ∃ i, e.label = .step i ∧ e.before.calls[i]? = some ⟨.stageDelete key name, .replace⟩ ∧
    e.before.shared (.original key) = some object

section Moved

variable {disk disk' : Disk} {request : Request} {point point' : Point} {name : ℕ} {object : Object}

lemma original_kept (h : Moved disk request point disk' point') (key : StorageKey) :
    Kept (.original key) disk disk' := by
  cases h with
  | created => exact .same (by simp)
  | @published staged other object _ hfree =>
    by_cases hkey : key = other
    · subst hkey
      exact .absent hfree
    · exact .same (by simp [hkey])
  | stored => exact .same (by simp)
  | discarded => exact .same (by simp)
  | @deleted other =>
    by_cases hkey : key = other
    · exact .gone (by simp [hkey])
    · exact .same (by simp [hkey])
  | @quarantined other name object _ =>
    by_cases hkey : key = other
    · exact .gone (by simp [hkey])
    · exact .same (by simp [hkey])
  | @restored deletion name object _ _ hfree =>
    by_cases hkey : key = deletion.key
    · subst hkey
      exact .absent hfree
    · exact .same (by simp [hkey])
  | released _ _ _ => exact .same (by simp)
  | _ => exact .same rfl

lemma staged_source (h : Moved disk request point disk' point')
    (hafter : disk' (.staged name) = some object) :
    disk (.staged name) = some object ∨ ∃ upload, request = .createStagedUpload upload ∧
      upload.name = name ∧ upload.object = object ∧ point' = .returned .done := by
  cases h with
  | @created upload =>
    by_cases hname : name = upload.name
    · subst hname
      exact .inr ⟨upload, rfl, rfl, by simpa using hafter, rfl⟩
    · exact .inl (by simpa [hname] using hafter)
  | published _ _ => exact .inl (by simpa using hafter)
  | stored =>
    simp only [unlink_apply] at hafter
    split at hafter
    · cases hafter
    · exact .inl hafter
  | discarded =>
    simp only [unlink_apply] at hafter
    split at hafter
    · cases hafter
    · exact .inl hafter
  | deleted => exact .inl (by simpa using hafter)
  | quarantined _ => exact .inl (by simpa using hafter)
  | restored _ _ _ => exact .inl (by simpa using hafter)
  | released _ _ _ => exact .inl (by simpa using hafter)
  | _ => exact .inl hafter

lemma quarantine_source (h : Moved disk request point disk' point')
    (hafter : disk' (.quarantine name) = some object) : disk (.quarantine name) = some object ∨
      ∃ key, request = .stageDelete key name ∧ point = .replace ∧
        disk (.original key) = some object := by
  cases h with
  | created => exact .inl (by simpa using hafter)
  | published _ _ => exact .inl (by simpa using hafter)
  | stored => exact .inl (by simpa using hafter)
  | discarded => exact .inl (by simpa using hafter)
  | deleted => exact .inl (by simpa using hafter)
  | @quarantined key other content hthere =>
    by_cases hname : name = other
    · subst hname
      have hmoved : content = object := by simpa using hafter
      exact .inr ⟨key, rfl, rfl, hmoved ▸ hthere⟩
    · exact .inl (by simpa [hname] using hafter)
  | restored _ _ _ => exact .inl (by simpa using hafter)
  | released _ _ _ =>
    simp only [unlink_apply] at hafter
    split at hafter
    · cases hafter
    · exact .inl hafter
  | _ => exact .inl hafter

lemma quarantine_stays (h : Moved disk request point disk' point')
    (hthere : (disk (.quarantine name)).isSome) : (disk' (.quarantine name)).isSome ∨
      ∃ deletion, request.deletion = some deletion ∧ deletion.quarantine = some name ∧
        point' = .returned .done := by
  cases h with
  | created => exact .inl (by simpa using hthere)
  | published _ _ => exact .inl (by simpa using hthere)
  | stored => exact .inl (by simpa using hthere)
  | discarded => exact .inl (by simpa using hthere)
  | deleted => exact .inl (by simpa using hthere)
  | @quarantined key other content _ =>
    by_cases hname : name = other
    · exact .inl (by simp [hname])
    · exact .inl (by simpa [hname] using hthere)
  | restored _ _ _ => exact .inl (by simpa using hthere)
  | @released request deletion point other hrequest hother _ =>
    by_cases hname : name = other
    · subst hname
      exact .inr ⟨deletion, hrequest, hother, rfl⟩
    · exact .inl (by simpa [hname] using hthere)
  | _ => exact .inl hthere

lemma stored_source {stored : StoredObject} (h : Moved disk request point disk' point')
    (hafter : storedOf point' = some stored) : storedOf point = some stored ∨
      ∃ staged key, request = .putOriginal staged key ∧ stored = ⟨key, staged.object⟩ ∧
        (disk' (.original key) = some staged.object ∨
          ∃ object, disk (.staged staged.name) = some object ∧
            disk' (.original key) = some object) := by
  cases h with
  | idle => exact .inl hafter
  | @published staged key object hstaged _ =>
    cases hafter
    exact .inr ⟨staged, key, rfl, rfl, .inr ⟨object, hstaged, by simp⟩⟩
  | @found staged key hsame =>
    cases hafter
    exact .inr ⟨staged, key, rfl, rfl, .inl hsame⟩
  | secured => exact .inl hafter
  | synced => exact .inl hafter
  | stored => exact .inl hafter
  | _ => cases hafter

lemma held_source (h : Moved disk request point disk' point')
    (hafter : heldName request point' = some name) : heldName request point = some name ∨
      (disk' (.quarantine name)).isSome := by
  cases h with
  | idle => exact .inl hafter
  | @failed request point exn _ => cases request <;> cases hafter
  | quarantined _ =>
    cases hafter
    exact .inr (by simp)
  | securedMoved => exact .inl hafter
  | handed => exact .inl hafter
  | @nothing request deletion hrequest _ =>
    cases request <;> cases hafter
  | @released request deletion point other hrequest _ _ =>
    cases request <;> cases hafter
  | _ => cases hafter

lemma deletion_source {deletion : StagedDeletion} (h : Moved disk request point disk' point')
    (hafter : point' = .returned (.deletion deletion)) : point = .returned (.deletion deletion) ∨
      ∃ key name, request = .stageDelete key name ∧
        (deletion = ⟨key, none⟩ ∨ deletion = ⟨key, some name⟩) := by
  cases h with
  | idle => exact .inl hafter
  | @absent key name =>
    cases hafter
    exact .inr ⟨key, name, rfl, .inl rfl⟩
  | @handed key name =>
    cases hafter
    exact .inr ⟨key, name, rfl, .inr rfl⟩
  | _ => cases hafter

lemma taken_source {deletion : StagedDeletion} (h : Moved disk request point disk' point')
    (hdeletion : request.deletion = some deletion) (hname : deletion.quarantine = some name)
    (hafter : point' = .returned .done) : point = .returned .done ∨
      disk' (.quarantine name) = none := by
  cases h with
  | idle => exact .inl hafter
  | @nothing _ other hrequest hnone =>
    cases hrequest.symm.trans hdeletion
    cases hnone.symm.trans hname
  | @released _ other _ taken hrequest htaken _ =>
    cases hrequest.symm.trans hdeletion
    cases htaken.symm.trans hname
    exact .inr (by simp)
  | created => cases hdeletion
  | discarded => cases hdeletion
  | flushed => cases hdeletion
  | _ => cases hafter

lemma answer_source {staged : StagedUpload} {key : StorageKey} {answer : Answer}
    (h : Moved disk request point disk' point') (hput : request = .putOriginal staged key)
    (hafter : point' = .returned answer) : point = .returned answer ∨
      ∃ stored, answer = .stored stored := by
  cases h with
  | idle => exact .inl hafter
  | @stored _ _ stored =>
    cases hafter
    exact .inr ⟨stored, rfl⟩
  | nothing hrequest _ =>
    rw [hput] at hrequest
    cases hrequest
  | released hrequest _ _ =>
    rw [hput] at hrequest
    cases hrequest
  | created => cases hput
  | discarded => cases hput
  | flushed => cases hput
  | absent => cases hput
  | handed => cases hput
  | _ => cases hafter

end Moved

structure NamesSound (store : Store) : Prop where
  oneUpload : ∀ a ∈ store.calls, ∀ b ∈ store.calls, ∀ upload other,
    a.request = .createStagedUpload upload → b.request = .createStagedUpload other →
      upload.name = other.name → upload = other
  oneDeletion : ∀ (i k : ℕ) (a b : FileCall) (name : ℕ), store.calls[i]? = some a →
    store.calls[k]? = some b → a.request.quarantineName = some name →
      b.request.quarantineName = some name → i = k

structure UploadsSound (store : Store) : Prop where
  staged : ∀ name object, store.shared (.staged name) = some object → ∃ upload,
    ⟨.createStagedUpload upload, .returned .done⟩ ∈ store.calls ∧ upload.name = name ∧
      upload.object = object
  putOf : ∀ call ∈ store.calls, ∀ staged key, call.request = .putOriginal staged key →
    ⟨.createStagedUpload staged, .returned .done⟩ ∈ store.calls
  answers : ∀ call ∈ store.calls, ∀ staged key answer, call.request = .putOriginal staged key →
    call.point = .returned answer → ∃ stored, answer = .stored stored

structure DeletionsSound (store : Store) : Prop where
  returned : ∀ call ∈ store.calls, ∀ deletion, call.point = .returned (.deletion deletion) →
    ∃ key name, call.request = .stageDelete key name ∧
      (deletion = ⟨key, none⟩ ∨ deletion = ⟨key, some name⟩)
  handed : ∀ call ∈ store.calls, ∀ deletion, call.request.deletion = some deletion →
    ∃ other ∈ store.calls, other.point = .returned (.deletion deletion)
  kept : ∀ call ∈ store.calls, ∀ name, heldName call.request call.point = some name →
    (store.shared (.quarantine name)).isSome ∨ Taken store name
  gone : ∀ name, Taken store name → store.shared (.quarantine name) = none

structure HandlesSound (store : Store) : Prop where
  names : NamesSound store
  uploads : UploadsSound store
  deletions : DeletionsSound store

lemma giver_of {store : Store} (h : DeletionsSound store) {call : FileCall} {deletion : StagedDeletion}
    {name : ℕ} (hcall : call ∈ store.calls) (hdeletion : call.request.deletion = some deletion)
    (hname : deletion.quarantine = some name) : ∃ giver ∈ store.calls,
      giver.point = .returned (.deletion deletion) ∧ giver.request = .stageDelete deletion.key name := by
  obtain ⟨giver, hgiver, hpoint⟩ := h.handed call hcall deletion hdeletion
  refine ⟨giver, hgiver, hpoint, ?_⟩
  obtain ⟨key, other, hrequest, rfl | rfl⟩ := h.returned giver hgiver deletion hpoint
  · cases hname
  · cases hname
    exact hrequest

structure HistorySound (es : List (Event Store StoreAct)) (store : Store) : Prop where
  found : ∀ i call, store.calls[i]? = some call → ∀ stored, storedOf call.point = some stored →
    Shown es i call.request stored
  moved : ∀ name object, store.shared (.quarantine name) = some object →
    ∃ key, (∃ call ∈ store.calls, call.request = .stageDelete key name) ∧
      ∃ e ∈ es, MovesAway key name object e

section Begin

variable {store : Store} {request : Request}

lemma heldName_start (request : Request) : heldName request .start = none := by
  cases request <;> rfl

lemma fresh_name {name : ℕ} (hbegin : CanBegin store request)
    (hname : request.quarantineName = some name) :
    ∀ call ∈ store.calls, call.request.quarantineName ≠ some name := by
  cases request with
  | stageDelete key other =>
    cases hname
    exact hbegin
  | _ => cases hname

lemma mem_begin {call : FileCall} (hcall : call ∈ (Store.perform store (.begin request)).calls) :
    call ∈ store.calls ∨ call = ⟨request, .start⟩ := by
  rcases List.mem_append.mp hcall with hcall | hcall
  · exact .inl hcall
  · exact .inr (List.mem_singleton.mp hcall)

lemma begin_mem {call : FileCall} (hcall : call ∈ store.calls) :
    call ∈ (Store.perform store (.begin request)).calls := List.mem_append_left _ hcall

lemma names_begin (h : NamesSound store) (hbegin : CanBegin store request) :
    NamesSound (Store.perform store (.begin request)) := by
  constructor
  · intro a ha b hb upload other hu hv hname
    rcases mem_begin ha with hold | rfl
    · rcases mem_begin hb with hold' | rfl
      · exact h.oneUpload a hold b hold' upload other hu hv hname
      · cases hv
        exact absurd (by rw [hu, Request.stagingName, hname]) (hbegin a hold)
    · cases hu
      rcases mem_begin hb with hold' | rfl
      · exact absurd (by rw [hv, Request.stagingName, hname]) (hbegin b hold')
      · cases hv
        rfl
  · intro i k a b name ha hb hname hname'
    rcases snoc_some ha with hold | ⟨rfl, rfl⟩
    · rcases snoc_some hb with hold' | ⟨rfl, rfl⟩
      · exact h.oneDeletion i k a b name hold hold' hname hname'
      · exact absurd hname (fresh_name hbegin hname' a (List.mem_of_getElem? hold))
    · rcases snoc_some hb with hold' | ⟨rfl, _⟩
      · exact absurd hname' (fresh_name hbegin hname b (List.mem_of_getElem? hold'))
      · rfl

lemma uploads_begin (h : UploadsSound store) (hbegin : CanBegin store request) :
    UploadsSound (Store.perform store (.begin request)) := by
  constructor
  · intro name object hfile
    obtain ⟨upload, hcall, hupload⟩ := h.staged name object hfile
    exact ⟨upload, begin_mem hcall, hupload⟩
  · intro call hcall staged key hput
    rcases mem_begin hcall with hold | rfl
    · exact begin_mem (h.putOf call hold staged key hput)
    · cases hput
      exact begin_mem hbegin
  · intro call hcall staged key answer hput hpoint
    rcases mem_begin hcall with hold | rfl
    · exact h.answers call hold staged key answer hput hpoint
    · cases hpoint

lemma given_begin {deletion : StagedDeletion} (hbegin : CanBegin store request)
    (hdeletion : request.deletion = some deletion) :
    ∃ other ∈ store.calls, other.point = .returned (.deletion deletion) := by
  cases request with
  | restoreStagedDelete given =>
    cases hdeletion
    exact hbegin
  | finalizeStagedDelete given =>
    cases hdeletion
    exact hbegin
  | _ => cases hdeletion

lemma deletions_begin (h : DeletionsSound store) (hbegin : CanBegin store request) :
    DeletionsSound (Store.perform store (.begin request)) := by
  constructor
  · intro call hcall deletion hpoint
    rcases mem_begin hcall with hold | rfl
    · exact h.returned call hold deletion hpoint
    · cases hpoint
  · intro call hcall deletion hdeletion
    have hgiven : ∃ other ∈ store.calls, other.point = .returned (.deletion deletion) := by
      rcases mem_begin hcall with hold | rfl
      · exact h.handed call hold deletion hdeletion
      · exact given_begin hbegin hdeletion
    obtain ⟨other, hother, hpoint⟩ := hgiven
    exact ⟨other, begin_mem hother, hpoint⟩
  · intro call hcall name hheld
    rcases mem_begin hcall with hold | rfl
    · rcases h.kept call hold name hheld with hthere | ⟨other, hother, htaken⟩
      · exact .inl hthere
      · exact .inr ⟨other, begin_mem hother, htaken⟩
    · rw [heldName_start] at hheld
      cases hheld
  · rintro name ⟨call, hcall, deletion, hdeletion, hname, hdone⟩
    rcases mem_begin hcall with hold | rfl
    · exact h.gone name ⟨call, hold, deletion, hdeletion, hname, hdone⟩
    · cases hdone

lemma history_begin {es : List (Event Store StoreAct)} (h : HistorySound es store)
    (e : Event Store StoreAct) : HistorySound (es ++ [e]) (Store.perform store (.begin request)) := by
  constructor
  · intro i call hcall stored hstored
    rcases snoc_some hcall with hold | ⟨_, rfl⟩
    · exact (h.found i call hold stored hstored).snoc e
    · cases hstored
  · intro name object hfile
    obtain ⟨key, ⟨call, hcall, hrequest⟩, f, hf, hmoves⟩ := h.moved name object hfile
    exact ⟨key, ⟨call, List.mem_append_left _ hcall, hrequest⟩, f, List.mem_append_left _ hf, hmoves⟩

end Begin

section Step

variable {store : Store} {i : ℕ} {call : FileCall} {disk : Disk} {point : Point}

lemma request_moved {k : ℕ} {other : FileCall} (hcall : store.calls[i]? = some call)
    (hother : (store.calls.set i ⟨call.request, point⟩)[k]? = some other) :
    ∃ old, store.calls[k]? = some old ∧ old.request = other.request := by
  rcases set_some hother with ⟨rfl, rfl⟩ | ⟨_, hold⟩
  · exact ⟨call, hcall, rfl⟩
  · exact ⟨other, hold, rfl⟩

lemma mem_moved {other : FileCall} (hcall : store.calls[i]? = some call)
    (hother : other ∈ store.calls.set i ⟨call.request, point⟩) :
    (∃ old ∈ store.calls, old.request = other.request) ∧
      (other = ⟨call.request, point⟩ ∨ other ∈ store.calls) := by
  rcases List.mem_or_eq_of_mem_set hother with hold | rfl
  · exact ⟨⟨other, hold, rfl⟩, .inr hold⟩
  · exact ⟨⟨call, List.mem_of_getElem? hcall, rfl⟩, .inl rfl⟩

lemma ended_stays {other : FileCall} (hcall : store.calls[i]? = some call)
    (hready : ready store call) (hother : other ∈ store.calls) (hended : other.point.ended) :
    other ∈ store.calls.set i ⟨call.request, point⟩ := by
  apply mem_set_ne hcall hother
  rintro rfl
  exact hready hended

section Moving

variable (h : HandlesSound store) (hcall : store.calls[i]? = some call) (hready : ready store call)
  (hmoved : Moved store.shared call.request call.point disk point)
include h hcall

lemma names_moved : NamesSound ⟨disk, store.calls.set i ⟨call.request, point⟩⟩ := by
  constructor
  · intro a ha b hb upload other hu hv hname
    obtain ⟨⟨a', ha', hsame⟩, _⟩ := mem_moved hcall ha
    obtain ⟨⟨b', hb', hsame'⟩, _⟩ := mem_moved hcall hb
    exact h.names.oneUpload a' ha' b' hb' upload other (hsame.trans hu) (hsame'.trans hv) hname
  · intro k l a b name ha hb hname hname'
    obtain ⟨a', ha', hsame⟩ := request_moved hcall ha
    obtain ⟨b', hb', hsame'⟩ := request_moved hcall hb
    exact h.names.oneDeletion k l a' b' name ha' hb' (by rw [hsame, hname]) (by rw [hsame', hname'])

include hready hmoved

lemma uploads_moved : UploadsSound ⟨disk, store.calls.set i ⟨call.request, point⟩⟩ := by
  constructor
  · intro name object hfile
    rcases staged_source hmoved hfile with hold | ⟨upload, hrequest, hname, hobject, hpoint⟩
    · obtain ⟨upload, hcreated, hupload⟩ := h.uploads.staged name object hold
      exact ⟨upload, ended_stays hcall hready hcreated rfl, hupload⟩
    · refine ⟨upload, ?_, hname, hobject⟩
      rw [← hrequest, ← hpoint]
      exact List.mem_of_getElem? (set_self hcall)
  · intro other hother staged key hput
    obtain ⟨⟨old, hold, hsame⟩, _⟩ := mem_moved hcall hother
    exact ended_stays hcall hready (h.uploads.putOf old hold staged key (hsame.trans hput)) rfl
  · intro other hother staged key answer hput hpoint
    rcases (mem_moved hcall hother).2 with rfl | hold
    · rcases answer_source hmoved hput hpoint with hbefore | hstored
      · exact absurd (by rw [hbefore]; rfl) hready
      · exact hstored
    · exact h.uploads.answers other hold staged key answer hput hpoint

omit h in
lemma taken_stays {name : ℕ} (hheld : (store.shared (.quarantine name)).isSome ∨ Taken store name) :
    (disk (.quarantine name)).isSome ∨
      Taken ⟨disk, store.calls.set i ⟨call.request, point⟩⟩ name := by
  rcases hheld with hthere | ⟨taker, htaker, deletion, hdeletion, hname, hdone⟩
  · rcases quarantine_stays hmoved hthere with hthere | ⟨deletion, hdeletion, hname, hdone⟩
    · exact .inl hthere
    · exact .inr ⟨_, List.mem_of_getElem? (set_self hcall), deletion, hdeletion, hname, hdone⟩
  · exact .inr ⟨taker, ended_stays hcall hready htaker (by rw [hdone]; rfl), deletion, hdeletion,
      hname, hdone⟩

omit hready in
lemma gone_stays {name : ℕ} (htaken : Taken store name) : disk (.quarantine name) = none := by
  have hnone := h.deletions.gone name htaken
  obtain ⟨taker, htaker, deletion, hdeletion, hname, _⟩ := htaken
  cases hfile : disk (.quarantine name) with
  | none => rfl
  | some object =>
    rcases quarantine_source hmoved hfile with hthere | ⟨key, hrequest, hpoint, _⟩
    · exact absurd (hnone.symm.trans hthere) nofun
    · obtain ⟨giver, hgiver, hgave, hnamed⟩ := giver_of h.deletions htaker hdeletion hname
      obtain ⟨k, hk⟩ := List.mem_iff_getElem?.mp hgiver
      have hsame := h.names.oneDeletion i k call giver name hcall hk (by rw [hrequest]; rfl)
        (by rw [hnamed]; rfl)
      subst hsame
      cases hk.symm.trans hcall
      cases hpoint.symm.trans hgave

lemma deletions_moved : DeletionsSound ⟨disk, store.calls.set i ⟨call.request, point⟩⟩ := by
  constructor
  · intro other hother deletion hpoint
    rcases (mem_moved hcall hother).2 with rfl | hold
    · rcases deletion_source hmoved hpoint with hbefore | hgiven
      · exact absurd (by rw [hbefore]; rfl) hready
      · exact hgiven
    · exact h.deletions.returned other hold deletion hpoint
  · intro other hother deletion hdeletion
    obtain ⟨⟨old, hold, hsame⟩, _⟩ := mem_moved hcall hother
    obtain ⟨giver, hgiver, hpoint⟩ :=
      h.deletions.handed old hold deletion (by rw [hsame]; exact hdeletion)
    exact ⟨giver, ended_stays hcall hready hgiver (by rw [hpoint]; rfl), hpoint⟩
  · intro other hother name hheld
    rcases (mem_moved hcall hother).2 with rfl | hold
    · rcases held_source hmoved hheld with hbefore | hthere
      · have hkept := h.deletions.kept call (List.mem_of_getElem? hcall) name hbefore
        exact taken_stays hcall hready hmoved hkept
      · exact .inl hthere
    · exact taken_stays hcall hready hmoved (h.deletions.kept other hold name hheld)
  · rintro name ⟨taker, htaker, deletion, hdeletion, hname, hdone⟩
    rcases (mem_moved hcall htaker).2 with rfl | hold
    · rcases taken_source hmoved hdeletion hname hdone with hbefore | hnone
      · exact absurd (by rw [hbefore]; rfl) hready
      · exact hnone
    · exact gone_stays h hcall hmoved ⟨taker, hold, deletion, hdeletion, hname, hdone⟩

end Moving

lemma history_moved {es : List (Event Store StoreAct)} (h : HistorySound es store)
    (hhandles : HandlesSound store) (hcall : store.calls[i]? = some call)
    (hmoved : Moved store.shared call.request call.point disk point) :
    HistorySound (es ++ [⟨store, .step i, ⟨disk, store.calls.set i ⟨call.request, point⟩⟩⟩])
      ⟨disk, store.calls.set i ⟨call.request, point⟩⟩ := by
  have hlast : ∀ e : Event Store StoreAct, e ∈ es ++ [e] :=
    fun _ => List.mem_append_right _ (List.mem_singleton.mpr rfl)
  have hmem := List.mem_of_getElem? hcall
  constructor
  · intro j other hj stored hstored
    rcases set_some hj with ⟨rfl, rfl⟩ | ⟨_, hold⟩
    · rcases stored_source hmoved hstored with hbefore | ⟨staged, key, hput, hobject, hshown⟩
      · exact (h.found j call hcall stored hbefore).snoc _
      · refine ⟨staged, key, hput, hobject, _, hlast _, rfl, ?_⟩
        rcases hshown with hshown | ⟨object, hfile, hshown⟩
        · exact hshown
        · obtain ⟨upload, hcreated, hname, rfl⟩ := hhandles.uploads.staged staged.name object hfile
          have hstaged := hhandles.uploads.putOf call hmem staged key hput
          rw [hhandles.names.oneUpload _ hcreated _ hstaged upload staged rfl rfl hname] at hshown
          exact hshown
    · exact (h.found j other hold stored hstored).snoc _
  · intro name object hfile
    rcases quarantine_source hmoved hfile with hold | ⟨key, hrequest, hpoint, hthere⟩
    · obtain ⟨key, ⟨old, hmem', hold⟩, f, hf, hmoves⟩ := h.moved name object hold
      obtain ⟨k, hk⟩ := List.mem_iff_getElem?.mp hmem'
      refine ⟨key, ?_, f, List.mem_append_left _ hf, hmoves⟩
      by_cases hki : k = i
      · subst hki
        cases hk.symm.trans hcall
        exact ⟨_, List.mem_of_getElem? (set_self hcall), hold⟩
      · exact ⟨old, List.mem_of_getElem? ((set_other hki).trans hk), hold⟩
    · refine ⟨key, ⟨_, List.mem_of_getElem? (set_self hcall), hrequest⟩, _, hlast _, i, rfl, ?_, hthere⟩
      rw [← hrequest, ← hpoint]
      exact hcall

lemma history_raised {es : List (Event Store StoreAct)} {exn : Exn} (h : HistorySound es store)
    (hcall : store.calls[i]? = some call) (e : Event Store StoreAct) :
    HistorySound (es ++ [e]) ⟨store.shared, store.calls.set i ⟨call.request, .raised exn⟩⟩ := by
  constructor
  · intro j other hj stored hstored
    rcases set_some hj with ⟨_, rfl⟩ | ⟨_, hold⟩
    · cases hstored
    · exact (h.found j other hold stored hstored).snoc e
  · intro name object hfile
    obtain ⟨key, ⟨old, hmem, hold⟩, f, hf, hmoves⟩ := h.moved name object hfile
    obtain ⟨k, hk⟩ := List.mem_iff_getElem?.mp hmem
    refine ⟨key, ?_, f, List.mem_append_left _ hf, hmoves⟩
    by_cases hki : k = i
    · subst hki
      cases hk.symm.trans hcall
      exact ⟨_, List.mem_of_getElem? (set_self hcall), hold⟩
    · exact ⟨old, List.mem_of_getElem? ((set_other hki).trans hk), hold⟩

end Step

section Runs

variable {store store' : Store} {act : StoreAct} {es : List (Event Store StoreAct)}

lemma storeStep_cases (h : StoreStep store act store') :
    (∃ request, act = .begin request ∧ CanBegin store request ∧
      store' = Store.perform store (.begin request)) ∨
    (∃ i call disk point, act = .step i ∧ store.calls[i]? = some call ∧ ready store call ∧
      store' = ⟨disk, store.calls.set i ⟨call.request, point⟩⟩ ∧
      Moved store.shared call.request call.point disk point) ∨
    ∃ i call, act = .missing i ∧ store.calls[i]? = some call ∧ call.point = .flush ∧
      store' = ⟨store.shared, store.calls.set i ⟨call.request, .raised .fileNotFound⟩⟩ := by
  obtain ⟨hallowed, rfl⟩ := h
  cases act with
  | begin request => exact .inl ⟨request, rfl, hallowed, rfl⟩
  | step i =>
    have hstep : PoolStep ready advance store i (Pool.perform advance store i) := ⟨hallowed, rfl⟩
    obtain ⟨call, hcall, hready, hmoved⟩ := hstep.cases
    exact .inr (.inl ⟨i, call, _, _, rfl, hcall, hready, hmoved, advance_moved⟩)
  | missing i =>
    have hstep : PoolStep flushes failFlush store i (Pool.perform failFlush store i) := ⟨hallowed, rfl⟩
    obtain ⟨call, hcall, hflush, hmoved⟩ := hstep.cases
    exact .inr (.inr ⟨i, call, rfl, hcall, hflush, hmoved⟩)

lemma sound_step (h : HandlesSound store ∧ HistorySound es store) (hstep : StoreStep store act store') :
    HandlesSound store' ∧ HistorySound (es ++ [⟨store, act, store'⟩]) store' := by
  rcases storeStep_cases hstep with ⟨request, rfl, hbegin, rfl⟩ |
    ⟨i, call, disk, point, rfl, hcall, hready, rfl, hmoved⟩ | ⟨i, call, rfl, hcall, hflush, rfl⟩
  · exact ⟨⟨names_begin h.1.names hbegin, uploads_begin h.1.uploads hbegin,
      deletions_begin h.1.deletions hbegin⟩, history_begin h.2 _⟩
  · exact ⟨⟨names_moved h.1 hcall, uploads_moved h.1 hcall hready hmoved,
      deletions_moved h.1 hcall hready hmoved⟩, history_moved h.2 h.1 hcall hmoved⟩
  · have hready : ready store call := by
      rw [ready, hflush]
      nofun
    have hmoved : Moved store.shared call.request call.point store.shared (.raised .fileNotFound) :=
      .failed (fun hstart => by rw [hflush] at hstart; cases hstart)
    exact ⟨⟨names_moved h.1 hcall, uploads_moved h.1 hcall hready hmoved,
      deletions_moved h.1 hcall hready hmoved⟩, history_raised h.2 hcall _⟩

lemma sound_empty : HandlesSound Store.empty ∧ HistorySound [] Store.empty := by
  have hnone : ∀ call, call ∉ Store.empty.calls := fun _ => List.not_mem_nil
  have hnames : NamesSound Store.empty := by
    constructor
    · exact fun a ha => absurd ha (hnone a)
    · intro i k a b name ha
      cases ha
  have huploads : UploadsSound Store.empty := by
    constructor
    · intro name object hfile
      cases hfile
    · exact fun call hcall => absurd hcall (hnone call)
    · exact fun call hcall => absurd hcall (hnone call)
  have hdeletions : DeletionsSound Store.empty :=
    ⟨fun call hcall => absurd hcall (hnone call), fun call hcall => absurd hcall (hnone call),
      fun call hcall => absurd hcall (hnone call), fun name _ => rfl⟩
  refine ⟨⟨hnames, huploads, hdeletions⟩, ?_, ?_⟩
  · intro i call hcall
    cases hcall
  · intro name object hfile
    cases hfile

lemma sound_run (h : StoreRun Store.empty es store) : HandlesSound store ∧ HistorySound es store :=
  run_history (fun es store => HandlesSound store ∧ HistorySound es store)
    (fun _ _ _ _ hs hstep => sound_step hs hstep) h sound_empty

lemma originals_kept (key : StorageKey) (h : StoreStep store act store') :
    Kept (.original key) store.shared store'.shared := by
  rcases storeStep_cases h with ⟨_, _, _, rfl⟩ | ⟨_, _, _, _, _, _, _, rfl, hmoved⟩ | ⟨_, _, _, _, _, rfl⟩
  · exact .same rfl
  · exact original_kept hmoved key
  · exact .same rfl

lemma restore_start {disk : Disk} {deletion : StagedDeletion} {name : ℕ} {object : Object}
    (hname : deletion.quarantine = some name) (hfile : disk (.quarantine name) = some object) :
    restoreStagedDelete deletion disk .start =
      if (disk (.original deletion.key)).isSome then (disk, .raised .storageConflict)
      else (write disk (.original deletion.key) object, .unlink) := by
  by_cases htaken : (disk (.original deletion.key)).isSome
  · simp [restoreStagedDelete, hname, link, hfile, htaken]
  · simp [restoreStagedDelete, hname, link, hfile, htaken, write]

lemma quarantined_or_taken {i : ℕ} {deletion : StagedDeletion} {name : ℕ}
    (h : HandlesSound store ∧ HistorySound es store)
    (hcall : store.calls[i]? = some ⟨.restoreStagedDelete deletion, .start⟩)
    (hname : deletion.quarantine = some name) : Taken store name ∨ ∃ object,
      store.shared (.quarantine name) = some object ∧ ∃ f ∈ es, MovesAway deletion.key name object f := by
  obtain ⟨hhandles, hhistory⟩ := h
  have hgiven : (Request.restoreStagedDelete deletion).deletion = some deletion := rfl
  obtain ⟨giver, hgiver, hpoint, hrequest⟩ :=
    giver_of hhandles.deletions (List.mem_of_getElem? hcall) hgiven hname
  have hheld : heldName giver.request giver.point = some name := by
    rw [hrequest, hpoint]
    exact hname
  rcases hhandles.deletions.kept giver hgiver name hheld with hthere | htaken
  · obtain ⟨object, hfile⟩ := Option.isSome_iff_exists.mp hthere
    obtain ⟨key, ⟨mover, hmover, hmoving⟩, f, hf, hmoves⟩ := hhistory.moved name object hfile
    obtain ⟨k, hk⟩ := List.mem_iff_getElem?.mp hmover
    obtain ⟨l, hl⟩ := List.mem_iff_getElem?.mp hgiver
    have hsame := hhandles.names.oneDeletion k l mover giver name hk hl (by rw [hmoving]; rfl)
      (by rw [hrequest]; rfl)
    subst hsame
    cases hk.symm.trans hl
    cases hmoving.symm.trans hrequest
    exact .inr ⟨object, hfile, f, hf, hmoves⟩
  · exact .inl htaken

section Restore

variable {e : Event Store StoreAct} {i : ℕ} {deletion : StagedDeletion} {name : ℕ} {object : Object}
  (hstep : StoreStep e.before e.label e.after) (hlabel : e.label = .step i)
  (hcall : e.before.calls[i]? = some ⟨.restoreStagedDelete deletion, .start⟩)
include hstep hlabel hcall

lemma restore_event : e.after = ⟨(restoreStagedDelete deletion e.before.shared .start).1,
    e.before.calls.set i
      ⟨.restoreStagedDelete deletion, (restoreStagedDelete deletion e.before.shared .start).2⟩⟩ := by
  obtain ⟨_, hafter⟩ := hstep
  rw [hlabel] at hafter
  rw [hafter, Store.perform, Pool.perform, hcall]
  rfl

lemma restored_or_conflict (hname : deletion.quarantine = some name)
    (hfile : e.before.shared (.quarantine name) = some object) :
    (e.after.shared (.original deletion.key) = some object ∧
      e.after.calls[i]? = some ⟨.restoreStagedDelete deletion, .unlink⟩) ∨
    ((e.before.shared (.original deletion.key)).isSome ∧ e.after.shared = e.before.shared ∧
      e.after.calls[i]? = some ⟨.restoreStagedDelete deletion, .raised .storageConflict⟩) := by
  rw [restore_event hstep hlabel hcall, restore_start hname hfile]
  split
  · rename_i htaken
    exact .inr ⟨htaken, rfl, set_self hcall⟩
  · exact .inl ⟨by simp, set_self hcall⟩

lemma restore_vanished (hname : deletion.quarantine = some name)
    (hgone : e.before.shared (.quarantine name) = none) : e.after.shared = e.before.shared ∧
      e.after.calls[i]? = some ⟨.restoreStagedDelete deletion, .raised .fileNotFound⟩ := by
  have hmissing : restoreStagedDelete deletion e.before.shared .start =
      (e.before.shared, .raised .fileNotFound) := by
    simp [restoreStagedDelete, hname, link, hgone]
  rw [restore_event hstep hlabel hcall, hmissing]
  exact ⟨rfl, set_self hcall⟩

end Restore

/-- The first file system call of a restore: back under its key, or everything left as it was. -/
def RestoresOrLeaves (es : List (Event Store StoreAct)) (e : Event Store StoreAct) : Prop :=
  ∀ (i : ℕ) deletion name, e.label = .step i →
    e.before.calls[i]? = some ⟨.restoreStagedDelete deletion, .start⟩ →
    deletion.quarantine = some name →
    (∃ object, e.before.shared (.quarantine name) = some object ∧
      (∃ f ∈ es, MovesAway deletion.key name object f) ∧
      ((e.after.shared (.original deletion.key) = some object ∧
        e.after.calls[i]? = some ⟨.restoreStagedDelete deletion, .unlink⟩) ∨
      ((e.before.shared (.original deletion.key)).isSome ∧ e.after.shared = e.before.shared ∧
        e.after.calls[i]? = some ⟨.restoreStagedDelete deletion, .raised .storageConflict⟩))) ∨
    (Taken e.before name ∧ e.after.shared = e.before.shared ∧
      e.after.calls[i]? = some ⟨.restoreStagedDelete deletion, .raised .fileNotFound⟩)

theorem stored_objects_written_once (h : StoreRun Store.empty es store) :
    (∀ fs store' key object, StoreRun store fs store' → store.shared (.original key) = some object →
      (∀ e ∈ fs, (e.after.shared (.original key)).isSome) →
      store'.shared (.original key) = some object) ∧
    (∀ (i : ℕ) staged key answer,
      store.calls[i]? = some ⟨.putOriginal staged key, .returned answer⟩ →
      answer = .stored ⟨key, staged.object⟩ ∧ ∃ e ∈ es, ShowsStaged i key staged.object e) ∧
    ∀ e ∈ es, RestoresOrLeaves es e := by
  refine ⟨?_, ?_, ?_⟩
  · intro fs store' key object hrun hvisible hstays
    exact run_kept Pool.shared (fun _ _ _ => originals_kept key) hrun hvisible hstays
  · intro i staged key answer hcall
    obtain ⟨hhandles, hhistory⟩ := sound_run h
    obtain ⟨stored, rfl⟩ := hhandles.uploads.answers _ (List.mem_of_getElem? hcall) staged key answer rfl rfl
    obtain ⟨staged', key', hput, rfl, hshown⟩ := hhistory.found i _ hcall stored rfl
    cases hput
    exact ⟨rfl, hshown⟩
  · intro e he i deletion name hlabel hcall hname
    obtain ⟨past, future, rfl⟩ := List.append_of_mem he
    obtain ⟨hpast, hstep, _⟩ := h.around
    have hsound := sound_run hpast
    rcases quarantined_or_taken hsound hcall hname with htaken | ⟨object, hfile, f, hf, hmoves⟩
    · exact .inr ⟨htaken, restore_vanished hstep hlabel hcall hname (hsound.1.deletions.gone name htaken)⟩
    · exact .inl ⟨object, hfile, ⟨f, List.mem_append_left _ hf, hmoves⟩,
        restored_or_conflict hstep hlabel hcall hname hfile⟩

end Runs

def sharedKey : StorageKey := ⟨0, 1, "wav".toList⟩

def firstUpload : StagedUpload := ⟨0, ⟨11, "aa".toList⟩⟩

def secondUpload : StagedUpload := ⟨1, ⟨15, "bb".toList⟩⟩

def movedAway : StagedDeletion := ⟨sharedKey, some 7⟩

def deletedActs : List StoreAct :=
  [.begin (.createStagedUpload firstUpload), .step 0, .begin (.putOriginal firstUpload sharedKey),
    .step 1, .step 1, .begin (.stageDelete sharedKey 7), .step 2, .step 2, .step 2, .step 2]

def overtakenActs : List StoreAct :=
  deletedActs ++ [.begin (.createStagedUpload secondUpload), .step 3,
    .begin (.putOriginal secondUpload sharedKey), .step 4, .step 4,
    .begin (.restoreStagedDelete movedAway), .step 5]

def overtaken : Store := overtakenActs.foldl Store.perform Store.empty

theorem overtaken_restore_leaves_both :
    overtaken.shared (.original sharedKey) = some secondUpload.object ∧
      overtaken.shared (.quarantine 7) = some firstUpload.object ∧
      overtaken.calls[5]? = some ⟨.restoreStagedDelete movedAway, .raised .storageConflict⟩ ∧
      ∀ e ∈ trail Store.perform Store.empty overtakenActs,
        RestoresOrLeaves (trail Store.perform Store.empty overtakenActs) e := by
  have hrun : StoreRun Store.empty (trail Store.perform Store.empty overtakenActs) overtaken :=
    run_trail Store.allows Store.perform (by decide +kernel)
  exact ⟨by decide +kernel, by decide +kernel, by decide +kernel,
    (stored_objects_written_once hrun).2.2⟩

def finalizedActs : List StoreAct :=
  deletedActs ++ [.begin (.finalizeStagedDelete movedAway), .begin (.restoreStagedDelete movedAway),
    .step 3]

def finalized : Store := finalizedActs.foldl Store.perform Store.empty

theorem finalized_restore_raises_not_found : ∃ es store, StoreRun Store.empty es store ∧ ∃ e ∈ es,
    e.label = .step 4 ∧ e.before.calls[4]? = some ⟨.restoreStagedDelete movedAway, .start⟩ ∧
      e.after.calls[4]? = some ⟨.restoreStagedDelete movedAway, .raised .fileNotFound⟩ ∧
      e.after.shared (.original movedAway.key) = none := by
  have hrun : StoreRun Store.empty (trail Store.perform Store.empty finalizedActs) finalized :=
    run_trail Store.allows Store.perform (by decide +kernel)
  have hstep : StoreStep finalized (.step 4) (finalized.perform (.step 4)) := ⟨by decide +kernel, rfl⟩
  exact ⟨_, _, hrun.append (.single hstep), ⟨finalized, .step 4, finalized.perform (.step 4)⟩,
    List.mem_append_right _ (List.mem_singleton.mpr rfl), rfl, by decide +kernel,
    by decide +kernel, by decide +kernel⟩

end AudioServer.Services.WriteOnce
