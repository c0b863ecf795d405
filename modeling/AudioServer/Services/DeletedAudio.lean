import AudioServer.Services.OriginalAudio

/-! Whether the audio of a deleted recording is gone once the uploads that ran
beside the deletion have ended. -/

namespace AudioServer.Services.DeletedAudio

open AudioServer.Foundations.Outcomes AudioServer.Foundations.Pools AudioServer.Foundations.Runs
open AudioServer.Db.Models AudioServer.Activity.Repository AudioServer.Jobs.Queue
open AudioServer.Jobs.Effects AudioServer.Jobs.Calls AudioServer.Services.Recordings
open AudioServer.Services.Consistency AudioServer.Services.Storage AudioServer.Services.Uploads
open AudioServer.Services.Interleaving AudioServer.Services.Ownership
open AudioServer.Services.OriginalAudio

def answersFor : Phase → Option StorageKey
  | .running row (.mode .own) => some row.storageKey
  | .running row .create => some row.storageKey
  | .running row (.recoverById _) => some row.storageKey
  | .running row (.recoverByContent _) => some row.storageKey
  | .running row (.owner _) => some row.storageKey
  | .running row (.remove _) => some row.storageKey
  | .running row (.sweep _) => some row.storageKey
  | _ => none

def stagedAt : DeletionPoint → Option StorageKey
  | .commit r _ => some r.storageKey
  | _ => none

def Owned (site : Site) (key : StorageKey) : Prop :=
  (∃ r ∈ site.store.db.recordings, r.storageKey = key) ∧
    ∀ d ∈ site.deletions, stagedAt d.point ≠ some key

instance (site : Site) (key : StorageKey) : Decidable (Owned site key) :=
  inferInstanceAs (Decidable (_ ∧ _))

def Accounted (site : Site) : Prop :=
  ∀ key, (site.store.objects key).isSome →
    (∃ call ∈ site.uploads, answersFor call.phase = some key) ∨ Owned site key

def publishesFor (objects : Objects) : Phase → Option StorageKey
  | .running _ (.link (.duplicate r)) =>
    if objects r.storageKey = none then some r.storageKey else none
  | _ => none

def leavesTo : Phase → Option StorageKey
  | .running row (.recoverById _) => some row.storageKey
  | .running row (.recoverByContent _) => some row.storageKey
  | .running row (.owner _) => some row.storageKey
  | _ => none

/-- No upload publishes a duplicate's audio, nor leaves its own to a row, where the row is gone or
its deletion has already moved the audio away. -/
def Unstraddled (site : Site) : SiteAct → Prop
  | .stepUpload i _ _ => ∀ call ∈ site.uploads[i]?,
      (∀ key ∈ publishesFor site.store.objects call.phase, Owned site key) ∧
      ∀ key ∈ leavesTo call.phase, ∀ d ∈ site.deletions, stagedAt d.point ≠ some key
  | _ => True

instance (site : Site) : (act : SiteAct) → Decidable (Unstraddled site act)
  | .stepUpload i _ _ => inferInstanceAs (Decidable (∀ call ∈ site.uploads[i]?,
      (∀ key ∈ publishesFor site.store.objects call.phase, Owned site key) ∧
      ∀ key ∈ leavesTo call.phase, ∀ d ∈ site.deletions, stagedAt d.point ≠ some key))
  | .beginUpload _ => inferInstanceAs (Decidable True)
  | .beginDeletion _ => inferInstanceAs (Decidable True)
  | .stepDeletion _ => inferInstanceAs (Decidable True)
  | .work _ => inferInstanceAs (Decidable True)

lemma appendActivity_error {db : Database} {event : ProcessingActivity} {exn : Exn}
    (h : appendActivity db event = .error exn) : ¬ 1 ≤ event.maxAttempts ∨ event.retryScheduled := by
  by_cases hmax : 1 ≤ event.maxAttempts
  · right
    by_contra hplain
    rw [appendActivity, require_of hmax, ok_bind, require_of (fun hr => absurd hr hplain), ok_bind] at h
    split at h <;> cases h
  · exact .inl hmax

lemma createRecordingAndJob_error {service : RecordingService} {row : Recording}
    {defaults : RowDefaults} {now : Instant} {db : Database} {exn : Exn}
    (hservice : 1 ≤ service.maxAttempts)
    (h : createRecordingAndJob service row defaults now db = .error exn) :
    ∃ constraint, exn = .integrityError constraint := by
  rcases bind_error h with h | ⟨db₁, _, h⟩
  · rw [insertRecording] at h
    split at h
    · cases h
      exact ⟨_, rfl⟩
    split at h
    · cases h
      exact ⟨_, rfl⟩
    split at h
    · cases h
      exact ⟨_, rfl⟩
    · cases h
  rcases bind_error h with h | ⟨db₂, _, h⟩
  · simp only [Database.insertJob] at h
    split at h
    · cases h
      exact ⟨_, rfl⟩
    split at h
    · cases h
      exact ⟨_, rfl⟩
    split at h
    · cases h
      exact ⟨_, rfl⟩
    split at h
    · cases h
      exact ⟨_, rfl⟩
    · cases h
  rcases bind_error h with h | ⟨db₃, _, h⟩
  · rcases appendActivity_error h with hmax | hretry
    · exact absurd hservice hmax
    · cases hretry
  · cases h

section Upload

variable {site : Site} {i : ℕ} {call call' : UploadCall} (h : Accounted site)
include h

lemma Accounted.pass (store : Store) (hi : site.uploads[i]? = some call)
    (hobjects : ∀ key, (store.objects key).isSome → (site.store.objects key).isSome)
    (hrows : ∀ r ∈ site.store.db.recordings, r ∈ store.db.recordings)
    (hpass : ∀ key ∈ answersFor call.phase, (store.objects key).isSome →
      answersFor call'.phase = some key ∨ Owned ⟨store, site.uploads, site.deletions⟩ key) :
    Accounted ⟨store, site.uploads.set i call', site.deletions⟩ := by
  intro key hkey
  rcases h key (hobjects key hkey) with ⟨other, hother, hanswers⟩ | ⟨⟨r, hr, he⟩, hfree⟩
  · obtain ⟨k, hk⟩ := List.getElem?_of_mem hother
    by_cases hki : k = i
    · subst hki
      rw [hi] at hk
      cases hk
      rcases hpass key hanswers hkey with hnext | howned
      · exact .inl ⟨call', List.mem_of_getElem? (set_self hi), hnext⟩
      · exact .inr howned
    · exact .inl ⟨other, List.mem_of_getElem? ((set_other hki).trans hk), hanswers⟩
  · exact .inr ⟨⟨r, hrows r hr, he⟩, hfree⟩

lemma Accounted.step (hi : site.uploads[i]? = some call)
    (hpass : ∀ key ∈ answersFor call.phase, (site.store.objects key).isSome →
      answersFor call'.phase = some key ∨ Owned site key) :
    Accounted ⟨site.store, site.uploads.set i call', site.deletions⟩ :=
  h.pass site.store hi (fun _ hkey => hkey) (fun _ hr => hr) hpass

lemma Accounted.unlink {gone : StorageKey} (hi : site.uploads[i]? = some call)
    (hown : ∀ key ∈ answersFor call.phase, key = gone) :
    Accounted ⟨site.store.unlink gone, site.uploads.set i call', site.deletions⟩ := by
  apply h.pass _ hi
  · intro key hkey
    rw [Store.unlink_objects] at hkey
    by_cases he : key = gone
    · simp [he] at hkey
    · rwa [deleteOriginal_other he] at hkey
  · exact fun _ hr => hr
  · intro key hanswers hkey
    simp [hown key hanswers] at hkey

lemma Accounted.link {key : StorageKey} {object : Object} (hi : site.uploads[i]? = some call)
    (hsilent : answersFor call.phase = none)
    (hnew : answersFor call'.phase = some key ∨ Owned site key) :
    Accounted ⟨{ site.store with objects := Function.update site.store.objects key (some object) },
      site.uploads.set i call', site.deletions⟩ := by
  intro other hother
  by_cases he : other = key
  · subst he
    rcases hnew with hanswers | howned
    · exact .inl ⟨call', List.mem_of_getElem? (set_self hi), hanswers⟩
    · exact .inr howned
  · have hold : (site.store.objects other).isSome := by
      dsimp only at hother
      rwa [Function.update_of_ne he] at hother
    have hstep : Accounted ⟨site.store, site.uploads.set i call', site.deletions⟩ := by
      apply h.step hi
      intro k hk
      rw [hsilent] at hk
      cases hk
    exact hstep other hold

lemma Accounted.insert {db : Database} {created : Recording} (hi : site.uploads[i]? = some call)
    (hrecs : db.recordings = site.store.db.recordings ++ [created])
    (hown : ∀ key ∈ answersFor call.phase, key = created.storageKey)
    (hfree : ∀ d ∈ site.deletions, stagedAt d.point ≠ some created.storageKey) :
    Accounted ⟨{ site.store with db := db }, site.uploads.set i call', site.deletions⟩ := by
  apply h.pass { site.store with db := db } hi (fun _ hkey => hkey)
  · intro r hr
    exact hrecs ▸ List.mem_append_left _ hr
  · intro key hkey _
    rw [hown key hkey]
    exact .inr ⟨⟨created, by simp [hrecs], rfl⟩, hfree⟩

end Upload

lemma insertFailed_answers {web : Bool} {row : Recording} (constraint : Constraint) :
    answersFor (insertFailed web row (.integrityError constraint)) = some row.storageKey := by
  cases web <;> rfl

lemma recovered_answers (web : Bool) (row r : Recording) :
    answersFor (recovered web row r) = some row.storageKey ∨ r.storageKey = row.storageKey := by
  rw [recovered]
  split
  · exact .inl rfl
  · rename_i hkeeps
    simp only [not_or, not_not] at hkeeps
    exact .inr hkeeps.2

lemma concluded_answers (web : Bool) (row : Recording) (outcome : Except Exn IngestResult) :
    answersFor (concluded web row outcome) = some row.storageKey ∨
      answersFor (concluded web row outcome) = none := by
  cases outcome <;> cases web
  all_goals first | exact .inl rfl | exact .inr rfl

lemma stagedAt_held {service : RecordingService} {site : Site} (hok : SiteOk service site)
    {d : DeletionCall} {key : StorageKey} (hd : d ∈ site.deletions) (h : stagedAt d.point = some key) :
    ∃ stored ∈ site.store.db.recordings, stored.id = d.id ∧ stored.storageKey = key := by
  obtain ⟨id, point⟩ := d
  cases point with
  | commit r object =>
    cases h
    exact hok.held _ hd r rfl
  | _ => cases h

lemma stepUpload_accounted {service : RecordingService} {site : Site} {i : ℕ}
    {defaults : RowDefaults} {now : Instant} (hservice : 1 ≤ service.maxAttempts)
    (hok : SiteOk service site) (h : Accounted site)
    (hcalm : Unstraddled site (.stepUpload i defaults now)) :
    Accounted (site.stepUpload service i defaults now) := by
  rcases stepUpload_cases service site i defaults now with
    hs | ⟨⟨upload, phase⟩, s', call', hi, hstep, hs⟩
  · rwa [hs]
  rw [hs]
  obtain ⟨hpublish, hleave⟩ := hcalm _ hi
  have hsilent : ∀ {call' : UploadCall}, answersFor phase = none →
      Accounted ⟨site.store, site.uploads.set i call', site.deletions⟩ := by
    intro call' hnone
    apply h.step hi
    intro key hkey
    rw [hnone] at hkey
    cases hkey
  have hpassed : ∀ {call' : UploadCall}, answersFor call'.phase = answersFor phase →
      Accounted ⟨site.store, site.uploads.set i call', site.deletions⟩ := by
    intro call' hsame
    apply h.step hi
    intro key hkey _
    exact .inl (hsame.trans hkey)
  cases hstep with
  | staged | rejected | ended => exact hsilent rfl
  | @advanced _ row point _ phase' hadv =>
    cases hadv with
    | conflict | unknown | fresh | unnamed | occupied | mismatched | matched => exact hsilent rfl
    | repeated hpoint =>
      apply hsilent
      rcases hpoint with ⟨rfl, _⟩ | rfl <;> rfl
    | conflicted | searched | unrecovered | unowned => exact hpassed rfl
    | refused hcreate =>
      obtain ⟨constraint, rfl⟩ := createRecordingAndJob_error hservice hcreate
      exact hpassed (insertFailed_answers constraint)
    | @linked target hfree =>
      apply h.link hi rfl
      cases target with
      | own => exact .inl rfl
      | duplicate r =>
        apply Or.inr
        apply hpublish
        exact if_pos hfree
    | @secured target hthere =>
      cases target with
      | own => exact hpassed rfl
      | duplicate r => exact hsilent rfl
    | @vanished target hgone =>
      cases target with
      | own =>
        apply h.step hi
        intro key hkey hthere
        cases hkey
        rw [Target.key] at hgone
        rw [hgone] at hthere
        cases hthere
      | duplicate r => exact hsilent rfl
    | @created recording db hcreate =>
      obtain ⟨rfl, hrecs, _, _, hkeys, _⟩ := createRecordingAndJob_rows hcreate
      apply h.insert hi hrecs
      · intro key hkey
        cases hkey
        rfl
      · intro d hd hstaged
        obtain ⟨stored, hstored, _, he⟩ := stagedAt_held hok hd hstaged
        exact hkeys stored hstored he
    | @recovered r exn point hpoint hr =>
      have hpointed : answersFor (.running row point) = some row.storageKey ∧
          leavesTo (.running row point) = some row.storageKey := by
        rcases hpoint with rfl | rfl <;> exact ⟨rfl, rfl⟩
      rcases recovered_answers upload.web row r with hanswers | hkey
      · exact hpassed (hanswers.trans hpointed.1.symm)
      · apply h.step hi
        intro key hk _
        rw [hpointed.1] at hk
        cases hk
        exact .inr ⟨⟨r, hr, hkey⟩, hleave _ hpointed.2⟩
    | @owned outcome r hr hkey =>
      rcases concluded_answers upload.web row outcome with hanswers | hdone
      · exact hpassed hanswers
      · apply h.step hi
        intro key hk _
        cases hk
        exact .inr ⟨⟨r, hr, hkey⟩, hleave _ rfl⟩
    | removed =>
      apply h.unlink hi
      intro key hk
      cases hk
      rfl
    | swept =>
      apply h.unlink hi
      intro key hk
      cases hk
      rfl

lemma stagedAt_after {site : Site} {j : ℕ} {d : DeletionCall} {s' : Store} {point : DeletionPoint}
    {key : StorageKey} (hj : site.deletions[j]? = some d)
    (hstep : Deleting d.id site.store d.point s' point) (hthere : (s'.objects key).isSome)
    (hfree : ∀ e ∈ site.deletions, stagedAt e.point ≠ some key) :
    ∀ e ∈ site.deletions.set j ⟨d.id, point⟩, stagedAt e.point ≠ some key := by
  intro e he hstaged
  rcases List.mem_or_eq_of_mem_set he with hold | rfl
  · exact hfree e hold hstaged
  · have hbefore := hfree d (List.mem_of_getElem? hj)
    obtain ⟨id, old⟩ := d
    cases hstep with
    | lost hnone =>
      cases hstaged
      rw [hnone] at hthere
      cases hthere
    | quarantined hobject =>
      cases hstaged
      simp at hthere
    | ended hend => exact hbefore hstaged
    | _ => cases hstaged

lemma stepDeletion_accounted {service : RecordingService} {site : Site} {j : ℕ}
    (hok : SiteOk service site) (h : Accounted site) : Accounted (site.stepDeletion j) := by
  rcases stepDeletion_cases site j with hs | ⟨d, s', point, hj, hstep, hs⟩
  · rwa [hs]
  rw [hs]
  intro key hkey
  have hafter := stagedAt_after hj hstep hkey
  have hold : (site.store.objects key).isSome := by
    obtain ⟨id, old⟩ := d
    cases hstep with
    | @quarantined r object hobject =>
      dsimp only at hkey
      rw [Store.unlink_objects] at hkey
      by_cases he : key = r.storageKey
      · simp [he] at hkey
      · rwa [deleteOriginal_other he] at hkey
    | _ => exact hkey
  rcases h key hold with hanswered | ⟨⟨x, hx, hxkey⟩, hfree⟩
  · exact .inl hanswered
  · refine .inr ⟨⟨x, ?_, hxkey⟩, hafter hfree⟩
    rcases hstep.db with hdb | ⟨r, object, hpoint, rfl, rfl⟩
    · rwa [hdb]
    · -- The row that goes is the one whose audio was moved away.
      have hstaged : stagedAt d.point = some r.storageKey := by rw [hpoint]; rfl
      obtain ⟨stored, hstored, hid, hkey'⟩ := stagedAt_held hok (List.mem_of_getElem? hj) hstaged
      have hother : x.id ≠ d.id := by
        intro he
        obtain rfl := hok.unique hx hstored (he.trans hid.symm)
        apply hfree d (List.mem_of_getElem? hj)
        rw [hstaged, ← hkey', hxkey]
      exact List.mem_filter.mpr ⟨hx, by simpa using hother⟩

lemma step_accounted {service : RecordingService} {site site' : Site} {act : SiteAct}
    (hservice : 1 ≤ service.maxAttempts) (hok : SiteOk service site) (h : Accounted site)
    (hcalm : Unstraddled site act) (hstep : SiteStep service site act site') : Accounted site' := by
  obtain ⟨_, rfl⟩ := hstep
  cases act with
  | beginUpload upload =>
    intro key hkey
    rcases h key hkey with ⟨call, hcall, hanswers⟩ | howned
    · exact .inl ⟨call, List.mem_append_left _ hcall, hanswers⟩
    · exact .inr howned
  | stepUpload i defaults now => exact stepUpload_accounted hservice hok h hcalm
  | beginDeletion id =>
    intro key hkey
    rcases h key hkey with hanswered | ⟨hrow, hfree⟩
    · exact .inl hanswered
    · refine .inr ⟨hrow, ?_⟩
      intro d hd hstaged
      rcases List.mem_append.mp hd with hold | hnew
      · exact hfree d hold hstaged
      · rw [List.mem_singleton.mp hnew] at hstaged
        cases hstaged
  | stepDeletion j => exact stepDeletion_accounted hok h
  | work call =>
    have hwork : QueueStep site.store.db call (settled site.store.db (call.exec site.store.db)) := rfl
    have hrows := queueStep_identity hok.jobIds hwork
    intro key hkey
    rcases h key hkey with hanswered | ⟨⟨r, hr, he⟩, hfree⟩
    · exact .inl hanswered
    · obtain ⟨new, hnew, hsame⟩ := identity_mem hrows.symm hr
      have hkeys : new.storageKey = r.storageKey := congrArg (·.storageKey) hsame
      exact .inr ⟨⟨new, hnew, hkeys.trans he⟩, hfree⟩

theorem deleted_audio_is_gone {service : RecordingService} {settings : Option ProcessingSettings}
    {site : Site} {es : List (Event Site SiteAct)} (hservice : 1 ≤ service.maxAttempts)
    (h : SiteRun service (.opened (.empty settings)) es site)
    (hcalm : ∀ e ∈ es, Unstraddled e.before e.label)
    (hended : ∀ call ∈ site.uploads, call.phase.finished) :
    ∀ d ∈ site.deletions, ∀ r, d.point = .deleted r → (site.store.objects r.storageKey).isSome →
      ∃ row ∈ site.store.db.recordings, row.storageKey = r.storageKey := by
  have hempty : Accounted (.opened (.empty settings)) := by
    intro key hkey
    cases hkey
  have hrun := h.keeps_if (fun s => SiteOk service s ∧ Accounted s) Unstraddled ?_
    ⟨.empty service settings, hempty⟩ hcalm
  · intro d _ r _ hthere
    rcases hrun.2 r.storageKey hthere with ⟨call, hcall, hanswers⟩ | howned
    · have hend := hended call hcall
      obtain ⟨upload, phase⟩ := call
      cases phase with
      | done outcome => cases hanswers
      | _ => cases hend
    · exact howned.1
  · rintro s act t ⟨hok, hs⟩ hact hstep
    exact ⟨siteStep_ok hok hstep, step_accounted hservice hok hs hact hstep⟩

def exampleFailure : JobFailure where
  code := "audio_unreadable".toList
  errorType := "PermanentProcessingError".toList
  message := "The audio could not be read.".toList
  retryable := false
  stage := none
  code_nonblank := by decide
  errorType_nonblank := by decide
  message_nonblank := by decide

def exampleClaim : ClaimedJob where
  id := 0
  recordingId := some 5
  kind := .full
  claimToken := 7
  workerId := "worker".toList
  attemptCount := 1
  maxAttempts := 2
  stage := .preprocessing
  summaryDate := none

def failedUpload : List SiteAct :=
  .beginUpload (clientUpload 5 "one") :: List.replicate 5 (nextStep 0) ++
    [.work (.claimNext exampleWorker 0 7 none []),
      .work (.fail exampleWorker exampleClaim exampleFailure 1 ⟨9, 0⟩)]

def failedRow : Recording := { clientRow 5 "one" with processingStatus := .failed }

def wholeDeletion : List SiteAct := .beginDeletion 5 :: List.replicate 6 (.stepDeletion 0)

theorem deleted_audio_is_gone_example :
    let site := (failedUpload ++ wholeDeletion).foldl (Site.perform exampleService)
      (.opened (.empty none))
    (∃ d ∈ site.deletions, d.point = .deleted failedRow) ∧
      ¬ (site.store.objects failedRow.storageKey).isSome := by
  intro site
  have hdeleted : ∃ d ∈ site.deletions, d.point = .deleted failedRow :=
    ⟨⟨5, .deleted failedRow⟩, List.mem_singleton.mpr rfl, rfl⟩
  have hrun : SiteRun exampleService (.opened (.empty none)) (trail (Site.perform exampleService)
      (.opened (.empty none)) (failedUpload ++ wholeDeletion)) site :=
    siteRun_trail _ (by decide +kernel)
  have hgone := deleted_audio_is_gone (by decide) hrun (by decide +kernel) (by decide +kernel)
  refine ⟨hdeleted, ?_⟩
  intro hthere
  obtain ⟨d, hd, hpoint⟩ := hdeleted
  obtain ⟨row, hrow, _⟩ := hgone d hd failedRow hpoint hthere
  have hnone : site.store.db.recordings = [] := by decide +kernel
  rw [hnone] at hrow
  cases hrow

def straddlingRetry : List SiteAct :=
  failedUpload ++ [.beginUpload (clientUpload 5 "one"), nextStep 1, nextStep 1] ++ wholeDeletion ++
    [nextStep 1]

theorem retry_republishes_deleted_audio :
    ∃ es site, SiteRun exampleService (.opened (.empty none)) es site ∧
      (∀ call ∈ site.uploads, call.phase.finished) ∧
      ∃ d ∈ site.deletions, ∃ r, d.point = .deleted r ∧ (site.store.objects r.storageKey).isSome ∧
        ¬ ∃ row ∈ site.store.db.recordings, row.storageKey = r.storageKey := by
  refine ⟨_, _, siteRun_trail straddlingRetry (by decide +kernel), by decide +kernel, ?_⟩
  exact ⟨⟨5, .deleted failedRow⟩, List.mem_singleton.mpr rfl, failedRow, rfl, by decide +kernel,
    by decide +kernel⟩

end AudioServer.Services.DeletedAudio
