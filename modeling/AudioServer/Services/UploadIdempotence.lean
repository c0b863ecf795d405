import AudioServer.Services.Ownership

/-! Retried and conflicting uploads: one row for each id and each content, one
job and one event with it, and a conflict that changes nothing. -/

namespace AudioServer.Services.UploadIdempotence

open AudioServer.Foundations.Outcomes AudioServer.Foundations.Pools AudioServer.Foundations.Runs
open AudioServer.Foundations.Strings
open AudioServer.Db.Models AudioServer.Activity.Repository AudioServer.Jobs.Queue
open AudioServer.Jobs.Effects AudioServer.Services.Recordings AudioServer.Services.Storage
open AudioServer.Services.Consistency AudioServer.Services.Uploads
open AudioServer.Services.Interleaving AudioServer.Services.Ownership

def isUpload : SiteAct → Bool
  | .beginUpload _ => true
  | .stepUpload _ _ _ => true
  | _ => false

def content (r : Recording) : Text × Text := (r.deviceId, r.sha256)

structure TablesOk (db : Database) : Prop where
  jobIds : UniqueJobIds db
  ids : (db.recordings.map (·.id)).Nodup
  contents : (db.recordings.map content).Nodup
  keys : ∀ r ∈ db.recordings, r.storageKey.recordingId = r.id
  jobRecordings : ∀ j ∈ db.jobs, ∀ id, j.recordingId = some id → ∃ r ∈ db.recordings, r.id = id
  eventRecordings : ∀ a ∈ db.activity, ∃ r ∈ db.recordings, r.id = a.recordingId
  eventJobs : ∀ a ∈ db.activity, ∃ j ∈ db.jobs, j.id = a.jobId

def queuedEvent (service : RecordingService) (r : Recording) (defaults : RowDefaults)
    (now : Instant) : ProcessingActivity :=
  jobEvent defaults.id .full 0 service.maxAttempts .jobQueued .queued .queued now r.id

def JustQueued (service : RecordingService) (db : Database) (r : Recording) : Prop :=
  ∃ defaults now,
    db.jobs.filter (fun j => j.recordingId = some r.id) = [initialJob service r defaults now] ∧
    db.activity.filter (fun a => a.recordingId = r.id) = [queuedEvent service r defaults now]

lemma createRecordingAndJob_activity {service : RecordingService} {row created : Recording}
    {defaults : RowDefaults} {now : Instant} {db db' : Database} (htables : TablesOk db)
    (h : createRecordingAndJob service row defaults now db = .ok (created, db')) :
    db'.activity = db.activity ++ [queuedEvent service row defaults now] := by
  obtain ⟨db₁, hr, h⟩ := bind_ok h
  obtain ⟨db₂, hj, h⟩ := bind_ok h
  obtain ⟨db₃, ha, h⟩ := bind_ok h
  cases h
  obtain ⟨rfl, _⟩ := insertRecording_ok hr
  obtain ⟨rfl, hfresh, _⟩ := insertJob_ok hj
  obtain ⟨_, _, ha⟩ := bind_ok ha
  obtain ⟨_, _, ha⟩ := bind_ok ha
  split at ha
  · rename_i hany
    simp only [List.any_eq_true, decide_eq_true_eq] at hany
    obtain ⟨old, hold, hsame⟩ := hany
    obtain ⟨j, hj, hid⟩ := htables.eventJobs old hold
    exact absurd (hid.trans hsame.1.symm) (hfresh j hj)
  · cases ha
    rfl

section Created

variable {service : RecordingService} {row created : Recording} {defaults : RowDefaults}
  {now : Instant} {db db' : Database} (htables : TablesOk db)
  (h : createRecordingAndJob service row defaults now db = .ok (created, db'))
include htables h

lemma created_tables (hkey : row.storageKey.recordingId = row.id) : TablesOk db' := by
  obtain ⟨rfl, hrecs, hid, hcontent, _, hjobs⟩ := createRecordingAndJob_rows h
  obtain ⟨_, _, _, hjobs', _⟩ := createRecordingAndJob_ok h
  have hactivity := createRecordingAndJob_activity htables h
  have hold : ∀ {id}, (∃ r ∈ db.recordings, r.id = id) → ∃ r ∈ db'.recordings, r.id = id := by
    rintro id ⟨r, hr, he⟩
    exact ⟨r, hrecs ▸ List.mem_append_left _ hr, he⟩
  have hnew : ∃ r ∈ db'.recordings, r.id = row.id := ⟨identity row, by simp [hrecs], rfl⟩
  refine ⟨hjobs htables.jobIds, ?_, ?_, ?_, ?_, ?_, ?_⟩
  · rw [hrecs]
    exact nodup_map_snoc htables.ids hid
  · rw [hrecs]
    apply nodup_map_snoc htables.contents
    intro r hr he
    exact hcontent r hr (congrArg Prod.fst he) (congrArg Prod.snd he)
  · intro r hr
    rw [hrecs, List.mem_append, List.mem_singleton] at hr
    rcases hr with hr | rfl
    · exact htables.keys r hr
    · exact hkey
  · intro j hj id he
    rw [hjobs', List.mem_append, List.mem_singleton] at hj
    rcases hj with hj | rfl
    · exact hold (htables.jobRecordings j hj id he)
    · cases he
      exact hnew
  · intro a ha
    rw [hactivity, List.mem_append, List.mem_singleton] at ha
    rcases ha with ha | rfl
    · exact hold (htables.eventRecordings a ha)
    · exact hnew
  · intro a ha
    rw [hactivity, List.mem_append, List.mem_singleton] at ha
    rw [hjobs']
    rcases ha with ha | rfl
    · obtain ⟨j, hj, he⟩ := htables.eventJobs a ha
      exact ⟨j, List.mem_append_left _ hj, he⟩
    · exact ⟨_, List.mem_append_right _ (List.mem_singleton.mpr rfl), rfl⟩

lemma created_justQueued : JustQueued service db' created := by
  obtain ⟨rfl, _, hid, _⟩ := createRecordingAndJob_rows h
  obtain ⟨_, _, _, hjobs, _⟩ := createRecordingAndJob_ok h
  have hactivity := createRecordingAndJob_activity htables h
  have hnojob : ∀ j ∈ db.jobs, j.recordingId ≠ some row.id := by
    intro j hj he
    obtain ⟨r, hr, hr'⟩ := htables.jobRecordings j hj row.id he
    exact hid r hr hr'
  have hnoevent : ∀ a ∈ db.activity, a.recordingId ≠ row.id := by
    intro a ha he
    obtain ⟨r, hr, hr'⟩ := htables.eventRecordings a ha
    exact hid r hr (hr'.trans he)
  refine ⟨defaults, now, ?_, ?_⟩
  · rw [hjobs]
    exact filter_snoc_self hnojob rfl
  · rw [hactivity]
    exact filter_snoc_self hnoevent rfl

lemma created_keeps_queued {r : Recording} (hr : r ∈ db.recordings)
    (hqueued : JustQueued service db r) : JustQueued service db' r := by
  obtain ⟨rfl, _, hid, _⟩ := createRecordingAndJob_rows h
  obtain ⟨_, _, _, hjobs, _⟩ := createRecordingAndJob_ok h
  have hactivity := createRecordingAndJob_activity htables h
  have hne : row.id ≠ r.id := Ne.symm (hid r hr)
  obtain ⟨old, time, hjob, hevent⟩ := hqueued
  refine ⟨old, time, ?_, ?_⟩
  · rw [hjobs, filter_snoc_other, hjob]
    exact fun he => hne (Option.some.inj he)
  · rw [hactivity, filter_snoc_other, hevent]
    exact hne

end Created

lemma uploadStep_db {service : RecordingService} {site site' : Site} {act : SiteAct}
    (hsound : SoundCalls service site) (h : SiteStep service site act site') (hup : isUpload act) :
    site'.store.db = site.store.db ∨ ∃ row created defaults now,
      createRecordingAndJob service row defaults now site.store.db = .ok (created, site'.store.db) ∧
      row.storageKey.recordingId = row.id := by
  obtain ⟨_, rfl⟩ := h
  cases act with
  | beginUpload upload => exact .inl rfl
  | stepUpload i defaults now =>
    rw [Site.perform]
    rcases stepUpload_cases service site i defaults now with hs | ⟨call, s', call', hi, hstep, hs⟩
    · exact .inl (by rw [hs])
    · rw [hs]
      rcases hstep.db with hdb | ⟨row, created, hphase, hcreate, _⟩
      · exact .inl hdb
      · have hcall := hsound call (List.mem_of_getElem? hi)
        rw [hphase] at hcall
        exact .inr ⟨row, created, defaults, now, hcreate, (stageUpload_ok hcall.1).key⟩
  | _ => cases hup

structure Grown (service : RecordingService) (old db : Database) : Prop where
  tables : TablesOk db
  kept : ∀ r ∈ old.recordings, r ∈ db.recordings
  queued : ∀ r ∈ db.recordings, r ∈ old.recordings ∨ JustQueued service db r

lemma Grown.start {service : RecordingService} {db : Database} (h : TablesOk db) :
    Grown service db db :=
  ⟨h, fun _ hr => hr, fun _ hr => .inl hr⟩

lemma Grown.step {service : RecordingService} {old : Database} {site site' : Site} {act : SiteAct}
    (hsound : SoundCalls service site) (h : Grown service old site.store.db)
    (hstep : SiteStep service site act site') (hup : isUpload act) :
    Grown service old site'.store.db := by
  rcases uploadStep_db hsound hstep hup with hdb | ⟨row, created, defaults, now, hcreate, hkey⟩
  · rwa [hdb]
  · obtain ⟨_, hrecs, _⟩ := createRecordingAndJob_rows hcreate
    refine ⟨created_tables h.tables hcreate hkey, ?_, ?_⟩
    · intro r hr
      rw [hrecs]
      exact List.mem_append_left _ (h.kept r hr)
    · intro r hr
      rw [hrecs, List.mem_append, List.mem_singleton] at hr
      rcases hr with hr | rfl
      · exact (h.queued r hr).imp_right (created_keeps_queued h.tables hcreate hr)
      · exact .inr (created_justQueued h.tables hcreate)

def Waiting (call : UploadCall) : Prop :=
  call.phase = .staged ∨ ∃ row, call.phase = .running row .lookById

def Clashes (r : Recording) (upload : Upload) : Prop :=
  r.id = upload.id ∧ ¬ (r.deviceId = upload.deviceId ∧ r.sha256 = upload.staged.sha256 ∧
    r.fileSize = upload.staged.fileSize)

instance (r : Recording) (upload : Upload) : Decidable (Clashes r upload) :=
  inferInstanceAs (Decidable (_ ∧ ¬ (_ ∧ _)))

def refusal (service : RecordingService) (upload : Upload) : Exn :=
  match stageUpload service upload with
  | .ok _ => identityConflict
  | .error exn => exn

def isStepOf (i : ℕ) : SiteAct → Bool
  | .stepUpload k _ _ => k = i
  | _ => false

def ownSteps (i : ℕ) (es : List (Event Site SiteAct)) : ℕ :=
  (es.filter (fun e => isStepOf i e.label)).length

def remaining (call : UploadCall) : ℕ :=
  match call.phase with
  | .staged => 2
  | .running _ .lookById => 1
  | _ => 0

lemma refusal_ok {service : RecordingService} {upload : Upload} {row : Recording}
    (h : stageUpload service upload = .ok row) : refusal service upload = identityConflict := by
  rw [refusal, h]

lemma refusal_error {service : RecordingService} {upload : Upload} {exn : Exn}
    (h : stageUpload service upload = .error exn) : refusal service upload = exn := by
  rw [refusal, h]

def Refused (service : RecordingService) (call call' : UploadCall) (steps : ℕ) : Prop :=
  call'.upload = call.upload ∧ ((Waiting call' ∧ remaining call' + steps ≤ remaining call) ∨
    call'.phase = .done (.error (refusal service call.upload)))

lemma clashing_callStep {service : RecordingService} {defaults : RowDefaults} {now : Instant}
    {s s' : Store} {call call' : UploadCall} {r : Recording}
    (hids : (s.db.recordings.map (·.id)).Nodup)
    (halone : call.upload.web → ¬ call.phase.finished → ∀ r ∈ s.db.recordings, r.id ≠ call.upload.id)
    (hsound : SoundPhase service call.upload call.phase) (hwaits : Waiting call)
    (hr : r ∈ s.db.recordings) (hclash : Clashes r call.upload)
    (h : CallStep service defaults now s call s' call') :
    s' = s ∧ Refused service call call' 1 := by
  obtain ⟨upload, phase⟩ := call
  obtain ⟨hid, hdiffers⟩ := hclash
  rcases hwaits with hp | ⟨row, hp⟩
  · obtain rfl : phase = .staged := hp
    cases h with
    | staged hstage =>
      have hclient : ¬ upload.web := fun hweb => halone hweb Bool.false_ne_true r hr hid
      rename_i row
      refine ⟨rfl, rfl, .inl ⟨.inr ⟨row, ?_⟩, ?_⟩⟩
      · simp [firstLook, hclient]
      · simp [remaining, firstLook, hclient]
    | rejected hstage => exact ⟨rfl, rfl, .inr (by rw [refusal_error hstage])⟩
  · obtain rfl : phase = .running row .lookById := hp
    have hprepared := stageUpload_ok hsound.1
    have hrow : r.id = row.id := hid.trans hprepared.id.symm
    cases h with
    | advanced h =>
      cases h with
      | conflict => exact ⟨rfl, rfl, .inr (by rw [refusal_ok hsound.1])⟩
      | unknown hnone =>
        have hfind := List.find?_eq_none.mp hnone r hr
        simp [hrow] at hfind
      | repeated hpoint hmem =>
        rcases hpoint with ⟨_, hid', hsame⟩ | hpoint
        · have he := List.inj_on_of_nodup_map hids hmem hr (hid'.trans hrow.symm)
          subst he
          exact absurd ⟨hsame.1.trans hprepared.deviceId, hsame.2.1.trans hprepared.sha256,
            hsame.2.2.trans hprepared.fileSize⟩ hdiffers
        · cases hpoint
      | recovered hpoint => rcases hpoint with hpoint | hpoint <;> cases hpoint

lemma unchanged_refused {service : RecordingService} {call : UploadCall} (h : Waiting call) :
    Refused service call call 0 :=
  ⟨rfl, .inl ⟨h, Nat.le_refl _⟩⟩

lemma clashing_step {service : RecordingService} {old : Database} {site site' : Site} {act : SiteAct}
    {i : ℕ} {call : UploadCall} {r : Recording} (hok : SiteOk service site)
    (hi : site.uploads[i]? = some call) (hwaits : Waiting call) (hr : r ∈ site.store.db.recordings)
    (hclash : Clashes r call.upload) (hgrown : Grown service old site.store.db)
    (hstep : SiteStep service site act site') (hup : isUpload act) :
    (isStepOf i act → site'.store = site.store) ∧ ∃ call', site'.uploads[i]? = some call' ∧
      Refused service call call' (if isStepOf i act then 1 else 0) := by
  obtain ⟨_, rfl⟩ := hstep
  have hcall := List.mem_of_getElem? hi
  cases act with
  | beginUpload upload =>
    exact ⟨fun h => absurd h Bool.false_ne_true, call, snoc_old hi, unchanged_refused hwaits⟩
  | stepUpload k defaults now =>
    rw [Site.perform]
    by_cases hk : k = i
    · subst hk
      obtain ⟨s', call', hcs, hs⟩ := stepUpload_some service defaults now hi
      obtain ⟨hstore, hrefused⟩ := clashing_callStep hgrown.tables.ids (hok.alone call hcall)
        (hok.sound call hcall) hwaits hr hclash hcs
      rw [hs]
      exact ⟨fun _ => hstore, call', set_self hi, by simpa [isStepOf] using hrefused⟩
    · have hother : isStepOf i (.stepUpload k defaults now) = false := by simp [isStepOf, hk]
      rw [hother]
      refine ⟨fun h => absurd h Bool.false_ne_true, call, ?_, unchanged_refused hwaits⟩
      rcases stepUpload_cases service site k defaults now with hs | ⟨_, _, _, _, _, hs⟩
      · rwa [hs]
      · rw [hs]
        exact (set_other (Ne.symm hk)).trans hi
  | _ => cases hup

lemma ended_step {service : RecordingService} {site site' : Site} {act : SiteAct} {i : ℕ}
    {call : UploadCall} {outcome : Except Exn IngestResult} (hi : site.uploads[i]? = some call)
    (hdone : call.phase = .done outcome) (hstep : SiteStep service site act site')
    (hup : isUpload act) : (isStepOf i act → site'.store = site.store) ∧
      site'.uploads[i]? = some call := by
  obtain ⟨_, rfl⟩ := hstep
  cases act with
  | beginUpload upload => exact ⟨fun h => absurd h Bool.false_ne_true, snoc_old hi⟩
  | stepUpload k defaults now =>
    rw [Site.perform]
    by_cases hk : k = i
    · subst hk
      obtain ⟨s', call', hcs, hs⟩ := stepUpload_some service defaults now hi
      obtain ⟨upload, phase⟩ := call
      subst hdone
      rw [hs]
      cases hcs with
      | ended => exact ⟨fun _ => rfl, set_self hi⟩
    · have hother : isStepOf i (.stepUpload k defaults now) = false := by simp [isStepOf, hk]
      rw [hother]
      refine ⟨fun h => absurd h Bool.false_ne_true, ?_⟩
      rcases stepUpload_cases service site k defaults now with hs | ⟨_, _, _, _, _, hs⟩
      · rwa [hs]
      · rw [hs]
        exact (set_other (Ne.symm hk)).trans hi
  | _ => cases hup

section Run

variable {service : RecordingService} {old : Database} {site site' : Site}
  {es : List (Event Site SiteAct)}

lemma grown_run (hok : SiteOk service site) (hgrown : Grown service old site.store.db)
    (h : SiteRun service site es site') (hup : ∀ e ∈ es, isUpload e.label) :
    SiteOk service site' ∧ Grown service old site'.store.db := by
  apply h.keeps_if (fun s => SiteOk service s ∧ Grown service old s.store.db)
    (fun _ act => isUpload act) ?_ ⟨hok, hgrown⟩ hup
  rintro s act t ⟨hs, hg⟩ hact hstep
  exact ⟨siteStep_ok hs hstep, hg.step hs.sound hstep hact⟩

lemma ended_run {i : ℕ} {call : UploadCall} {outcome : Except Exn IngestResult}
    (hi : site.uploads[i]? = some call) (hdone : call.phase = .done outcome)
    (h : SiteRun service site es site') (hup : ∀ e ∈ es, isUpload e.label) :
    (∀ e ∈ es, isStepOf i e.label → e.after.store = e.before.store) ∧
      site'.uploads[i]? = some call := by
  induction h with
  | nil => exact ⟨by simp, hi⟩
  | cons hstep _ ih =>
    obtain ⟨hact, hup⟩ := List.forall_mem_cons.mp hup
    obtain ⟨hstore, hi'⟩ := ended_step hi hdone hstep hact
    obtain ⟨hrest, hend⟩ := ih hi' hup
    exact ⟨List.forall_mem_cons.mpr ⟨hstore, hrest⟩, hend⟩

lemma ownSteps_cons {i : ℕ} {e : Event Site SiteAct} :
    ownSteps i (e :: es) = (if isStepOf i e.label then 1 else 0) + ownSteps i es := by
  rw [ownSteps, ownSteps, List.filter_cons]
  split
  · rw [List.length_cons, Nat.add_comm]
  · rw [Nat.zero_add]

lemma clashing_run {i : ℕ} {call : UploadCall} {r : Recording} (hok : SiteOk service site)
    (hgrown : Grown service site.store.db site.store.db) (hi : site.uploads[i]? = some call)
    (hwaits : Waiting call) (hr : r ∈ site.store.db.recordings) (hclash : Clashes r call.upload)
    (h : SiteRun service site es site') (hup : ∀ e ∈ es, isUpload e.label) :
    (∀ e ∈ es, isStepOf i e.label → e.after.store = e.before.store) ∧
      ∃ call', site'.uploads[i]? = some call' ∧ Refused service call call' (ownSteps i es) := by
  induction h generalizing call with
  | nil => exact ⟨by simp, call, hi, unchanged_refused hwaits⟩
  | cons hstep hrun ih =>
    obtain ⟨hact, hup⟩ := List.forall_mem_cons.mp hup
    obtain ⟨hstore, mid, hi', hupload, hmid⟩ :=
      clashing_step hok hi hwaits hr hclash hgrown hstep hact
    have hgrown' := hgrown.step hok.sound hstep hact
    rw [ownSteps_cons]
    dsimp only
    rcases hmid with ⟨hwaits', hleft⟩ | hdone
    · obtain ⟨hrest, call', hend, hsame, hcall'⟩ := ih (siteStep_ok hok hstep) (Grown.start hgrown'.tables)
        hi' hwaits' (hgrown'.kept r hr) (hupload ▸ hclash) hup
      refine ⟨List.forall_mem_cons.mpr ⟨hstore, hrest⟩, call', hend, hsame.trans hupload, ?_⟩
      rcases hcall' with ⟨hwaits'', hleft'⟩ | hdone
      · exact .inl ⟨hwaits'', by omega⟩
      · exact .inr (hupload ▸ hdone)
    · obtain ⟨hrest, hend⟩ := ended_run hi' hdone hrun hup
      exact ⟨List.forall_mem_cons.mpr ⟨hstore, hrest⟩, mid, hend, hupload, .inr hdone⟩

end Run

theorem uploads_idempotent {service : RecordingService} {store : Store} {mid site : Site}
    {es fs : List (Event Site SiteAct)} (htables : TablesOk store.db)
    (hes : SiteRun service (.opened store) es mid) (hfs : SiteRun service mid fs site)
    (hup : ∀ e ∈ es ++ fs, isUpload e.label) :
    ((site.store.db.recordings.map (·.id)).Nodup ∧ (site.store.db.recordings.map content).Nodup) ∧
    (∀ call ∈ site.uploads, ∀ result, call.phase = .done (.ok result) →
      result.recording.deviceId = call.upload.deviceId ∧
      result.recording.sha256 = call.upload.staged.sha256) ∧
    (∀ r ∈ site.store.db.recordings,
      r ∈ store.db.recordings ∨ JustQueued service site.store.db r) ∧
    ∀ i call r, mid.uploads[i]? = some call → Waiting call → r ∈ mid.store.db.recordings →
      Clashes r call.upload → r ∈ site.store.db.recordings ∧
      (∀ e ∈ fs, isStepOf i e.label → e.after.store = e.before.store) ∧
      ∃ call', site.uploads[i]? = some call' ∧ call'.upload = call.upload ∧
        ((Waiting call' ∧ ownSteps i fs < 2) ∨
          call'.phase = .done (.error (refusal service call.upload))) := by
  obtain ⟨hupes, hupfs⟩ := List.forall_mem_append.mp hup
  have hopened := SiteOk.opened service htables.jobIds htables.ids htables.keys
  obtain ⟨hmid, hgrown⟩ := grown_run hopened (Grown.start htables) hes hupes
  obtain ⟨hsite, hall⟩ := grown_run hmid hgrown hfs hupfs
  have hmid' : Grown service mid.store.db mid.store.db := Grown.start hgrown.tables
  refine ⟨⟨hall.tables.ids, hall.tables.contents⟩, ?_, hall.queued, ?_⟩
  · intro call hcall result hdone
    have hsound := hsite.sound call hcall
    rw [hdone] at hsound
    exact hsound
  · intro i call r hi hwaits hr hclash
    obtain ⟨hstore, call', hend, hsame, hcall'⟩ :=
      clashing_run hmid hmid' hi hwaits hr hclash hfs hupfs
    refine ⟨(grown_run hmid hmid' hfs hupfs).2.kept r hr, hstore, call', hend, hsame, ?_⟩
    rcases hcall' with ⟨hwaits', hleft⟩ | hdone
    · refine .inl ⟨hwaits', ?_⟩
      have hpositive : 1 ≤ remaining call' := by
        rcases hwaits' with hp | ⟨row, hp⟩ <;> simp [remaining, hp]
      have hmost : remaining call ≤ 2 := by
        rcases hwaits with hp | ⟨row, hp⟩ <;> simp [remaining, hp]
      omega
    · exact .inr hdone

def exampleChecksum (mark : Char) : Text := List.replicate 64 mark

def exampleUpload (id : RecordingId) (mark claimed : Char) : Upload where
  request := .ingest ⟨id, "phone".toList, exampleChecksum mark, 10, 0⟩
    ⟨id, "phone".toList, exampleChecksum mark, exampleChecksum claimed⟩
  staged := ⟨10, exampleChecksum mark⟩
  probe := .ok ⟨5, .wav⟩

lemma empty_tables (settings : Option ProcessingSettings) : TablesOk (Store.empty settings).db := by
  refine ⟨List.nodup_nil, List.nodup_nil, List.nodup_nil, ?_, ?_, ?_, ?_⟩
  all_goals
    intro x hx
    cases hx

def repeatedId (claimed : Char) : List SiteAct :=
  .beginUpload (exampleUpload 5 'a' 'a') :: List.replicate 5 (.stepUpload 0 ⟨1, 0⟩ 0) ++
    [.beginUpload (exampleUpload 5 'b' claimed)]

def afterRepeatedId (claimed : Char) : Site :=
  (repeatedId claimed).foldl (Site.perform exampleService) (.opened (.empty none))

def secondSteps : List SiteAct := List.replicate 2 (.stepUpload 1 ⟨2, 0⟩ 0)

def storedFirst : Recording := ⟨5, "phone".toList, exampleChecksum 'a', 10, ⟨0, 5, "wav".toList⟩, 0, 5,
  .queued⟩

theorem uploads_idempotent_example :
    let site := secondSteps.foldl (Site.perform exampleService) (afterRepeatedId 'b')
    storedFirst ∈ site.store.db.recordings ∧ ∃ call, site.uploads[1]? = some call ∧
      call.phase = .done (.error identityConflict) := by
  intro site
  have hes : SiteRun exampleService (.opened (.empty none))
      (trail (Site.perform exampleService) (.opened (.empty none)) (repeatedId 'b'))
      (afterRepeatedId 'b') := siteRun_trail _ (by decide +kernel)
  have hfs : SiteRun exampleService (afterRepeatedId 'b')
      (trail (Site.perform exampleService) (afterRepeatedId 'b') secondSteps) site :=
    siteRun_trail _ (by decide +kernel)
  obtain ⟨_, _, _, hclash⟩ := uploads_idempotent (empty_tables none) hes hfs (by decide +kernel)
  obtain ⟨hrow, _, call, hcall, _, hend⟩ := hclash 1 ⟨exampleUpload 5 'b' 'b', .staged⟩ storedFirst
    (by rfl) (.inl rfl) (by decide +kernel) (by decide +kernel)
  refine ⟨hrow, call, hcall, ?_⟩
  rcases hend with ⟨_, hlt⟩ | hdone
  · exact absurd hlt (by decide +kernel)
  · exact hdone

/-- An upload whose id is stored with other content and whose form names a third checksum is
refused, but not with 409. -/
theorem clashing_upload_without_409 :
    ∃ mid site, (∃ es, SiteRun exampleService (.opened (.empty none)) es mid ∧
        ∀ e ∈ es, isUpload e.label) ∧
      (∃ fs, SiteRun exampleService mid fs site ∧ ∀ e ∈ fs, isUpload e.label) ∧
      ∃ call r, mid.uploads[1]? = some call ∧ call.phase = .staged ∧
        r ∈ mid.store.db.recordings ∧ Clashes r call.upload ∧
        ∃ call', site.uploads[1]? = some call' ∧ call'.phase = .done (.error
          (.recordingService "checksum_claim_mismatch"
            "Checksum values supplied with the upload do not match." 422)) := by
  refine ⟨afterRepeatedId 'c',
    secondSteps.foldl (Site.perform exampleService) (afterRepeatedId 'c'),
    ⟨_, siteRun_trail (repeatedId 'c') ?_, ?_⟩, ⟨_, siteRun_trail _ ?_, ?_⟩, ?_⟩
  · decide +kernel
  · decide +kernel
  · decide +kernel
  · decide +kernel
  · exact ⟨⟨exampleUpload 5 'b' 'c', .staged⟩, storedFirst, by rfl, rfl, by decide +kernel,
      by decide +kernel, _, by rfl, by rfl⟩

end AudioServer.Services.UploadIdempotence
