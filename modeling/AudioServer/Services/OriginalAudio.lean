import AudioServer.Services.Ownership

/-! Whether a stored recording has its original audio, and what takes it away. -/

namespace AudioServer.Services.OriginalAudio

open AudioServer.Foundations.Outcomes AudioServer.Foundations.Pools AudioServer.Foundations.Runs
open AudioServer.Db.Models AudioServer.Jobs.Queue AudioServer.Jobs.Effects AudioServer.Jobs.Calls
open AudioServer.Services.Recordings AudioServer.Services.Consistency AudioServer.Services.Storage
open AudioServer.Services.Uploads AudioServer.Services.Interleaving AudioServer.Services.Ownership

def reliesOn : Phase → Option StorageKey
  | .running row (.mode .own) => some row.storageKey
  | .running row .create => some row.storageKey
  | _ => none

def removesAt : Phase → Option StorageKey
  | .running row (.remove _) => some row.storageKey
  | _ => none

def staged : DeletionPoint → Bool
  | .commit _ _ => true
  | _ => false

def AudioKept (site : Site) : Prop :=
  ∀ r ∈ site.store.db.recordings, (∀ d ∈ site.deletions, d.id = r.id → ¬ staged d.point) →
    site.store.objects r.storageKey = some ⟨r.fileSize, r.sha256⟩

def insertsAt (service : RecordingService) (defaults : RowDefaults) (now : Instant) (db : Database) :
    Phase → Option StorageKey
  | .running row .create =>
    if (createRecordingAndJob service row defaults now db).isOk then some row.storageKey else none
  | _ => none

def renamesAt : DeletionPoint → Option StorageKey
  | .rename r => some r.storageKey
  | _ => none

/-- No step takes the audio away from an upload that relies on it, nor does a row arrive at a key
about to be cleaned up. -/
def Undisturbed (service : RecordingService) (site : Site) : SiteAct → Prop
  | .stepUpload i defaults now => ∀ call ∈ site.uploads[i]?,
      (∀ key ∈ removesAt call.phase, ∀ other ∈ site.uploads, reliesOn other.phase ≠ some key) ∧
      ∀ key ∈ insertsAt service defaults now site.store.db call.phase,
        ∀ other ∈ site.uploads, removesAt other.phase ≠ some key
  | .stepDeletion j => ∀ d ∈ site.deletions[j]?, ∀ key ∈ renamesAt d.point,
      ∀ call ∈ site.uploads, reliesOn call.phase ≠ some key
  | _ => True

instance (service : RecordingService) (site : Site) :
    (act : SiteAct) → Decidable (Undisturbed service site act)
  | .beginUpload _ => inferInstanceAs (Decidable True)
  | .stepUpload i defaults now => inferInstanceAs (Decidable (∀ call ∈ site.uploads[i]?,
      (∀ key ∈ removesAt call.phase, ∀ other ∈ site.uploads, reliesOn other.phase ≠ some key) ∧
      ∀ key ∈ insertsAt service defaults now site.store.db call.phase,
        ∀ other ∈ site.uploads, removesAt other.phase ≠ some key))
  | .beginDeletion _ => inferInstanceAs (Decidable True)
  | .stepDeletion j => inferInstanceAs (Decidable (∀ d ∈ site.deletions[j]?,
      ∀ key ∈ renamesAt d.point, ∀ call ∈ site.uploads, reliesOn call.phase ≠ some key))
  | .work _ => inferInstanceAs (Decidable True)

structure AudioOk (site : Site) : Prop where
  kept : AudioKept site
  relied : ∀ call ∈ site.uploads, ∀ key ∈ reliesOn call.phase,
    site.store.objects key = some call.upload.staged
  unowned : ∀ call ∈ site.uploads, ∀ key ∈ removesAt call.phase,
    ∀ r ∈ site.store.db.recordings, r.storageKey ≠ key

lemma reliesOn_some {phase : Phase} {key : StorageKey} (h : reliesOn phase = some key) :
    ∃ row point, phase = .running row point ∧ row.storageKey = key := by
  unfold reliesOn at h
  split at h
  · exact ⟨_, _, rfl, Option.some.inj h⟩
  · exact ⟨_, _, rfl, Option.some.inj h⟩
  · cases h

def Idle (phase : Phase) : Prop := reliesOn phase = none ∧ removesAt phase = none

lemma firstLook_idle (web : Bool) (row : Recording) : Idle (.running row (firstLook web)) := by
  cases web <;> exact ⟨rfl, rfl⟩

lemma insertFailed_idle (web : Bool) (row : Recording) (exn : Exn) :
    Idle (insertFailed web row exn) := by
  cases exn <;> cases web <;> exact ⟨rfl, rfl⟩

lemma recovered_idle (web : Bool) (row r : Recording) : Idle (recovered web row r) := by
  rw [recovered]
  split <;> exact ⟨rfl, rfl⟩

lemma concluded_idle (web : Bool) (row : Recording) (outcome : Except Exn IngestResult) :
    Idle (concluded web row outcome) := by
  cases outcome <;> cases web <;> exact ⟨rfl, rfl⟩

lemma published_removes (row : Recording) (target : Target) :
    removesAt (published row target) = none := by
  cases target <;> rfl

lemma published_relies {row : Recording} {target : Target} {key : StorageKey}
    (h : reliesOn (published row target) = some key) : target = .own ∧ key = row.storageKey := by
  cases target with
  | own =>
    cases h
    exact ⟨rfl, rfl⟩
  | duplicate r => cases h

section Upload

variable {site : Site} {i : ℕ} {call' : UploadCall} (h : AudioOk site)
include h

lemma AudioOk.replace
    (hrelied : ∀ key ∈ reliesOn call'.phase, site.store.objects key = some call'.upload.staged)
    (hunowned : ∀ key ∈ removesAt call'.phase, ∀ r ∈ site.store.db.recordings, r.storageKey ≠ key) :
    AudioOk ⟨site.store, site.uploads.set i call', site.deletions⟩ := by
  exact ⟨h.kept, forall_set h.relied hrelied, forall_set h.unowned hunowned⟩

lemma AudioOk.idle (hidle : Idle call'.phase) :
    AudioOk ⟨site.store, site.uploads.set i call', site.deletions⟩ := by
  apply h.replace
  · intro key hkey
    rw [hidle.1] at hkey
    cases hkey
  · intro key hkey
    rw [hidle.2] at hkey
    cases hkey

lemma AudioOk.link {upload : Upload} {phase : Phase} {key : StorageKey}
    (hfree : site.store.objects key = none) (hrelies : ∀ k ∈ reliesOn phase, k = key)
    (hremoves : removesAt phase = none) :
    AudioOk ⟨{ site.store with
      objects := Function.update site.store.objects key (some upload.staged) },
      site.uploads.set i ⟨upload, phase⟩, site.deletions⟩ := by
  have hkeeps : ∀ {k object}, site.store.objects k = some object →
      Function.update site.store.objects key (some upload.staged) k = some object := by
    intro k object hobject
    have hne : k ≠ key := by
      rintro rfl
      rw [hfree] at hobject
      cases hobject
    rw [Function.update_of_ne hne, hobject]
  refine ⟨fun r hr hnone => hkeeps (h.kept r hr hnone), ?_, ?_⟩
  · intro other hother k hk
    rcases List.mem_or_eq_of_mem_set hother with hold | rfl
    · exact hkeeps (h.relied other hold k hk)
    · rw [hrelies k hk]
      exact Function.update_self key _ _
  · intro other hother k hk
    rcases List.mem_or_eq_of_mem_set hother with hold | rfl
    · exact h.unowned other hold k hk
    · rw [hremoves] at hk
      cases hk

lemma AudioOk.unlink {key : StorageKey} (hidle : Idle call'.phase)
    (hrow : ∀ r ∈ site.store.db.recordings, r.storageKey ≠ key)
    (hother : ∀ other ∈ site.uploads.set i call', reliesOn other.phase ≠ some key) :
    AudioOk ⟨site.store.unlink key, site.uploads.set i call', site.deletions⟩ := by
  have hidled := h.idle (i := i) hidle
  refine ⟨?_, ?_, hidled.unowned⟩
  · intro r hr hnone
    exact (deleteOriginal_other (hrow r hr)).trans (h.kept r hr hnone)
  · intro other hmem k hk
    have hne : k ≠ key := by
      rintro rfl
      exact hother other hmem hk
    exact (deleteOriginal_other hne).trans (hidled.relied other hmem k hk)

lemma AudioOk.insert {db : Database} {created : Recording}
    (hrecs : db.recordings = site.store.db.recordings ++ [created]) (hidle : Idle call'.phase)
    (hobject : site.store.objects created.storageKey = some ⟨created.fileSize, created.sha256⟩)
    (hclean : ∀ other ∈ site.uploads, removesAt other.phase ≠ some created.storageKey) :
    AudioOk ⟨{ site.store with db := db }, site.uploads.set i call', site.deletions⟩ := by
  have hidled := h.idle (i := i) hidle
  refine ⟨?_, hidled.relied, ?_⟩
  · intro r hr hnone
    rw [hrecs, List.mem_append, List.mem_singleton] at hr
    rcases hr with hr | rfl
    · exact h.kept r hr hnone
    · exact hobject
  · intro other hother k hk r hr
    rw [hrecs, List.mem_append, List.mem_singleton] at hr
    rcases hr with hr | rfl
    · exact hidled.unowned other hother k hk r hr
    · rintro rfl
      rcases List.mem_or_eq_of_mem_set hother with hold | rfl
      · exact hclean other hold hk
      · rw [hidle.2] at hk
        cases hk

end Upload

lemma web_key_alone {service : RecordingService} {site : Site} {i : ℕ} {call : UploadCall}
    {row : Recording} {point : Point} (hok : SiteOk service site) (hi : site.uploads[i]? = some call)
    (hphase : call.phase = .running row point) (hweb : call.upload.web) :
    (∀ r ∈ site.store.db.recordings, r.storageKey ≠ row.storageKey) ∧
    ∀ k other, site.uploads[k]? = some other → k ≠ i →
      reliesOn other.phase ≠ some row.storageKey := by
  have hprepared : ∀ {k : ℕ} {other : UploadCall} {row : Recording} {point : Point},
      site.uploads[k]? = some other → other.phase = .running row point → row.storageKey.recordingId = other.upload.id := by
    intro k other row point hk hp
    have hsound := hok.sound other (List.mem_of_getElem? hk)
    rw [hp] at hsound
    exact (stageUpload_ok hsound.1).key.trans (stageUpload_ok hsound.1).id
  have hrun : ¬ call.phase.finished := by simp [hphase, Phase.finished]
  constructor
  · intro r hr he
    apply hok.alone call (List.mem_of_getElem? hi) hweb hrun r hr
    rw [← hok.keys r hr, he, hprepared hi hphase]
  · intro k other hk hne hrelies
    obtain ⟨row', point', hp, hkey⟩ := reliesOn_some hrelies
    have hid : call.upload.id = other.upload.id := by
      rw [← hprepared hi hphase, ← hkey, hprepared hk hp]
    exact hrun ((hok.rivals i k call other hi hk (Ne.symm hne) hid).1 hweb)

lemma stepUpload_audio {service : RecordingService} {site : Site} {i : ℕ} {defaults : RowDefaults}
    {now : Instant} (hok : SiteOk service site) (h : AudioOk site)
    (hcalm : Undisturbed service site (.stepUpload i defaults now)) :
    AudioOk (site.stepUpload service i defaults now) := by
  rcases stepUpload_cases service site i defaults now with hs | ⟨⟨upload, phase⟩, s', call', hi, hstep, hs⟩
  · rwa [hs]
  rw [hs]
  have hcall := List.mem_of_getElem? hi
  obtain ⟨hremoval, hinsert⟩ := hcalm _ hi
  cases hstep with
  | staged => exact h.idle (firstLook_idle _ _)
  | rejected | ended => exact h.idle ⟨rfl, rfl⟩
  | @advanced _ row point _ phase' hadv =>
    have hweb := web_key_alone hok hi rfl
    cases hadv with
    | conflict | unknown | repeated | fresh | unnamed | occupied | mismatched | vanished | conflicted
    | searched | unrecovered => exact h.idle ⟨rfl, rfl⟩
    | refused => exact h.idle (insertFailed_idle _ _ _)
    | recovered => exact h.idle (recovered_idle _ _ _)
    | owned => exact h.idle (concluded_idle _ _ _)
    | @linked target hfree =>
      apply h.link hfree
      · intro k hk
        obtain ⟨rfl, rfl⟩ := published_relies hk
        rfl
      · exact published_removes row target
    | @matched target hsame =>
      apply h.replace
      · intro k hk
        cases target with
        | own =>
          cases hk
          exact hsame
        | duplicate r => cases hk
      · intro k hk
        cases hk
    | @secured target hthere =>
      apply h.replace
      · intro k hk
        obtain ⟨rfl, rfl⟩ := published_relies hk
        exact h.relied _ hcall _ rfl
      · intro k hk
        rw [published_removes] at hk
        cases hk
    | @created recording db hcreate =>
      have hprepared := stageUpload_ok (hok.sound _ hcall).1
      obtain ⟨rfl, hrecs, _⟩ := createRecordingAndJob_rows hcreate
      apply h.insert hrecs ⟨rfl, rfl⟩
      · have hobject := h.relied _ hcall row.storageKey rfl
        simpa [identity, hprepared.fileSize, hprepared.sha256] using hobject
      · apply hinsert
        simp [insertsAt, hcreate, Except.isOk, Except.toBool, identity]
    | unowned hnone =>
      apply h.replace
      · intro k hk
        cases hk
      · intro k hk
        cases hk
        exact hnone
    | removed =>
      apply h.unlink (concluded_idle _ _ _)
      · exact h.unowned _ hcall _ rfl
      · intro other hother hrelies
        rcases List.mem_or_eq_of_mem_set hother with hold | rfl
        · exact hremoval _ rfl other hold hrelies
        · rw [(concluded_idle _ _ _).1] at hrelies
          cases hrelies
    | swept =>
      have hbrowser : upload.web := (hok.sound _ hcall).2
      obtain ⟨hrow, hothers⟩ := hweb hbrowser
      apply h.unlink ⟨rfl, rfl⟩ hrow
      intro other hother hrelies
      rcases set_some (List.getElem?_of_mem hother).choose_spec with ⟨_, rfl⟩ | ⟨hne, hold⟩
      · cases hrelies
      · exact hothers _ other hold hne hrelies

lemma unstaged_before {site : Site} {j : ℕ} {d : DeletionCall} {point : DeletionPoint}
    {id : RecordingId} (hj : site.deletions[j]? = some d) (hd : staged d.point → d.id ≠ id)
    (h : ∀ e ∈ site.deletions.set j ⟨d.id, point⟩, e.id = id → ¬ staged e.point) :
    ∀ e ∈ site.deletions, e.id = id → ¬ staged e.point := by
  intro e he hid hstaged
  obtain ⟨k, hk⟩ := List.getElem?_of_mem he
  by_cases hkj : k = j
  · subst hkj
    rw [hj] at hk
    cases hk
    exact hd hstaged hid
  · exact h e (List.mem_of_getElem? ((set_other hkj).trans hk)) hid hstaged

lemma stepDeletion_audio {service : RecordingService} {site : Site} {j : ℕ}
    (hok : SiteOk service site) (h : AudioOk site)
    (hcalm : Undisturbed service site (.stepDeletion j)) : AudioOk (site.stepDeletion j) := by
  rcases stepDeletion_cases site j with hs | ⟨⟨id, old⟩, s', point, hj, hstep, hs⟩
  · rwa [hs]
  rw [hs]
  have hd := List.mem_of_getElem? hj
  -- Only the rename takes an object and only the commit takes a row.
  have hquiet : ∀ point : DeletionPoint, ¬ staged old →
      AudioOk ⟨site.store, site.uploads, site.deletions.set j ⟨id, point⟩⟩ := by
    intro point hold
    refine ⟨?_, h.relied, h.unowned⟩
    intro r hr hnone
    exact h.kept r hr (unstaged_before hj (fun hs => absurd hs hold) hnone)
  cases hstep with
  | @quarantined r object hobject =>
    obtain ⟨stored, hstored, hid, hkey⟩ := hok.held _ hd r rfl
    refine ⟨?_, ?_, h.unowned⟩
    · intro x hx hnone
      have hne : x.storageKey ≠ r.storageKey := by
        intro he
        have hsame : x.id = id := by
          rw [← hok.keys x hx, he, ← hkey, hok.keys stored hstored, hid]
        exact hnone _ (List.mem_of_getElem? (set_self hj)) hsame.symm rfl
      exact (deleteOriginal_other hne).trans
        (h.kept x hx (unstaged_before hj (fun hs => absurd hs Bool.false_ne_true) hnone))
    · intro call hcall key hrelies
      have hne : key ≠ r.storageKey := by
        rintro rfl
        exact hcalm _ hj _ rfl call hcall hrelies
      exact (deleteOriginal_other hne).trans (h.relied call hcall key hrelies)
  | @committed r object =>
    refine ⟨?_, h.relied, ?_⟩
    · intro x hx hnone
      obtain ⟨hmem, hne⟩ := List.mem_filter.mp hx
      have hother : id ≠ x.id := by
        rintro rfl
        simp at hne
      exact h.kept x hmem (unstaged_before hj (fun _ => hother) hnone)
    · intro call hcall key hremoves x hx
      exact h.unowned call hcall key hremoves x (List.mem_of_mem_filter hx)
  | ended hend =>
    apply hquiet
    intro hs
    cases old with
    | commit r object => cases hend
    | _ => cases hs
  | _ => exact hquiet _ Bool.false_ne_true

lemma step_audio {service : RecordingService} {site site' : Site} {act : SiteAct}
    (hok : SiteOk service site) (h : AudioOk site) (hcalm : Undisturbed service site act)
    (hstep : SiteStep service site act site') : AudioOk site' := by
  obtain ⟨_, rfl⟩ := hstep
  cases act with
  | beginUpload upload =>
    refine ⟨h.kept, forall_snoc h.relied ?_, forall_snoc h.unowned ?_⟩
    · intro key hkey
      cases hkey
    · intro key hkey
      cases hkey
  | stepUpload i defaults now => exact stepUpload_audio hok h hcalm
  | beginDeletion id =>
    refine ⟨?_, h.relied, h.unowned⟩
    intro r hr hnone
    exact h.kept r hr (fun d hd => hnone d (List.mem_append_left _ hd))
  | stepDeletion j => exact stepDeletion_audio hok h hcalm
  | work call =>
    have hwork : QueueStep site.store.db call (settled site.store.db (call.exec site.store.db)) := rfl
    have hrows := queueStep_identity hok.jobIds hwork
    refine ⟨?_, h.relied, ?_⟩
    · intro r hr hnone
      obtain ⟨old, hold, he⟩ := identity_mem hrows hr
      have hid : old.id = r.id := congrArg (·.id) he
      have hkey : old.storageKey = r.storageKey := congrArg (·.storageKey) he
      have hsize : old.fileSize = r.fileSize := congrArg (·.fileSize) he
      have hsum : old.sha256 = r.sha256 := congrArg (·.sha256) he
      rw [← hkey, ← hsize, ← hsum]
      exact h.kept old hold (fun d hd hd' => hnone d hd (hd'.trans hid))
    · intro c hc key hremoves r hr
      obtain ⟨old, hold, he⟩ := identity_mem hrows hr
      have hkey : old.storageKey = r.storageKey := congrArg (·.storageKey) he
      rw [← hkey]
      exact h.unowned c hc key hremoves old hold

theorem recordings_have_audio {service : RecordingService} {settings : Option ProcessingSettings}
    {site : Site} {es : List (Event Site SiteAct)}
    (h : SiteRun service (.opened (.empty settings)) es site)
    (hcalm : ∀ e ∈ es, Undisturbed service e.before e.label) : AudioKept site := by
  have haudio : AudioOk (.opened (.empty settings)) := by
    refine ⟨?_, ?_, ?_⟩
    all_goals
      intro x hx
      cases hx
  have hrun := h.keeps_if (fun s => SiteOk service s ∧ AudioOk s) (Undisturbed service) ?_
    ⟨.empty service settings, haudio⟩ hcalm
  · exact hrun.2.kept
  · rintro s act t ⟨hok, hs⟩ hact hstep
    exact ⟨siteStep_ok hok hstep, step_audio hok hs hact hstep⟩

def clientUpload (id : RecordingId) (device : String) : Upload where
  request := .ingest ⟨id, device.toList, List.replicate 64 'a', 10, 0⟩
    ⟨id, device.toList, List.replicate 64 'a', List.replicate 64 'a'⟩
  staged := ⟨10, List.replicate 64 'a'⟩
  probe := .ok ⟨5, .wav⟩

def clientRow (id : RecordingId) (device : String) : Recording :=
  ⟨id, device.toList, List.replicate 64 'a', 10, ⟨0, id, "wav".toList⟩, 0, 5, .queued⟩

def nextStep (i : ℕ) : SiteAct := .stepUpload i ⟨i, 0⟩ 0

def retriedUpload : List SiteAct :=
  [.beginUpload (clientUpload 5 "one"), .beginUpload (clientUpload 5 "one")] ++
    (List.replicate 8 [nextStep 0, nextStep 1]).flatten

theorem recordings_have_audio_retried :
    let site := retriedUpload.foldl (Site.perform exampleService) (.opened (.empty none))
    site.store.db.recordings = [clientRow 5 "one"] ∧
      site.store.objects (clientRow 5 "one").storageKey = some ⟨10, List.replicate 64 'a'⟩ := by
  intro site
  have hrows : site.store.db.recordings = [clientRow 5 "one"] := by decide +kernel
  have hkept : AudioKept site :=
    recordings_have_audio (siteRun_trail retriedUpload (by decide +kernel)) (by decide +kernel)
  refine ⟨hrows, hkept (clientRow 5 "one") (hrows ▸ List.mem_singleton.mpr rfl) ?_⟩
  intro d hd
  cases hd

/-- The first call loses the content to the second and is about to clean up when the third finds
the object that the first one put under their common id. -/
def threeWayRace : List SiteAct :=
  [.beginUpload (clientUpload 5 "one"), .beginUpload (clientUpload 9 "one"),
    .beginUpload (clientUpload 5 "two")] ++
  List.replicate 3 (nextStep 0) ++ List.replicate 5 (nextStep 1) ++ List.replicate 5 (nextStep 0) ++
  List.replicate 6 (nextStep 2) ++ [nextStep 0, nextStep 2]

theorem race_leaves_recording_without_audio :
    ∃ es site, SiteRun exampleService (.opened (.empty none)) es site ∧ ¬ AudioKept site := by
  refine ⟨_, _, siteRun_trail threeWayRace (by decide +kernel), ?_⟩
  intro hkept
  have haudio := hkept (clientRow 5 "two") (by decide +kernel) (by decide +kernel)
  exact absurd haudio (by decide +kernel)

end AudioServer.Services.OriginalAudio
