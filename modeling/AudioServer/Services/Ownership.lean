import AudioServer.Foundations.Pools
import AudioServer.Services.Consistency
import AudioServer.Services.Interleaving

/-! Who an identifier belongs to while uploads and deletions run: a browser
upload's to that upload alone, a locked row's to one deletion. -/

namespace AudioServer.Services.Ownership

open AudioServer.Foundations.Outcomes AudioServer.Foundations.Pools AudioServer.Foundations.Runs
open AudioServer.Db.Models AudioServer.Jobs.Queue AudioServer.Jobs.Effects AudioServer.Jobs.Calls
open AudioServer.Services.Recordings AudioServer.Services.Storage AudioServer.Services.Uploads
open AudioServer.Services.Interleaving

def identity (r : Recording) : Recording := { r with processingStatus := .queued }

lemma setProcessingStatus_identity (db : Database) (id : Option RecordingId)
    (status : RecordingStatus) :
    (db.setProcessingStatus id status).recordings.map identity = db.recordings.map identity := by
  rw [Database.setProcessingStatus, List.map_map]
  apply List.map_congr_left
  intro r _
  simp only [Function.comp_apply]
  split <;> rfl

lemma moved_identity {token : Option ClaimToken} {db db' : Database} (h : Moved token db db') :
    db'.recordings.map identity = db.recordings.map identity := by
  obtain ⟨job, job', row, now, hm, _⟩ := h
  rw [hm.recordings, movedRecordings]
  split
  · exact setProcessingStatus_identity _ _ _
  · rfl

lemma queueStep_identity {db db' : Database} {call : QueueCall} (hids : UniqueJobIds db)
    (h : QueueStep db call db') : db'.recordings.map identity = db.recordings.map identity := by
  apply h.keeps (fun t => t.recordings.map identity = db.recordings.map identity) ?_ hids rfl
  exact fun s t hs hm => (moved_identity hm).trans hs

section Identity

variable {db db' : Database} (h : db'.recordings.map identity = db.recordings.map identity)
include h

lemma identity_mem {r : Recording} (hr : r ∈ db'.recordings) :
    ∃ old ∈ db.recordings, identity old = identity r := by
  have hmem : identity r ∈ db.recordings.map identity := h ▸ List.mem_map_of_mem hr
  exact List.mem_map.mp hmem

lemma identity_ids : db'.recordings.map (·.id) = db.recordings.map (·.id) := by
  have hmap := congrArg (List.map (·.id)) h
  rwa [List.map_map, List.map_map] at hmap

end Identity

def Rivals (a b : UploadCall) : Prop :=
  a.upload.id = b.upload.id → (a.upload.web → a.phase.finished) ∧ (b.upload.web → b.phase.finished)

def Exclusive (d e : DeletionCall) : Prop :=
  d.id = e.id → d.point.locked = none ∨ e.point.locked = none

structure SiteOk (service : RecordingService) (site : Site) : Prop where
  jobIds : UniqueJobIds site.store.db
  ids : (site.store.db.recordings.map (·.id)).Nodup
  keys : ∀ r ∈ site.store.db.recordings, r.storageKey.recordingId = r.id
  sound : SoundCalls service site
  alone : ∀ call ∈ site.uploads, call.upload.web → ¬ call.phase.finished →
    ∀ r ∈ site.store.db.recordings, r.id ≠ call.upload.id
  rivals : Apart Rivals site.uploads
  held : ∀ d ∈ site.deletions, ∀ r ∈ d.point.locked,
    ∃ stored ∈ site.store.db.recordings, stored.id = d.id ∧ stored.storageKey = r.storageKey
  exclusive : Apart Exclusive site.deletions

lemma SiteOk.unique {service : RecordingService} {site : Site} (h : SiteOk service site)
    {a b : Recording} (ha : a ∈ site.store.db.recordings) (hb : b ∈ site.store.db.recordings)
    (he : a.id = b.id) : a = b :=
  List.inj_on_of_nodup_map h.ids ha hb he

lemma SiteOk.opened (service : RecordingService) {store : Store} (hjobs : UniqueJobIds store.db)
    (hids : (store.db.recordings.map (·.id)).Nodup)
    (hkeys : ∀ r ∈ store.db.recordings, r.storageKey.recordingId = r.id) :
    SiteOk service (.opened store) := by
  refine ⟨hjobs, hids, hkeys, ?_, ?_, Apart.nil, ?_, Apart.nil⟩
  · intro call hcall
    cases hcall
  · intro call hcall
    cases hcall
  · intro d hd
    cases hd

lemma SiteOk.empty (service : RecordingService) (settings : Option ProcessingSettings) :
    SiteOk service (.opened (.empty settings)) := by
  have hjobs : UniqueJobIds (Store.empty settings).db := List.nodup_nil
  apply SiteOk.opened service hjobs List.nodup_nil
  intro r hr
  cases hr

lemma createRecordingAndJob_rows {service : RecordingService} {row created : Recording}
    {defaults : RowDefaults} {now : Instant} {db db' : Database}
    (h : createRecordingAndJob service row defaults now db = .ok (created, db')) :
    created = identity row ∧ db'.recordings = db.recordings ++ [created] ∧
    (∀ r ∈ db.recordings, r.id ≠ row.id) ∧
    (∀ r ∈ db.recordings, r.deviceId = row.deviceId → r.sha256 ≠ row.sha256) ∧
    (∀ r ∈ db.recordings, r.storageKey ≠ row.storageKey) ∧ (UniqueJobIds db → UniqueJobIds db') := by
  obtain ⟨rfl, hinsert, hrecs, hjobs, _, _, _, hfresh⟩ := createRecordingAndJob_ok h
  obtain ⟨_, hid, hcontent, hkey⟩ := insertRecording_ok hinsert
  refine ⟨rfl, hrecs, hid, hcontent, hkey, ?_⟩
  intro hids
  rw [UniqueJobIds, hjobs]
  exact nodup_map_snoc hids hfresh

lemma beginUpload_ok {service : RecordingService} {site : Site} {upload : Upload}
    (h : SiteOk service site) (hfresh : site.Fresh upload) :
    SiteOk service (site.perform service (.beginUpload upload)) := by
  refine ⟨h.jobIds, h.ids, h.keys, ?_, ?_, ?_, h.held, h.exclusive⟩
  · have hstep : SiteStep service site (.beginUpload upload) _ := ⟨hfresh, rfl⟩
    exact hstep.sound h.sound
  · intro call hcall hweb hrun
    rcases List.mem_append.mp hcall with hold | hnew
    · exact h.alone call hold hweb hrun
    · rw [List.mem_singleton.mp hnew] at hweb ⊢
      exact hfresh.1 hweb
  · apply h.rivals.snoc
    intro b hb
    constructor
    · intro he
      obtain ⟨hno, hdone⟩ := hfresh.2 b hb he.symm
      exact ⟨fun hweb => absurd hweb hno, hdone⟩
    · intro he
      obtain ⟨hno, hdone⟩ := hfresh.2 b hb he
      exact ⟨hdone, fun hweb => absurd hweb hno⟩

lemma stepUpload_ok {service : RecordingService} {site : Site} {i : ℕ} {defaults : RowDefaults}
    {now : Instant} (h : SiteOk service site) :
    SiteOk service (site.perform service (.stepUpload i defaults now)) := by
  have hsound : SoundCalls service (site.perform service (.stepUpload i defaults now)) := by
    have hstep : SiteStep service site (.stepUpload i defaults now) _ := ⟨trivial, rfl⟩
    exact hstep.sound h.sound
  rw [Site.perform] at hsound ⊢
  rcases stepUpload_cases service site i defaults now with hs | ⟨call, s', call', hi, hstep, hs⟩
  · rwa [hs]
  rw [hs] at hsound ⊢
  have hcall := List.mem_of_getElem? hi
  have hsame := hstep.upload
  have hrivals : Apart Rivals (site.uploads.set i call') := by
    apply h.rivals.step hi
    intro c
    rw [Rivals, Rivals, Rivals, Rivals, hsame]
    exact ⟨fun hr he => ⟨fun hw => hstep.finished ((hr he).1 hw), (hr he).2⟩,
      fun hr he => ⟨(hr he).1, fun hw => hstep.finished ((hr he).2 hw)⟩⟩
  rcases hstep.db with hdb | ⟨row, created, hphase, hcreate, hdone⟩
  · refine ⟨hdb ▸ h.jobIds, hdb ▸ h.ids, hdb ▸ h.keys, hsound, ?_, hrivals, hdb ▸ h.held, h.exclusive⟩
    intro other hother hweb hrun
    rw [hdb]
    rcases List.mem_or_eq_of_mem_set hother with hold | rfl
    · exact h.alone other hold hweb hrun
    · rw [hsame] at hweb ⊢
      exact h.alone call hcall hweb (fun hend => hrun (hstep.finished hend))
  · obtain ⟨rfl, hrecs, hid, _, _, hjobs⟩ := createRecordingAndJob_rows hcreate
    have hprepared : Prepared call.upload row := by
      have hs := h.sound call hcall
      rw [hphase] at hs
      exact stageUpload_ok hs.1
    have hmem : ∀ {r}, r ∈ s'.db.recordings → r ∈ site.store.db.recordings ∨ r = identity row := by
      intro r hr
      rwa [hrecs, List.mem_append, List.mem_singleton] at hr
    refine ⟨hjobs h.jobIds, ?_, ?_, hsound, ?_, hrivals, ?_, h.exclusive⟩
    · rw [hrecs]
      exact nodup_map_snoc h.ids hid
    · intro r hr
      rcases hmem hr with hold | rfl
      · exact h.keys r hold
      · exact hprepared.key
    · intro other hother hweb hrun r hr
      rcases set_some (List.getElem?_of_mem hother).choose_spec with ⟨_, rfl⟩ | ⟨hne, hold⟩
      · rw [hdone] at hrun
        exact absurd rfl hrun
      · rcases hmem hr with hr | rfl
        · exact h.alone other (List.mem_of_getElem? hold) hweb hrun r hr
        · intro he
          have hid : other.upload.id = call.upload.id := he.symm.trans hprepared.id
          exact hrun ((h.rivals _ _ _ _ hold hi hne hid).1 hweb)
    · intro d hd r hr
      obtain ⟨stored, hstored, he⟩ := h.held d hd r hr
      exact ⟨stored, hrecs ▸ List.mem_append_left _ hstored, he⟩

lemma stepDeletion_ok {service : RecordingService} {site : Site} {j : ℕ} (h : SiteOk service site)
    (hlock : site.Unlocked j) : SiteOk service (site.perform service (.stepDeletion j)) := by
  rw [Site.perform]
  rcases stepDeletion_cases site j with hs | ⟨d, s', point, hj, hstep, hs⟩
  · rwa [hs]
  rw [hs]
  have hd := List.mem_of_getElem? hj
  -- The lock is taken from a row nobody holds, and kept for that row only.
  have hexclusive : Apart Exclusive (site.deletions.set j ⟨d.id, point⟩) := by
    apply h.exclusive.set
    intro k e hk hne
    have hquiet : d.id = e.id → point.locked = none ∨ e.point.locked = none := by
      intro he
      cases hp : point.locked with
      | none => exact .inl rfl
      | some r =>
        rcases hstep.locked hp with hold | ⟨hwaits, _⟩
        · rcases h.exclusive j k d e hj hk (Ne.symm hne) he with hfree | hfree
          · rw [hold] at hfree
            cases hfree
          · exact .inr hfree
        · exact .inr (hlock d (hj ▸ rfl) hwaits e (List.mem_of_getElem? hk) he.symm)
    exact ⟨hquiet, fun he => (hquiet he.symm).symm⟩
  have hown : ∀ r ∈ point.locked, ∃ stored ∈ site.store.db.recordings,
      stored.id = d.id ∧ stored.storageKey = r.storageKey := by
    intro r hr
    rcases hstep.locked hr with hold | ⟨_, hmem, hid⟩
    · exact h.held d hd r hold
    · exact ⟨r, hmem, hid, rfl⟩
  rcases hstep.db with hdb | ⟨gone, object, hpoint, rfl, rfl⟩
  · refine ⟨hdb ▸ h.jobIds, hdb ▸ h.ids, hdb ▸ h.keys, h.sound, hdb ▸ h.alone, h.rivals, ?_,
      hexclusive⟩
    intro e he r hr
    rw [hdb]
    rcases List.mem_or_eq_of_mem_set he with hold | rfl
    · exact h.held e hold r hr
    · exact hown r hr
  · refine ⟨?_, ?_, ?_, h.sound, ?_, h.rivals, ?_, hexclusive⟩
    · exact h.jobIds.sublist (List.filter_sublist.map _)
    · exact h.ids.sublist (List.filter_sublist.map _)
    · intro r hr
      exact h.keys r (List.mem_of_mem_filter hr)
    · intro call hcall hweb hrun r hr
      exact h.alone call hcall hweb hrun r (List.mem_of_mem_filter hr)
    · intro e he r hr
      rcases set_some (List.getElem?_of_mem he).choose_spec with ⟨_, rfl⟩ | ⟨hne, hold⟩
      · cases hr
      · obtain ⟨stored, hstored, hid, hkey⟩ := h.held e (List.mem_of_getElem? hold) r hr
        have hother : stored.id ≠ d.id := by
          intro hsame
          rcases h.exclusive _ _ _ _ hold hj hne (hid.symm.trans hsame) with hfree | hfree
          · rw [hr] at hfree
            cases hfree
          · rw [hpoint] at hfree
            cases hfree
        exact ⟨stored, List.mem_filter.mpr ⟨hstored, by simpa using hother⟩, hid, hkey⟩

lemma work_ok {service : RecordingService} {site : Site} {call : QueueCall} (h : SiteOk service site) :
    SiteOk service (site.perform service (.work call)) := by
  have hstep : QueueStep site.store.db call (settled site.store.db (call.exec site.store.db)) := rfl
  have hrows := queueStep_identity h.jobIds hstep
  refine ⟨hstep.uniqueJobIds h.jobIds, ?_, ?_, h.sound, ?_, h.rivals, ?_, h.exclusive⟩
  · rw [Site.perform, identity_ids hrows]
    exact h.ids
  · intro r hr
    obtain ⟨old, hold, he⟩ := identity_mem hrows hr
    have hid : old.id = r.id := congrArg (·.id) he
    have hkey : old.storageKey = r.storageKey := congrArg (·.storageKey) he
    rw [← hid, ← hkey]
    exact h.keys old hold
  · intro c hc hweb hrun r hr
    obtain ⟨old, hold, he⟩ := identity_mem hrows hr
    have hid : old.id = r.id := congrArg (·.id) he
    rw [← hid]
    exact h.alone c hc hweb hrun old hold
  · intro d hd r hr
    obtain ⟨old, hold, hid, hkey⟩ := h.held d hd r hr
    obtain ⟨stored, hstored, he⟩ := identity_mem hrows.symm hold
    exact ⟨stored, hstored, (congrArg (·.id) he).trans hid, (congrArg (·.storageKey) he).trans hkey⟩

lemma siteStep_ok {service : RecordingService} {site site' : Site} {act : SiteAct}
    (h : SiteOk service site) (hstep : SiteStep service site act site') : SiteOk service site' := by
  obtain ⟨hallowed, rfl⟩ := hstep
  cases act with
  | beginUpload upload => exact beginUpload_ok h hallowed
  | stepUpload i defaults now => exact stepUpload_ok h
  | beginDeletion id =>
    refine ⟨h.jobIds, h.ids, h.keys, h.sound, h.alone, h.rivals, ?_, ?_⟩
    · intro d hd r hr
      rcases List.mem_append.mp hd with hold | hnew
      · exact h.held d hold r hr
      · rw [List.mem_singleton.mp hnew] at hr
        cases hr
    · exact h.exclusive.snoc (fun e _ => ⟨fun _ => .inl rfl, fun _ => .inr rfl⟩)
  | stepDeletion j => exact stepDeletion_ok h hallowed
  | work call => exact work_ok h

end AudioServer.Services.Ownership
