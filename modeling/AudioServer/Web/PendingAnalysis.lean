import AudioServer.Services.Batches
import AudioServer.Services.DayReads
import AudioServer.Web.DayPage

/-! The recordings a day's batch is offered for: as the page counts them, as the
server selects them, and as the checks of the queue let them through. -/

namespace AudioServer.Web.PendingAnalysis

open AudioServer.Foundations.Outcomes AudioServer.Core.Datetimes AudioServer.Api.Schemas
open AudioServer.Api.Responses AudioServer.Db.Models AudioServer.Jobs.Queue AudioServer.Jobs.Effects
open AudioServer.Services.Recordings AudioServer.Services.Days AudioServer.Services.Daily
open AudioServer.Services.DayRange
open AudioServer.Services.Batches AudioServer.Web.DayPage

def pendingAnalysisRecordingIds (db : Database) (day : Day) : Except Exn (List RecordingId) := do
  let window ← dayWindow day
  let ids := ((db.recordings.filter (fun r => window.1 ≤ r.startedAt ∧ r.startedAt < window.2 ∧
    r.processingStatus = .completed)).insertionSort ListOrder).map (·.id)
  .ok (ids.filter (fun id => ¬ analysed db id ∧ db.activeJob id = none))

def pendingIds (db : Database) (day : Day) : List RecordingId :=
  let ids := ((db.recordings.filter (fun r => (localWindow day).1 ≤ r.startedAt ∧
    r.startedAt < (localWindow day).2 ∧
    r.processingStatus = .completed)).insertionSort ListOrder).map (·.id)
  ids.filter (fun id => ¬ analysed db id ∧ db.activeJob id = none)

def dayDetailResponse (detail : DayDetail) : DayDetailResponse where
  day := detail.day
  recordings := detail.recordings.map (fun r => ⟨r.id, r.processingStatus⟩)
  analysedRecordingIds := detail.analysedIds.insertionSort (· ≤ ·)
  activeJobRecordingIds := detail.activeJobIds.insertionSort (· ≤ ·)
  summary := (detail.summary.bind (·.result)).filter (·.Valid)
  stale := detail.stale
  job := detail.job.map (fun j => ⟨j.kind, j.status⟩)

def Fresh (db : Database) (row : RowDefaults) : Prop := ∀ j ∈ db.jobs, j.id ≠ row.id

def pressActs (calls : List (Instant × RowDefaults)) : List Act :=
  calls.flatMap (fun call => [.checks call.1, .inserts call.2])

section Sets

variable {db : Database} {summaries : List DailySummary} {day : Day} {p : Page} {id : RecordingId}

lemma pendingAnalysisRecordingIds_ok {ids : List RecordingId} :
    pendingAnalysisRecordingIds db day = .ok ids ↔
      (dateMin < day ∧ day < dateMax) ∧ ids = pendingIds db day := by
  constructor
  · intro h
    obtain ⟨window, hwindow, h⟩ := bind_ok h
    obtain ⟨hinside, rfl⟩ := dayWindow_ok.mp hwindow
    exact ⟨hinside, (Except.ok.inj h).symm⟩
  · rintro ⟨hinside, rfl⟩
    rw [pendingAnalysisRecordingIds, dayWindow_ok.mpr ⟨hinside, rfl⟩]
    rfl

lemma mem_pendingIds : id ∈ pendingIds db day ↔
    (∃ r ∈ dayRecordings db day, r.id = id ∧ r.processingStatus = .completed) ∧
      ¬ analysed db id ∧ db.activeJob id = none := by
  simp only [pendingIds, List.mem_filter, List.mem_map, List.mem_insertionSort, dayRecordings_mem,
    inWindow, decide_eq_true_eq]
  constructor
  · rintro ⟨⟨r, ⟨hr, hfirst, hlast, hstatus⟩, rfl⟩, h⟩
    exact ⟨⟨r, ⟨hr, hfirst, hlast⟩, rfl, hstatus⟩, h⟩
  · rintro ⟨⟨r, ⟨hr, hfirst, hlast⟩, rfl, hstatus⟩, h⟩
    exact ⟨⟨r, ⟨hr, hfirst, hlast, hstatus⟩, rfl⟩, h⟩

lemma mem_pagePending (hp : p.response = some (dayDetailResponse (getDay db summaries day))) :
    id ∈ p.pendingAnalysis.map (·.id) ↔
      (∃ r ∈ dayRecordings db day, r.id = id ∧ r.processingStatus = .completed) ∧
        ¬ analysed db id ∧ db.activeJob id = none := by
  have hanalysed : ∀ r ∈ dayRecordings db day,
      (r.id ∈ (getDay db summaries day).analysedIds ↔ analysed db r.id) := by
    intro r hr
    simp only [getDay, List.mem_filter]
    exact ⟨fun h => h.2, fun h => ⟨List.mem_map_of_mem hr, h⟩⟩
  have hactive : ∀ r ∈ dayRecordings db day,
      (r.id ∈ (getDay db summaries day).activeJobIds ↔ (db.activeJob r.id).isSome) := by
    intro r hr
    simp only [getDay, List.mem_filter]
    exact ⟨fun h => h.2, fun h => ⟨List.mem_map_of_mem hr, h⟩⟩
  simp only [Page.pendingAnalysis, Page.activeJobIds, hp, Option.map_some, Option.getD_some,
    dayDetailResponse, List.mem_map, List.mem_filter, List.mem_insertionSort, decide_eq_true_eq]
  constructor
  · rintro ⟨s, ⟨⟨r, hr, rfl⟩, hstatus, hnot, hidle⟩, rfl⟩
    refine ⟨⟨r, hr, rfl, hstatus⟩, fun h => hnot ((hanalysed r hr).mpr h), ?_⟩
    rw [hactive r hr] at hidle
    simpa using hidle
  · rintro ⟨⟨r, hr, rfl, hstatus⟩, hnot, hidle⟩
    refine ⟨⟨r.id, r.processingStatus⟩, ⟨⟨r, hr, rfl⟩, hstatus, fun h => hnot ((hanalysed r hr).mp h), ?_⟩,
      rfl⟩
    rw [hactive r hr, hidle]
    simp

end Sets

section Queueing

variable {dialect : Dialect} {service : RecordingService} {db : Database} {id : RecordingId}

def Ready (db : Database) (id : RecordingId) : Prop :=
  (∃ r, db.recording id = some r ∧ r.processingStatus = .completed) ∧ db.activeJob id = none

lemma ready_checks {r : Recording} (hr : db.recording id = some r)
    (hstatus : r.processingStatus = .completed) (hidle : db.activeJob id = none) :
    checkAnalysis id db = .ok r := by
  rw [checkAnalysis, checkQueueable, hr, found_some, ok_bind, require_of (by simp [hstatus]), ok_bind,
    require_of hidle, ok_bind, require_of (fun h => by cases h), ok_bind]

lemma reprocessAnalysis_iff (hservice : 1 ≤ service.maxAttempts) {row : RowDefaults}
    (hfresh : Fresh db row) (now : Instant) :
    (reprocessAnalysis service id row now db).isOk ↔ Ready db id := by
  rw [reprocessAnalysis, enqueueProcessing_split]
  constructor
  · intro h
    cases hc : checkAnalysis id db with
    | ok r =>
      obtain ⟨hr, hstatus, hidle⟩ := checkAnalysis_ok hc
      exact ⟨⟨r, hr, hstatus⟩, hidle⟩
    | error exn =>
      rw [checkAnalysis] at hc
      rw [hc] at h
      cases h
  · rintro ⟨⟨r, hr, hstatus⟩, hidle⟩
    have hcheck := ready_checks hr hstatus hidle
    have hid : r.id = id := (recording_some hr).2
    obtain ⟨db', hinsert⟩ := insertQueued_succeeds hservice now hfresh (hid ▸ hidle)
    rw [checkAnalysis] at hcheck
    rw [hcheck, ok_bind, hinsert]
    rfl

lemma press_one (dialect : Dialect) (hservice : 1 ≤ service.maxAttempts) {row : RowDefaults}
    (hfresh : Fresh db row) (now : Instant) (hready : Ready db id) {b : Batch}
    {rest : List RecordingId} (hwaiting : b.waiting = id :: rest) (hheld : b.held = none) (hraised : b.raised = none) :
    ∃ db', [Act.checks now, .inserts row].foldl (perform dialect service) ⟨db, b⟩ =
        ⟨db', { b with
          waiting := rest
          jobs := b.jobs ++ [enqueuedJob service id .analysis row now] }⟩ ∧
      db'.jobs = db.jobs ++ [enqueuedJob service id .analysis row now] ∧
      db'.recordings = db.recordings := by
  obtain ⟨⟨r, hr, hstatus⟩, hidle⟩ := hready
  have hid : r.id = id := (recording_some hr).2
  obtain ⟨db', hinsert⟩ := insertQueued_succeeds hservice now hfresh (hid ▸ hidle)
  obtain ⟨_, hjobs, hrecordings, _⟩ := insertQueued_ok hinsert
  rw [hid] at hinsert hjobs
  refine ⟨db', ?_, hjobs, hrecordings⟩
  simp only [List.foldl_cons, List.foldl_nil, perform, checksStep, hraised, hheld, hwaiting,
    ready_checks hr hstatus hidle, insertsStep, hinsert, List.tail_cons]

lemma ready_after {db' : Database} {other : RecordingId} {job : ProcessingJob}
    (hready : Ready db id) (hne : other ≠ id) (hjob : job.recordingId = some other)
    (hjobs : db'.jobs = db.jobs ++ [job]) (hrecordings : db'.recordings = db.recordings) :
    Ready db' id := by
  obtain ⟨⟨r, hr, hstatus⟩, hidle⟩ := hready
  refine ⟨⟨r, ?_, hstatus⟩, ?_⟩
  · rw [Database.recording, hrecordings]
    exact hr
  · rw [activeJob_none, hjobs] at *
    intro j hj hactive
    rcases List.mem_append.mp hj with hj | hj
    · exact hidle j hj hactive
    · rw [List.mem_singleton.mp hj, hjob]
      simpa using hne

lemma press_all (hservice : 1 ≤ service.maxAttempts) {calls : List (Instant × RowDefaults)}
    {ids : List RecordingId} (hlength : calls.length = ids.length)
    (hrows : (calls.map (·.2.id)).Nodup) (hfresh : ∀ call ∈ calls, Fresh db call.2)
    (hids : ids.Nodup) (hready : ∀ id ∈ ids, Ready db id) {b : Batch} (hwaiting : b.waiting = ids)
    (hheld : b.held = none) (hraised : b.raised = none) :
    let w := (pressActs calls).foldl (perform dialect service) ⟨db, b⟩
    w.batch.Returned ∧ w.batch.skipped = b.skipped ∧
      w.batch.jobs.map (·.recordingId) = b.jobs.map (·.recordingId) ++ ids.map some := by
  induction calls generalizing ids db b with
  | nil =>
    obtain rfl := List.length_eq_zero_iff.mp hlength.symm
    exact ⟨⟨hwaiting, hraised⟩, rfl, by simp [pressActs]⟩
  | cons call calls ih =>
    obtain ⟨now, row⟩ := call
    cases ids with
    | nil => cases hlength
    | cons id rest =>
      obtain ⟨hidNew, hidsRest⟩ := List.nodup_cons.mp hids
      obtain ⟨hrowNew, hrowsRest⟩ := List.nodup_cons.mp hrows
      obtain ⟨db', hpress, hjobs, hrecordings⟩ := press_one dialect hservice
        (hfresh _ List.mem_cons_self) now (hready id List.mem_cons_self) hwaiting hheld hraised
      have hfreshRest : ∀ call ∈ calls, Fresh db' call.2 := by
        intro call hcall j hj
        rw [hjobs] at hj
        rcases List.mem_append.mp hj with hj | hj
        · exact hfresh call (List.mem_cons_of_mem _ hcall) j hj
        · rw [List.mem_singleton.mp hj]
          exact fun he => hrowNew (List.mem_map.mpr ⟨call, hcall, he.symm⟩)
      have hreadyRest : ∀ other ∈ rest, Ready db' other := fun other hother =>
        ready_after (hready other (List.mem_cons_of_mem _ hother))
          (fun he : id = other => hidNew (he ▸ hother)) rfl hjobs hrecordings
      have hlater := ih (Nat.succ.inj hlength) hrowsRest hfreshRest hidsRest hreadyRest
        (b := { b with
          waiting := rest
          jobs := b.jobs ++ [enqueuedJob service id .analysis row now] }) rfl hheld hraised
      have hfold : (pressActs ((now, row) :: calls)).foldl (perform dialect service) ⟨db, b⟩ =
          (pressActs calls).foldl (perform dialect service) ⟨db', { b with
            waiting := rest
            jobs := b.jobs ++ [enqueuedJob service id .analysis row now] }⟩ := by
        rw [pressActs, List.flatMap_cons, List.foldl_append, hpress]
        rfl
      rw [hfold]
      obtain ⟨hreturned, hskipped, hall⟩ := hlater
      refine ⟨hreturned, hskipped, ?_⟩
      rw [hall, List.map_append, List.append_assoc]
      rfl

end Queueing

section Offers

variable {db : Database} {day : Day} {id : RecordingId}

lemma pending_iff_ready (hids : (db.recordings.map (·.id)).Nodup) : id ∈ pendingIds db day ↔
    (∃ r ∈ dayRecordings db day, r.id = id) ∧ ¬ analysed db id ∧ Ready db id := by
  rw [mem_pendingIds]
  constructor
  · rintro ⟨⟨r, hr, rfl, hstatus⟩, hnot, hidle⟩
    exact ⟨⟨r, hr, rfl⟩, hnot, ⟨r, recording_of_mem hids (dayRecordings_mem.mp hr).1, hstatus⟩, hidle⟩
  · rintro ⟨⟨r, hr, rfl⟩, hnot, ⟨r', hr', hstatus⟩, hidle⟩
    rw [recording_of_mem hids (dayRecordings_mem.mp hr).1] at hr'
    cases hr'
    exact ⟨⟨r, hr, rfl, hstatus⟩, hnot, hidle⟩

lemma pendingIds_nodup (hids : (db.recordings.map (·.id)).Nodup) (day : Day) :
    (pendingIds db day).Nodup := by
  apply List.Nodup.filter
  apply (((List.perm_insertionSort ListOrder _).map _).nodup_iff).mpr
  exact hids.sublist ((List.filter_sublist).map _)

def OfDay (db : Database) (day : Day) (id : RecordingId) : Prop :=
  ∃ r ∈ db.recordings, r.id = id ∧ dayOf r.startedAt = .ok day

lemma ofDay_iff (h : dateMin < day ∧ day < dateMax) :
    OfDay db day id ↔ ∃ r ∈ dayRecordings db day, r.id = id := by
  have hday : ∀ r : Recording, dayOf r.startedAt = .ok day ↔ inWindow day r := by
    intro r
    rw [inWindow_iff, dayOf_ok]
    exact ⟨fun hr => hr.2, fun hr => ⟨local_range (hr ▸ h), hr⟩⟩
  simp only [OfDay, hday, dayRecordings_mem]
  exact exists_congr fun r => ⟨fun ⟨hr, hid, hin⟩ => ⟨⟨hr, hin⟩, hid⟩,
    fun ⟨⟨hr, hin⟩, hid⟩ => ⟨hr, hid, hin⟩⟩

end Offers

/-- What the page counts, what the selection returns and what the queue takes are the same, and one
press takes all of it. -/
structure Offered (dialect : Dialect) (service : RecordingService) (db : Database) (day : Day)
    (detail : DayDetail) (ids : List RecordingId) : Prop where
  counted : ∀ (p : Page) (id : RecordingId), p.response = some (dayDetailResponse detail) →
    (id ∈ p.pendingAnalysis.map (·.id) ↔ id ∈ ids)
  taken : ∀ (id : RecordingId) (row : RowDefaults) (now : Instant), Fresh db row →
    (id ∈ ids ↔
      OfDay db day id ∧ ¬ analysed db id ∧ (reprocessAnalysis service id row now db).isOk)
  pressed : ∀ calls : List (Instant × RowDefaults), calls.length = ids.length →
    (calls.map (·.2.id)).Nodup → (∀ call ∈ calls, Fresh db call.2) →
    let w := (pressActs calls).foldl (perform dialect service) ⟨db, .start ids⟩
    w.batch.Returned ∧ w.batch.skipped = 0 ∧ w.batch.jobs.map (·.recordingId) = ids.map some

theorem batch_offers_what_is_taken (dialect : Dialect) {service : RecordingService}
    (hservice : 1 ≤ service.maxAttempts) {db : Database} (hids : (db.recordings.map (·.id)).Nodup)
    (summaries : List DailySummary) {day : Day} (hdate : IsDate day) :
    (∃ detail ids, Services.DayReads.getDay db summaries day = .ok detail ∧
      pendingAnalysisRecordingIds db day = .ok ids ∧ Offered dialect service db day detail ids) ↔
      day ≠ dateMin ∧ day ≠ dateMax := by
  constructor
  · rintro ⟨detail, ids, hdetail, _⟩
    obtain ⟨hmin, hmax⟩ := (Services.DayReads.getDay_ok.mp hdetail).1
    exact ⟨hmin.ne', hmax.ne⟩
  · rintro ⟨hmin, hmax⟩
    have hinside : dateMin < day ∧ day < dateMax :=
      ⟨lt_of_le_of_ne hdate.1 hmin.symm, lt_of_le_of_ne hdate.2 hmax⟩
    refine ⟨_, _, Services.DayReads.getDay_ok.mpr ⟨hinside, rfl⟩,
      pendingAnalysisRecordingIds_ok.mpr ⟨hinside, rfl⟩, ?_, ?_, ?_⟩
    · intro p id hp
      rw [mem_pagePending hp, mem_pendingIds]
    · intro id row now hfresh
      rw [reprocessAnalysis_iff hservice hfresh now, ofDay_iff hinside]
      exact pending_iff_ready hids
    · intro calls hlength hrows hfresh
      exact press_all hservice hlength hrows hfresh (pendingIds_nodup hids day)
        (fun id hid => ((pending_iff_ready hids).mp hid).2.2) rfl rfl rfl

theorem batch_offers_what_is_taken_idle :
    (pendingAnalysisRecordingIds (transcribedAt 6) 0).toOption = some [6] ∧
      (reprocessAnalysis pairService 6 ⟨61, 1⟩ 1 (transcribedAt 6)).isOk ∧
      ([Act.checks 1, .inserts ⟨61, 1⟩].foldl (perform .sqlite pairService)
        ⟨transcribedAt 6, .start [6]⟩).batch.jobs.map (·.recordingId) = [some 6] := by
  obtain ⟨detail, ids, _, hids, hoffered⟩ := (batch_offers_what_is_taken .sqlite
    (show 1 ≤ pairService.maxAttempts by decide) (show ((transcribedAt 6).recordings.map (·.id)).Nodup
      by decide) [] (show IsDate 0 by decide)).mpr (by decide)
  have hpending : pendingAnalysisRecordingIds (transcribedAt 6) 0 = .ok [6] := by decide +kernel
  obtain rfl := Except.ok.inj (hpending.symm.trans hids)
  refine ⟨by rw [hpending]; rfl, ?_, ?_⟩
  · exact ((hoffered.taken 6 ⟨61, 1⟩ 1 (fun _ h => absurd h List.not_mem_nil)).mp
      (List.mem_singleton.mpr rfl)).2.2
  · exact (hoffered.pressed [(1, ⟨61, 1⟩)] rfl (by decide)
      (fun _ _ _ h => absurd h List.not_mem_nil)).2.2

def transcribedOn (id : RecordingId) (day : Day) : Database :=
  let started (r : Recording) : Recording := { r with startedAt := day * dayLength - dayTimezone }
  { transcribedAt id with recordings := (transcribedAt id).recordings.map started }

/-- On the last day of the year 9999 the queue takes a recording that nothing offers. -/
theorem last_day_offers_nothing :
    let db := transcribedOn 6 dateMax
    OfDay db dateMax 6 ∧ ¬ analysed db 6 ∧ (reprocessAnalysis pairService 6 ⟨61, 1⟩ 1 db).isOk ∧
      (Services.DayReads.getDay db [] dateMax).toOption = none ∧
      pendingAnalysisRecordingIds db dateMax = .error .overflowError ∧
      ¬ ∃ detail ids, Services.DayReads.getDay db [] dateMax = .ok detail ∧
        pendingAnalysisRecordingIds db dateMax = .ok ids ∧
        Offered .sqlite pairService db dateMax detail ids := by
  intro db
  have hraises : pendingAnalysisRecordingIds db dateMax = .error .overflowError := by decide +kernel
  refine ⟨⟨_, List.mem_singleton.mpr rfl, rfl, by decide +kernel⟩, by decide +kernel,
    by decide +kernel, by decide +kernel, hraises, ?_⟩
  rintro ⟨detail, ids, _, hids, _⟩
  rw [hraises] at hids
  cases hids

end AudioServer.Web.PendingAnalysis
