import AudioServer.Services.DayReads
import AudioServer.Services.Ownership
import AudioServer.Worker.Revisions

/-! Day summary jobs beside everything else the server does: a job reads its day, the model works,
and the summary lands if the day still carries the same revisions. -/

namespace AudioServer.Worker.DaySummaries

open AudioServer.Foundations.Outcomes AudioServer.Foundations.Strings AudioServer.Foundations.Runs
open AudioServer.Foundations.Versions
open AudioServer.Api.Schemas AudioServer.Core.Datetimes AudioServer.Db.Models
open AudioServer.Jobs.Queue AudioServer.Jobs.Effects
open AudioServer.Jobs.Calls AudioServer.Processing.Contracts AudioServer.Processing.Analysis
open AudioServer.Services.Recordings
open AudioServer.Services.Transactions AudioServer.Services.Consistency AudioServer.Services.Editing
open AudioServer.Services.Days AudioServer.Services.Ownership AudioServer.Services.Daily
open AudioServer.Worker.Persisters AudioServer.Worker.System AudioServer.Worker.Invariant
open AudioServer.Worker.Grounding AudioServer.Worker.Revisions

structure History where
  created : RecordingId → ℕ
  deleted : RecordingId → ℕ

structure Draft where
  claim : ClaimedJob
  day : Day
  digests : List DailyRecordingDigest
  revisions : List SourceRevision
  seen : Database
  history : History
  collected : Services.DayReads.collect seen day = .ok (digests, revisions)

/-- `origin` is the draft the stored summary of a day was written from. -/
structure DayWorld where
  world : World
  summaries : List DailySummary
  drafts : List Draft
  origin : Day → Option Draft
  history : History

abbrev DayWorld.db (w : DayWorld) : Database := w.world.db

def DayWorld.init (settings : Option ProcessingSettings) : DayWorld :=
  ⟨World.init settings, [], [], fun _ => none, ⟨fun _ => 0, fun _ => 0⟩⟩

inductive DayAct
  | act (a : Act)
  | collectDigests (claim : ClaimedJob) (day : Day)
  | commitSummary (queue : JobQueue) (draft : Draft) (result : DailyResult) (now : Instant)
      (row : RowDefaults)

def clearSummaries (act : Act) (db : Database) (summaries : List DailySummary) :
    List DailySummary :=
  match act, act.transaction db with
  | .server (.deleteRecording id), .ok _ =>
    match db.recording id with
    | some r => summaries.filter (fun s => dayOf r.startedAt ≠ .ok s.summaryDate)
    | none => summaries
  | _, _ => summaries

def History.after (h : History) (act : Act) (db : Database) : History :=
  match act, act.transaction db with
  | .server (.create _ r _ _), .ok _ =>
    { h with created := Function.update h.created r.id (h.created r.id + 1) }
  | .server (.deleteRecording id), .ok _ =>
    { h with deleted := Function.update h.deleted id (h.deleted id + 1) }
  | _, _ => h

def dayChanged : Exn :=
  .processing "daily_summary_day_changed"
    "The day changed while it was summarised; ask for it again." false

/-- The check of `_daily_summary_persister`, on a day whose window was computed before. What it writes
is no recording's. -/
def checkDay (draft : Draft) (result : DailyResult) : ResultPersister := fun db => do
  require (result.status = .skipped ∨ matchesRevisions db draft.day draft.revisions) dayChanged
  .ok db.documents

def orDefault (default : String) (value : Option Text) : String :=
  match value with
  | none => default
  | some text => if text = [] then default else String.ofList text

/-- A failed answer raises in the processor and never reaches `complete`. -/
def landSummary (queue : JobQueue) (draft : Draft) (result : DailyResult) (now : Instant)
    (row : RowDefaults) (db : Database) : Except Exn (Unit × Database) := do
  require (result.status ≠ .failed)
    (.processing (orDefault "daily_summary_failed" result.errorCode)
      (orDefault "The day summary could not be produced." result.errorMessage) false)
  queue.complete draft.claim (some (checkDay draft result)) now row db

def DayWorld.land (w : DayWorld) (draft : Draft) (result : DailyResult) (db : Database) : DayWorld :=
  let landed := { w with world := { w.world with db := db } }
  if result.status = .skipped then landed
  else { landed with
    summaries := persistSummary draft.day result draft.revisions w.summaries
    origin := Function.update w.origin draft.day (some draft) }

def DayWorld.perform (w : DayWorld) : DayAct → DayWorld
  | .act a => { w with
      world := System.perform w.world a
      summaries := clearSummaries a w.db w.summaries
      history := w.history.after a w.db }
  | .collectDigests claim day =>
    match h : Services.DayReads.collect w.db day with
    | .ok (digests, revisions) => { w with
        drafts := ⟨claim, day, digests, revisions, w.db, w.history, h⟩ :: w.drafts }
    | .error _ => w
  | .commitSummary queue draft result now row =>
    match landSummary queue draft result now row w.db with
    | .ok (_, db) => w.land draft result db
    | .error _ => w

def DayAct.Allowed (w : DayWorld) : DayAct → Prop
  | .act a => a.Allowed w.world
  | .collectDigests claim day =>
    claim ∈ w.world.claims ∧ claim.kind = .dailySummary ∧ claim.summaryDate = some day
  | .commitSummary _ draft _ _ _ => draft ∈ w.drafts

def DayStep (w : DayWorld) (act : DayAct) (w' : DayWorld) : Prop :=
  act.Allowed w ∧ w' = w.perform act

abbrev DayRun (w : DayWorld) (es : List (Event DayWorld DayAct)) (w' : DayWorld) : Prop :=
  Run DayStep w es w'

def Stores (w : DayWorld) (draft : Draft) : DayAct → Prop
  | .commitSummary queue d result now row =>
    d = draft ∧ result.status ≠ .skipped ∧ ∃ db, landSummary queue d result now row w.db = .ok ((), db)
  | _ => False

def Yields (db : Database) (digest : DailyRecordingDigest) : Prop :=
  ∃ r ∈ db.recordings, r.id = digest.recordingId ∧
    ∃ a, (db.documents r.id).analysis = some a ∧ a.status = .completed ∧
      digestFromAnalysis digest.index r a = some digest

/-- No draft passes its check after one of its recordings was uploaded again. -/
def Unreplaced (w : DayWorld) : DayAct → Prop
  | .commitSummary _ draft _ _ _ => matchesRevisions w.db draft.day draft.revisions →
    ∀ s ∈ draft.revisions, w.history.created s.recordingId = draft.history.created s.recordingId
  | _ => True

instance (w : DayWorld) : (act : DayAct) → Decidable (Unreplaced w act)
  | .act _ => isTrue trivial
  | .collectDigests .. => isTrue trivial
  | .commitSummary .. => inferInstanceAs (Decidable (_ → ∀ s ∈ _, _ = _))

section Turns

inductive Turn (db db' : Database) (h h' : History) (id : RecordingId) : Prop
  | born (habsent : Absent db id) (hcreated : h'.created id = h.created id + 1)
      (hdeleted : h'.deleted id = h.deleted id)
  | died (habsent : Absent db' id) (hcreated : h'.created id = h.created id)
      (hdeleted : h'.deleted id = h.deleted id + 1)
  | lived (hcreated : h'.created id = h.created id) (hdeleted : h'.deleted id = h.deleted id)
      (hrow : ∀ r ∈ db.recordings, r.id = id → ∃ r' ∈ db'.recordings, identity r' = identity r)
      (habsent : Absent db id → Absent db' id)

variable {db db' : Database} {h : History}

lemma Turn.of_identity (hrows : db'.recordings.map identity = db.recordings.map identity)
    (id : RecordingId) : Turn db db' h h id := by
  refine .lived rfl rfl ?_ (absent_of_ids (identity_ids hrows)).mpr
  intro r hr _
  exact identity_mem hrows.symm hr

lemma enqueued_identity {service : RecordingService} {id : RecordingId}
    {allowed : List RecordingStatus} {code message : String} {kind : JobKind} {needsTranscript : Bool}
    {row : RowDefaults} {now : Instant} {job : ProcessingJob}
    (henqueue : enqueueProcessing service id allowed code message kind needsTranscript row now db =
      .ok (job, db')) : db'.recordings.map identity = db.recordings.map identity := by
  obtain ⟨_, _, _, _, hrecs, _⟩ := enqueueProcessing_ok henqueue
  rw [hrecs]
  split
  · exact setProcessingStatus_identity db _ _
  · rfl

lemma after_rejected {w : World} {act : Act} (hno : ¬ Accepted w act) : h.after act w.db = h := by
  have hne (r : Unit × Database) : act.transaction w.db ≠ .ok r := fun hok => hno ⟨r.2, hok⟩
  cases ht : act.transaction w.db with
  | ok r => exact absurd ht (hne r)
  | error e => simp only [History.after, ht]

lemma server_turn {w : World} {call : ServerCall} (hids : UniqueJobIds w.db)
    (hexec : call.exec w.db = .ok ((), (perform w (.server call)).db)) (id : RecordingId) :
    Turn w.db (perform w (.server call)).db h (h.after (.server call) w.db) id := by
  have hexec' : (Act.server call).transaction w.db = .ok ((), (perform w (.server call)).db) := hexec
  cases call with
  | queue call =>
    have hstep : ServerStep w.db (.queue call) (perform w (.server (.queue call))).db := rfl
    exact .of_identity (queueStep_identity hids (queueStep_of_server hstep)) id
  | create service recording row now =>
    obtain ⟨_, hc⟩ := forget_ok hexec
    obtain ⟨rfl, hrecs, hfresh, _⟩ := createRecordingAndJob_rows hc
    simp only [History.after, hexec']
    by_cases he : id = recording.id
    · subst he
      exact .born hfresh (Function.update_self ..) rfl
    · refine .lived (Function.update_of_ne he ..) rfl ?_ ?_
      · intro r hr _
        exact ⟨r, hrecs ▸ List.mem_append_left _ hr, rfl⟩
      · intro habsent r hr
        rw [hrecs] at hr
        rcases List.mem_append.mp hr with hr | hr
        · exact habsent r hr
        · rw [List.mem_singleton.mp hr]
          exact Ne.symm he
  | deleteRecording gone =>
    obtain ⟨_, hrecs, _⟩ := deleteRecording_ok hexec
    simp only [History.after, hexec']
    by_cases he : id = gone
    · subst he
      refine .died ?_ rfl (Function.update_self ..)
      simp [Absent, hrecs]
    · refine .lived rfl (Function.update_of_ne he ..) ?_ ?_
      · intro r hr hid
        exact ⟨r, by simp [hrecs, hr, hid, he], rfl⟩
      · intro habsent r hr
        rw [hrecs] at hr
        exact habsent r (List.mem_of_mem_filter hr)
  | retry service other row now =>
    obtain ⟨_, hc⟩ := forget_ok hexec
    exact .of_identity (enqueued_identity hc) id
  | reprocess service other row now =>
    obtain ⟨_, hc⟩ := forget_ok hexec
    exact .of_identity (enqueued_identity hc) id
  | reprocessAnalysis service other row now =>
    obtain ⟨_, hc⟩ := forget_ok hexec
    exact .of_identity (enqueued_identity hc) id
  | reprocessTranslation service other row now =>
    obtain ⟨_, hc⟩ := forget_ok hexec
    exact .of_identity (enqueued_identity hc) id
  | dailySummary day maxAttempts availableAt row =>
    obtain ⟨hdb, _⟩ := createDailySummaryJob_ok (dailySummary_exec hexec)
    exact .of_identity (by rw [hdb]) id
  | switches settings =>
    have hrows : (perform w (.server (.switches settings))).db.recordings = w.db.recordings := rfl
    exact .of_identity (by rw [hrows]) id

lemma edited_identity {id : RecordingId} {revision : Document → ℕ} {expectedRevision : ℕ}
    {conflict : Exn} {edit : Recording → Document → Except Exn Document} {u : Unit}
    (hedit : editDocument id revision expectedRevision conflict edit db = .ok (u, db')) :
    db'.recordings.map identity = db.recordings.map identity := by
  obtain ⟨_, _, _, _, _, _, rfl⟩ := editDocument_ok hedit
  rfl

lemma perform_turn {w : World} (hids : UniqueJobIds w.db) (act : Act) (id : RecordingId) :
    Turn w.db (perform w act).db h (h.after act w.db) id := by
  rcases perform_db w act with hexec | ⟨hsame, hno⟩
  · cases act with
    | server call => exact server_turn hids hexec id
    | load claim => exact .of_identity rfl id
    | commit queue claim work now row =>
      exact .of_identity (queueStep_identity hids (commit_queueStep w queue claim work now row)) id
    | updateTranscript other expectedRevision updates => exact .of_identity (edited_identity hexec) id
    | updateAnalysis other expectedRevision result now => exact .of_identity (edited_identity hexec) id
    | updateTranslations other expectedRevision updates =>
      exact .of_identity (edited_identity hexec) id
  · rw [after_rejected hno, hsame]
    exact .of_identity rfl id

end Turns

section Tracking

structure Kept (db db' : Database) (id : RecordingId) : Prop where
  row : ∀ r ∈ db.recordings, r.id = id → ∃ r' ∈ db'.recordings, identity r' = identity r
  analysis : Follows Document.analysisRevision Document.analysis (db.documents id) (db'.documents id)

lemma Kept.refl (db : Database) (id : RecordingId) : Kept db db id :=
  ⟨fun r hr _ => ⟨r, hr, rfl⟩, .refl _⟩

lemma kept_row_present {db db' : Database} {id : RecordingId}
    (hrow : ∀ r ∈ db.recordings, r.id = id → ∃ r' ∈ db'.recordings, identity r' = identity r)
    (hpresent : ¬ Absent db id) : ¬ Absent db' id := by
  intro habsent
  apply hpresent
  intro r hr hid
  obtain ⟨r', hr', hsame⟩ := hrow r hr hid
  have hid' : r'.id = r.id := congrArg (·.id) hsame
  exact habsent r' hr' (hid'.trans hid)

structure Tracks (db : Database) (h : History) (draft : Draft) (id : RecordingId) : Prop where
  created_le : draft.history.created id ≤ h.created id
  deleted_le : draft.history.deleted id ≤ h.deleted id
  fate : h.created id = draft.history.created id →
    (h.deleted id = draft.history.deleted id ∧ Kept draft.seen db id) ∨
      (draft.history.deleted id < h.deleted id ∧ Absent db id)

lemma kept_step {w : World} {act : Act} {db : Database} {id : RecordingId} (hok : WorldInvariant w)
    (hallowed : act.Allowed w) (hseen : ¬ Absent db id) (hkept : Kept db w.db id)
    (hrow : ∀ r ∈ w.db.recordings, r.id = id →
      ∃ r' ∈ (perform w act).db.recordings, identity r' = identity r) :
    Kept db (perform w act).db id := by
  have hbefore := kept_row_present hkept.row hseen
  have hafter := kept_row_present hrow hbefore
  refine ⟨?_, hkept.analysis.trans
    (wrote_bumps (step_wrote hok.statuses hallowed id) hbefore hafter).analysis⟩
  intro r hr hid
  obtain ⟨r₁, hr₁, hsame₁⟩ := hkept.row r hr hid
  have hid₁ : r₁.id = r.id := congrArg (·.id) hsame₁
  obtain ⟨r₂, hr₂, hsame₂⟩ := hrow r₁ hr₁ (hid₁.trans hid)
  exact ⟨r₂, hr₂, hsame₂.trans hsame₁⟩

lemma tracks_step {w : World} {act : Act} {h : History} {draft : Draft} {id : RecordingId}
    (hok : WorldInvariant w) (hallowed : act.Allowed w) (hseen : ¬ Absent draft.seen id)
    (ht : Tracks w.db h draft id) :
    Tracks (perform w act).db (h.after act w.db) draft id := by
  have hc := ht.created_le
  have hd := ht.deleted_le
  cases perform_turn (h := h) hok.statuses.jobIds act id with
  | born habsent hcreated hdeleted =>
    refine ⟨by omega, by omega, ?_⟩
    intro hsame
    omega
  | died habsent hcreated hdeleted =>
    refine ⟨by omega, by omega, ?_⟩
    intro _
    exact .inr ⟨by omega, habsent⟩
  | lived hcreated hdeleted hrow habsent =>
    refine ⟨by omega, by omega, ?_⟩
    intro hsame
    rcases ht.fate (by omega) with ⟨hstill, hkept⟩ | ⟨hgone, hnone⟩
    · exact .inl ⟨by omega, kept_step hok hallowed hseen hkept hrow⟩
    · exact .inr ⟨by omega, habsent hnone⟩

end Tracking

section Landing

variable {queue : JobQueue} {draft : Draft} {result : DailyResult} {now : Instant} {row : RowDefaults}
  {db db' : Database}

lemma complete_unchecked {u : Unit}
    (h : queue.complete draft.claim (some (checkDay draft result)) now row db = .ok (u, db')) :
    (result.status = .skipped ∨ matchesRevisions db draft.day draft.revisions) ∧
      queue.complete draft.claim none now row db = .ok (u, db') := by
  obtain ⟨job, hj, hpersist⟩ := bind_ok h
  obtain ⟨stored, hstored, hrest⟩ := bind_ok hpersist
  obtain ⟨documents, hcheck, hwrite⟩ := bind_ok hstored
  obtain ⟨_, hrequire, hdocuments⟩ := bind_ok hcheck
  cases hdocuments
  cases hwrite
  refine ⟨require_ok.mp hrequire, ?_⟩
  rw [JobQueue.complete, hj]
  exact hrest

lemma landSummary_ok {u : Unit} (h : landSummary queue draft result now row db = .ok (u, db')) :
    result.status ≠ .failed ∧
      (result.status = .skipped ∨ matchesRevisions db draft.day draft.revisions) ∧
      queue.complete draft.claim none now row db = .ok (u, db') := by
  obtain ⟨_, hstatus, hcomplete⟩ := bind_ok h
  exact ⟨require_ok.mp hstatus, complete_unchecked hcomplete⟩

def landing (queue : JobQueue) (draft : Draft) (now : Instant) (row : RowDefaults) : Act :=
  .server (.queue (.complete queue draft.claim none now row))

lemma landed_world {w : World}
    (h : queue.complete draft.claim none now row w.db = .ok ((), db')) :
    perform w (landing queue draft now row) = { w with db := db' } := by
  simp only [perform, landing, Act.transaction, ServerCall.exec, QueueCall.exec, Act.handedOut,
    Act.read, h]
  rfl

lemma perform_commit (w : DayWorld) (queue : JobQueue) (draft : Draft) (result : DailyResult)
    (now : Instant) (row : RowDefaults) :
    (∃ db, landSummary queue draft result now row w.db = .ok ((), db) ∧
      w.perform (.commitSummary queue draft result now row) = w.land draft result db) ∨
    ((∀ db, landSummary queue draft result now row w.db ≠ .ok ((), db)) ∧
      w.perform (.commitSummary queue draft result now row) = w) := by
  simp only [DayWorld.perform]
  cases landSummary queue draft result now row w.db with
  | ok r => exact .inl ⟨r.2, rfl, rfl⟩
  | error e => exact .inr ⟨fun _ h => (nomatch h), rfl⟩

end Landing

structure DayInvariant (w : DayWorld) : Prop where
  world : WorldInvariant w.world
  claims : ∀ d ∈ w.drafts, d.claim ∈ w.world.claims ∧ d.claim.kind = .dailySummary
  rows : ∀ d ∈ w.drafts, (d.seen.recordings.map (·.id)).Nodup
  tracked : ∀ d ∈ w.drafts, ∀ id, ¬ Absent d.seen id → Tracks w.db w.history d id
  origins : ∀ day d, w.origin day = some d → d ∈ w.drafts ∧ d.day = day
  written : ∀ s ∈ w.summaries, ∃ d, w.origin s.summaryDate = some d ∧ s.sourceRevisions = d.revisions

lemma init_dayInvariant (settings : Option ProcessingSettings) :
    DayInvariant (DayWorld.init settings) := by
  refine ⟨init_invariant settings, ?_, ?_, ?_, fun _ _ h => (nomatch h), ?_⟩
  all_goals
    intro d hd
    cases hd

section Steps

variable {w : DayWorld}

lemma clearSummaries_mem {act : Act} {db : Database} {summaries : List DailySummary}
    {s : DailySummary} (h : s ∈ clearSummaries act db summaries) : s ∈ summaries := by
  unfold clearSummaries at h
  split at h
  · split at h
    · exact List.mem_of_mem_filter h
    · exact h
  · exact h

lemma persistSummary_mem {day : Day} {result : DailyResult} {revisions : List SourceRevision}
    {summaries : List DailySummary} {s : DailySummary}
    (h : s ∈ persistSummary day result revisions summaries) :
    s = writtenSummary day result revisions ∨ (s ∈ summaries ∧ s.summaryDate ≠ day) := by
  rw [persistSummary] at h
  split at h
  · obtain ⟨old, hold, rfl⟩ := List.mem_map.mp h
    split
    · exact .inl rfl
    · rename_i hday
      exact .inr ⟨hold, hday⟩
  · rename_i hnone
    rcases List.mem_append.mp h with hold | hnew
    · refine .inr ⟨hold, ?_⟩
      intro hday
      exact hnone (List.any_eq_true.mpr ⟨s, hold, decide_eq_true hday⟩)
    · exact .inl (List.mem_singleton.mp hnew)

lemma act_dayInvariant {a : Act} (h : DayInvariant w) (hallowed : a.Allowed w.world) :
    DayInvariant (w.perform (.act a)) := by
  refine ⟨step_invariant h.world ⟨hallowed, rfl⟩, ?_, h.rows, ?_, h.origins, ?_⟩
  · intro d hd
    exact ⟨List.mem_append_right _ (h.claims d hd).1, (h.claims d hd).2⟩
  · intro d hd id hseen
    exact tracks_step h.world hallowed hseen (h.tracked d hd id hseen)
  · intro s hs
    exact h.written s (clearSummaries_mem hs)

lemma perform_collect (w : DayWorld) (claim : ClaimedJob) {day : Day}
    (h : dateMin < day ∧ day < dateMax) : w.perform (.collectDigests claim day) = { w with
      drafts := ⟨claim, day, (collect w.db day).1, (collect w.db day).2, w.db, w.history,
        Services.DayReads.collect_ok.mpr ⟨h, rfl⟩⟩ :: w.drafts } := by
  rw [DayWorld.perform]
  split
  · rename_i digests revisions hcollect
    have hvalue := (Services.DayReads.collect_ok.mp hcollect).2
    obtain rfl : digests = (collect w.db day).1 := congrArg Prod.fst hvalue
    obtain rfl : revisions = (collect w.db day).2 := congrArg Prod.snd hvalue
    rfl
  · rename_i hraised
    rw [Services.DayReads.collect_ok.mpr ⟨h, rfl⟩] at hraised
    cases hraised

lemma perform_uncollected (w : DayWorld) (claim : ClaimedJob) {day : Day}
    (h : ¬ (dateMin < day ∧ day < dateMax)) : w.perform (.collectDigests claim day) = w := by
  rw [DayWorld.perform]
  split
  · rename_i hcollect
    exact absurd (Services.DayReads.collect_ok.mp hcollect).1 h
  · rfl

lemma collect_dayInvariant {claim : ClaimedJob} {day : Day} (h : DayInvariant w)
    (hclaim : claim ∈ w.world.claims) (hkind : claim.kind = .dailySummary) :
    DayInvariant (w.perform (.collectDigests claim day)) := by
  by_cases hinside : dateMin < day ∧ day < dateMax
  swap
  · rwa [perform_uncollected w claim hinside]
  rw [perform_collect w claim hinside]
  refine ⟨h.world, ?_, ?_, ?_, ?_, h.written⟩
  · intro d hd
    rcases List.mem_cons.mp hd with rfl | hd
    · exact ⟨hclaim, hkind⟩
    · exact h.claims d hd
  · intro d hd
    rcases List.mem_cons.mp hd with rfl | hd
    · exact h.world.statuses.recordingIds
    · exact h.rows d hd
  · intro d hd id hseen
    rcases List.mem_cons.mp hd with rfl | hd
    · exact ⟨Nat.le_refl _, Nat.le_refl _, fun _ => .inl ⟨rfl, .refl _ _⟩⟩
    · exact h.tracked d hd id hseen
  · intro day' d hd
    obtain ⟨hmem, hday⟩ := h.origins day' d hd
    exact ⟨List.mem_cons_of_mem _ hmem, hday⟩

variable {queue : JobQueue} {draft : Draft} {result : DailyResult} {now : Instant} {row : RowDefaults}
  {db : Database}

lemma landing_allowed (h : DayInvariant w) (hdraft : draft ∈ w.drafts) :
    (landing queue draft now row).Allowed w.world :=
  ⟨(h.claims draft hdraft).1, (h.claims draft hdraft).2, rfl⟩

lemma landed_tracks (h : DayInvariant w) (hdraft : draft ∈ w.drafts)
    (hland : landSummary queue draft result now row w.db = .ok ((), db)) :
    ∀ d ∈ w.drafts, ∀ id, ¬ Absent d.seen id → Tracks db w.history d id := by
  intro d hd id hseen
  obtain ⟨_, _, hcomplete⟩ := landSummary_ok hland
  have hworld := landed_world (w := w.world) hcomplete
  have hallowed : (landing queue draft now row).Allowed w.world := landing_allowed h hdraft
  have ht := tracks_step h.world hallowed hseen (h.tracked d hd id hseen)
  rw [hworld] at ht
  exact ht

lemma landed_dayInvariant (h : DayInvariant w) (hdraft : draft ∈ w.drafts)
    (hland : landSummary queue draft result now row w.db = .ok ((), db)) :
    DayInvariant (w.land draft result db) := by
  obtain ⟨_, _, hcomplete⟩ := landSummary_ok hland
  have hworld := landed_world (w := w.world) hcomplete
  have hinv : WorldInvariant { w.world with db := db } :=
    step_invariant h.world ⟨landing_allowed h hdraft, hworld.symm⟩
  have htracked := landed_tracks h hdraft hland
  rw [DayWorld.land]
  split
  · exact ⟨hinv, h.claims, h.rows, htracked, h.origins, h.written⟩
  · refine ⟨hinv, h.claims, h.rows, htracked, ?_, ?_⟩
    · intro day d hd
      have horigin : Function.update w.origin draft.day (some draft) day = some d := hd
      by_cases hday : day = draft.day
      · subst hday
        rw [Function.update_self] at horigin
        cases horigin
        exact ⟨hdraft, rfl⟩
      · rw [Function.update_of_ne hday] at horigin
        exact h.origins day d horigin
    · intro s hs
      rcases persistSummary_mem hs with rfl | ⟨hold, hday⟩
      · exact ⟨draft, Function.update_self .., rfl⟩
      · obtain ⟨d, hd, hrevisions⟩ := h.written s hold
        exact ⟨d, (Function.update_of_ne hday ..).trans hd, hrevisions⟩

lemma step_dayInvariant {w' : DayWorld} {act : DayAct} (h : DayInvariant w)
    (hstep : DayStep w act w') : DayInvariant w' := by
  obtain ⟨hallowed, rfl⟩ := hstep
  cases act with
  | act a => exact act_dayInvariant h hallowed
  | collectDigests claim day => exact collect_dayInvariant h hallowed.1 hallowed.2.1
  | commitSummary queue draft result now row =>
    rcases perform_commit w queue draft result now row with ⟨db, hland, he⟩ | ⟨_, he⟩
    · rw [he]
      exact landed_dayInvariant h hallowed hland
    · rw [he]
      exact h

end Steps

section Sources

variable {db : Database} {h : History} {draft : Draft}

lemma Draft.digests_eq (draft : Draft) : draft.digests = (collect draft.seen draft.day).1 :=
  congrArg Prod.fst (Services.DayReads.collect_ok.mp draft.collected).2

lemma Draft.revisions_eq (draft : Draft) : draft.revisions = (collect draft.seen draft.day).2 :=
  congrArg Prod.snd (Services.DayReads.collect_ok.mp draft.collected).2

lemma digest_revision {digest : DailyRecordingDigest} (hdigest : digest ∈ draft.digests) :
    ⟨digest.recordingId, (draft.seen.documents digest.recordingId).analysisRevision⟩ ∈
      draft.revisions := by
  rw [draft.digests_eq] at hdigest
  obtain ⟨r, _, hid, hrevision, _⟩ := collect_digest hdigest
  rw [draft.revisions_eq, ← hid]
  exact hrevision

lemma digest_present {digest : DailyRecordingDigest} (hdigest : digest ∈ draft.digests) :
    ¬ Absent draft.seen digest.recordingId := by
  rw [draft.digests_eq] at hdigest
  obtain ⟨r, hr, hid, _⟩ := collect_digest hdigest
  exact fun habsent => habsent r hr hid

lemma revision_kept {s : SourceRevision}
    (htracks : ∀ id, ¬ Absent draft.seen id → Tracks db h draft id) (hs : s ∈ draft.revisions)
    (hcreated : h.created s.recordingId = draft.history.created s.recordingId)
    (hnow : ∃ r ∈ db.recordings, r.id = s.recordingId) :
    h.deleted s.recordingId = draft.history.deleted s.recordingId ∧
      Kept draft.seen db s.recordingId := by
  rw [draft.revisions_eq] at hs
  obtain ⟨⟨r, hr, hid⟩, _⟩ := collect_revision hs
  rcases (htracks s.recordingId (fun habsent => habsent r hr hid)).fate hcreated with hkept | ⟨_, hgone⟩
  · exact hkept
  · obtain ⟨r', hr', hid'⟩ := hnow
    exact absurd hid' (hgone r' hr')

lemma digestFromAnalysis_identity {r r' : Recording} (hsame : identity r' = identity r) (index : ℕ)
    (analysis : Analysis) :
    digestFromAnalysis index r' analysis = digestFromAnalysis index r analysis := by
  have hid : r'.id = r.id := congrArg (·.id) hsame
  have hstart : r'.startedAt = r.startedAt := congrArg (·.startedAt) hsame
  simp only [digestFromAnalysis, hid, hstart]

lemma kept_yields {digest : DailyRecordingDigest} (hdigest : digest ∈ draft.digests)
    (hkept : Kept draft.seen db digest.recordingId)
    (hrevision : (db.documents digest.recordingId).analysisRevision =
      (draft.seen.documents digest.recordingId).analysisRevision) : Yields db digest := by
  rw [draft.digests_eq] at hdigest
  obtain ⟨r, hr, hid, _, a, ha, hstatus, hfrom⟩ := collect_digest hdigest
  obtain ⟨r', hr', hsame⟩ := hkept.row r hr hid
  have hid' : r'.id = r.id := congrArg (·.id) hsame
  refine ⟨r', hr', hid'.trans hid, a, ?_, hstatus, ?_⟩
  · rw [hid', hid, hkept.analysis.same_content hrevision, ← hid]
    exact ha
  · rw [digestFromAnalysis_identity hsame]
    exact hfrom

end Sources

lemma landed_yields {w : DayWorld} {queue : JobQueue} {draft : Draft} {result : DailyResult}
    {now : Instant} {row : RowDefaults} {db : Database} (h : DayInvariant w)
    (hdraft : draft ∈ w.drafts) (hstored : result.status ≠ .skipped)
    (hland : landSummary queue draft result now row w.db = .ok ((), db))
    (hfresh : Unreplaced w (.commitSummary queue draft result now row))
    {digest : DailyRecordingDigest} (hdigest : digest ∈ draft.digests) :
    Yields db digest ∧
      w.history.deleted digest.recordingId = draft.history.deleted digest.recordingId := by
  obtain ⟨_, hchecked, hcomplete⟩ := landSummary_ok hland
  have hmatch := hchecked.resolve_left hstored
  have hdrafted := digest_revision hdigest
  have hcreated := hfresh hmatch _ hdrafted
  -- The check found the revision of the draft in the database it ran on.
  obtain ⟨hnow, hcurrent⟩ := collect_revision ((matchesRevisions_perm hmatch).mem_iff.mp hdrafted)
  obtain ⟨hdeleted, _⟩ := revision_kept (h.tracked draft hdraft) hdrafted hcreated hnow
  obtain ⟨_, _, _, _, hnone, hdocuments⟩ := complete_ok hcomplete
  cases hnone
  have hkept : Kept draft.seen db digest.recordingId := by
    have htracks := landed_tracks h hdraft hland draft hdraft _ (digest_present hdigest)
    rcases htracks.fate hcreated with ⟨_, hkept⟩ | ⟨hlt, _⟩
    · exact hkept
    · dsimp only at hdeleted
      omega
  refine ⟨kept_yields hdigest hkept ?_, hdeleted⟩
  rw [hdocuments]
  exact hcurrent.symm

theorem stored_summaries_match_sources {settings : Option ProcessingSettings} {w : DayWorld}
    {es : List (Event DayWorld DayAct)} (hrun : DayRun (DayWorld.init settings) es w)
    (hfresh : ∀ e ∈ es, Unreplaced e.before e.label) :
    ∀ e ∈ es, ∀ draft, Stores e.before draft e.label → ∀ digest ∈ draft.digests,
      Yields e.after.db digest ∧
        e.after.history.deleted digest.recordingId =
          draft.history.deleted digest.recordingId := by
  intro e he draft hstores digest hdigest
  have hinv := hrun.event_keeps DayInvariant (fun _ _ _ => step_dayInvariant)
    (init_dayInvariant settings) he
  obtain ⟨hallowed, hafter⟩ := hrun.event_step he
  have hsafe := hfresh e he
  cases hlabel : e.label with
  | act a =>
    rw [hlabel] at hstores
    cases hstores
  | collectDigests claim day =>
    rw [hlabel] at hstores
    cases hstores
  | commitSummary queue d result now row =>
    rw [hlabel] at hstores hallowed hafter hsafe
    obtain ⟨rfl, hstored, db, hland⟩ := hstores
    have hperform : e.before.perform (.commitSummary queue d result now row) =
        e.before.land d result db := by
      simp only [DayWorld.perform, hland]
    obtain ⟨hyields, hdeleted⟩ := landed_yields hinv hallowed hstored hland hsafe hdigest
    rw [hafter, hperform, DayWorld.land, if_neg hstored]
    exact ⟨hyields, hdeleted⟩

lemma isOk_ok {x : Except Exn (Unit × Database)} (h : x.isOk) : ∃ db, x = .ok ((), db) := by
  cases x with
  | ok r => exact ⟨r.2, rfl⟩
  | error e => cases h

lemma acts_allowed {w : DayWorld} {acts : List Act}
    (h : AllAllowed (fun w act => act.Allowed w) perform w.world acts) :
    AllAllowed (fun w act => act.Allowed w) DayWorld.perform w (acts.map .act) := by
  induction acts generalizing w with
  | nil => exact trivial
  | cons act acts ih => exact ⟨h.1, ih h.2⟩

lemma acts_drafts (w : DayWorld) (acts : List Act) :
    ((acts.map .act).foldl DayWorld.perform w).drafts = w.drafts := by
  induction acts generalizing w with
  | nil => rfl
  | cons act acts ih => exact ih _

def claimedActs : List Act :=
  analysedActs ++ (translatedActs ++
    [.server (.dailySummary 0 2 6 ⟨5, 6⟩),
      .server (.queue (.claimNext exampleWorker 6 10 none []))])

def claimedWorld : DayWorld := (claimedActs.map .act).foldl DayWorld.perform (DayWorld.init none)

lemma claimedActs_allowed : AllAllowed (fun w act => act.Allowed w) perform (World.init none)
    claimedActs := by
  refine analysedActs_allowed.append _ _ (translatedActs_allowed.append _ _ ⟨trivial, ?_, trivial⟩)
  exact claimNext_allowed (by decide +kernel)

def summaryClaim : ClaimedJob :=
  ⟨5, none, .dailySummary, 10, "worker".toList, 1, 2, .analyzing, some 0⟩

def exampleSummary : DailyResult := ⟨.completed, "lmstudio".toList, none, 1, none, none, none⟩

lemma epoch_inside : dateMin < 0 ∧ (0 : Day) < dateMax := by decide

def collectedDraft : Draft := ⟨summaryClaim, 0, (collect claimedWorld.db 0).1,
  (collect claimedWorld.db 0).2, claimedWorld.db, claimedWorld.history,
  Services.DayReads.collect_ok.mpr ⟨epoch_inside, rfl⟩⟩

def storedAtOnce : List DayAct :=
  [.collectDigests summaryClaim 0, .commitSummary exampleWorker collectedDraft exampleSummary 7 ⟨6, 7⟩]

def collectedWorld : DayWorld := claimedWorld.perform (.collectDigests summaryClaim 0)

lemma collected_allowed : (DayAct.collectDigests summaryClaim 0).Allowed claimedWorld :=
  ⟨by decide +kernel, rfl, rfl⟩

lemma collectedDraft_mem : collectedDraft ∈ collectedWorld.drafts := by
  rw [collectedWorld, perform_collect claimedWorld summaryClaim epoch_inside]
  exact List.mem_cons_self

def claimedTrail : List (Event DayWorld DayAct) :=
  trail DayWorld.perform (DayWorld.init none) (claimedActs.map .act)

lemma claimedRun : DayRun (DayWorld.init none) claimedTrail claimedWorld :=
  run_trail _ _ (acts_allowed claimedActs_allowed)

theorem stored_summaries_match_sources_at_once :
    collectedDraft.digests ≠ [] ∧ ∀ digest ∈ collectedDraft.digests,
      Yields (collectedWorld.perform
        (.commitSummary exampleWorker collectedDraft exampleSummary 7 ⟨6, 7⟩)).db digest := by
  refine ⟨by decide +kernel, ?_⟩
  have hstored : DayRun claimedWorld (trail DayWorld.perform claimedWorld storedAtOnce)
      (storedAtOnce.foldl DayWorld.perform claimedWorld) :=
    run_trail _ _ ⟨collected_allowed, collectedDraft_mem, trivial⟩
  have hrun := claimedRun.append hstored
  intro digest hdigest
  have hland : (landSummary exampleWorker collectedDraft exampleSummary 7 ⟨6, 7⟩
      collectedWorld.db).isOk := by decide +kernel
  obtain ⟨db, hok⟩ := isOk_ok hland
  refine (stored_summaries_match_sources hrun (by decide +kernel) _
    (List.mem_append_right _ (List.mem_cons_of_mem _ List.mem_cons_self)) collectedDraft
    ⟨rfl, by decide, db, hok⟩ digest hdigest).1

def otherDraft : AnalysisDraft where
  __ := exampleDraft
  description := ⟨"別れ".toList, "道別".toList⟩
  summary := ⟨"別れ".toList, "道別".toList⟩
  naturalExpressions := []
  description_valid := by decide
  summary_valid := by decide
  expressions_valid := by decide

def otherAnalysis : AnalysisResult :=
  valueOr ⟨.skipped, [], none, 2, none, none, none⟩
    ((AnalysisProvider.lmstudio id).analyze (.ok ("model".toList, otherDraft))
      exampleTranscript.transcript)

def reuploadClaim : ClaimedJob := ⟨6, some 1, .full, 11, "worker".toList, 1, 2, .preprocessing, none⟩

def reanalysisClaim : ClaimedJob := ⟨7, some 1, .analysis, 12, "worker".toList, 1, 2, .analyzing, none⟩

def replacedActs : List Act :=
  [.server (.deleteRecording 1),
    .server (.create exampleService exampleRecording ⟨6, 7⟩ 7),
    .server (.queue (.claimNext exampleWorker 8 11 none [])),
    .commit exampleWorker reuploadClaim (.transcript exampleTranscript exampleIds 9) 9 ⟨7, 9⟩,
    .server (.queue (.claimNext exampleWorker 10 12 none [])),
    .load reanalysisClaim,
    .commit exampleWorker reanalysisClaim (.analysis otherAnalysis 11) 11 ⟨8, 11⟩]

lemma replacedActs_allowed : AllAllowed (fun w act => act.Allowed w) perform collectedWorld.world
    replacedActs := by
  refine ⟨trivial, trivial, claimNext_allowed ?_, ⟨?_, rfl, exampleMerger, _, _, ok_valueOr _ ?_⟩,
    claimNext_allowed ?_, load_allowed ?_,
    ⟨?_, rfl, ⟨reanalysisClaim, exampleTranscript.transcript⟩, ?_, rfl, _, _, ok_valueOr _ ?_⟩, trivial⟩
  all_goals decide +kernel

def replacedWorld : DayWorld := (replacedActs.map .act).foldl DayWorld.perform collectedWorld

lemma replacedRun : DayRun (DayWorld.init none) (claimedTrail ++
    (⟨claimedWorld, .collectDigests summaryClaim 0, collectedWorld⟩ ::
      trail DayWorld.perform collectedWorld (replacedActs.map .act))) replacedWorld :=
  claimedRun.append (.cons ⟨collected_allowed, rfl⟩
    (run_trail _ _ (acts_allowed replacedActs_allowed)))

def replacedStore : DayAct :=
  .commitSummary exampleWorker collectedDraft exampleSummary 12 ⟨9, 12⟩

lemma replacedStore_step : DayStep replacedWorld replacedStore (replacedWorld.perform replacedStore) := by
  refine ⟨?_, rfl⟩
  show collectedDraft ∈ replacedWorld.drafts
  rw [replacedWorld, acts_drafts]
  exact collectedDraft_mem

lemma replacedStore_stores : Stores replacedWorld collectedDraft replacedStore := by
  have hland : (landSummary exampleWorker collectedDraft exampleSummary 12 ⟨9, 12⟩
      replacedWorld.db).isOk := by decide +kernel
  obtain ⟨db, hok⟩ := isOk_ok hland
  exact ⟨rfl, by decide, db, hok⟩

theorem summary_of_deleted_recording_stored :
    ∃ es w, DayRun (DayWorld.init none) es w ∧ ∃ e ∈ es, ∃ draft, Stores e.before draft e.label ∧
      ∃ digest ∈ draft.digests, ¬ Yields e.after.db digest ∧
        draft.history.deleted digest.recordingId < e.after.history.deleted digest.recordingId := by
  have hlast : DayRun replacedWorld
      [⟨replacedWorld, replacedStore, replacedWorld.perform replacedStore⟩]
      (replacedWorld.perform replacedStore) := .single replacedStore_step
  have hrun := replacedRun.append hlast
  refine ⟨_, _, hrun, _, List.mem_append_right _ (List.mem_singleton_self _), collectedDraft,
    replacedStore_stores, ?_⟩
  dsimp only
  have hstale : ∃ digest ∈ collectedDraft.digests,
      (∀ r ∈ (replacedWorld.perform replacedStore).db.recordings,
        ((replacedWorld.perform replacedStore).db.documents r.id).analysis.bind
          (digestFromAnalysis digest.index r) ≠ some digest) ∧
      collectedDraft.history.deleted digest.recordingId <
        (replacedWorld.perform replacedStore).history.deleted digest.recordingId := by
    decide +kernel
  obtain ⟨digest, hdigest, hnone, hdeleted⟩ := hstale
  refine ⟨digest, hdigest, ?_, hdeleted⟩
  rintro ⟨r, hr, _, a, ha, _, hfrom⟩
  apply hnone r hr
  rw [ha]
  exact hfrom

end AudioServer.Worker.DaySummaries
