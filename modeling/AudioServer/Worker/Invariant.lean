import AudioServer.Worker.System

/-! What every step of the server may write, and the invariant of all its runs. -/

namespace AudioServer.Worker.Invariant

open AudioServer.Foundations.Outcomes AudioServer.Foundations.Strings AudioServer.Foundations.Runs
open AudioServer.Api.Schemas AudioServer.Db.Models AudioServer.Jobs.Queue AudioServer.Jobs.Effects
open AudioServer.Jobs.Calls AudioServer.Services.Recordings AudioServer.Services.Transactions
open AudioServer.Services.Consistency AudioServer.Services.Leases AudioServer.Services.Editing
open AudioServer.Processing.Contracts AudioServer.Processing.Sentences AudioServer.Processing.Analysis
open AudioServer.Processing.Translation AudioServer.Processing.Merge
open AudioServer.Worker.Persisters AudioServer.Worker.DocumentInvariant
open AudioServer.Worker.CommittedResults AudioServer.Worker.System

inductive Wrote (w : World) (id : RecordingId) : Act → Document → Prop
  | kept (act : Act) : Wrote w id act (w.db.documents id)
  | cleared {call : ServerCall} (hidle : w.db.activeJob id = none)
      (hlife : Absent w.db id ∨
        (call = .deleteRecording id ∧ Absent (perform w (.server call)).db id)) :
      Wrote w id (.server call) .empty
  | transcriptEdited {expectedRevision : ℕ} {updates : List TranscriptSegmentUpdate}
      {durationSeconds : Seconds} {doc : Document}
      (hrevision : (w.db.documents id).transcriptRevision = expectedRevision)
      (hidle : w.db.activeJob id = none)
      (hdoc : editTranscript durationSeconds updates (w.db.documents id) = .ok doc) :
      Wrote w id (.updateTranscript id expectedRevision updates) doc
  | analysisEdited {expectedRevision : ℕ} {result : AnalysisResultV2} {now : Instant}
      {latest : Option JobId} {doc : Document}
      (hrevision : (w.db.documents id).analysisRevision = expectedRevision)
      (hidle : w.db.activeJob id = none)
      (hdoc : editAnalysis latest result now (w.db.documents id) = .ok doc) :
      Wrote w id (.updateAnalysis id expectedRevision result now) doc
  | translationsEdited {expectedRevision : ℕ} {updates : List TranslationUpdate} {doc : Document}
      (hrevision : (w.db.documents id).translationRevision = expectedRevision)
      (hidle : w.db.activeJob id = none)
      (hdoc : editTranslations updates (w.db.documents id) = .ok doc) :
      Wrote w id (.updateTranslations id expectedRevision updates) doc
  | committed {queue : JobQueue} {claim : ClaimedJob} {work : Work} {now : Instant}
      {row : RowDefaults} {job : ProcessingJob} {doc : Document} (hjob : job ∈ w.db.jobs)
      (howns : Owns claim job) (hscope : claim.recordingId = some id)
      (hcomputed : work.Computed w claim) (haccepted : Accepted w (.commit queue claim work now row))
      (hdoc : work.persist claim (w.db.documents id) = .ok doc) :
      Wrote w id (.commit queue claim work now row) doc

lemma withoutResults_of_allowed {w : World} {call : ServerCall}
    (h : (Act.server call).Allowed w) : WithoutResults call := by
  cases call with
  | queue call =>
    cases call with
    | complete => exact h.2.2
    | _ => trivial
  | _ => trivial

lemma commit_queueStep (w : World) (queue : JobQueue) (claim : ClaimedJob) (work : Work)
    (now : Instant) (row : RowDefaults) :
    QueueStep w.db
      (.complete queue claim (some (recordingPersister claim (work.persist claim))) now row)
      (perform w (.commit queue claim work now row)).db := by
  rw [QueueStep, QueueCall.exec, perform, Act.transaction]
  cases queue.complete claim (some (recordingPersister claim (work.persist claim))) now row w.db <;>
    rfl

lemma edited_documents (other : RecordingId) {id : RecordingId} {revision : Document → ℕ} {expectedRevision : ℕ}
    {conflict : Exn} {edit : Recording → Document → Except Exn Document} {db db' : Database} {u : Unit}
    (h : editDocument id revision expectedRevision conflict edit db = .ok (u, db')) :
    (id ≠ other ∧ db'.documents other = db.documents other) ∨
      (id = other ∧ ∃ recording, db.recording other = some recording ∧
        revision (db.documents other) = expectedRevision ∧ db.activeJob other = none ∧
        edit recording (db.documents other) = .ok (db'.documents other)) := by
  obtain ⟨recording, doc, hr, hrevision, hidle, hdoc, rfl⟩ := editDocument_ok h
  by_cases he : id = other
  · subst he
    refine .inr ⟨rfl, recording, hr, hrevision, hidle, ?_⟩
    simpa only [Function.update_self] using hdoc
  · exact .inl ⟨he, Function.update_of_ne (Ne.symm he) _ _⟩

lemma committed_documents (queue : JobQueue) {claim : ClaimedJob}
    {persist : Document → Except Exn Document} {now : Instant} {row : RowDefaults}
    {db db' : Database} {u : Unit}
    (h : queue.complete claim (some (recordingPersister claim persist)) now row db = .ok (u, db'))
    (other : RecordingId) :
    ∃ job ∈ db.jobs, Owns claim job ∧
      ((claim.recordingId ≠ some other ∧ db'.documents other = db.documents other) ∨
      (claim.recordingId = some other ∧ ¬ Absent db other ∧
        persist (db.documents other) = .ok (db'.documents other))) := by
  obtain ⟨job, hj, _, stored, hstored, hdocs⟩ := complete_ok h
  obtain ⟨hmem, howns⟩ := ownedJob_some hj
  refine ⟨job, hmem, howns, ?_⟩
  obtain ⟨documents, hp, hstored⟩ := bind_ok hstored
  cases hstored
  obtain ⟨id, hid, hp⟩ := bind_ok hp
  obtain ⟨recording, hr, hp⟩ := bind_ok hp
  obtain ⟨doc, hdoc, hp⟩ := bind_ok hp
  cases hp
  rw [found_ok] at hid hr
  rw [hdocs, hid]
  by_cases he : id = other
  · subst he
    refine .inr ⟨rfl, recording_absent hr, ?_⟩
    simpa only [Function.update_self] using hdoc
  · exact .inl ⟨by simp [he], Function.update_of_ne (Ne.symm he) _ _⟩

lemma accepted_commit {w : World} {queue : JobQueue} {claim : ClaimedJob} {work : Work}
    {now : Instant} {row : RowDefaults} {id : RecordingId}
    (h : Accepted w (.commit queue claim work now row)) (hscope : claim.recordingId = some id) :
    ∃ job ∈ w.db.jobs, Owns claim job ∧ work.persist claim (docAt id w) =
      .ok (docAt id (perform w (.commit queue claim work now row))) := by
  obtain ⟨job, hjob, howns, ⟨hother, _⟩ | ⟨_, _, hdoc⟩⟩ :=
    committed_documents queue (accepted_db h) id
  · exact absurd hscope hother
  · exact ⟨job, hjob, howns, hdoc⟩

lemma step_wrote {w : World} {act : Act} (hok : StatusInvariant w.db) (hallowed : act.Allowed w)
    (id : RecordingId) : Wrote w id act ((perform w act).db.documents id) := by
  rcases perform_db w act with hexec | ⟨hsame, _⟩
  · cases act with
    | server call =>
      have hstep : ServerStep w.db call (perform w (.server call)).db := rfl
      cases serverStep_housekept hok (withoutResults_of_allowed hallowed) hstep id with
      | kept hdocs _ =>
        rw [hdocs]
        exact .kept _
      | cleared hdocs hidle hlife =>
        rw [hdocs]
        exact .cleared hidle hlife
    | load claim => exact .kept _
    | commit queue claim work now row =>
      obtain ⟨job, hj, howns, ⟨_, hdocs⟩ | ⟨hscope, _, hdoc⟩⟩ := committed_documents queue hexec id
      · rw [hdocs]
        exact .kept _
      · exact .committed hj howns hscope hallowed.2 ⟨_, hexec⟩ hdoc
    | updateTranscript other expectedRevision updates =>
      rcases edited_documents id hexec with ⟨_, hdocs⟩ | ⟨rfl, _, _, hrevision, hidle, hdoc⟩
      · rw [hdocs]
        exact .kept _
      · exact .transcriptEdited hrevision hidle hdoc
    | updateAnalysis other expectedRevision result now =>
      rcases edited_documents id hexec with ⟨_, hdocs⟩ | ⟨rfl, _, _, hrevision, hidle, hdoc⟩
      · rw [hdocs]
        exact .kept _
      · exact .analysisEdited hrevision hidle hdoc
    | updateTranslations other expectedRevision updates =>
      rcases edited_documents id hexec with ⟨_, hdocs⟩ | ⟨rfl, _, _, hrevision, hidle, hdoc⟩
      · rw [hdocs]
        exact .kept _
      · exact .translationsEdited hrevision hidle hdoc
  · rw [hsame]
    exact .kept _

structure WorldInvariant (w : World) : Prop where
  statuses : StatusInvariant w.db
  issued : ∀ j ∈ w.db.jobs, ∀ t, j.claimToken = some t → ∃ c ∈ w.claims, c.claimToken = t
  given : ∀ c ∈ w.claims, Given w.db c
  readers : ∀ l ∈ w.loaded, l.claim ∈ w.claims
  current : ∀ l ∈ w.loaded, ∀ j ∈ w.db.jobs, Owns l.claim j → ∀ id, l.claim.recordingId = some id →
    readTranscript (w.db.documents id) = .ok l.transcript
  documents : ∀ id, DocumentOk (w.db.documents id)
  absent : ∀ id, Absent w.db id → w.db.documents id = .empty

def Act.token : Act → Option ClaimToken
  | .server call => callToken call
  | _ => none

lemma token_fresh {w : World} {act : Act} (h : act.Allowed w) :
    ∀ c ∈ w.claims, Act.token act ≠ some c.claimToken := by
  intro c hc
  cases act with
  | server call =>
    cases call with
    | queue call =>
      cases call with
      | claimNext queue now token kinds locked => exact fun he => h c hc (Option.some.inj he).symm
      | _ => exact nofun
    | _ => exact nofun
  | _ => exact nofun

lemma edited_tables {id : RecordingId} {revision : Document → ℕ} {expectedRevision : ℕ}
    {conflict : Exn} {edit : Recording → Document → Except Exn Document} {db db' : Database} {u : Unit}
    (h : editDocument id revision expectedRevision conflict edit db = .ok (u, db')) :
    ∃ documents, db' = { db with documents := documents } := by
  obtain ⟨_, doc, _, _, _, _, rfl⟩ := editDocument_ok h
  exact ⟨_, rfl⟩

lemma perform_tables (w : World) (act : Act) :
    (∃ call, act = .server call ∧ ServerStep w.db call (perform w act).db) ∨
    (∃ call, Act.token act = call.token ∧ QueueStep w.db call (perform w act).db) ∨
    ∃ documents, (perform w act).db = { w.db with documents := documents } := by
  rcases perform_db w act with hexec | ⟨hsame, _⟩
  · cases act with
    | server call => exact .inl ⟨call, rfl, rfl⟩
    | load claim => exact .inr (.inr ⟨_, rfl⟩)
    | commit queue claim work now row => exact .inr (.inl ⟨_, rfl, commit_queueStep w queue claim work now row⟩)
    | updateTranscript id expectedRevision updates => exact .inr (.inr (edited_tables hexec))
    | updateAnalysis id expectedRevision result now => exact .inr (.inr (edited_tables hexec))
    | updateTranslations id expectedRevision updates => exact .inr (.inr (edited_tables hexec))
  · exact .inr (.inr ⟨w.db.documents, hsame⟩)

lemma documents_consistent {db : Database} (h : StatusInvariant db)
    (documents : RecordingId → Document) : StatusInvariant { db with documents := documents } :=
  ⟨h.jobIds, h.recordingIds, h.rows, h.references, h.oneActive, h.latest, h.activeFull⟩

lemma perform_statuses {w : World} (hok : StatusInvariant w.db) (act : Act) :
    StatusInvariant (perform w act).db := by
  rcases perform_tables w act with ⟨_, _, hstep⟩ | ⟨_, _, hstep⟩ | ⟨_, hdb⟩
  · exact serverStep_consistent hok hstep
  · exact queueStep_consistent hstep hok
  · rw [hdb]
    exact documents_consistent hok _

lemma perform_tokenFrom {w : World} (hok : StatusInvariant w.db) (act : Act) :
    ∀ row ∈ (perform w act).db.jobs, TokenFrom (Act.token act) w.db row := by
  intro row hrow
  rcases perform_tables w act with ⟨call, rfl, hstep⟩ | ⟨call, htoken, hstep⟩ | ⟨_, hdb⟩
  · exact serverStep_tokenFrom hok.jobIds hstep hrow
  · rw [htoken]
    exact queueStep_tokenFrom hok.jobIds hstep hrow
  · rw [hdb] at hrow
    exact tokenFrom_stored hrow

lemma handedOut_claim {w : World} {act : Act} {claim : ClaimedJob} (h : claim ∈ act.handedOut w.db) :
    ∃ queue now token kinds locked job,
      act = .server (.queue (.claimNext queue now token kinds locked)) ∧
      claim = claimOf queue token (claimRow queue token now job) ∧
      Moves w.db job (claimRow queue token now job) ⟨0, 0⟩ now (perform w act).db := by
  unfold Act.handedOut at h
  split at h
  · rename_i call
    split at h
    · rename_i found db' hexec
      rw [List.mem_singleton] at h
      subst h
      cases call with
      | claimNext queue now token kinds locked =>
        obtain ⟨_, hc, he⟩ := map_ok hexec
        rcases claimNext_ok hc ⟨0, 0⟩ with ⟨rfl, _⟩ | ⟨job, _, rfl, hmoves, _⟩
        · cases he
        · cases he
          refine ⟨queue, now, token, kinds, locked, job, rfl, rfl, ?_⟩
          have hdb : (perform w (.server (.queue (.claimNext queue now token kinds locked)))).db =
              db' := by
            rw [perform, Act.transaction, ServerCall.exec, hexec]
            rfl
          rw [hdb]
          exact hmoves
      | _ =>
        obtain ⟨_, _, he⟩ := map_ok hexec
        cases he
    · cases h
  · cases h

lemma handedOut_given {w : World} {act : Act} (hok : WorldInvariant w) (hallowed : act.Allowed w)
    {claim : ClaimedJob} (h : claim ∈ act.handedOut w.db) : Given (perform w act).db claim := by
  obtain ⟨queue, now, token, kinds, locked, job, rfl, rfl, hmoves⟩ := handedOut_claim h
  intro row hrow ht
  rcases hmoves.origin hrow with ⟨hold, _⟩ | rfl | hnew
  · obtain ⟨c, hc, he⟩ := hok.issued row hold _ ht
    exact absurd he (hallowed c hc)
  · exact ⟨rfl, rfl, rfl⟩
  · obtain ⟨_, _, kind, _, rfl⟩ := handedOn_mem hnew
    cases ht

lemma drawn_token {w : World} {act : Act} {token : ClaimToken} (h : Act.token act = some token) :
    (perform w act).db.jobs = w.db.jobs ∨ ∃ c ∈ act.handedOut w.db, c.claimToken = token := by
  cases act with
  | server call =>
    cases call with
    | queue call =>
      cases call with
      | claimNext queue now drawn kinds locked =>
        cases h
        have hdb : (perform w (.server (.queue (.claimNext queue now token kinds locked)))).db =
            settled w.db ((queue.claimNext now token kinds locked w.db).map id) := by
          rw [perform, Act.transaction, ServerCall.exec, QueueCall.exec]
          cases queue.claimNext now token kinds locked w.db <;> rfl
        cases hc : queue.claimNext now token kinds locked w.db with
        | error e =>
          rw [hc] at hdb
          exact .inl (congrArg _ hdb)
        | ok result =>
          obtain ⟨answer, db'⟩ := result
          rw [hc] at hdb
          rcases claimNext_ok hc ⟨0, 0⟩ with ⟨rfl, rfl⟩ | ⟨job, _, rfl, _, _⟩
          · exact .inl (congrArg _ hdb)
          · refine .inr ⟨claimOf queue token (claimRow queue token now job), ?_, rfl⟩
            simp only [Act.handedOut, QueueCall.exec, hc]
            exact List.mem_singleton_self _
      | _ => cases h
    | _ => cases h
  | _ => cases h

lemma perform_issued {w : World} {act : Act} (hok : WorldInvariant w) :
    ∀ j ∈ (perform w act).db.jobs, ∀ t, j.claimToken = some t →
      ∃ c ∈ (perform w act).claims, c.claimToken = t := by
  have hold : ∀ j ∈ w.db.jobs, ∀ t, j.claimToken = some t →
      ∃ c ∈ (perform w act).claims, c.claimToken = t := by
    intro j hj t ht
    obtain ⟨c, hc, he⟩ := hok.issued j hj t ht
    exact ⟨c, List.mem_append_right _ hc, he⟩
  intro row hrow t ht
  rcases perform_tokenFrom hok.statuses act row hrow t ht with hdrawn | ⟨j, hj, _, hjt, _⟩
  · rcases drawn_token hdrawn with hsame | ⟨c, hc, he⟩
    · exact hold row (hsame ▸ hrow) t ht
    · exact ⟨c, List.mem_append_left _ hc, he⟩
  · exact hold j hj t hjt

lemma perform_given {w : World} {act : Act} (hok : WorldInvariant w) (hallowed : act.Allowed w) :
    ∀ c ∈ (perform w act).claims, Given (perform w act).db c := by
  intro c hc
  rcases List.mem_append.mp hc with hnew | hold
  · exact handedOut_given hok hallowed hnew
  · exact tokenFrom_given (hok.given c hold) (token_fresh hallowed c hold)
      (perform_tokenFrom hok.statuses act)

lemma mem_read {act : Act} {db : Database} {l : Loaded} (h : l ∈ act.read db) :
    act = .load l.claim ∧
      ∃ id, l.claim.recordingId = some id ∧ readTranscript (db.documents id) = .ok l.transcript := by
  unfold Act.read at h
  split at h
  · rename_i claim
    split at h
    · rename_i transcript hread
      rw [List.mem_singleton] at h
      subst h
      obtain ⟨id, hid, hread⟩ := Option.map_eq_some_iff.mp hread
      exact ⟨rfl, id, hid, hread⟩
    · cases h
  · cases h

lemma owned_active {w : World} (hok : WorldInvariant w) {claim : ClaimedJob}
    (hclaim : claim ∈ w.claims) {job : ProcessingJob} (hjob : job ∈ w.db.jobs)
    (howns : Owns claim job) : job.active ∧ job.recordingId = claim.recordingId :=
  ⟨owns_active howns, (hok.given claim hclaim job hjob howns.2.2.1).2.1⟩

lemma not_idle {w : World} (hok : WorldInvariant w) {claim : ClaimedJob} {id : RecordingId}
    (hclaim : claim ∈ w.claims) (hscope : claim.recordingId = some id) {job : ProcessingJob}
    (hjob : job ∈ w.db.jobs) (howns : Owns claim job) : w.db.activeJob id ≠ none := by
  obtain ⟨hactive, hrec⟩ := owned_active hok hclaim hjob howns
  intro hidle
  exact activeJob_none.mp hidle job hjob hactive (hrec.trans hscope)

lemma one_holder {w : World} (hok : WorldInvariant w) {c c' : ClaimedJob} {id : RecordingId}
    (hc : c ∈ w.claims) (hc' : c' ∈ w.claims) (hscope : c.recordingId = some id)
    (hscope' : c'.recordingId = some id) {j j' : ProcessingJob} (hj : j ∈ w.db.jobs)
    (hj' : j' ∈ w.db.jobs) (ho : Owns c j) (ho' : Owns c' j') : j = j' := by
  obtain ⟨hactive, hrec⟩ := owned_active hok hc hj ho
  obtain ⟨hactive', hrec'⟩ := owned_active hok hc' hj' ho'
  have hid : j.recordingId = some id := hrec.trans hscope
  apply hok.statuses.oneActive j hj j' hj' hactive hactive' (by simp [hid])
  rw [hid, hrec', hscope']

lemma commit_ends {w : World} {queue : JobQueue} {claim : ClaimedJob} {work : Work} {now : Instant}
    {row : RowDefaults} {job : ProcessingJob} (hok : WorldInvariant w) (hjob : job ∈ w.db.jobs)
    (howns : Owns claim job) (hexec : Accepted w (.commit queue claim work now row)) :
    ∀ j ∈ (perform w (.commit queue claim work now row)).db.jobs, j.id = job.id → ¬ j.active := by
  have hcomplete : queue.complete claim (some (recordingPersister claim (work.persist claim))) now row
      w.db = .ok ((), (perform w (.commit queue claim work now row)).db) := accepted_db hexec
  obtain ⟨owned, ho, hmoves, _⟩ := complete_ok hcomplete
  obtain ⟨hmem, howns'⟩ := ownedJob_some ho
  have hsame : owned = job := hok.statuses.unique hmem hjob (howns'.1.trans howns.1.symm)
  subst hsame
  intro j hj hid
  have hids := (perform_statuses hok.statuses (.commit queue claim work now row)).jobIds
  have hrow : j = completeRow now owned :=
    List.inj_on_of_nodup_map hids hj hmoves.mem_moved (hid.trans hmoves.step.same.1.symm)
  rw [hrow]
  exact nofun

lemma perform_current {w : World} {act : Act} (hok : WorldInvariant w) (hallowed : act.Allowed w) :
    ∀ l ∈ (perform w act).loaded, ∀ j ∈ (perform w act).db.jobs, Owns l.claim j →
      ∀ id, l.claim.recordingId = some id →
        readTranscript ((perform w act).db.documents id) = .ok l.transcript := by
  intro l hl row hrow howns id hscope
  rcases List.mem_append.mp hl with hnew | hold
  · obtain ⟨hact, other, hother, hread⟩ := mem_read hnew
    rw [hact]
    rw [hscope] at hother
    cases hother
    exact hread
  · have hclaim := hok.readers l hold
    obtain ⟨j, hj, hsame, ho⟩ := tokenFrom_owns (perform_tokenFrom hok.statuses act row hrow)
      (token_fresh hallowed l.claim hclaim) howns
    have hread := hok.current l hold j hj ho id hscope
    have hbusy := not_idle hok hclaim hscope hj ho
    have hwrote := step_wrote hok.statuses hallowed id
    generalize (perform w act).db.documents id = doc at hwrote ⊢
    cases hwrote with
    | kept => exact hread
    | cleared hidle _ => exact absurd hidle hbusy
    | transcriptEdited _ hidle _ => exact absurd hidle hbusy
    | analysisEdited _ hidle _ => exact absurd hidle hbusy
    | translationsEdited _ hidle _ => exact absurd hidle hbusy
    | committed hjob howns' hscope' _ haccepted _ =>
      have hjobs := one_holder hok hclaim hallowed.1 hscope hscope' hj hjob ho howns'
      have hended := commit_ends hok hjob howns' haccepted row hrow (hjobs ▸ hsame.1)
      exact absurd (owns_active howns) hended

lemma perform_documents {w : World} {act : Act} (hok : WorldInvariant w) (hallowed : act.Allowed w)
    (id : RecordingId) : DocumentOk ((perform w act).db.documents id) := by
  have hdoc := hok.documents id
  have hwrote := step_wrote hok.statuses hallowed id
  generalize (perform w act).db.documents id = doc at hwrote ⊢
  cases hwrote with
  | kept => exact hdoc
  | cleared => exact empty_ok
  | transcriptEdited _ _ hedit => exact editTranscript_keeps hdoc hedit
  | analysisEdited _ _ hedit => exact editAnalysis_keeps hdoc hedit
  | translationsEdited _ _ hedit => exact editTranslations_keeps hdoc hedit
  | @committed _ claim work _ _ job _ hjob howns hscope hcomputed _ hpersist =>
    have hread : ∀ l ∈ w.loaded, l.claim = claim →
        readTranscript (w.db.documents id) = .ok l.transcript := by
      rintro l hl rfl
      exact hok.current l hl job hjob howns id hscope
    cases work with
    | transcript result ids at_ =>
      obtain ⟨_, _, _, _, hrun⟩ := hcomputed
      exact persistTranscript_keeps (pipelineRun_numbered hrun) hpersist
    | analysis result at_ =>
      obtain ⟨_, l, hl, hclaim, _, _, hanalyze⟩ := hcomputed
      exact persistAnalysis_keeps hdoc (hread l hl hclaim)
        (fun data hdata q hq => analyze_grounded hanalyze hdata hq) hpersist
    | translations result ids at_ =>
      obtain ⟨_, l, hl, hclaim, _, _, _, htranslate⟩ := hcomputed
      have hasc := readTranscript_ascending hdoc (hread l hl hclaim)
      exact persistTranslations_keeps hdoc (hread l hl hclaim)
        (translate_ofSentences htranslate hasc) hpersist

lemma edited_absent {id other : RecordingId} {revision : Document → ℕ} {expectedRevision : ℕ}
    {conflict : Exn} {edit : Recording → Document → Except Exn Document} {db db' : Database} {u : Unit}
    (h : editDocument id revision expectedRevision conflict edit db = .ok (u, db'))
    (habsent : Absent db other) : db'.documents other = db.documents other := by
  rcases edited_documents other h with ⟨_, hdocs⟩ | ⟨_, _, hr, _⟩
  · exact hdocs
  · exact absurd habsent (recording_absent hr)

lemma perform_absent {w : World} {act : Act} (hstatuses : StatusInvariant w.db)
    (hempty : ∀ id, Absent w.db id → w.db.documents id = .empty)
    (hserver : ∀ call, act = .server call → WithoutResults call)
    (id : RecordingId) (habsent : Absent (perform w act).db id) :
    (perform w act).db.documents id = .empty := by
  rcases perform_db w act with hexec | ⟨hsame, _⟩
  · cases act with
    | server call =>
      have hstep : ServerStep w.db call (perform w (.server call)).db := rfl
      cases serverStep_housekept hstatuses (hserver call rfl) hstep id with
      | kept hdocs hbefore => exact hdocs.trans (hempty id (hbefore habsent))
      | cleared hdocs => exact hdocs
    | load claim => exact hempty id habsent
    | commit queue claim work now row =>
      have hids := queueStep_ids hstatuses.jobIds (commit_queueStep w queue claim work now row)
      have hbefore := (absent_of_ids hids).mp habsent
      obtain ⟨_, _, _, ⟨_, hdocs⟩ | ⟨_, hpresent, _⟩⟩ := committed_documents queue hexec id
      · exact hdocs.trans (hempty id hbefore)
      · exact absurd hbefore hpresent
    | updateTranscript other expectedRevision updates =>
      obtain ⟨_, hdb⟩ := edited_tables hexec
      rw [hdb] at habsent
      exact (edited_absent hexec habsent).trans (hempty id habsent)
    | updateAnalysis other expectedRevision result now =>
      obtain ⟨_, hdb⟩ := edited_tables hexec
      rw [hdb] at habsent
      exact (edited_absent hexec habsent).trans (hempty id habsent)
    | updateTranslations other expectedRevision updates =>
      obtain ⟨_, hdb⟩ := edited_tables hexec
      rw [hdb] at habsent
      exact (edited_absent hexec habsent).trans (hempty id habsent)
  · rw [hsame] at habsent ⊢
    exact hempty id habsent

lemma step_invariant {w w' : World} {act : Act} (hok : WorldInvariant w) (h : WorldStep w act w') :
    WorldInvariant w' := by
  obtain ⟨hallowed, rfl⟩ := h
  refine ⟨perform_statuses hok.statuses act, perform_issued hok, perform_given hok hallowed, ?_,
    perform_current hok hallowed, perform_documents hok hallowed,
    perform_absent hok.statuses hok.absent ?_⟩
  · intro l hl
    rcases List.mem_append.mp hl with hnew | hold
    · obtain ⟨hact, _⟩ := mem_read hnew
      rw [hact] at hallowed
      exact List.mem_append_right _ hallowed
    · exact List.mem_append_right _ (hok.readers l hold)
  · rintro call rfl
    exact withoutResults_of_allowed hallowed

lemma init_invariant (settings : Option ProcessingSettings) :
    WorldInvariant (World.init settings) where
  statuses := empty_consistent settings
  issued _ hj := absurd hj List.not_mem_nil
  given _ hc := absurd hc List.not_mem_nil
  readers _ hl := absurd hl List.not_mem_nil
  current _ hl := absurd hl List.not_mem_nil
  documents _ := empty_ok
  absent _ _ := rfl

lemma run_invariant {settings : Option ProcessingSettings} {w : World} {es : List (Event World Act)}
    (h : WorldRun (World.init settings) es w) : WorldInvariant w :=
  h.keeps WorldInvariant (fun _ _ _ => step_invariant) (init_invariant settings)

end AudioServer.Worker.Invariant
