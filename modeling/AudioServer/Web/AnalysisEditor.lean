import AudioServer.Web.DetailPage
import AudioServer.Worker.Revisions

/-! One detail page against the server: the analysis editor, the poll that may
replace the response under it, and the save that carries a revision. -/

namespace AudioServer.Web.AnalysisEditor

open AudioServer.Foundations.Outcomes AudioServer.Foundations.Runs AudioServer.Foundations.Versions
open AudioServer.Foundations.Strings AudioServer.Api.Schemas AudioServer.Db.Models
open AudioServer.Api.Responses AudioServer.Services.Editing AudioServer.Jobs.Queue
open AudioServer.Services.Transactions AudioServer.Services.Consistency AudioServer.Worker.System
open AudioServer.Worker.Invariant
open AudioServer.Worker.Revisions AudioServer.Worker.Grounding AudioServer.Web.DetailPage

structure Session where
  world : World
  page : Page

/-- The workers and the other sessions, the page, and the requests of the page at the server. A
`get_analysis` reads the revision off the recording before it reads the analysis. A save commits,
and its answer may be lost. -/
inductive SessionAct
  | server (act : Act)
  | page (act : PageAct)
  | readRecording (k : ℕ)
  | answer (k : ℕ) (reply : Reply)
  | updateAnalysis (k : ℕ) (now : Instant) (lost : Option Caught)

def Serves (w : World) (call : Call) : Reply → Prop
  | .failed _ => True
  | .analysis r => ∃ revision ∈ call.reading, getAnalysis call.id revision w.db = .ok r
  | .live status activity =>
    getRecordingStatus call.id w.db = .ok status ∧ ∀ a ∈ activity, a.recordingId = call.id
  | .loaded recording status activity =>
    getRecording call.id w.db = .ok recording ∧ getRecordingStatus call.id w.db = .ok status ∧
      ∀ a ∈ activity, a.recordingId = call.id
  | reply => reply.About call.id

def isAnalysis : Task → Bool
  | .analysis _ _ => true
  | _ => false

def SessionAct.Allowed (s : Session) : SessionAct → Prop
  | .server act => act.Allowed s.world ∧ ¬ Absent (perform s.world act).db s.page.id
  | .page act => act.Enabled s.page ∧ ∀ id, act ≠ .stepTo id
  | .readRecording k => ∃ call ∈ s.page.flight[k]?, call.reply = none ∧ call.reading = none ∧
      isAnalysis call.task
  | .answer k reply => ∃ call ∈ s.page.flight[k]?, call.reply = none ∧ Serves s.world call reply
  | .updateAnalysis k _ _ => ∃ call ∈ s.page.flight[k]?, call.reply = none

def saveOf (call : Call) (now : Instant) : Option Act :=
  match call.task with
  | .saveAnalysis current draft => some (.updateAnalysis call.id current.revision draft.result now)
  | _ => none

def savedReply (id : RecordingId) (w : World) (act : Act) : Reply :=
  match act.transaction w.db with
  | .ok (_, db) =>
    match getAnalysis id (db.documents id).analysisRevision db with
    | .ok r => .analysis r
    | .error _ => .failed .other
  | .error (.recordingService code message statusCode) => .failed (.api statusCode code message)
  | .error _ => .failed .other

def Page.read (p : Page) (k : ℕ) (revision : ℕ) : Page :=
  { p with flight := p.flight.modify k (fun call => { call with reading := some revision }) }

def SessionAct.next (s : Session) : SessionAct → Session
  | .server act => { s with world := perform s.world act }
  | .page act => { s with page := s.page.perform act }
  | .readRecording k =>
    { s with page := Page.read s.page k (docAt s.page.id s.world).analysisRevision }
  | .answer k reply => { s with page := s.page.answer k reply }
  | .updateAnalysis k now lost =>
    match s.page.flight[k]?.bind (fun call => (saveOf call now).map (call.id, ·)) with
    | some (id, act) =>
      { world := perform s.world act
        page := s.page.answer k (lost.elim (savedReply id s.world act) .failed) }
    | none => s

def SessionStep (s : Session) (act : SessionAct) (s' : Session) : Prop :=
  act.Allowed s ∧ s' = act.next s

/-- A save goes out with the revision of the response its draft was cloned from, and is taken only
over what that response listed. -/
def NothingLost (s : Session) : SessionAct → Prop
  | .updateAnalysis k now _ => ∀ call ∈ s.page.flight[k]?, ∀ current draft,
      call.task = .saveAnalysis current draft → current.revision = draft.source.revision ∧
        (Accepted s.world (.updateAnalysis call.id current.revision draft.result now) →
          ∃ analysis, (docAt call.id s.world).analysis = some analysis ∧
            draft.source = analysisResponse call.id current.revision analysis)
  | _ => True

def Disturbs (p : Page) : Task → Reply → Prop
  | .analysis request _, .analysis r =>
    p.analysisRequest = request ∧ ∃ d ∈ p.analysisDraft, r.revision ≠ d.source.revision
  | _, _ => False

def Undisturbed (s : Session) : SessionAct → Prop
  | .page (.arrive k) => ∀ call ∈ s.page.flight[k]?, ∀ reply ∈ call.reply,
      ¬ Disturbs s.page call.task reply
  | _ => True

structure Listed (id : RecordingId) (doc : Document) (r : AnalysisResponse) : Prop where
  le : r.revision ≤ doc.analysisRevision
  stored : doc.analysisRevision = r.revision →
    ∃ analysis, doc.analysis = some analysis ∧ r = analysisResponse id r.revision analysis

lemma Listed.bumps {id : RecordingId} {doc doc' : Document} {r : AnalysisResponse}
    (h : Listed id doc r) (hb : Bumps doc doc') : Listed id doc' r := by
  have hle := h.le
  have hmono := hb.analysis.le
  refine ⟨by omega, ?_⟩
  intro hrevision
  have hold : doc.analysisRevision = r.revision := by omega
  obtain ⟨analysis, hstored, hr⟩ := h.stored hold
  have hsame := hb.analysis.same_content (hrevision.trans hold.symm)
  exact ⟨analysis, hsame.trans hstored, hr⟩

/-- The revision may be older than the analysis that was read after it. -/
lemma getAnalysis_listed {id : RecordingId} {revision : ℕ} {db : Database} {r : AnalysisResponse}
    (hle : revision ≤ (db.documents id).analysisRevision)
    (h : getAnalysis id revision db = .ok r) : Listed id (db.documents id) r := by
  obtain ⟨analysis, hstored, rfl⟩ := getAnalysis_ok h
  exact ⟨hle, fun _ => ⟨analysis, hstored, rfl⟩⟩

structure Served (id : RecordingId) (doc : Document) (call : Call) : Prop where
  own : call.id = id
  reading : ∀ revision ∈ call.reading, revision ≤ doc.analysisRevision
  reply : ∀ r, call.reply = some (.analysis r) → Listed id doc r
  sent : ∀ current draft, call.task = .saveAnalysis current draft →
    current.revision = draft.source.revision ∧ Listed id doc draft.source

lemma Served.bumps {id : RecordingId} {doc doc' : Document} {call : Call} (h : Served id doc call)
    (hb : Bumps doc doc') : Served id doc' call := by
  refine ⟨h.own, ?_, fun r hr => (h.reply r hr).bumps hb, ?_⟩
  · intro revision hr
    exact Nat.le_trans (h.reading revision hr) hb.analysis.le
  · intro current draft ht
    exact ⟨(h.sent current draft ht).1, (h.sent current draft ht).2.bumps hb⟩

structure Held (id : RecordingId) (doc : Document) (p : Page) : Prop where
  here : p.id = id
  data : ∀ r ∈ p.analysis.data, Listed id doc r
  draft : ∀ d ∈ p.analysisDraft, Listed id doc d.source
  guarded : ∀ d ∈ p.analysisDraft, ∀ r ∈ p.analysis.data, r.revision = d.source.revision
  calls : ∀ call ∈ p.flight, Served id doc call

lemma Held.bumps {id : RecordingId} {doc doc' : Document} {p : Page} (h : Held id doc p)
    (hb : Bumps doc doc') : Held id doc' p :=
  ⟨h.here, fun r hr => (h.data r hr).bumps hb, fun d hd => (h.draft d hd).bumps hb, h.guarded,
    fun call hc => (h.calls call hc).bumps hb⟩

def Fresh (id : RecordingId) (call : Call) : Prop :=
  call.id = id ∧ call.reading = none ∧ call.reply = none ∧
    ∀ current draft, call.task ≠ .saveAnalysis current draft

lemma Fresh.served {id : RecordingId} {doc : Document} {call : Call} (h : Fresh id call) :
    Served id doc call := by
  obtain ⟨hid, hreading, hreply, htask⟩ := h
  refine ⟨hid, ?_, ?_, fun current draft ht => absurd ht (htask current draft)⟩
  · intro revision hr
    rw [hreading] at hr
    cases hr
  · intro r hr
    rw [hreply] at hr
    cases hr

structure Quiet (p p' : Page) : Prop where
  id : p'.id = p.id
  data : ∀ r ∈ p'.analysis.data, r ∈ p.analysis.data
  draft : ∀ d ∈ p'.analysisDraft, d ∈ p.analysisDraft
  calls : ∀ call ∈ p'.flight, call ∈ p.flight ∨ Fresh p.id call

lemma quiet_of_eq {p p' : Page} (hid : p'.id = p.id) (hdata : p'.analysis = p.analysis)
    (hdraft : p'.analysisDraft = p.analysisDraft) (hcalls : p'.flight = p.flight) : Quiet p p' :=
  ⟨hid, fun _ h => hdata ▸ h, fun _ h => hdraft ▸ h, fun _ h => .inl (hcalls ▸ h)⟩

lemma Quiet.refl (p : Page) : Quiet p p := quiet_of_eq rfl rfl rfl rfl

lemma Quiet.trans {p q r : Page} (h : Quiet p q) (k : Quiet q r) : Quiet p r := by
  refine ⟨k.id.trans h.id, fun x hx => h.data x (k.data x hx), fun d hd => h.draft d (k.draft d hd), ?_⟩
  intro call hc
  rcases k.calls call hc with hold | hfresh
  · exact h.calls call hold
  · exact .inr (h.id ▸ hfresh)

lemma Quiet.held {id : RecordingId} {doc : Document} {p p' : Page} (h : Quiet p p')
    (hp : Held id doc p) : Held id doc p' := by
  refine ⟨h.id.trans hp.here, fun r hr => hp.data r (h.data r hr),
    fun d hd => hp.draft d (h.draft d hd), ?_, ?_⟩
  · intro d hd r hr
    exact hp.guarded d (h.draft d hd) r (h.data r hr)
  · intro call hc
    rcases h.calls call hc with hold | hfresh
    · exact hp.calls call hold
    · exact Fresh.served (hp.here ▸ hfresh)

lemma send_quiet {p : Page} {task : Task} (h : ∀ current draft, task ≠ .saveAnalysis current draft) :
    Quiet p (p.send p.id task) := by
  refine ⟨rfl, fun _ h => h, fun _ h => h, ?_⟩
  intro call hc
  rcases List.mem_append.mp hc with hold | hnew
  · exact .inl hold
  · rw [List.mem_singleton.mp hnew]
    exact .inr ⟨rfl, rfl, rfl, h⟩

lemma loadAnalysis_quiet (p : Page) (awaiting : Option Mutation) :
    Quiet p (p.loadAnalysis p.id awaiting) := by
  have hcleared : Quiet p (p.replaceAnalysis .loading) :=
    ⟨rfl, fun r hr => absurd hr (by simp [Page.replaceAnalysis, Loaded.data]), fun _ h => h,
      fun _ h => .inl h⟩
  exact hcleared.trans (send_quiet (fun _ _ => nofun))

lemma transcriptEffect_quiet (p : Page) : Quiet p p.transcriptEffect := by
  have hcells : Quiet p { p with transcriptRun := p.transcriptRun + 1, transcript := .loading } :=
    quiet_of_eq rfl rfl rfl rfl
  rw [Page.transcriptEffect]
  split
  · exact hcells.trans (send_quiet (fun _ _ => nofun))
  · exact quiet_of_eq rfl rfl rfl rfl

lemma translationEffect_quiet (p : Page) : Quiet p p.translationEffect := by
  have hflag : Quiet p { p with wasTranslating := false } := quiet_of_eq rfl rfl rfl rfl
  rw [Page.translationEffect]
  split
  · exact quiet_of_eq rfl rfl rfl rfl
  · split
    · exact hflag.trans (transcriptEffect_quiet _)
    · exact .refl p

lemma analysisEffect_quiet (p : Page) : Quiet p p.analysisEffect := by
  rw [Page.analysisEffect]
  split
  · exact loadAnalysis_quiet p none
  · exact .refl p

lemma setStatus_quiet (p : Page) (next : RecordingStatusResponse) : Quiet p (p.setStatus next) := by
  have hstatus : Quiet p { p with status := some next } := quiet_of_eq rfl rfl rfl rfl
  rw [Page.setStatus]
  split
  · exact (hstatus.trans (transcriptEffect_quiet _)).trans (translationEffect_quiet _)
  · exact hstatus.trans (translationEffect_quiet _)

lemma visitEffect_quiet (p : Page) : Quiet p p.visitEffect := by
  have hcells : Quiet p
      { p with visit := p.visit + 1, loading := true, error := none, neighbours := none } :=
    quiet_of_eq rfl rfl rfl rfl
  refine (hcells.trans (send_quiet ?_)).trans (send_quiet ?_)
  all_goals exact fun _ _ => nofun

lemma mount_held (id : RecordingId) (doc : Document) : Held id doc (Page.mount id) := by
  have hblank : Held id doc (Page.blank id) := by
    refine ⟨rfl, ?_, ?_, ?_, ?_⟩
    · intro r hr
      cases hr
    · intro d hd
      cases hd
    · intro d hd
      cases hd
    · intro call hc
      cases hc
  have hmount : Quiet (Page.blank id) (Page.mount id) :=
    ((visitEffect_quiet _).trans (transcriptEffect_quiet _)).trans (analysisEffect_quiet _)
  exact hmount.held hblank

lemma handleRequestError_quiet (p : Page) (caught : Caught) : Quiet p (p.handleRequestError caught) := by
  unfold Page.handleRequestError
  split <;> exact quiet_of_eq rfl rfl rfl rfl

lemma failMutation_quiet (p : Page) (m : Mutation) (caught : Caught) :
    Quiet p (p.failMutation m caught) := by
  unfold Page.failMutation Page.handleMutationError
  split <;> exact quiet_of_eq rfl rfl rfl rfl

lemma initialSettled_quiet (p : Page) (visit : ℕ) (reply : Reply) :
    Quiet p (p.initialSettled visit reply) := by
  cases reply with
  | loaded recording status activity =>
    have hcells : Quiet p
        { p with recording := some recording, activity := activity, loading := false } :=
      quiet_of_eq rfl rfl rfl rfl
    rw [Page.initialSettled]
    split
    · exact hcells.trans (setStatus_quiet _ _)
    · exact .refl p
  | failed caught =>
    rw [Page.initialSettled]
    split
    · exact (handleRequestError_quiet p caught).trans (quiet_of_eq rfl rfl rfl rfl)
    · exact .refl p
  | _ => exact .refl p

lemma neighboursSettled_quiet (p : Page) (visit : ℕ) (reply : Reply) :
    Quiet p (p.neighboursSettled visit reply) := by
  cases reply with
  | neighbours data =>
    rw [Page.neighboursSettled]
    split
    · exact quiet_of_eq rfl rfl rfl rfl
    · exact .refl p
  | _ => exact .refl p

lemma transcriptSettled_quiet (p : Page) (run : ℕ) (reply : Reply) :
    Quiet p (p.transcriptSettled run reply) := by
  cases reply with
  | transcript data =>
    rw [Page.transcriptSettled]
    split
    · exact quiet_of_eq rfl rfl rfl rfl
    · exact .refl p
  | failed caught =>
    rw [Page.transcriptSettled]
    split
    · split <;> exact quiet_of_eq rfl rfl rfl rfl
    · exact .refl p
  | _ => exact .refl p

lemma awaited_quiet (p : Page) (awaiting : Option Mutation) : Quiet p (p.awaited awaiting) := by
  cases awaiting <;> exact quiet_of_eq rfl rfl rfl rfl

lemma continue_quiet (p : Page) (after : After) : Quiet p (p.continue p.id after) := by
  have hqueued (m : Mutation) : Quiet p { p with mutationMessage := some m.queued }.mutated :=
    quiet_of_eq rfl rfl rfl rfl
  cases after with
  | polled tab =>
    rw [Page.continue]
    split
    · exact loadAnalysis_quiet p none
    · exact .refl p
  | mutation m =>
    cases m with
    | reanalyse => exact loadAnalysis_quiet p (some .reanalyse)
    | translation => exact (hqueued .translation).trans (transcriptEffect_quiet _)
    | _ => exact hqueued _

lemma refreshSettled_quiet (p : Page) (after : After) (reply : Reply) :
    Quiet p (p.refreshSettled p.id after reply) := by
  cases reply with
  | live status activity =>
    have hlive : Quiet p (p.refreshLiveData status activity) :=
      (quiet_of_eq rfl rfl rfl rfl : Quiet p { p with
        activity := activity
        recording := p.recording.map (fun r => { r with processingStatus := status.status })
          }).trans (setStatus_quiet _ _)
    have hnext := continue_quiet (p.refreshLiveData status activity) after
    rw [hlive.id] at hnext
    exact hlive.trans hnext
  | failed caught =>
    cases after with
    | polled tab => exact handleRequestError_quiet p caught
    | mutation m => exact failMutation_quiet p m caught
  | _ => exact .refl p

lemma mutateSettled_quiet (p : Page) (m : Mutation) (reply : Reply) :
    Quiet p (p.mutateSettled p.id m reply) := by
  cases reply with
  | accepted => exact send_quiet (fun _ _ => nofun)
  | failed caught => exact failMutation_quiet p m caught
  | _ => exact .refl p

lemma transcriptSaved_quiet (p : Page) (reply : Reply) : Quiet p (p.transcriptSaved reply) := by
  cases reply with
  | transcript saved =>
    refine ⟨rfl, fun r hr => ?_, fun _ h => h, fun _ h => .inl h⟩
    cases hr
  | failed caught => exact failMutation_quiet p .transcript caught
  | _ => exact .refl p

lemma translationsSaved_quiet (p : Page) (reply : Reply) : Quiet p (p.translationsSaved reply) := by
  cases reply with
  | transcript saved => exact quiet_of_eq rfl rfl rfl rfl
  | failed caught => exact failMutation_quiet p .translations caught
  | _ => exact .refl p

lemma analysisSaved_held {id : RecordingId} {doc : Document} {p : Page} {reply : Reply} (h : Held id doc p)
    (hreply : ∀ r, reply = .analysis r → Listed id doc r) : Held id doc (p.analysisSaved reply) := by
  cases reply with
  | analysis saved =>
    refine ⟨h.here, ?_, ?_, ?_, h.calls⟩
    · intro r hr
      cases hr
      exact hreply saved rfl
    · intro d hd
      cases hd
    · intro d hd
      cases hd
  | failed caught => exact (failMutation_quiet p .analysis caught).held h
  | _ => exact h

lemma settleAnalysis_held {id : RecordingId} {doc : Document} {p : Page} {request : ℕ} {awaiting : Option Mutation}
    {r : AnalysisResponse} (h : Held id doc p) (hlisted : Listed id doc r)
    (hquiet : ¬ Disturbs p (.analysis request awaiting) (.analysis r)) :
    Held id doc (p.settleAnalysis request (.ready r)) := by
  rw [Page.settleAnalysis]
  split
  · rename_i hnewest
    refine ⟨h.here, ?_, h.draft, ?_, h.calls⟩
    · intro r' hr
      cases hr
      exact hlisted
    · intro d hd r' hr
      cases hr
      by_contra hne
      exact hquiet ⟨hnewest, d, hd, hne⟩
  · exact h

lemma settleAnalysis_quiet {p : Page} {request : ℕ} {next : Loaded AnalysisResponse}
    (hnext : next.data = none) : Quiet p (p.settleAnalysis request next) := by
  rw [Page.settleAnalysis]
  split
  · refine ⟨rfl, fun r hr => ?_, fun _ h => h, fun _ h => .inl h⟩
    rw [hnext] at hr
    cases hr
  · exact .refl p

lemma analysisSettled_held {id : RecordingId} {doc : Document} {p : Page} {request : ℕ} {awaiting : Option Mutation}
    {reply : Reply} (h : Held id doc p) (hreply : ∀ r, reply = .analysis r → Listed id doc r)
    (hquiet : ¬ Disturbs p (.analysis request awaiting) reply) :
    Held id doc (p.analysisSettled request awaiting reply) := by
  cases reply with
  | analysis r =>
    exact (awaited_quiet _ _).held (settleAnalysis_held h (hreply r rfl) hquiet)
  | failed caught =>
    rw [Page.analysisSettled]
    split
    · rename_i hsettled
      exact ((settleAnalysis_quiet (settled_data hsettled)).trans (awaited_quiet _ _)).held h
    · exact ((quiet_of_eq rfl rfl rfl rfl : Quiet p { p with left := true }).trans
        (awaited_quiet _ _)).held h
  | _ => exact h

lemma settle_held {id : RecordingId} {doc : Document} {p : Page} {call : Call} {reply : Reply} (h : Held id doc p)
    (hcall : Served id doc call) (hreply : call.reply = some reply)
    (hquiet : ¬ Disturbs p call.task reply) : Held id doc (p.settle call.id reply call.task) := by
  have hlisted : ∀ r, reply = .analysis r → Listed id doc r := by
    rintro r rfl
    exact hcall.reply r hreply
  have hid : call.id = p.id := hcall.own.trans h.here.symm
  rw [hid]
  cases htask : call.task with
  | initial v => exact (initialSettled_quiet p v reply).held h
  | neighbours v => exact (neighboursSettled_quiet p v reply).held h
  | transcript run => exact (transcriptSettled_quiet p run reply).held h
  | analysis request awaiting => exact analysisSettled_held h hlisted (htask ▸ hquiet)
  | refresh after => exact (refreshSettled_quiet p after reply).held h
  | mutate m => exact (mutateSettled_quiet p m reply).held h
  | saveTranscript draft => exact (transcriptSaved_quiet p reply).held h
  | saveTranslations draft shown => exact (translationsSaved_quiet p reply).held h
  | saveAnalysis current draft => exact analysisSaved_held h hlisted

lemma perform_held {id : RecordingId} {doc : Document} {p : Page} {act : PageAct} (h : Held id doc p)
    (hstay : ∀ id, act ≠ .stepTo id)
    (hquiet : ∀ k, act = .arrive k → ∀ call ∈ p.flight[k]?, ∀ reply ∈ call.reply,
      ¬ Disturbs p call.task reply) : Held id doc (p.perform act) := by
  have hcells {p' : Page} (hid : p'.id = p.id) (hdata : p'.analysis = p.analysis)
      (hdraft : p'.analysisDraft = p.analysisDraft) (hcalls : p'.flight = p.flight) : Held id doc p' :=
    (quiet_of_eq hid hdata hdraft hcalls).held h
  have hsent {m : Mutation} {message : Option String} {task : Task}
      (htask : ∀ current draft, task ≠ .saveAnalysis current draft) :
      Held id doc ({ p.begin m with mutationMessage := message }.send p.id task) :=
    ((quiet_of_eq rfl rfl rfl rfl : Quiet p { p.begin m with mutationMessage := message }).trans
      (send_quiet htask)).held h
  cases act with
  | openTab tab =>
    rw [Page.perform]
    split
    · exact h
    · have htab : Quiet p { p with tab := tab } := quiet_of_eq rfl rfl rfl rfl
      exact ((htab.trans (transcriptEffect_quiet _)).trans (analysisEffect_quiet _)).held h
  | stepTo id => exact absurd rfl (hstay id)
  | saveTranscript =>
    rw [Page.perform]
    split
    · exact hsent (fun _ _ => nofun)
    · exact h
  | cancelTranslations =>
    have hclosed : Quiet p { p with translationDraft := none } := quiet_of_eq rfl rfl rfl rfl
    exact (hclosed.trans (transcriptEffect_quiet _)).held h
  | saveTranslations =>
    rw [Page.perform]
    split
    · split
      · exact hcells rfl rfl rfl rfl
      · exact hsent (fun _ _ => nofun)
    · exact h
  | editAnalysis =>
    rw [Page.perform]
    split
    · rename_i r hr
      have hdata : r ∈ p.analysis.data := by
        rw [hr]
        rfl
      refine ⟨h.here, h.data, ?_, ?_, h.calls⟩
      · intro d hd
        obtain ⟨_, _, rfl⟩ := Option.mem_map.mp hd
        exact h.data r hdata
      · intro d hd r' hr'
        obtain ⟨_, _, rfl⟩ := Option.mem_map.mp hd
        rw [hr] at hr'
        cases hr'
        rfl
    · exact h
  | typeAnalysis result =>
    refine ⟨h.here, h.data, ?_, ?_, h.calls⟩
    · intro d hd
      obtain ⟨d', hd', rfl⟩ := Option.mem_map.mp hd
      exact h.draft d' hd'
    · intro d hd
      obtain ⟨d', hd', rfl⟩ := Option.mem_map.mp hd
      exact h.guarded d' hd'
  | cancelAnalysis =>
    refine ⟨h.here, h.data, ?_, ?_, h.calls⟩
    all_goals
      intro d hd
      cases hd
  | saveAnalysis =>
    rw [Page.perform]
    split
    · rename_i current draft hcurrent hdraft
      have hready : current ∈ p.analysis.data := by
        rw [hcurrent]
        rfl
      refine ⟨h.here, h.data, h.draft, h.guarded, ?_⟩
      intro call hc
      rcases List.mem_append.mp hc with hold | hnew
      · exact h.calls call hold
      · rw [List.mem_singleton.mp hnew]
        refine ⟨h.here, fun _ => nofun, fun _ => nofun, ?_⟩
        intro current' draft' htask
        cases htask
        exact ⟨h.guarded draft hdraft current hready, h.draft draft hdraft⟩
    · exact h
  | mutate m => exact hsent (fun _ _ => nofun)
  | tick =>
    have hpolled : Quiet p (p.send p.id (.refresh (.polled p.tab))) := send_quiet (fun _ _ => nofun)
    exact hpolled.held h
  | arrive k =>
    rw [Page.perform]
    split
    · rename_i call hcall
      split
      · rename_i reply hreply
        have hrest : Held id doc { p with flight := p.flight.eraseIdx k } :=
          ⟨h.here, h.data, h.draft, h.guarded, fun c hc => h.calls c (List.mem_of_mem_eraseIdx hc)⟩
        exact settle_held hrest (h.calls call (List.mem_of_getElem? hcall)) hreply
          (hquiet k rfl call hcall reply hreply)
      · exact h
    · exact h
  | _ => exact hcells rfl rfl rfl rfl

lemma answer_held {id : RecordingId} {doc : Document} {p : Page} {k : ℕ} {reply : Reply} (h : Held id doc p)
    (hreply : ∀ r, reply = .analysis r → Listed id doc r) : Held id doc (p.answer k reply) := by
  refine ⟨h.here, h.data, h.draft, h.guarded, ?_⟩
  intro call hc
  rcases mem_answer hc with hold | ⟨call', hcall', rfl⟩
  · exact h.calls call hold
  · obtain ⟨hown, hreading, _, hsent⟩ := h.calls call' (List.mem_of_getElem? hcall')
    refine ⟨hown, hreading, ?_, hsent⟩
    intro r hr
    cases hr
    exact hreply r rfl

lemma read_held {id : RecordingId} {doc : Document} {p : Page} {k : ℕ} (h : Held id doc p) :
    Held id doc (Page.read p k doc.analysisRevision) := by
  refine ⟨h.here, h.data, h.draft, h.guarded, ?_⟩
  intro call hc
  rcases mem_modify hc with hold | ⟨call', hcall', rfl⟩
  · exact h.calls call hold
  · obtain ⟨hown, _, hreply, hsent⟩ := h.calls call' (List.mem_of_getElem? hcall')
    refine ⟨hown, ?_, hreply, hsent⟩
    intro revision hr
    cases hr
    exact Nat.le_refl _

structure SessionInvariant (id : RecordingId) (s : Session) : Prop where
  world : WorldInvariant s.world
  there : ¬ Absent s.world.db id
  held : Held id (docAt id s.world) s.page

lemma served_held {w : World} {id : RecordingId} {p : Page} {act : Act} (hworld : WorldInvariant w)
    (hthere : ¬ Absent w.db id) (hallowed : act.Allowed w)
    (hafter : ¬ Absent (perform w act).db id) (h : Held id (docAt id w) p) :
    Held id (docAt id (perform w act)) p :=
  h.bumps (wrote_bumps (step_wrote hworld.statuses hallowed id) hthere hafter)

lemma updateAnalysis_there {w : World} {id other : RecordingId} {revision : ℕ}
    {result : AnalysisResultV2} {now : Instant} (h : ¬ Absent w.db other) :
    ¬ Absent (perform w (.updateAnalysis id revision result now)).db other := by
  rcases perform_db w (.updateAnalysis id revision result now) with hok | ⟨hdb, _⟩
  · obtain ⟨_, _, _, _, _, _, hdb⟩ := editDocument_ok hok
    rw [hdb]
    exact h
  · rw [hdb]
    exact h

lemma savedReply_listed {w : World} {id : RecordingId} {act : Act} {r : AnalysisResponse}
    (h : savedReply id w act = .analysis r) : Listed id (docAt id (perform w act)) r := by
  rw [savedReply] at h
  split at h
  · rename_i db hok
    have hdb : (perform w act).db = db := by
      rw [perform]
      exact congrArg (settled w.db) hok
    split at h
    · rename_i r' hr
      cases h
      rw [docAt, hdb]
      exact getAnalysis_listed (Nat.le_refl _) hr
    · cases h
  · cases h
  · cases h

lemma saveOf_some {call : Call} {now : Instant} {act : Act} (h : saveOf call now = some act) :
    ∃ revision result, act = .updateAnalysis call.id revision result now := by
  rw [saveOf] at h
  split at h
  · rename_i current draft _
    cases h
    exact ⟨current.revision, draft.result, rfl⟩
  · cases h

lemma sessionStep_invariant {id : RecordingId} {s s' : Session} {act : SessionAct}
    (h : SessionInvariant id s) (hquiet : Undisturbed s act) (hstep : SessionStep s act s') :
    SessionInvariant id s' := by
  obtain ⟨hworld, hthere, hheld⟩ := h
  obtain ⟨hallowed, rfl⟩ := hstep
  have hhere := hheld.here
  cases act with
  | server act =>
    obtain ⟨hact, hafter⟩ := hallowed
    rw [hhere] at hafter
    exact ⟨step_invariant hworld ⟨hact, rfl⟩, hafter, served_held hworld hthere hact hafter hheld⟩
  | page act =>
    obtain ⟨henabled, hstay⟩ := hallowed
    refine ⟨hworld, hthere, perform_held hheld hstay ?_⟩
    rintro k rfl
    exact hquiet
  | readRecording k =>
    refine ⟨hworld, hthere, ?_⟩
    rw [SessionAct.next, hhere]
    exact read_held hheld
  | answer k reply =>
    obtain ⟨call, hcall, _, hserves⟩ := hallowed
    refine ⟨hworld, hthere, answer_held hheld ?_⟩
    rintro r rfl
    have hserved := hheld.calls call (List.mem_of_getElem? hcall)
    obtain ⟨revision, hreading, hr⟩ := hserves
    rw [hserved.own] at hr
    exact getAnalysis_listed (hserved.reading revision hreading) hr
  | updateAnalysis k now lost =>
    rw [SessionAct.next]
    split
    · rename_i id' act hact
      obtain ⟨call, hcall, hsave⟩ := Option.bind_eq_some_iff.mp hact
      obtain ⟨act', hact', he⟩ := Option.map_eq_some_iff.mp hsave
      cases he
      obtain ⟨revision, result, rfl⟩ := saveOf_some hact'
      have hown := (hheld.calls call (List.mem_of_getElem? hcall)).own
      rw [hown]
      have hallowed : Act.Allowed s.world (.updateAnalysis id revision result now) := trivial
      have hafter : ¬ Absent (perform s.world (.updateAnalysis id revision result now)).db id :=
        updateAnalysis_there hthere
      have hnext := served_held hworld hthere hallowed hafter hheld
      refine ⟨step_invariant hworld ⟨hallowed, rfl⟩, hafter, answer_held hnext ?_⟩
      cases lost with
      | none => exact fun r hr => savedReply_listed hr
      | some caught => exact fun _ => nofun
    · exact ⟨hworld, hthere, hheld⟩

lemma invariant_nothingLost {id : RecordingId} {s : Session} {act : SessionAct}
    (h : SessionInvariant id s) : NothingLost s act := by
  cases act with
  | updateAnalysis k now lost =>
    intro call hcall current draft htask
    obtain ⟨hown, _, _, hsent⟩ := h.held.calls call (List.mem_of_getElem? hcall)
    obtain ⟨hrevision, hlisted⟩ := hsent current draft htask
    refine ⟨hrevision, ?_⟩
    intro haccepted
    rw [hown] at haccepted ⊢
    have hstored := accepted_revision haccepted
    rw [hrevision] at hstored ⊢
    exact hlisted.stored hstored
  | _ => trivial

theorem analysis_saves_lose_nothing {settings : Option ProcessingSettings} {w : World}
    {id : RecordingId} {s : Session} {before : List (Event World Act)}
    {es : List (Event Session SessionAct)} (hbefore : WorldRun (World.init settings) before w)
    (hthere : ¬ Absent w.db id) (hrun : Run SessionStep ⟨w, Page.mount id⟩ es s)
    (hes : ∀ e ∈ es, Undisturbed e.before e.label) : ∀ e ∈ es, NothingLost e.before e.label := by
  have hinit : SessionInvariant id ⟨w, Page.mount id⟩ :=
    ⟨run_invariant hbefore, hthere, mount_held id _⟩
  intro e he
  obtain ⟨es, fs, rfl⟩ := List.append_of_mem he
  have hfirst := hrun.around.1
  exact invariant_nothingLost (hfirst.keeps_if (SessionInvariant id) Undisturbed
    (fun _ _ _ => sessionStep_invariant) hinit (fun e he => hes e (List.mem_append_left _ he)))

instance (w : World) (call : Call) : (reply : Reply) → Decidable (Serves w call reply)
  | .failed _ => inferInstanceAs (Decidable True)
  | .analysis r => inferInstanceAs
      (Decidable (∃ revision ∈ call.reading, getAnalysis call.id revision w.db = .ok r))
  | .live _ _ | .loaded _ _ _ => inferInstanceAs (Decidable (_ ∧ _))
  | .neighbours data => inferInstanceAs (Decidable ((Reply.neighbours data).About call.id))
  | .transcript data => inferInstanceAs (Decidable ((Reply.transcript data).About call.id))
  | .accepted => inferInstanceAs (Decidable (Reply.accepted.About call.id))

lemma server_allowed {s : Session} {act : Act} (h : act.Allowed s.world)
    (hafter : ¬ Absent (perform s.world act).db s.page.id) : (SessionAct.server act).Allowed s :=
  ⟨h, hafter⟩

lemma page_allowed {s : Session} {act : PageAct} (h : act.Enabled s.page)
    (hstay : ∀ id, act ≠ .stepTo id) : (SessionAct.page act).Allowed s := ⟨h, hstay⟩

lemma answer_allowed {s : Session} {k : ℕ} {reply : Reply}
    (h : ∃ call ∈ s.page.flight[k]?, call.reply = none ∧ Serves s.world call reply) :
    (SessionAct.answer k reply).Allowed s := h

lemma read_allowed {s : Session} {k : ℕ}
    (h : ∃ call ∈ s.page.flight[k]?, call.reply = none ∧ call.reading = none ∧ isAnalysis call.task) :
    (SessionAct.readRecording k).Allowed s := h

lemma save_allowed {s : Session} {k : ℕ} {now : Instant} {lost : Option Caught}
    (h : ∃ call ∈ s.page.flight[k]?, call.reply = none) :
    (SessionAct.updateAnalysis k now lost).Allowed s := h

def exampleRead (w : World) : AnalysisResponse :=
  valueOr ⟨1, .failed, [], none, [], 0, none, none⟩ (getAnalysis 1 (docAt 1 w).analysisRevision w.db)

def opens (w : World) (job : JobStatusResponse) : List SessionAct :=
  [.answer 0 (.loaded ⟨1, .completed⟩ ⟨1, .completed, some job⟩ []), .page (.arrive 0),
    .page (.openTab .analysis), .readRecording 1, .answer 1 (.analysis (exampleRead w)),
    .page (.arrive 1), .page .editAnalysis]

def editedActs : List SessionAct :=
  opens translatedWorld ⟨.translation, .completed⟩ ++ [.page .saveAnalysis]

def editedSession : Session := editedActs.foldl SessionAct.next ⟨translatedWorld, Page.mount 1⟩

lemma editedRun : Run SessionStep ⟨translatedWorld, Page.mount 1⟩
    (trail SessionAct.next ⟨translatedWorld, Page.mount 1⟩ editedActs) editedSession := by
  refine run_trail SessionAct.Allowed SessionAct.next ?_
  refine ⟨answer_allowed ?_, page_allowed ?_ (fun _ => nofun), page_allowed ?_ (fun _ => nofun),
    read_allowed ?_, answer_allowed ?_, page_allowed ?_ (fun _ => nofun),
    page_allowed ?_ (fun _ => nofun), page_allowed ?_ (fun _ => nofun), trivial⟩
  all_goals decide +kernel

lemma disturbs_draft {p : Page} {task : Task} {reply : Reply} (h : Disturbs p task reply) :
    p.analysisDraft ≠ none := by
  unfold Disturbs at h
  split at h
  · obtain ⟨_, d, hd, _⟩ := h
    rw [Option.mem_def.mp hd]
    exact nofun
  · cases h

lemma closed_undisturbed {s : Session} {k : ℕ} (h : s.page.analysisDraft = none) :
    Undisturbed s (.page (.arrive k)) := fun _ _ _ _ hdisturbs => disturbs_draft hdisturbs h

theorem analysis_saves_lose_nothing_undisturbed :
    NothingLost editedSession (.updateAnalysis 1 9 none) ∧
      ∃ call ∈ editedSession.page.flight[1]?, ∃ act ∈ saveOf call 9,
        (act.transaction editedSession.world.db).isOk := by
  refine ⟨?_, by decide +kernel⟩
  have hsave : SessionStep editedSession (.updateAnalysis 1 9 none)
      (SessionAct.next editedSession (.updateAnalysis 1 9 none)) :=
    ⟨save_allowed (by decide +kernel), rfl⟩
  have hthere : ¬ Absent translatedWorld.db 1 := by decide +kernel
  refine analysis_saves_lose_nothing (analysedRun.append translatedRun) hthere
    (editedRun.append (.single hsave)) ?_ _ (List.mem_append_right _ (List.mem_singleton_self _))
  · intro e he
    simp only [editedActs, opens, trail, List.cons_append, List.nil_append, List.mem_cons,
      List.not_mem_nil, or_false] at he
    rcases he with rfl | rfl | rfl | rfl | rfl | rfl | rfl | rfl | rfl
    · trivial
    · exact closed_undisturbed (by decide +kernel)
    · trivial
    · trivial
    · trivial
    · exact closed_undisturbed (by decide +kernel)
    all_goals trivial

def exampleReanalysis : Processing.Contracts.AnalysisResult :=
  valueOr ⟨.skipped, [], none, 2, none, none, none⟩
    ((Processing.Analysis.AnalysisProvider.lmstudio id).analyze
      (.ok ("model".toList, { exampleDraft with
        description := ⟨"返事".toList, "回應".toList⟩
        description_valid := by decide })) exampleTranscript.transcript)

def reanalysisClaim : ClaimedJob :=
  ⟨5, some 1, .analysis, 10, "worker".toList, 1, 2, .analyzing, none⟩

def reanalyse : Act := .server (.reprocessAnalysis exampleService 1 ⟨5, 6⟩ 6)

def requestedWorld : World := perform translatedWorld reanalyse

def reanalysedActs : List Act :=
  [.server (.queue (.claimNext exampleWorker 7 10 none [])), .load reanalysisClaim,
    .commit exampleWorker reanalysisClaim (.analysis exampleReanalysis 8) 8 ⟨6, 8⟩]

def reanalysedWorld : World := reanalysedActs.foldl perform requestedWorld

/-- The second analysis is committed under the open editor, a poll brings it, and the draft of the
first is saved with the revision of the second. -/
def disturbedActs : List SessionAct :=
  opens requestedWorld ⟨.analysis, .queued⟩ ++ [.page .tick] ++ reanalysedActs.map .server ++
    [.answer 1 (.live ⟨1, .completed, some ⟨.analysis, .completed⟩⟩ []), .page (.arrive 1),
      .readRecording 1, .answer 1 (.analysis (exampleRead reanalysedWorld)), .page (.arrive 1),
      .page .saveAnalysis]

def disturbedSession : Session :=
  disturbedActs.foldl SessionAct.next ⟨requestedWorld, Page.mount 1⟩

lemma disturbedRun : Run SessionStep ⟨requestedWorld, Page.mount 1⟩
    (trail SessionAct.next ⟨requestedWorld, Page.mount 1⟩ disturbedActs) disturbedSession := by
  refine run_trail SessionAct.Allowed SessionAct.next ?_
  refine ⟨answer_allowed ?_, page_allowed ?_ (fun _ => nofun), page_allowed ?_ (fun _ => nofun),
    read_allowed ?_, answer_allowed ?_, page_allowed ?_ (fun _ => nofun),
    page_allowed ?_ (fun _ => nofun), page_allowed ?_ (fun _ => nofun),
    server_allowed (claimNext_allowed ?_) ?_, server_allowed (load_allowed ?_) ?_,
    server_allowed ⟨?_, rfl, ⟨reanalysisClaim, exampleTranscript.transcript⟩, ?_, rfl, _, _,
      ok_valueOr _ ?_⟩ ?_,
    answer_allowed ?_, page_allowed ?_ (fun _ => nofun), read_allowed ?_, answer_allowed ?_,
    page_allowed ?_ (fun _ => nofun), page_allowed ?_ (fun _ => nofun), trivial⟩
  all_goals decide +kernel

theorem disturbed_save_loses_analysis :
    ¬ ∀ (settings : Option ProcessingSettings) (w : World) (id : RecordingId) (s : Session)
      (before : List (Event World Act)) (es : List (Event Session SessionAct)),
      WorldRun (World.init settings) before w → ¬ Absent w.db id →
      Run SessionStep ⟨w, Page.mount id⟩ es s → ∀ e ∈ es, NothingLost e.before e.label := by
  intro h
  have hrequested : WorldRun translatedWorld [⟨translatedWorld, reanalyse, requestedWorld⟩]
      requestedWorld := .single ⟨trivial, rfl⟩
  have hsave : SessionStep disturbedSession (.updateAnalysis 1 9 none)
      (SessionAct.next disturbedSession (.updateAnalysis 1 9 none)) :=
    ⟨save_allowed (by decide +kernel), rfl⟩
  have hkept := h none requestedWorld 1 _ _ _
    ((analysedRun.append translatedRun).append hrequested) (by decide +kernel)
    (disturbedRun.append (.single hsave)) _ (List.mem_append_right _ (List.mem_singleton_self _))
  let result := cloneResult ((exampleRead requestedWorld).result.getD ⟨⟨[], []⟩, none, [], [], []⟩)
  have htask : disturbedSession.page.flight[1]?.map (fun call => (call.id, call.task)) =
      some (1, .saveAnalysis (exampleRead reanalysedWorld) ⟨exampleRead requestedWorld, result⟩) := by
    decide +kernel
  obtain ⟨call, hcall, he⟩ := Option.map_eq_some_iff.mp htask
  injection he with hid hcarried
  have hok : ((Act.updateAnalysis 1 (exampleRead reanalysedWorld).revision result 9).transaction
      disturbedSession.world.db).isOk := by decide +kernel
  have haccepted : Accepted disturbedSession.world
      (.updateAnalysis call.id (exampleRead reanalysedWorld).revision result 9) := by
    rw [hid]
    exact ⟨_, ok_valueOr ((), disturbedSession.world.db) hok⟩
  obtain ⟨analysis, _, hsource⟩ := (hkept call hcall _ _ hcarried).2 haccepted
  have hrevisions := congrArg AnalysisResponse.revision hsource
  have hdiffer : (exampleRead requestedWorld).revision ≠ (exampleRead reanalysedWorld).revision := by
    decide +kernel
  exact hdiffer hrevisions

end AudioServer.Web.AnalysisEditor
