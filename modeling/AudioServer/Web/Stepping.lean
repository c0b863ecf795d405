import AudioServer.Foundations.Runs
import AudioServer.Web.DetailPage

/-! Stepping between recordings on one detail page: what it shows and what it
sends belong to the recording of its route. -/

namespace AudioServer.Web.Stepping

open AudioServer.Foundations.Runs
open AudioServer.Api.Schemas AudioServer.Db.Models AudioServer.Api.Responses
open AudioServer.Web.DetailPage

inductive DetailAct
  | page (act : PageAct)
  | answer (k : ℕ) (reply : Reply)
deriving DecidableEq

def DetailAct.Allowed (p : Page) : DetailAct → Prop
  | .page act => act.Enabled p
  | .answer k reply => ∃ call ∈ p.flight[k]?, call.reply = none ∧ reply.About call.id

instance (p : Page) : (act : DetailAct) → Decidable (act.Allowed p)
  | .page act => inferInstanceAs (Decidable (act.Enabled p))
  | .answer k reply => inferInstanceAs
      (Decidable (∃ call ∈ p.flight[k]?, call.reply = none ∧ reply.About call.id))

def DetailAct.next (p : Page) : DetailAct → Page
  | .page act => p.perform act
  | .answer k reply => p.answer k reply

def DetailStep (p : Page) (act : DetailAct) (p' : Page) : Prop := act.Allowed p ∧ p' = act.next p

def Task.Carries (id : RecordingId) : Task → Prop
  | .saveTranscript draft => draft.recordingId = id
  | .saveTranslations draft shown => draft.recordingId = id ∧ shown.recordingId = id
  | .saveAnalysis current draft => current.recordingId = id ∧ draft.source.recordingId = id
  | _ => True

structure Belongs (p : Page) : Prop where
  status : p.Shown → ∀ s ∈ p.status, s.recordingId = p.id
  activity : p.Shown → ∀ a ∈ p.activity, a.recordingId = p.id
  transcript : p.Shown → p.readsTranscript → ∀ r ∈ p.shownTranscript, r.recordingId = p.id
  readings : p.Shown → p.readsTranscript → ∀ r ∈ p.transcript.data, r.recordingId = p.id
  analysis : p.Shown → p.tab = .analysis → ∀ r ∈ p.analysis.data, r.recordingId = p.id
  draft : p.Shown → p.tab = .analysis → ∀ d ∈ p.analysisDraft, d.source.recordingId = p.id
  saves : ∀ call ∈ p.flight, Task.Carries call.id call.task

def Past (p : Page) : Prop := p.left = false ∧ p.loading = false ∧ p.error = none

def Displaces (p : Page) : Task → Reply → Prop
  | .refresh _, .live _ _ => Past p
  | .analysis request _, .analysis _ =>
    p.analysisRequest = request ∧ p.error = none ∧ p.tab = .analysis
  | .saveAnalysis _ _, .analysis _ => p.error = none ∧ p.tab = .analysis
  | .saveTranscript _, .transcript _ => p.error = none ∧ (p.readsTranscript ∨ p.translationDraft.isSome)
  | .saveTranslations _ _, .transcript _ =>
    p.error = none ∧ (p.readsTranscript ∨ p.transcriptDraft.isSome)
  | _, _ => False

/-- No answer that nothing cancels displaces what the page shows of its own recording, and the
analysis tab is not opened while the page still holds an analysis, or a draft of one, of a recording
it has left. -/
def Unmixed (p : Page) : DetailAct → Prop
  | .page (.openTab .analysis) =>
    (∀ r ∈ p.analysis.data, r.recordingId = p.id) ∧
      ∀ d ∈ p.analysisDraft, d.source.recordingId = p.id
  | .page (.arrive k) => ∀ call ∈ p.flight[k]?, ∀ reply ∈ call.reply,
      Displaces p call.task reply → call.id = p.id
  | _ => True

structure CallOk (id : RecordingId) (visit run : ℕ) (call : Call) : Prop where
  about : ∀ reply ∈ call.reply, reply.About call.id
  initial : ∀ v, call.task = .initial v → v ≤ visit ∧ (v = visit → call.id = id)
  transcript : ∀ r, call.task = .transcript r → r ≤ run ∧ (r = run → call.id = id)
  carries : Task.Carries call.id call.task

lemma CallOk.rerun {id : RecordingId} {visit run : ℕ} {call : Call} (h : CallOk id visit run call) :
    CallOk id visit (run + 1) call := by
  refine ⟨h.about, h.initial, ?_, h.carries⟩
  intro r hr
  have hle := (h.transcript r hr).1
  exact ⟨by omega, fun he => absurd he (by omega)⟩

lemma CallOk.moved {id next : RecordingId} {visit run : ℕ} {call : Call}
    (h : CallOk id visit run call) : CallOk next (visit + 1) (run + 1) call := by
  refine ⟨h.about, ?_, ?_, h.carries⟩
  · intro v hv
    have hle := (h.initial v hv).1
    exact ⟨by omega, fun he => absurd he (by omega)⟩
  · intro r hr
    have hle := (h.transcript r hr).1
    exact ⟨by omega, fun he => absurd he (by omega)⟩

lemma callOk_sent {id for_ : RecordingId} {visit run : ℕ} {task : Task}
    (hcarries : Task.Carries for_ task) (hinitial : ∀ v, task ≠ .initial v)
    (htranscript : ∀ r, task ≠ .transcript r) : CallOk id visit run ⟨for_, task, none, none⟩ := by
  refine ⟨?_, ?_, ?_, hcarries⟩
  · intro reply hr
    cases hr
  · intro v hv
    exact absurd hv (hinitial v)
  · intro r hr
    exact absurd hr (htranscript r)

lemma callOk_initial (id : RecordingId) (visit run : ℕ) :
    CallOk id visit run ⟨id, .initial visit, none, none⟩ := by
  refine ⟨?_, ?_, ?_, trivial⟩
  · intro reply hr
    cases hr
  · intro v hv
    cases hv
    exact ⟨Nat.le_refl _, fun _ => rfl⟩
  · intro r hr
    cases hr

lemma callOk_transcript (id : RecordingId) (visit run : ℕ) :
    CallOk id visit run ⟨id, .transcript run, none, none⟩ := by
  refine ⟨?_, ?_, ?_, trivial⟩
  · intro reply hr
    cases hr
  · intro v hv
    cases hv
  · intro r hr
    cases hr
    exact ⟨Nat.le_refl _, fun _ => rfl⟩

def Calls (id : RecordingId) (visit run : ℕ) (flight : List Call) : Prop :=
  ∀ call ∈ flight, CallOk id visit run call

lemma calls_append {id : RecordingId} {visit run : ℕ} {flight : List Call} {call : Call}
    (h : Calls id visit run flight) (hc : CallOk id visit run call) :
    Calls id visit run (flight ++ [call]) := by
  intro c hmem
  rcases List.mem_append.mp hmem with hmem | hmem
  · exact h c hmem
  · rw [List.mem_singleton.mp hmem]
    exact hc

def LiveKept (p : Page) : Prop :=
  Past p → (∀ s ∈ p.status, s.recordingId = p.id) ∧ ∀ a ∈ p.activity, a.recordingId = p.id

def DraftsKept (p : Page) : Prop :=
  (∀ d ∈ p.transcriptDraft, d.recordingId = p.id) ∧ ∀ d ∈ p.translationDraft, d.recordingId = p.id

def TranscriptKept (p : Page) : Prop :=
  p.error = none → (∀ r ∈ p.transcript.data, r.recordingId = p.id) ∨
    (p.readsTranscript = false ∧ p.hasOpenDraft = false)

def AnalysisKept (p : Page) : Prop :=
  p.error = none → p.tab = .analysis → (∀ r ∈ p.analysis.data, r.recordingId = p.id) ∧
    ∀ d ∈ p.analysisDraft, d.source.recordingId = p.id

structure Separate (p : Page) : Prop where
  calls : Calls p.id p.visit p.transcriptRun p.flight
  live : LiveKept p
  drafts : DraftsKept p
  transcript : TranscriptKept p
  analysis : AnalysisKept p

lemma Separate.belongs {p : Page} (h : Separate p) : Belongs p := by
  have hreads : p.Shown → p.readsTranscript → ∀ r ∈ p.transcript.data, r.recordingId = p.id := by
    rintro ⟨_, _, herror, _⟩ hreads
    rcases h.transcript herror with hdata | ⟨hnot, _⟩
    · exact hdata
    · rw [hnot] at hreads
      cases hreads
  refine ⟨?_, ?_, ?_, hreads, ?_, ?_, fun call hc => (h.calls call hc).carries⟩
  · rintro ⟨hleft, hloading, herror, _⟩
    exact (h.live ⟨hleft, hloading, herror⟩).1
  · rintro ⟨hleft, hloading, herror, _⟩
    exact (h.live ⟨hleft, hloading, herror⟩).2
  · intro hshown htab r hr
    rcases Option.or_eq_some_iff.mp hr with hdraft | ⟨_, hdata⟩
    · exact h.drafts.1 r hdraft
    · exact hreads hshown htab r hdata
  · rintro ⟨_, _, herror, _⟩ htab
    exact (h.analysis herror htab).1
  · rintro ⟨_, _, herror, _⟩ htab
    exact (h.analysis herror htab).2

lemma send_separate {p : Page} {id : RecordingId} {task : Task} (h : Separate p)
    (hcarries : Task.Carries id task) (hinitial : ∀ v, task ≠ .initial v)
    (htranscript : ∀ r, task ≠ .transcript r) : Separate (p.send id task) :=
  ⟨calls_append h.calls (callOk_sent hcarries hinitial htranscript), h.live, h.drafts, h.transcript,
    h.analysis⟩

lemma loadAnalysis_separate {p : Page} {id : RecordingId} {awaiting : Option Mutation}
    (h : Separate p) : Separate (p.loadAnalysis id awaiting) := by
  refine ⟨?_, h.live, h.drafts, h.transcript, ?_⟩
  · exact calls_append h.calls (callOk_sent trivial (fun _ => nofun) (fun _ => nofun))
  · intro herror htab
    exact ⟨fun r hr => absurd hr (by simp [Loaded.data, Page.loadAnalysis, Page.replaceAnalysis, Page.send]),
      (h.analysis herror htab).2⟩

lemma analysisEffect_separate {p : Page} (h : Separate p) : Separate p.analysisEffect := by
  rw [Page.analysisEffect]
  split
  · exact loadAnalysis_separate h
  · exact h

lemma transcriptEffect_separate {p : Page} (hcalls : Calls p.id p.visit (p.transcriptRun + 1) p.flight)
    (hlive : LiveKept p) (hdrafts : DraftsKept p) (hanalysis : AnalysisKept p)
    (hdata : p.error = none → p.hasOpenDraft = true → ∀ r ∈ p.transcript.data, r.recordingId = p.id) :
    Separate p.transcriptEffect := by
  rw [Page.transcriptEffect]
  split
  · refine ⟨calls_append hcalls (callOk_transcript _ _ _), hlive, hdrafts, ?_, hanalysis⟩
    intro _
    refine .inl (fun r hr => ?_)
    cases hr
  · rename_i hnot
    refine ⟨hcalls, hlive, hdrafts, ?_, hanalysis⟩
    intro herror
    cases hdraft : p.hasOpenDraft with
    | true => exact .inl (hdata herror hdraft)
    | false =>
      have hreads : p.readsTranscript = false := by simpa [hdraft] using hnot
      exact .inr ⟨hreads, hdraft⟩

lemma Separate.rerun {p : Page} (h : Separate p) : Separate p.transcriptEffect := by
  refine transcriptEffect_separate (fun c hc => (h.calls c hc).rerun) h.live h.drafts h.analysis ?_
  intro herror hdraft
  rcases h.transcript herror with hdata | ⟨_, hnone⟩
  · exact hdata
  · rw [hnone] at hdraft
    cases hdraft

lemma translationEffect_separate {p : Page} (h : Separate p) : Separate p.translationEffect := by
  have hflag (flag : Bool) : Separate { p with wasTranslating := flag } :=
    ⟨h.calls, h.live, h.drafts, h.transcript, h.analysis⟩
  rw [Page.translationEffect]
  split
  · exact hflag true
  · split
    · exact (hflag false).rerun
    · exact h

lemma setStatus_separate {p : Page} {next : RecordingStatusResponse}
    (h : Separate { p with status := some next }) : Separate (p.setStatus next) := by
  rw [Page.setStatus]
  split
  · exact translationEffect_separate h.rerun
  · exact translationEffect_separate h

lemma visited_separate {p : Page} {id : RecordingId} {visit run : ℕ}
    (hcalls : Calls id visit run p.flight) (hvisit : p.visit = visit) (hrun : p.transcriptRun = run)
    (htab : p.tab ≠ .analysis) (htranscript : p.transcriptDraft = none)
    (htranslation : p.translationDraft = none) :
    Separate (p.visitEffect.transcriptEffect).analysisEffect := by
  subst hvisit hrun
  apply analysisEffect_separate
  refine transcriptEffect_separate ?_ ?_ ?_ ?_ ?_
  · have hmoved : Calls p.id (p.visit + 1) (p.transcriptRun + 1) p.flight :=
      fun c hc => (hcalls c hc).moved
    exact calls_append (calls_append hmoved (callOk_initial _ _ _))
      (callOk_sent trivial (fun _ => nofun) (fun _ => nofun))
  · intro hpast
    cases hpast.2.1
  · refine ⟨fun d hd => ?_, fun d hd => ?_⟩
    · have hd' : p.transcriptDraft = some d := hd
      rw [htranscript] at hd'
      cases hd'
    · have hd' : p.translationDraft = some d := hd
      rw [htranslation] at hd'
      cases hd'
  · intro _ h
    exact absurd h htab
  · intro _ hdraft
    have hnone : p.hasOpenDraft = false := by simp [Page.hasOpenDraft, htranscript, htranslation]
    have hopen : p.hasOpenDraft = true := hdraft
    rw [hnone] at hopen
    cases hopen

lemma mount_separate (id : RecordingId) : Separate (Page.mount id) := by
  have hcalls : Calls id 0 0 (Page.blank id).flight := by
    intro c hc
    cases hc
  exact visited_separate hcalls rfl rfl nofun rfl rfl

lemma left_separate {p : Page} (h : Separate p) : Separate { p with left := true } := by
  refine ⟨h.calls, ?_, h.drafts, h.transcript, h.analysis⟩
  intro hpast
  cases hpast.1

lemma handleRequestError_separate {p : Page} {caught : Caught} (loading : Bool) (h : Separate p) :
    Separate { p.handleRequestError caught with loading := loading } := by
  unfold Page.handleRequestError
  split
  · refine ⟨h.calls, ?_, h.drafts, h.transcript, h.analysis⟩
    intro hpast
    cases hpast.1
  all_goals
    refine ⟨h.calls, ?_, h.drafts, ?_, ?_⟩
    · intro hpast
      cases hpast.2.2
    · intro herror
      cases herror
    · intro herror
      cases herror

lemma failMutation_separate {p : Page} {m : Mutation} {caught : Caught} (h : Separate p) :
    Separate (p.failMutation m caught) := by
  unfold Page.failMutation Page.handleMutationError
  split
  · have hleft := left_separate h
    exact ⟨hleft.calls, hleft.live, hleft.drafts, hleft.transcript, hleft.analysis⟩
  all_goals exact ⟨h.calls, h.live, h.drafts, h.transcript, h.analysis⟩

lemma initialSettled_separate {p : Page} {id : RecordingId} {visit : ℕ} {reply : Reply}
    (h : Separate p) (habout : reply.About id) (hvisit : visit = p.visit → id = p.id) :
    Separate (p.initialSettled visit reply) := by
  cases reply with
  | loaded recording status activity =>
    obtain ⟨_, hstatus, hactivity⟩ := habout
    rw [Page.initialSettled]
    split
    · rename_i hv
      have hid := hvisit hv.symm
      apply setStatus_separate
      refine ⟨h.calls, ?_, h.drafts, h.transcript, h.analysis⟩
      intro _
      refine ⟨fun s hs => ?_, fun a ha => (hactivity a ha).trans hid⟩
      cases hs
      exact hstatus.trans hid
    · exact h
  | failed caught =>
    rw [Page.initialSettled]
    split
    · exact handleRequestError_separate false h
    · exact h
  | _ => exact h

lemma neighboursSettled_separate {p : Page} {visit : ℕ} {reply : Reply} (h : Separate p) :
    Separate (p.neighboursSettled visit reply) := by
  cases reply with
  | neighbours data =>
    rw [Page.neighboursSettled]
    split
    · exact ⟨h.calls, h.live, h.drafts, h.transcript, h.analysis⟩
    · exact h
  | _ => exact h

lemma transcriptSettled_separate {p : Page} {id : RecordingId} {run : ℕ} {reply : Reply}
    (h : Separate p) (habout : reply.About id) (hrun : run = p.transcriptRun → id = p.id) :
    Separate (p.transcriptSettled run reply) := by
  cases reply with
  | transcript data =>
    rw [Page.transcriptSettled]
    split
    · rename_i hr
      refine ⟨h.calls, h.live, h.drafts, ?_, h.analysis⟩
      intro _
      refine .inl (fun r hdata => ?_)
      cases hdata
      exact habout.trans (hrun hr.symm)
    · exact h
  | failed caught =>
    have hempty (next : Loaded TranscriptResponse) (hnext : next.data = none) :
        Separate { p with transcript := next } := by
      refine ⟨h.calls, h.live, h.drafts, ?_, h.analysis⟩
      intro _
      refine .inl (fun r hdata => ?_)
      rw [hnext] at hdata
      cases hdata
    rw [Page.transcriptSettled]
    split
    · split
      · exact hempty _ rfl
      · exact left_separate h
      · exact hempty _ rfl
    · exact h
  | _ => exact h

lemma awaited_separate {p : Page} {awaiting : Option Mutation} (h : Separate p) :
    Separate (p.awaited awaiting) := by
  cases awaiting with
  | none => exact h
  | some m => exact ⟨h.calls, h.live, h.drafts, h.transcript, h.analysis⟩

lemma settleAnalysis_separate {p : Page} {request : ℕ} {next : Loaded AnalysisResponse}
    (h : Separate p) (hnext : p.analysisRequest = request → p.error = none → p.tab = .analysis →
      ∀ r ∈ next.data, r.recordingId = p.id) : Separate (p.settleAnalysis request next) := by
  rw [Page.settleAnalysis]
  split
  · rename_i hnewest
    refine ⟨h.calls, h.live, h.drafts, h.transcript, ?_⟩
    intro herror htab
    exact ⟨hnext hnewest herror htab, (h.analysis herror htab).2⟩
  · exact h

lemma analysisSettled_separate {p : Page} {id : RecordingId} {request : ℕ}
    {awaiting : Option Mutation} {reply : Reply} (h : Separate p) (habout : reply.About id)
    (hmixed : Displaces p (.analysis request awaiting) reply → id = p.id) :
    Separate (p.analysisSettled request awaiting reply) := by
  have hempty {next : Loaded AnalysisResponse} (hnext : next.data = none) :
      Separate ((p.settleAnalysis request next).awaited awaiting) := by
    refine awaited_separate (settleAnalysis_separate h ?_)
    intro _ _ _ r hr
    rw [hnext] at hr
    cases hr
  cases reply with
  | analysis data =>
    refine awaited_separate (settleAnalysis_separate h ?_)
    intro hnewest herror htab r hr
    cases hr
    exact habout.trans (hmixed ⟨hnewest, herror, htab⟩)
  | failed caught =>
    rw [Page.analysisSettled]
    split
    · rename_i hsettled
      exact hempty (settled_data hsettled)
    · exact awaited_separate (left_separate h)
  | _ => exact h

lemma continue_separate {p : Page} {id : RecordingId} {after : After} (h : Separate p) :
    Separate (p.continue id after) := by
  have hqueued (m : Mutation) : Separate { p with mutationMessage := some m.queued }.mutated :=
    ⟨h.calls, h.live, h.drafts, h.transcript, h.analysis⟩
  cases after with
  | polled tab =>
    rw [Page.continue]
    split
    · exact loadAnalysis_separate h
    · exact h
  | mutation m =>
    cases m with
    | reanalyse => exact loadAnalysis_separate h
    | translation => exact (hqueued .translation).rerun
    | _ => exact hqueued _

lemma refreshSettled_separate {p : Page} {id : RecordingId} {after : After} {reply : Reply}
    (h : Separate p) (habout : reply.About id)
    (hmixed : Displaces p (.refresh after) reply → id = p.id) :
    Separate (p.refreshSettled id after reply) := by
  cases reply with
  | live status activity =>
    obtain ⟨hstatus, hactivity⟩ := habout
    refine continue_separate (setStatus_separate ?_)
    refine ⟨h.calls, ?_, h.drafts, h.transcript, h.analysis⟩
    intro hpast
    have hid := hmixed hpast
    refine ⟨fun s hs => ?_, fun a ha => (hactivity a ha).trans hid⟩
    cases hs
    exact hstatus.trans hid
  | failed caught =>
    cases after with
    | polled tab => exact handleRequestError_separate (p.handleRequestError caught).loading h
    | mutation m => exact failMutation_separate h
  | _ => exact h

lemma mutateSettled_separate {p : Page} {id : RecordingId} {m : Mutation} {reply : Reply}
    (h : Separate p) : Separate (p.mutateSettled id m reply) := by
  cases reply with
  | accepted => exact send_separate h trivial (fun _ => nofun) (fun _ => nofun)
  | failed caught => exact failMutation_separate h
  | _ => exact h

lemma Separate.data_kept {p : Page} (h : Separate p) (hreads : p.readsTranscript = true) :
    p.error = none → ∀ r ∈ p.transcript.data, r.recordingId = p.id := by
  intro herror
  rcases h.transcript herror with hdata | ⟨hnot, _⟩
  · exact hdata
  · rw [hnot] at hreads
    cases hreads

lemma saved_transcriptKept {p : Page} {id : RecordingId} {saved : TranscriptResponse}
    (hsaved : saved.recordingId = id)
    (hmixed : p.error = none ∧ (p.readsTranscript ∨ p.hasOpenDraft) → id = p.id) :
    TranscriptKept { p with transcript := .ready saved } := by
  intro herror
  by_cases hview : p.readsTranscript ∨ p.hasOpenDraft
  · refine .inl (fun r hr => ?_)
    cases hr
    exact hsaved.trans (hmixed ⟨herror, hview⟩)
  · simp only [not_or, Bool.not_eq_true] at hview
    exact .inr hview

lemma transcriptSaved_separate {p : Page} {id : RecordingId} {draft : TranscriptResponse}
    {reply : Reply} (h : Separate p) (habout : reply.About id)
    (hmixed : Displaces p (.saveTranscript draft) reply → id = p.id) :
    Separate (p.transcriptSaved reply) := by
  cases reply with
  | transcript saved =>
    have hkept : TranscriptKept { p with transcript := .ready saved, transcriptDraft := none } := by
      refine saved_transcriptKept (p := { p with transcriptDraft := none }) habout ?_
      simpa [Displaces, Page.hasOpenDraft, Page.readsTranscript] using hmixed
    refine ⟨h.calls, h.live, ⟨fun d hd => ?_, h.drafts.2⟩, hkept, ?_⟩
    · cases hd
    · intro herror htab
      exact ⟨fun r hr => absurd hr nofun, (h.analysis herror htab).2⟩
  | failed caught => exact failMutation_separate h
  | _ => exact h

lemma translationsSaved_separate {p : Page} {id : RecordingId} {draft : TranslationDraft}
    {shown : TranscriptResponse} {reply : Reply} (h : Separate p) (habout : reply.About id)
    (hmixed : Displaces p (.saveTranslations draft shown) reply → id = p.id) :
    Separate (p.translationsSaved reply) := by
  cases reply with
  | transcript saved =>
    have hkept : TranscriptKept { p with transcript := .ready saved, translationDraft := none } := by
      refine saved_transcriptKept (p := { p with translationDraft := none }) habout ?_
      simpa [Displaces, Page.hasOpenDraft, Page.readsTranscript] using hmixed
    refine ⟨h.calls, h.live, ⟨h.drafts.1, fun d hd => ?_⟩, hkept, h.analysis⟩
    cases hd
  | failed caught => exact failMutation_separate h
  | _ => exact h

lemma analysisSaved_separate {p : Page} {id : RecordingId} {current : AnalysisResponse}
    {draft : AnalysisDraft} {reply : Reply} (h : Separate p) (habout : reply.About id)
    (hmixed : Displaces p (.saveAnalysis current draft) reply → id = p.id) :
    Separate (p.analysisSaved reply) := by
  cases reply with
  | analysis saved =>
    refine ⟨h.calls, h.live, h.drafts, h.transcript, ?_⟩
    intro herror htab
    refine ⟨fun r hr => ?_, fun d hd => ?_⟩
    · cases hr
      exact habout.trans (hmixed ⟨herror, htab⟩)
    · cases hd
  | failed caught => exact failMutation_separate h
  | _ => exact h

lemma settle_separate {p : Page} {call : Call} {reply : Reply} (h : Separate p)
    (hcall : CallOk p.id p.visit p.transcriptRun call) (hreply : call.reply = some reply)
    (hmixed : Displaces p call.task reply → call.id = p.id) :
    Separate (p.settle call.id reply call.task) := by
  have habout := hcall.about reply hreply
  cases htask : call.task with
  | initial v => exact initialSettled_separate h habout (hcall.initial v htask).2
  | neighbours v => exact neighboursSettled_separate h
  | transcript r => exact transcriptSettled_separate h habout (hcall.transcript r htask).2
  | analysis request awaiting => exact analysisSettled_separate h habout (htask ▸ hmixed)
  | refresh after => exact refreshSettled_separate h habout (htask ▸ hmixed)
  | mutate m => exact mutateSettled_separate h
  | saveTranscript draft => exact transcriptSaved_separate h habout (htask ▸ hmixed)
  | saveTranslations draft shown => exact translationsSaved_separate h habout (htask ▸ hmixed)
  | saveAnalysis current draft => exact analysisSaved_separate h habout (htask ▸ hmixed)

lemma arrive_separate {p : Page} {k : ℕ} (h : Separate p)
    (hmixed : Unmixed p (.page (.arrive k))) : Separate (p.perform (.arrive k)) := by
  rw [Page.perform]
  split
  · rename_i call hcall
    split
    · rename_i reply hreply
      have hrest : Separate { p with flight := p.flight.eraseIdx k } :=
        ⟨fun c hc => h.calls c (List.mem_of_mem_eraseIdx hc), h.live, h.drafts, h.transcript,
          h.analysis⟩
      exact settle_separate hrest (h.calls call (List.mem_of_getElem? hcall)) hreply
        (hmixed call hcall reply hreply)
    · exact h
  · exact h

lemma openTab_separate {p : Page} {tab : DetailTab} (h : Separate p)
    (hmixed : Unmixed p (.page (.openTab tab))) : Separate (p.perform (.openTab tab)) := by
  rw [Page.perform]
  split
  · exact h
  · apply analysisEffect_separate
    refine transcriptEffect_separate (fun c hc => (h.calls c hc).rerun) h.live h.drafts ?_ ?_
    · rintro _ rfl
      exact hmixed
    · intro herror hdraft
      rcases h.transcript herror with hdata | ⟨_, hnone⟩
      · exact hdata
      · rw [show p.hasOpenDraft = true from hdraft] at hnone
        cases hnone

lemma stepTo_separate {p : Page} {id : RecordingId} (h : Separate p)
    (henabled : PageAct.Enabled p (.stepTo id)) : Separate (p.perform (.stepTo id)) := by
  obtain ⟨_, htab, hdraft, _⟩ := henabled
  simp only [Page.hasOpenDraft, Bool.or_eq_false_iff, Option.isSome_eq_false_iff,
    Option.isNone_iff_eq_none] at hdraft
  refine visited_separate (p := { p with id := id }) h.calls rfl rfl ?_ hdraft.1 hdraft.2
  intro htab'
  rw [show p.tab = .analysis from htab'] at htab
  cases htab

lemma transcriptDraft_separate {p : Page} {draft : Option TranscriptResponse} (h : Separate p)
    (htab : p.readsTranscript = true) (hdraft : ∀ d ∈ draft, d.recordingId = p.id) :
    Separate { p with transcriptDraft := draft } :=
  ⟨h.calls, h.live, ⟨hdraft, h.drafts.2⟩, fun herror => .inl (h.data_kept htab herror), h.analysis⟩

lemma translationDraft_separate {p : Page} {draft : Option TranslationDraft} (h : Separate p)
    (htab : p.readsTranscript = true) (hdraft : ∀ d ∈ draft, d.recordingId = p.id) :
    Separate { p with translationDraft := draft } :=
  ⟨h.calls, h.live, ⟨h.drafts.1, hdraft⟩, fun herror => .inl (h.data_kept htab herror), h.analysis⟩

lemma analysisDraft_separate {p : Page} {draft : Option AnalysisDraft} (h : Separate p)
    (hdraft : p.error = none → p.tab = .analysis → ∀ d ∈ draft, d.source.recordingId = p.id) :
    Separate { p with analysisDraft := draft } :=
  ⟨h.calls, h.live, h.drafts, h.transcript, fun herror htab =>
    ⟨(h.analysis herror htab).1, hdraft herror htab⟩⟩

lemma save_separate {p : Page} {m : Mutation} {task : Task} (message : Option String) (h : Separate p)
    (hcarries : Task.Carries p.id task) (hinitial : ∀ v, task ≠ .initial v)
    (htranscript : ∀ r, task ≠ .transcript r) :
    Separate ({ p.begin m with mutationMessage := message }.send p.id task) :=
  send_separate (p := { p.begin m with mutationMessage := message })
    ⟨h.calls, h.live, h.drafts, h.transcript, h.analysis⟩ hcarries hinitial htranscript

lemma perform_separate {p : Page} {act : PageAct} (h : Separate p) (henabled : act.Enabled p)
    (hmixed : Unmixed p (.page act)) : Separate (p.perform act) := by
  have htranscript (htab : p.tab = .transcript) : p.readsTranscript = true := by
    simp [Page.readsTranscript, htab]
  have htranslations (htab : p.tab = .translations) : p.readsTranscript = true := by
    simp [Page.readsTranscript, htab]
  cases act with
  | openTab tab => exact openTab_separate h hmixed
  | stepTo id => exact stepTo_separate h henabled
  | editTranscript =>
    obtain ⟨hshown, htab, _⟩ := henabled
    exact transcriptDraft_separate h (htranscript htab)
      (h.belongs.transcript hshown (htranscript htab))
  | typeTranscript segments =>
    obtain ⟨_, htab, _⟩ := henabled
    refine transcriptDraft_separate h (htranscript htab) ?_
    intro d hd
    obtain ⟨d', hd', rfl⟩ := Option.mem_map.mp hd
    exact h.drafts.1 d' hd'
  | cancelTranscript =>
    obtain ⟨_, htab, _⟩ := henabled
    exact transcriptDraft_separate h (htranscript htab) (fun d hd => absurd hd nofun)
  | saveTranscript =>
    rw [Page.perform]
    split
    · rename_i draft hdraft
      exact save_separate p.mutationMessage h (h.drafts.1 draft hdraft)
        (fun _ => nofun) (fun _ => nofun)
    · exact h
  | editTranslations =>
    obtain ⟨hshown, htab, _⟩ := henabled
    refine translationDraft_separate h (htranslations htab) ?_
    intro d hd
    obtain ⟨shown, hmem, rfl⟩ := Option.mem_map.mp hd
    exact h.belongs.transcript hshown (htranslations htab) shown hmem
  | selectTranslation row text =>
    obtain ⟨_, htab, _⟩ := henabled
    refine translationDraft_separate h (htranslations htab) ?_
    intro d hd
    obtain ⟨d', hd', rfl⟩ := Option.mem_map.mp hd
    exact h.drafts.2 d' hd'
  | unselectTranslation row =>
    obtain ⟨_, htab, _⟩ := henabled
    refine translationDraft_separate h (htranslations htab) ?_
    intro d hd
    obtain ⟨d', hd', rfl⟩ := Option.mem_map.mp hd
    exact h.drafts.2 d' hd'
  | cancelTranslations =>
    obtain ⟨_, htab, _⟩ := henabled
    have hclosed : Separate { p with translationDraft := none } :=
      translationDraft_separate h (htranslations htab) (fun d hd => absurd hd nofun)
    exact hclosed.rerun
  | saveTranslations =>
    obtain ⟨hshown, htab, _⟩ := henabled
    rw [Page.perform]
    split
    · rename_i draft shown hdraft hmem
      split
      · exact ⟨h.calls, h.live, h.drafts, h.transcript, h.analysis⟩
      · have hrows := h.belongs.transcript hshown (htranslations htab) shown hmem
        exact save_separate none h ⟨h.drafts.2 draft hdraft, hrows⟩
          (fun _ => nofun) (fun _ => nofun)
    · exact h
  | editAnalysis =>
    rw [Page.perform]
    split
    · rename_i r hr
      refine analysisDraft_separate h ?_
      intro herror htab d hd
      obtain ⟨_, _, rfl⟩ := Option.mem_map.mp hd
      refine (h.analysis herror htab).1 r ?_
      rw [hr]
      rfl
    · exact h
  | typeAnalysis result =>
    refine analysisDraft_separate h ?_
    intro herror htab d hd
    obtain ⟨d', hd', rfl⟩ := Option.mem_map.mp hd
    exact (h.analysis herror htab).2 d' hd'
  | cancelAnalysis =>
    refine analysisDraft_separate h ?_
    intro _ _ d hd
    cases hd
  | saveAnalysis =>
    obtain ⟨hshown, htab, _⟩ := henabled
    rw [Page.perform]
    split
    · rename_i current draft hcurrent hdraft
      refine save_separate p.mutationMessage h ⟨?_, ?_⟩ (fun _ => nofun) (fun _ => nofun)
      · refine h.belongs.analysis hshown htab current ?_
        rw [hcurrent]
        rfl
      · exact h.belongs.draft hshown htab draft hdraft
    · exact h
  | mutate m => exact save_separate none h trivial (fun _ => nofun) (fun _ => nofun)
  | tick => exact send_separate h trivial (fun _ => nofun) (fun _ => nofun)
  | arrive k => exact arrive_separate h hmixed

lemma answer_separate {p : Page} {k : ℕ} {reply : Reply} (h : Separate p)
    (hallowed : DetailAct.Allowed p (.answer k reply)) : Separate (p.answer k reply) := by
  obtain ⟨call, hcall, _, habout⟩ := hallowed
  refine ⟨?_, h.live, h.drafts, h.transcript, h.analysis⟩
  intro c hc
  rcases mem_answer hc with hold | ⟨call', hcall', rfl⟩
  · exact h.calls c hold
  · rw [hcall] at hcall'
    cases hcall'
    obtain ⟨_, hinitial, htranscript, hcarries⟩ := h.calls call (List.mem_of_getElem? hcall)
    refine ⟨?_, hinitial, htranscript, hcarries⟩
    intro r hr
    cases hr
    exact habout

lemma step_separate {p p' : Page} {act : DetailAct} (h : Separate p) (hmixed : Unmixed p act)
    (hstep : DetailStep p act p') : Separate p' := by
  obtain ⟨hallowed, rfl⟩ := hstep
  cases act with
  | page act => exact perform_separate h hallowed hmixed
  | answer k reply => exact answer_separate h hallowed

theorem recordings_never_mix {id : RecordingId} {p : Page} {es : List (Event Page DetailAct)}
    (hrun : Run DetailStep (Page.mount id) es p) (hes : ∀ e ∈ es, Unmixed e.before e.label) :
    Belongs p :=
  (hrun.keeps_if Separate Unmixed (fun _ _ _ => step_separate) (mount_separate id) hes).belongs

def loads (k : ℕ) (id : RecordingId) : List DetailAct :=
  [.answer k (.loaded ⟨id, .completed⟩ ⟨id, .completed, none⟩ []), .page (.arrive k)]

def neighbour (id next : RecordingId) : List DetailAct :=
  [.answer 0 (.neighbours ⟨id, none, some next⟩), .page (.arrive 0)]

def exampleRead (id : RecordingId) : AnalysisResponse where
  recordingId := id
  status := .completed
  provider := "lmstudio".toList
  model := none
  schemaVersion := "2".toList
  revision := 1
  result := none
  error := none

def readsAnalysis (k : ℕ) (id : RecordingId) : List DetailAct :=
  [.page (.openTab .analysis), .answer k (.analysis (exampleRead id)), .page (.arrive k)]

def leavingActs : List DetailAct :=
  loads 0 1 ++ neighbour 1 2 ++ readsAnalysis 0 1 ++
    [.page (.openTab .transcript), .page (.stepTo 2)] ++ loads 1 2 ++ [.page (.openTab .analysis)]

def leavingPage : Page := leavingActs.foldl DetailAct.next (Page.mount 1)

theorem left_analysis_shown :
    ¬ ∀ id p es, Run DetailStep (Page.mount id) es p → Belongs p := by
  intro h
  have hrun := run_trail DetailAct.Allowed DetailAct.next
    (show AllAllowed DetailAct.Allowed DetailAct.next (Page.mount 1) leavingActs by decide +kernel)
  have hbelongs := h 1 leavingPage _ hrun
  have hshown : leavingPage.Shown := by decide +kernel
  have htab : leavingPage.tab = .analysis := by decide +kernel
  have hid : leavingPage.id = 2 := by decide +kernel
  have hready : exampleRead 1 ∈ leavingPage.analysis.data := by decide +kernel
  have hsame := hbelongs.analysis hshown htab _ hready
  rw [hid] at hsame
  cases hsame

def steppingActs : List DetailAct :=
  loads 0 1 ++ neighbour 1 2 ++ [.page (.openTab .transcript), .page (.stepTo 2)] ++ loads 1 2 ++
    readsAnalysis 3 2

lemma own_unmixed {p : Page} {k : ℕ} (h : ∀ call ∈ p.flight[k]?, call.id = p.id) :
    Unmixed p (.page (.arrive k)) := fun call hcall _ _ _ => h call hcall

theorem recordings_never_mix_stepped :
    Belongs (steppingActs.foldl DetailAct.next (Page.mount 1)) := by
  refine recordings_never_mix (run_trail DetailAct.Allowed DetailAct.next ?_) ?_
  · decide +kernel
  · intro e he
    simp only [steppingActs, loads, neighbour, readsAnalysis, trail, List.cons_append,
      List.nil_append, List.mem_cons, List.not_mem_nil, or_false] at he
    rcases he with rfl | rfl | rfl | rfl | rfl | rfl | rfl | rfl | rfl | rfl | rfl
    · trivial
    · exact own_unmixed (by decide +kernel)
    · trivial
    · exact own_unmixed (by decide +kernel)
    · trivial
    · trivial
    · trivial
    · exact own_unmixed (by decide +kernel)
    · exact ⟨by decide +kernel, by decide +kernel⟩
    · trivial
    · exact own_unmixed (by decide +kernel)

end AudioServer.Web.Stepping
