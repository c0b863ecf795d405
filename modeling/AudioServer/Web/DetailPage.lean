import AudioServer.Api.Responses

/-! The detail page of a recording: its state cells, its effects, the requests it
has in flight, and what it does when one of them is answered. Setting state and
running the effects that watch it is one step. -/

namespace AudioServer.Web.DetailPage

open AudioServer.Foundations.Strings
open AudioServer.Api.Schemas AudioServer.Db.Models AudioServer.Api.Responses

inductive DetailTab
  | overview | activity | transcript | translations | analysis
deriving DecidableEq

inductive Mutation
  | reprocess | reanalyse | translation | translations | transcript | analysis
deriving DecidableEq

inductive Loaded (α : Type)
  | idle
  | loading
  | pending
  | ready (data : α)
  | error (message : String)
deriving DecidableEq

def Loaded.isReady {α : Type} : Loaded α → Bool
  | .ready _ => true
  | _ => false

inductive Caught
  | api (status : ℕ) (code message : String)
  | other
deriving DecidableEq

def Caught.status : Caught → Option ℕ
  | .api status _ _ => some status
  | .other => none

/-- `recordingId` records where the revision came from; the page does not keep it. -/
structure TranslationDraft where
  recordingId : RecordingId
  revision : ℕ
  selected : List (ℕ × Text)
deriving DecidableEq

/-- `source` records the response the result was cloned from; the page does not keep it. -/
structure AnalysisDraft where
  source : AnalysisResponse
  result : AnalysisResultV2
deriving DecidableEq

/-- What follows a live refresh: the poll loads the analysis again from the analysis tab, and a
mutation goes on to its own end. -/
inductive After
  | polled (tab : DetailTab)
  | mutation (m : Mutation)
deriving DecidableEq

inductive Task
  | initial (visit : ℕ)
  | neighbours (visit : ℕ)
  | transcript (run : ℕ)
  | analysis (request : ℕ) (awaiting : Option Mutation)
  | refresh (after : After)
  | mutate (m : Mutation)
  | saveTranscript (draft : TranscriptResponse)
  | saveTranslations (draft : TranslationDraft) (shown : TranscriptResponse)
  | saveAnalysis (current : AnalysisResponse) (draft : AnalysisDraft)
deriving DecidableEq

inductive Reply
  | failed (caught : Caught)
  | loaded (recording : RecordingSummary) (status : RecordingStatusResponse)
      (activity : List ProcessingActivity)
  | neighbours (data : RecordingNeighboursResponse)
  | transcript (data : TranscriptResponse)
  | analysis (data : AnalysisResponse)
  | live (status : RecordingStatusResponse) (activity : List ProcessingActivity)
  | accepted
deriving DecidableEq

/-- A request in flight. `id` is the one its closure captured, `reading` the revision the server
has read for it while it has yet to read the analysis. -/
structure Call where
  id : RecordingId
  task : Task
  reading : Option ℕ
  reply : Option Reply
deriving DecidableEq

def Reply.About (id : RecordingId) : Reply → Prop
  | .failed _ => True
  | .loaded recording status activity =>
    recording.id = id ∧ status.recordingId = id ∧ ∀ a ∈ activity, a.recordingId = id
  | .neighbours data => data.recordingId = id
  | .transcript data => data.recordingId = id
  | .analysis data => data.recordingId = id
  | .live status activity => status.recordingId = id ∧ ∀ a ∈ activity, a.recordingId = id
  | .accepted => True

instance (id : RecordingId) : (reply : Reply) → Decidable (reply.About id)
  | .failed _ | .accepted => inferInstanceAs (Decidable True)
  | .loaded _ _ _ | .live _ _ => inferInstanceAs (Decidable (_ ∧ _))
  | .neighbours _ | .transcript _ | .analysis _ => inferInstanceAs (Decidable (_ = _))

structure Page where
  id : RecordingId
  tab : DetailTab
  recording : Option RecordingSummary
  status : Option RecordingStatusResponse
  activity : List ProcessingActivity
  transcript : Loaded TranscriptResponse
  analysis : Loaded AnalysisResponse
  transcriptDraft : Option TranscriptResponse
  translationDraft : Option TranslationDraft
  analysisDraft : Option AnalysisDraft
  wasTranslating : Bool
  analysisRequest : ℕ
  neighbours : Option RecordingNeighboursResponse
  visit : ℕ
  transcriptRun : ℕ
  loading : Bool
  error : Option String
  mutationPending : Option Mutation
  mutationMessage : Option String
  left : Bool
  flight : List Call
deriving DecidableEq

def terminal : RecordingStatus → Bool
  | .completed | .failed => true
  | _ => false

def jobActive (kind : JobKind) (status : Option RecordingStatusResponse) : Bool :=
  (status.bind (·.job)).any (fun job => job.kind = kind ∧ job.status.active)

def Page.translationJobActive (p : Page) : Bool := jobActive .translation p.status

def Page.sideJobActive (p : Page) : Bool := jobActive .analysis p.status || jobActive .translation p.status

/-- `hasOpenDraft`, and what the `editing` ref holds once the effects have run. -/
def Page.hasOpenDraft (p : Page) : Bool := p.transcriptDraft.isSome || p.translationDraft.isSome

def Page.Shown (p : Page) : Prop :=
  p.left = false ∧ p.loading = false ∧ p.error = none ∧ p.recording.isSome ∧ p.status.isSome

instance (p : Page) : Decidable p.Shown := inferInstanceAs (Decidable (_ ∧ _))

def Loaded.data {α : Type} : Loaded α → Option α
  | .ready data => some data
  | _ => none

def Page.shownTranscript (p : Page) : Option TranscriptResponse :=
  p.transcriptDraft.or p.transcript.data

def Page.readsTranscript (p : Page) : Bool := p.tab = .transcript || p.tab = .translations

def Page.send (p : Page) (id : RecordingId) (task : Task) : Page :=
  { p with flight := p.flight ++ [⟨id, task, none, none⟩] }

/-- A write that does not come from a read retires the reads in flight. -/
def Page.replaceAnalysis (p : Page) (next : Loaded AnalysisResponse) : Page :=
  { p with analysisRequest := p.analysisRequest + 1, analysis := next }

def Page.loadAnalysis (p : Page) (id : RecordingId) (awaiting : Option Mutation) : Page :=
  (p.replaceAnalysis .loading).send id (.analysis (p.analysisRequest + 1) awaiting)

def Page.transcriptEffect (p : Page) : Page :=
  if p.readsTranscript && !p.hasOpenDraft then
    { p with transcriptRun := p.transcriptRun + 1, transcript := .loading }.send p.id
      (.transcript (p.transcriptRun + 1))
  else { p with transcriptRun := p.transcriptRun + 1 }

def Page.translationEffect (p : Page) : Page :=
  if p.translationJobActive then { p with wasTranslating := true }
  else if p.wasTranslating then { p with wasTranslating := false }.transcriptEffect
  else p

def Page.analysisEffect (p : Page) : Page :=
  if p.tab = .analysis ∧ p.analysis.isReady = false then p.loadAnalysis p.id none else p

def Page.visitEffect (p : Page) : Page :=
  let p := { p with visit := p.visit + 1, loading := true, error := none, neighbours := none }
  (p.send p.id (.initial p.visit)).send p.id (.neighbours p.visit)

def Page.setStatus (p : Page) (next : RecordingStatusResponse) : Page :=
  if p.status.map (·.status) ≠ some next.status then
    { p with status := some next }.transcriptEffect.translationEffect
  else { p with status := some next }.translationEffect

def Page.blank (id : RecordingId) : Page where
  id := id
  tab := .overview
  recording := none
  status := none
  activity := []
  transcript := .idle
  analysis := .idle
  transcriptDraft := none
  translationDraft := none
  analysisDraft := none
  wasTranslating := false
  analysisRequest := 0
  neighbours := none
  visit := 0
  transcriptRun := 0
  loading := true
  error := none
  mutationPending := none
  mutationMessage := none
  left := false
  flight := []

def Page.mount (id : RecordingId) : Page :=
  (((Page.blank id).visitEffect).transcriptEffect).analysisEffect

def Page.handleRequestError (p : Page) (caught : Caught) : Page :=
  match caught.status with
  | some 401 => { p with left := true }
  | some 404 => { p with error := some "detail.notFound" }
  | _ => { p with error := some "detail.loadError" }

def Page.handleMutationError (p : Page) (caught : Caught) (fallback : String) : Page :=
  match caught with
  | .api 401 _ _ => { p with left := true }
  | .api 403 _ _ => { p with mutationMessage := some "detail.authError" }
  | .api 409 code _ =>
    let conflict :=
      if code = "job_already_active" then "detail.activeConflict" else "detail.revisionConflict"
    { p with mutationMessage := some conflict }
  | _ => { p with mutationMessage := some fallback }

def Page.mutated (p : Page) : Page := { p with mutationPending := none }

def Mutation.queued : Mutation → String
  | .translation => "detail.retranslateQueued"
  | .reanalyse => "analysis.queued"
  | _ => "detail.reprocessQueued"

def Mutation.fallback : Mutation → String
  | .reprocess => "detail.reprocessError"
  | .reanalyse => "analysis.reprocessError"
  | .translation => "detail.retranslateError"
  | .translations => "detail.translationsSaveError"
  | .transcript => "detail.transcriptSaveError"
  | .analysis => "analysis.saveError"

def Page.failMutation (p : Page) (m : Mutation) (caught : Caught) : Page :=
  (p.handleMutationError caught m.fallback).mutated

def Page.initialSettled (p : Page) (visit : ℕ) : Reply → Page
  | .loaded recording status activity =>
    if p.visit = visit then
      { p with recording := some recording, activity := activity, loading := false }.setStatus status
    else p
  | .failed caught =>
    if p.visit = visit then { p.handleRequestError caught with loading := false } else p
  | _ => p

def Page.neighboursSettled (p : Page) (visit : ℕ) : Reply → Page
  | .neighbours data => if p.visit = visit then { p with neighbours := some data } else p
  | _ => p

def Page.transcriptSettled (p : Page) (run : ℕ) : Reply → Page
  | .transcript data => if p.transcriptRun = run then { p with transcript := .ready data } else p
  | .failed caught =>
    if p.transcriptRun = run then
      match caught.status with
      | some 409 => { p with transcript := .pending }
      | some 401 => { p with left := true }
      | _ => { p with transcript := .error "detail.transcriptError" }
    else p
  | _ => p

def Page.settleAnalysis (p : Page) (request : ℕ) (next : Loaded AnalysisResponse) : Page :=
  if p.analysisRequest = request then { p with analysis := next } else p

def Page.awaited (p : Page) : Option Mutation → Page
  | some m => { p with mutationMessage := some m.queued }.mutated
  | none => p

def Caught.settled : Caught → Option (Loaded AnalysisResponse)
  | .api 409 code message => some (if code = "analysis_failed" then .error message else .pending)
  | .api 401 _ _ => none
  | _ => some (.error "analysis.loadError")

def Page.analysisSettled (p : Page) (request : ℕ) (awaiting : Option Mutation) : Reply → Page
  | .analysis data => (p.settleAnalysis request (.ready data)).awaited awaiting
  | .failed caught =>
    match caught.settled with
    | some next => (p.settleAnalysis request next).awaited awaiting
    | none => { p with left := true }.awaited awaiting
  | _ => p

def Page.refreshLiveData (p : Page) (status : RecordingStatusResponse)
    (activity : List ProcessingActivity) : Page :=
  let summary := p.recording.map (fun r => { r with processingStatus := status.status })
  { p with activity := activity, recording := summary }.setStatus status

def Page.continue (p : Page) (id : RecordingId) : After → Page
  | .polled tab => if tab = .analysis then p.loadAnalysis id none else p
  | .mutation .reanalyse => p.loadAnalysis id (some .reanalyse)
  | .mutation .translation =>
    { p with mutationMessage := some Mutation.translation.queued }.mutated.transcriptEffect
  | .mutation m => { p with mutationMessage := some m.queued }.mutated

def Page.refreshSettled (p : Page) (id : RecordingId) (after : After) : Reply → Page
  | .live status activity => (p.refreshLiveData status activity).continue id after
  | .failed caught =>
    match after with
    | .polled _ => p.handleRequestError caught
    | .mutation m => p.failMutation m caught
  | _ => p

def Page.mutateSettled (p : Page) (id : RecordingId) (m : Mutation) : Reply → Page
  | .accepted => p.send id (.refresh (.mutation m))
  | .failed caught => p.failMutation m caught
  | _ => p

def Page.transcriptSaved (p : Page) : Reply → Page
  | .transcript saved =>
    { { p with transcript := .ready saved, transcriptDraft := none }.replaceAnalysis .idle with
      mutationMessage := some "detail.transcriptSaved" }.mutated
  | .failed caught => p.failMutation .transcript caught
  | _ => p

def Page.translationsSaved (p : Page) : Reply → Page
  | .transcript saved =>
    { p with
      transcript := .ready saved
      translationDraft := none
      mutationMessage := some "detail.translationsSaved" }.mutated
  | .failed caught => p.failMutation .translations caught
  | _ => p

def Page.analysisSaved (p : Page) : Reply → Page
  | .analysis saved =>
    { p.replaceAnalysis (.ready saved) with
      analysisDraft := none
      mutationMessage := some "analysis.saved" }.mutated
  | .failed caught => p.failMutation .analysis caught
  | _ => p

def Page.settle (p : Page) (id : RecordingId) (reply : Reply) : Task → Page
  | .initial visit => p.initialSettled visit reply
  | .neighbours visit => p.neighboursSettled visit reply
  | .transcript run => p.transcriptSettled run reply
  | .analysis request awaiting => p.analysisSettled request awaiting reply
  | .refresh after => p.refreshSettled id after reply
  | .mutate m => p.mutateSettled id m reply
  | .saveTranscript _ => p.transcriptSaved reply
  | .saveTranslations _ _ => p.translationsSaved reply
  | .saveAnalysis _ _ => p.analysisSaved reply

def editedTranslations (draft : TranslationDraft) (shown : TranscriptResponse) :
    List (SegmentId × Text) :=
  shown.translations.filterMap (fun item =>
    match item.startSegmentId, draft.selected.lookup item.id with
    | some start, some text => some (start, text)
    | _, _ => none)

def cloneResult (result : AnalysisResultV2) : AnalysisResultV2 :=
  { result with summary := some (result.summary.getD result.description) }

/-- What the reader does, the poll, and the arrival of an answer. Typing leaves any text. -/
inductive PageAct
  | openTab (tab : DetailTab)
  | stepTo (id : RecordingId)
  | editTranscript
  | typeTranscript (segments : List TranscriptSegment)
  | cancelTranscript
  | saveTranscript
  | editTranslations
  | selectTranslation (row : ℕ) (text : Text)
  | unselectTranslation (row : ℕ)
  | cancelTranslations
  | saveTranslations
  | editAnalysis
  | typeAnalysis (result : AnalysisResultV2)
  | cancelAnalysis
  | saveAnalysis
  | mutate (m : Mutation)
  | tick
  | arrive (k : ℕ)
deriving DecidableEq

def PageAct.Enabled (p : Page) : PageAct → Prop
  | .openTab _ => p.Shown
  | .stepTo id => p.Shown ∧ p.tab = .transcript ∧ p.hasOpenDraft = false ∧
      ∃ n ∈ p.neighbours, n.previousId = some id ∨ n.nextId = some id
  | .editTranscript => p.Shown ∧ p.tab = .transcript ∧ p.transcriptDraft = none ∧
      ∃ shown ∈ p.shownTranscript, shown.segments ≠ []
  | .typeTranscript _ | .cancelTranscript =>
    p.Shown ∧ p.tab = .transcript ∧ ∃ draft ∈ p.transcriptDraft, draft.segments ≠ []
  | .saveTranscript => p.Shown ∧ p.tab = .transcript ∧ p.mutationPending = none ∧
      ∃ draft ∈ p.transcriptDraft, draft.segments ≠ []
  | .editTranslations => p.Shown ∧ p.tab = .translations ∧ p.translationDraft = none ∧
      ∃ shown ∈ p.shownTranscript, shown.translations ≠ []
  | .selectTranslation _ _ | .unselectTranslation _ | .cancelTranslations =>
    p.Shown ∧ p.tab = .translations ∧ p.translationDraft.isSome ∧
      ∃ shown ∈ p.shownTranscript, shown.translations ≠ []
  | .saveTranslations => p.Shown ∧ p.tab = .translations ∧ p.mutationPending = none ∧
      p.translationDraft.isSome ∧ ∃ shown ∈ p.shownTranscript, shown.translations ≠ []
  | .editAnalysis => p.Shown ∧ p.tab = .analysis ∧ p.analysisDraft = none ∧
      ∃ r ∈ p.analysis.data, r.result.isSome
  | .typeAnalysis _ | .cancelAnalysis => p.Shown ∧ p.tab = .analysis ∧ p.analysisDraft.isSome
  | .saveAnalysis =>
    p.Shown ∧ p.tab = .analysis ∧ p.mutationPending = none ∧ p.analysisDraft.isSome
  | .mutate .reprocess =>
    p.Shown ∧ p.mutationPending = none ∧ ∃ s ∈ p.status, terminal s.status
  | .mutate .translation => p.Shown ∧ p.tab = .transcript ∧ p.mutationPending = none ∧
      p.transcriptDraft = none ∧ ∃ shown ∈ p.shownTranscript, shown.segments ≠ []
  | .mutate .reanalyse => p.Shown ∧ p.tab = .analysis ∧ p.mutationPending = none ∧
      p.analysisDraft = none ∧ ∃ s ∈ p.status, s.status = .completed
  | .mutate _ => False
  | .tick => p.left = false ∧ ∃ s ∈ p.status, terminal s.status = false ∨ p.sideJobActive
  | .arrive k => ∃ call ∈ p.flight[k]?, call.reply.isSome

instance (p : Page) : (act : PageAct) → Decidable (act.Enabled p)
  | .openTab _ => inferInstanceAs (Decidable p.Shown)
  | .mutate .translations | .mutate .transcript | .mutate .analysis =>
    inferInstanceAs (Decidable False)
  | .arrive k => inferInstanceAs (Decidable (∃ call ∈ p.flight[k]?, call.reply.isSome))
  | .stepTo _ | .editTranscript | .typeTranscript _ | .cancelTranscript | .saveTranscript
  | .editTranslations | .selectTranslation _ _ | .unselectTranslation _ | .cancelTranslations
  | .saveTranslations | .editAnalysis | .typeAnalysis _ | .cancelAnalysis | .saveAnalysis
  | .mutate .reprocess | .mutate .translation | .mutate .reanalyse | .tick =>
    inferInstanceAs (Decidable (_ ∧ _))

def Page.begin (p : Page) (m : Mutation) : Page := { p with mutationPending := some m }

def Page.silent (p : Page) : Page := { p with mutationMessage := none }

def Page.perform (p : Page) : PageAct → Page
  | .openTab tab =>
    if p.tab = tab then p else { p with tab := tab }.transcriptEffect.analysisEffect
  | .stepTo id => ({ p with id := id }.visitEffect.transcriptEffect).analysisEffect
  | .editTranscript => { p with transcriptDraft := p.shownTranscript }
  | .typeTranscript segments =>
    { p with transcriptDraft := p.transcriptDraft.map (fun d => { d with segments := segments }) }
  | .cancelTranscript => { p with transcriptDraft := none }
  | .saveTranscript =>
    match p.transcriptDraft with
    | some draft => (p.begin .transcript).send p.id (.saveTranscript draft)
    | none => p
  | .editTranslations =>
    { p with
      translationDraft := p.shownTranscript.map
        (fun shown => ⟨shown.recordingId, shown.translationRevision, []⟩) }
  | .selectTranslation row text =>
    { p with translationDraft := p.translationDraft.map (fun d =>
        { d with selected := (row, text) :: d.selected.filter (fun e => e.1 ≠ row) }) }
  | .unselectTranslation row =>
    { p with translationDraft := p.translationDraft.map (fun d =>
        { d with selected := d.selected.filter (fun e => e.1 ≠ row) }) }
  | .cancelTranslations => { p with translationDraft := none }.transcriptEffect
  | .saveTranslations =>
    match p.translationDraft, p.shownTranscript with
    | some draft, some shown =>
      if editedTranslations draft shown = [] then
        { p with mutationMessage := some "detail.translationsUntouched" }
      else (p.begin .translations).silent.send p.id (.saveTranslations draft shown)
    | _, _ => p
  | .editAnalysis =>
    match p.analysis with
    | .ready r => { p with analysisDraft := r.result.map (fun result => ⟨r, cloneResult result⟩) }
    | _ => p
  | .typeAnalysis result =>
    { p with analysisDraft := p.analysisDraft.map (fun d => { d with result := result }) }
  | .cancelAnalysis => { p with analysisDraft := none }
  | .saveAnalysis =>
    match p.analysis, p.analysisDraft with
    | .ready current, some draft => (p.begin .analysis).send p.id (.saveAnalysis current draft)
    | _, _ => p
  | .mutate m => ((p.begin m).silent).send p.id (.mutate m)
  | .tick => p.send p.id (.refresh (.polled p.tab))
  | .arrive k =>
    match p.flight[k]? with
    | some call => match call.reply with
      | some reply => { p with flight := p.flight.eraseIdx k }.settle call.id reply call.task
      | none => p
    | none => p

def Page.answer (p : Page) (k : ℕ) (reply : Reply) : Page :=
  { p with flight := p.flight.modify k (fun call => { call with reply := some reply }) }

lemma mem_modify {α : Type} {l : List α} {f : α → α} {k : ℕ} {c : α} (h : c ∈ l.modify k f) :
    c ∈ l ∨ ∃ a, l[k]? = some a ∧ c = f a := by
  obtain ⟨i, hi⟩ := List.getElem?_of_mem h
  rw [List.getElem?_modify] at hi
  obtain ⟨a, ha, hc⟩ := Option.map_eq_some_iff.mp hi
  by_cases hik : k = i
  · subst hik
    simp only [↓reduceIte] at hc
    exact .inr ⟨a, ha, hc.symm⟩
  · simp only [hik, ↓reduceIte] at hc
    exact .inl (hc ▸ List.mem_of_getElem? ha)

lemma mem_answer {p : Page} {k : ℕ} {reply : Reply} {call : Call}
    (h : call ∈ (p.answer k reply).flight) :
    call ∈ p.flight ∨ ∃ c, p.flight[k]? = some c ∧ call = { c with reply := some reply } :=
  mem_modify h

lemma settled_data {caught : Caught} {next : Loaded AnalysisResponse}
    (h : caught.settled = some next) : next.data = none := by
  unfold Caught.settled at h
  split at h
  · cases h
    split <;> rfl
  · cases h
  · cases h
    rfl

end AudioServer.Web.DetailPage
