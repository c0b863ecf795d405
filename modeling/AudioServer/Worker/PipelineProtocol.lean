import AudioServer.Processing.Utterances
import AudioServer.Worker.JobProcessor

/-! The stages of a transcription in their one order, and where an exception of theirs is reported. -/

namespace AudioServer.Worker.PipelineProtocol

open AudioServer.Foundations.Outcomes AudioServer.Foundations.Scripts AudioServer.Foundations.Strings
open AudioServer.Db.Models AudioServer.Jobs.Queue AudioServer.Processing.Contracts
open AudioServer.Processing.Merge AudioServer.Processing.Utterances
open AudioServer.Worker.RunOnce AudioServer.Worker.JobProcessor

def pipelinePlan : List Ask :=
  [.notify .preprocessing, .makeWorkDir, .probe, .normalize, .notify .transcribing, .transcribe,
    .notify .diarizing, .diarize, .notify .merging, .notify .completed]

def stageOf : Ask → Option ProcessingStage
  | .makeWorkDir | .probe | .normalize => some .preprocessing
  | .transcribe => some .transcribing
  | .diarize => some .diarizing
  | _ => none

/-- Where an exception comes from a stage, it is told of that stage; the callback's own are not. -/
def reportOf (question : Ask) (raised : Raised) : Raised :=
  match stageOf question with
  | some stage => atStage stage true raised
  | none => raised

def Reported (x : Reply) (raised : Raised) : Prop :=
  ∃ e, x.answer = .error e ∧ raised = reportOf x.question e

def Merged (merger : TimestampTranscriptMerger) (t : List Reply) (result : PipelineResult) : Prop :=
  ∃ transcription diarization, ⟨.transcribe, .ok transcription⟩ ∈ t ∧ ⟨.diarize, .ok diarization⟩ ∈ t ∧
    merger.merge transcription diarization = .ok result.transcript

section Stages

variable {α : Type} {plan : List Ask} {R : List Reply → α → Prop}

def Raises (x : Reply) (raised : Raised) : Prop := x.answer = .error raised

lemma notify_along {stage : ProcessingStage} {f : Unit → Dialogue α}
    (hf : ∀ u, Along (f u) plan (fun t b => R (⟨.notify stage, .ok u⟩ :: t) b) Reported) :
    Along (notify stage >>= f) (.notify stage :: plan) R Reported :=
  along_ask hf (fun e => ⟨e, rfl, rfl⟩)

lemma executeStage_along {stage : ProcessingStage} {operation : Dialogue α}
    (hstage : ∀ question ∈ plan, stageOf question = some stage) (h : Along operation plan R Raises) :
    Along (executeStage stage operation true) plan R Reported := by
  apply h.reraise
  intro x e hquestion he
  refine ⟨e, he, ?_⟩
  rw [reportOf, hstage _ hquestion]

lemma stage_along {stage : ProcessingStage} {question : Ask} {f : question.Answer → Dialogue α}
    (hstage : stageOf question = some stage)
    (hf : ∀ a, Along (f a) plan (fun t b => R (⟨question, .ok a⟩ :: t) b) Reported) :
    Along (executeStage stage (.call question) true >>= f) (question :: plan) R Reported := by
  have hcall : Along (Script.call question : Dialogue question.Answer) [question]
      (fun t a => t = [⟨question, .ok a⟩]) Raises := along_call (fun _ => rfl) (fun _ => rfl)
  have hexecute := executeStage_along (List.forall_mem_singleton.mpr hstage) hcall
  apply hexecute.bind
  rintro a t₁ _ rfl
  exact hf a

lemma preprocess_along : Along (executeStage .preprocessing preprocess true)
    [.makeWorkDir, .probe, .normalize] (fun _ _ => True) Reported := by
  apply executeStage_along
  · intro question hquestion
    simp only [List.mem_cons, List.not_mem_nil, or_false] at hquestion
    rcases hquestion with rfl | rfl | rfl <;> rfl
  · apply along_ask _ (fun _ => rfl)
    intro _
    apply along_ask _ (fun _ => rfl)
    intro _
    exact along_call (fun _ => trivial) (fun _ => rfl)

lemma pipeline_along (pipeline : ProcessingPipeline) :
    Along pipeline.run pipelinePlan (Merged pipeline.merger) Reported := by
  apply notify_along
  intro _
  apply preprocess_along.bind
  intro _ t _ _
  apply notify_along
  intro _
  apply stage_along rfl
  intro transcription
  apply notify_along
  intro _
  apply stage_along rfl
  intro diarization
  apply notify_along
  intro _
  obtain ⟨merged, hmerged, _⟩ := merge_speech pipeline.merger transcription diarization
  have hexecuted : executeStage .merging
      (.ofExcept ((pipeline.merger.merge transcription diarization).mapError raisedOf)) false =
        .done merged := by
    rw [hmerged]
    rfl
  rw [hexecuted]
  apply notify_along
  intro _
  apply along_done
  exact ⟨transcription, diarization, by simp, by simp, hmerged⟩

end Stages

section Workspace

variable {processor : PipelineJobProcessor} {t : List Reply}

lemma removed_ends (raised : Raised) :
    processor.removed raised = .done () ∨ processor.removed raised = .fail raised := by
  unfold PipelineJobProcessor.removed
  split
  · split
    · exact .inl rfl
    · exact .inr rfl
  · exact .inr rfl

lemma cleanUp_reaches {c : Dialogue Unit} (h : Reaches processor.cleanUp t c) :
    (t = [] ∧ ∃ next, c = .ask .removeWorkDir next) ∨
      (∃ answer, t = [⟨.removeWorkDir, answer⟩] ∧ c = .done ()) ∨
        ∃ raised, t = [⟨.removeWorkDir, .error raised⟩] ∧ c = .fail raised ∧
          processor.removed raised = .fail raised := by
  cases h with
  | start _ => exact .inl ⟨rfl, _, rfl⟩
  | @ask _ _ answer _ _ h =>
    cases answer with
    | ok u =>
      obtain ⟨rfl, rfl⟩ := reaches_done h
      exact .inr (.inl ⟨_, rfl, rfl⟩)
    | error raised =>
      change Reaches (processor.removed raised) _ _ at h
      have hends : processor.removed raised = _ ∨ _ := removed_ends raised
      rcases hends with hends | hends
      · rw [hends] at h
        obtain ⟨rfl, rfl⟩ := reaches_done h
        exact .inr (.inl ⟨_, rfl, rfl⟩)
      · rw [hends] at h
        obtain ⟨rfl, rfl⟩ := reaches_fail h
        exact .inr (.inr ⟨raised, rfl, rfl, hends⟩)

def ReportedAudio (x : Reply) (raised : Raised) : Prop :=
  ∃ e, x.answer = .error e ∧ raised = audioMissing (reportOf x.question e)

lemma hear_along (pipeline : ProcessingPipeline) (key : Text) :
    Along ((hear pipeline key).rescue (fun raised => .fail (audioMissing raised)))
      (.materialize key :: pipelinePlan) (Merged pipeline.merger) ReportedAudio := by
  have hhear : Along (hear pipeline key) (.materialize key :: pipelinePlan) (Merged pipeline.merger)
      Reported := by
    apply along_ask _ (fun e => ⟨e, rfl, rfl⟩)
    intro _
    have hrun := pipeline_along pipeline
    refine ⟨hrun.follows, ?_, hrun.fail⟩
    intro t result hdone
    obtain ⟨hcovers, transcription, diarization, htranscribed, hdiarized, hmerge⟩ :=
      hrun.done t result hdone
    exact ⟨hcovers, transcription, diarization, List.mem_cons_of_mem _ htranscribed,
      List.mem_cons_of_mem _ hdiarized, hmerge⟩
  apply hhear.reraise
  rintro x raised - ⟨e, he, rfl⟩
  exact ⟨e, he, rfl⟩

structure Cleaned {α : Type} (processor : PipelineJobProcessor) (plan : List Ask)
    (R : List Reply → α → Prop) (t₁ t₂ : List Reply) (p : Dialogue α) : Prop where
  order : Follows plan t₁
  last : t₂ = [] ∨ ∃ answer, t₂ = [⟨.removeWorkDir, answer⟩]
  removed : (∀ question next, p ≠ .ask question next) → t₂ ≠ []
  done : ∀ a, p = .done a → Covers plan t₁ ∧ R t₁ a
  fail : ∀ raised, p = .fail raised → (∃ x, t₁.getLast? = some x ∧ ReportedAudio x raised) ∨
    (t₂ = [⟨.removeWorkDir, .error raised⟩] ∧ processor.removed raised = .fail raised)

lemma cleaned_after {α : Type} {q : Dialogue α} {c : Dialogue Unit} {plan : List Ask}
    {R : List Reply → α → Prop} {t₁ t₂ : List Reply} (horder : Follows plan t₁)
    (hc : Reaches processor.cleanUp t₂ c)
    (hdone : ∀ a, q = .done a → Covers plan t₁ ∧ R t₁ a)
    (hfail : ∀ raised, q = .fail raised → ∃ x, t₁.getLast? = some x ∧ ReportedAudio x raised) :
    Cleaned processor plan R t₁ t₂ (c.bind (fun _ => q)) := by
  rcases cleanUp_reaches hc with ⟨rfl, next, rfl⟩ | ⟨answer, rfl, rfl⟩ | ⟨raised, rfl, rfl, hremoved⟩
  · exact ⟨horder, .inl rfl, fun hends => absurd rfl (hends _ _), nofun, nofun⟩
  · exact ⟨horder, .inr ⟨answer, rfl⟩, fun _ => List.cons_ne_nil _ _, hdone,
      fun raised hraised => .inl (hfail raised hraised)⟩
  · refine ⟨horder, .inr ⟨_, rfl⟩, fun _ => List.cons_ne_nil _ _, nofun, ?_⟩
    intro raised' hraised
    cases hraised
    exact .inr ⟨rfl, hremoved⟩

lemma ensure_cleaned {α : Type} {x p : Dialogue α} {plan : List Ask} {R : List Reply → α → Prop}
    (hx : Along x plan R ReportedAudio) (h : Reaches (x.ensure processor.cleanUp) t p) :
    ∃ t₁ t₂, t = t₁ ++ t₂ ∧ Cleaned processor plan R t₁ t₂ p := by
  cases reaches_ensure h with
  | running question next hrun hp =>
    obtain ⟨next', rfl⟩ := hp
    exact ⟨t, [], (List.append_nil t).symm, hx.follows _ _ hrun, .inl rfl,
      fun hends => absurd rfl (hends _ _), nofun, nofun⟩
  | returned a t₁ t₂ c ht hdone hc hp =>
    rw [hp]
    refine ⟨t₁, t₂, ht, cleaned_after (hx.follows _ _ hdone) hc ?_ nofun⟩
    intro b hb
    cases hb
    exact hx.done t₁ a hdone
  | failed e t₁ t₂ c ht hfail hc hp =>
    rw [hp]
    refine ⟨t₁, t₂, ht, cleaned_after (hx.follows _ _ hfail) hc nofun ?_⟩
    intro raised hraised
    cases hraised
    exact hx.fail t₁ e hfail

end Workspace

section Jobs

variable {processor : PipelineJobProcessor} {pipeline : ProcessingPipeline} {claim : ClaimedJob}
  {id : RecordingId} {key : Text} {t : List Reply} {p : Dialogue Produced}

def Transcribed (merger : TimestampTranscriptMerger) (t : List Reply) (produced : Produced) : Prop :=
  ∃ result, produced = .transcript result ∧ Merged merger t result

def recordingMissing : Raised := permanent "recording_missing" "The recording metadata is unavailable."

structure Opening (claim : ClaimedJob) (id : RecordingId) (t : List Reply) (p : Dialogue Produced) :
    Prop where
  order : Follows [.storageKey id, .workDirectory claim.id claim.claimToken] t
  done : ∀ produced, p ≠ .done produced
  fail : ∀ raised, p = .fail raised → ∃ x, t.getLast? = some x ∧ (x.answer = .error raised ∨
    (x = ⟨.storageKey id, .ok none⟩ ∧ raised = recordingMissing))

def Working (processor : PipelineJobProcessor) (pipeline : ProcessingPipeline) (claim : ClaimedJob)
    (id : RecordingId) (t : List Reply) (p : Dialogue Produced) : Prop :=
  ∃ key t₁ t₂, t = ⟨.storageKey id, .ok (some key)⟩ ::
      ⟨.workDirectory claim.id claim.claimToken, .ok ()⟩ :: (t₁ ++ t₂) ∧
    Cleaned processor (.materialize key :: pipelinePlan) (Transcribed pipeline.merger) t₁ t₂ p

lemma heard_cleaned (h : Reaches ((((hear pipeline key).rescue
      (fun raised => .fail (audioMissing raised))).ensure processor.cleanUp).bind
        (fun result => .done (.transcript result))) t p) :
    ∃ t₁ t₂, t = t₁ ++ t₂ ∧
      Cleaned processor (.materialize key :: pipelinePlan) (Transcribed pipeline.merger) t₁ t₂ p := by
  obtain ⟨q, hq, rfl⟩ := reaches_bind_last (fun _ _ _ => reaches_done) h
  obtain ⟨t₁, t₂, rfl, hcleaned⟩ := ensure_cleaned (hear_along pipeline key) hq
  refine ⟨t₁, t₂, rfl, ?_⟩
  cases q with
  | done result =>
    refine ⟨hcleaned.order, hcleaned.last, fun _ => hcleaned.removed nofun, ?_, nofun⟩
    intro produced hproduced
    cases hproduced
    obtain ⟨hcovers, hmerged⟩ := hcleaned.done result rfl
    exact ⟨hcovers, result, rfl, hmerged⟩
  | fail e =>
    refine ⟨hcleaned.order, hcleaned.last, fun _ => hcleaned.removed nofun, nofun, ?_⟩
    intro raised hraised
    cases hraised
    exact hcleaned.fail e rfl
  | ask question next =>
    exact ⟨hcleaned.order, hcleaned.last, fun hends => absurd rfl (hends _ _), nofun, nofun⟩

lemma full_protocol (hkind : claim.kind = .full) (hpipeline : processor.pipeline = some pipeline)
    (hscope : claim.recordingId = some id) (h : Reaches (processor.call claim) t p) :
    Opening claim id t p ∨ Working processor pipeline claim id t p := by
  have hcall : processor.call claim = Script.call (Ask.storageKey id) >>= fun key =>
      key.elim (.fail recordingMissing) (processor.hearInWorkDir claim pipeline) := by
    rw [PipelineJobProcessor.call, hkind]
    change processor.processFull claim = _
    rw [PipelineJobProcessor.processFull, hpipeline]
    change recordingScope claim >>= _ = _
    rw [recordingScope, hscope]
    refine congrArg (Script.call (Ask.storageKey id) >>= ·) (funext ?_)
    rintro (_ | key) <;> rfl
  rw [hcall] at h
  rcases reaches_ask h with ⟨rfl, next, rfl⟩ | ⟨e, rfl, rfl⟩ | ⟨key, t, rfl, hrest⟩
  · exact .inl ⟨follows_nil, nofun, nofun⟩
  · refine .inl ⟨follows_one _, nofun, ?_⟩
    intro raised hraised
    cases hraised
    exact ⟨_, rfl, .inl rfl⟩
  · cases key with
    | none =>
      obtain ⟨rfl, rfl⟩ := reaches_fail hrest
      refine .inl ⟨follows_one _, nofun, ?_⟩
      intro raised hraised
      cases hraised
      exact ⟨_, rfl, .inr ⟨rfl, rfl⟩⟩
    | some key =>
      rcases reaches_ask hrest with ⟨rfl, next, rfl⟩ | ⟨e, rfl, rfl⟩ | ⟨u, t, rfl, hheard⟩
      · exact .inl ⟨follows_one _, nofun, nofun⟩
      · refine .inl ⟨(follows_one _).cons _, nofun, ?_⟩
        intro raised hraised
        cases hraised
        exact ⟨_, rfl, .inl rfl⟩
      · obtain ⟨t₁, t₂, rfl, hcleaned⟩ := heard_cleaned hheard
        exact .inr ⟨key, t₁, t₂, rfl, hcleaned⟩

def ForText : Ask → Prop
  | .readTranscript _ | .analyze _ | .translate _ | .collectDigests _ | .summarize .. => True
  | _ => False

def Fits : JobKind → Produced → Prop
  | .full, .transcript _ => True
  | .analysis, .analysis result => result.status ≠ .failed
  | .translation, .translations result => result.status ≠ .failed
  | .dailySummary, .summary _ result _ => result.status ≠ .failed
  | _, _ => False

def OnText (kind : JobKind) (t : List Reply) (p : Dialogue Produced) : Prop :=
  (∀ x ∈ t, ForText x.question) ∧ ∀ produced, p = .done produced → Fits kind produced

lemma fail_onText {kind : JobKind} {raised : Raised} (h : Reaches (.fail raised) t p) :
    OnText kind t p := by
  obtain ⟨rfl, rfl⟩ := reaches_fail h
  exact ⟨nofun, nofun⟩

lemma ask_onText {kind : JobKind} {question : Ask} {f : question.Answer → Dialogue Produced}
    (h : Reaches (Script.call question >>= f) t p) (hquestion : ForText question)
    (hf : ∀ a t, Reaches (f a) t p → OnText kind t p) : OnText kind t p := by
  have hhead : ∀ answer, ∀ x ∈ [(⟨question, answer⟩ : Reply)], ForText x.question := by
    intro answer x hx
    rwa [List.mem_singleton.mp hx]
  rcases reaches_ask h with ⟨rfl, next, rfl⟩ | ⟨e, rfl, rfl⟩ | ⟨a, t, rfl, hrest⟩
  · exact ⟨nofun, nofun⟩
  · exact ⟨hhead _, nofun⟩
  · obtain ⟨hquestions, hfits⟩ := hf a t hrest
    refine ⟨?_, hfits⟩
    intro x hx
    rcases List.mem_cons.mp hx with rfl | hx
    · exact hquestion
    · exact hquestions x hx

lemma answer_onText {kind : JobKind} {failed : Prop} [Decidable failed] {raised : Raised}
    {produced : Produced} (h : Reaches (if failed then .fail raised else .done produced) t p)
    (hfits : ¬ failed → Fits kind produced) : OnText kind t p := by
  split at h
  · exact fail_onText h
  · rename_i hok
    obtain ⟨rfl, rfl⟩ := reaches_done h
    refine ⟨nofun, ?_⟩
    intro produced' hproduced
    cases hproduced
    exact hfits hok

lemma recordingScope_cases (claim : ClaimedJob) :
    (∃ id, recordingScope claim = .done id) ∨ ∃ raised, recordingScope claim = .fail raised := by
  unfold recordingScope
  split
  · exact .inl ⟨_, rfl⟩
  · exact .inr ⟨_, rfl⟩

lemma text_protocol (hkind : claim.kind ≠ .full) (h : Reaches (processor.call claim) t p) :
    OnText claim.kind t p := by
  rw [PipelineJobProcessor.call] at h
  cases hclaim : claim.kind with
  | full => exact absurd hclaim hkind
  | analysis =>
    simp only [hclaim, PipelineJobProcessor.processAnalysis] at h
    rcases recordingScope_cases claim with ⟨id, hscope⟩ | ⟨raised, hscope⟩
    · rw [hscope] at h
      apply ask_onText h trivial
      intro transcript t h
      apply ask_onText h trivial
      intro result t h
      exact answer_onText h (fun hok => hok)
    · rw [hscope] at h
      exact fail_onText h
  | translation =>
    simp only [hclaim, PipelineJobProcessor.processTranslation] at h
    rcases recordingScope_cases claim with ⟨id, hscope⟩ | ⟨raised, hscope⟩
    · rw [hscope] at h
      apply ask_onText h trivial
      intro transcript t h
      apply ask_onText h trivial
      intro result t h
      exact answer_onText h (fun hok => hok)
    · rw [hscope] at h
      exact fail_onText h
  | dailySummary =>
    simp only [hclaim, PipelineJobProcessor.processDailySummary] at h
    split at h
    · exact fail_onText h
    · split at h
      · apply ask_onText h trivial
        intro collected t h
        apply ask_onText h trivial
        intro result t h
        exact answer_onText h (fun hok => hok)
      · exact fail_onText h

theorem job_protocol (processor : PipelineJobProcessor) (h : Reaches (processor.call claim) t p) :
    (claim.kind ≠ .full → OnText claim.kind t p) ∧
      ∀ pipeline id, claim.kind = .full → processor.pipeline = some pipeline →
        claim.recordingId = some id → Opening claim id t p ∨ Working processor pipeline claim id t p :=
  ⟨fun hkind => text_protocol hkind h,
    fun _ _ hkind hpipeline hscope => full_protocol hkind hpipeline hscope h⟩

end Jobs

def exampleProcessor : PipelineJobProcessor where
  pipeline := some ⟨⟨1 / 2, Char.isAlphanum, by norm_num⟩⟩
  dailyService := false
  osError errorType := errorType = "PermissionError".toList

def fullClaim : ClaimedJob := ⟨1, some 1, .full, 5, "worker".toList, 1, 3, .preprocessing, none⟩

def unreadable : List Reply :=
  [⟨.storageKey 1, .ok (some "recordings/1".toList)⟩, ⟨.workDirectory 1 5, .ok ()⟩,
    ⟨.materialize "recordings/1".toList, .ok ()⟩, ⟨.notify .preprocessing, .ok ()⟩,
    ⟨.makeWorkDir, .ok ()⟩, ⟨.probe, .ok ()⟩, ⟨.normalize, .ok ()⟩, ⟨.notify .transcribing, .ok ()⟩,
    ⟨.transcribe, .error (.exception fileNotFoundError)⟩,
    ⟨.removeWorkDir, .error (.exception "PermissionError".toList)⟩]

def transcriptionFailed : Raised :=
  .processing "transcription_failed".toList "RetryableProcessingError".toList
    "The transcribing stage failed.".toList true (some .transcribing)

theorem job_protocol_unreadable : ∃ pipeline,
    Opening fullClaim 1 unreadable (.fail transcriptionFailed) ∨
      Working exampleProcessor pipeline fullClaim 1 unreadable (.fail transcriptionFailed) := by
  have hreaches : Reaches (exampleProcessor.call fullClaim) unreadable (.fail transcriptionFailed) :=
    .ask (.ask (.ask (.ask (.ask (.ask (.ask (.ask (.ask (.ask (.start _))))))))))
  exact ⟨_, (job_protocol exampleProcessor hreaches).2 _ 1 rfl rfl rfl⟩

end AudioServer.Worker.PipelineProtocol
