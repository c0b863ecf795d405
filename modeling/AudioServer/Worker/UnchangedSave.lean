import AudioServer.Worker.KeptAnalysis
import AudioServer.Worker.StoredAnalyses

/-! Saving the analysis of a recording as it was read. -/

namespace AudioServer.Worker.UnchangedSave

open AudioServer.Foundations.Outcomes AudioServer.Foundations.Strings AudioServer.Foundations.Dicts
open AudioServer.Foundations.Runs AudioServer.Api.Schemas AudioServer.Db.Models
open AudioServer.Services.Recordings AudioServer.Services.Editing
open AudioServer.Worker.DocumentInvariant AudioServer.Worker.System AudioServer.Worker.Invariant
open AudioServer.Worker.Grounding AudioServer.Worker.KeptAnalysis AudioServer.Worker.StoredAnalyses

def structuredAnalysis (result : Option AnalysisResultV2) : Option AnalysisResultV2 :=
  result.filter (fun result => result.Valid)

def Settled (segments : List TranscriptSegment) (result : AnalysisResultV2) : Prop :=
  result.Valid ∧ AllStamped segments result

variable {segments : List TranscriptSegment}

lemma groundResultQuote_same (hsequences : (segments.map (·.sequence)).Nodup) {q : AnalysisQuote}
    (h : ∃ s ∈ segments, Stamps s q) : groundResultQuote segments q = .ok q := by
  obtain ⟨s, hs, hstamps⟩ := h
  have hfound : dictGet (·.sequence) segments q.segmentSequence = some s := by
    rw [← hstamps.sequence]
    exact dictGet_eq_some hsequences hs
  rw [groundResultQuote, hfound]
  dsimp only
  rw [if_pos hstamps.occurs, ← hstamps.start, ← hstamps.speaker]

lemma groundAnalysisResult_same (hsequences : (segments.map (·.sequence)).Nodup)
    {result : AnalysisResultV2} (h : Settled segments result) :
    groundAnalysisResult segments result = .ok result := by
  have hsame : ∀ q ∈ result.quotes, groundResultQuote segments q = .ok q :=
    fun q hq => groundResultQuote_same hsequences (h.2 q hq)
  have hexpressions := mapM_same (fun q hq => hsame q (List.mem_append_left _ hq))
  have hhighlights := mapM_same (fun q hq => hsame q (List.mem_append_right _ hq))
  rw [groundAnalysisResult, hexpressions, ok_bind, hhighlights, ok_bind]
  dsimp only
  rw [require_of h.1]
  rfl

lemma step_settled {w w' : World} {act : Act} (hstep : WorldStep w act w')
    (h : WorldInvariant w ∧ ∀ id, CompletedIs Settled (docAt id w)) :
    WorldInvariant w' ∧ ∀ id, CompletedIs Settled (docAt id w') := by
  have hok' := step_invariant h.1 hstep
  obtain ⟨hallowed, rfl⟩ := hstep
  refine ⟨hok', fun id => step_completedIs h.1 hallowed (h.2 id) ?_ ?_⟩
  · intro _ _ _ grounded _ hground
    exact ⟨(groundAnalysisResult_ok hground).1, grounded_stamped hground⟩
  · exact fun data hvalid hstamped _ => ⟨hvalid, hstamped⟩

lemma run_settled {settings : Option ProcessingSettings} {w : World} {es : List (Event World Act)}
    (hrun : WorldRun (World.init settings) es w) (id : RecordingId) :
    CompletedIs Settled (docAt id w) :=
  (hrun.keeps (fun w => WorldInvariant w ∧ ∀ id, CompletedIs Settled (docAt id w))
    (fun _ _ _ h hstep => step_settled hstep h)
    ⟨init_invariant settings, fun _ _ ha => nomatch ha⟩).2 id

lemma recording_present {w : World} (hok : WorldInvariant w) {id : RecordingId}
    (h : docAt id w ≠ .empty) : ∃ recording, w.db.recording id = some recording := by
  rw [← Option.ne_none_iff_exists']
  intro hnone
  refine h (hok.absent id (fun recording hmem hid => ?_))
  exact List.find?_eq_none.mp hnone recording hmem (decide_eq_true hid)

lemma save_same {w : World} (hok : WorldInvariant w) {id : RecordingId} {analysis : Analysis}
    (hanalysis : (docAt id w).analysis = some analysis) {result : AnalysisResultV2}
    (hsettled : Settled (docAt id w).segments result) (hidle : w.db.activeJob id = none)
    (now : Instant) :
    updateAnalysis id (docAt id w).analysisRevision result now w.db =
      .ok ((), { w.db with documents := Function.update w.db.documents id { docAt id w with
        analysis := some (manualAnalysis analysis.jobId result now)
        analysisRevision := (docAt id w).analysisRevision + 1 } }) := by
  have hthere : docAt id w ≠ .empty := by
    intro hempty
    rw [hempty] at hanalysis
    cases hanalysis
  obtain ⟨recording, hrecording⟩ := recording_present hok hthere
  have hground : groundAnalysisResult (docAt id w).segments result = .ok result :=
    groundAnalysisResult_same (hok.documents id).sequences hsettled
  apply editDocument_succeeds hrecording hidle
  change editAnalysis _ result now (docAt id w) = _
  rw [editAnalysis, hground, ok_bind, hanalysis]
  rfl

theorem unchanged_save_keeps {settings : Option ProcessingSettings} {w : World}
    {es : List (Event World Act)} (hrun : WorldRun (World.init settings) es w) {id : RecordingId}
    {analysis : Analysis} (hanalysis : (docAt id w).analysis = some analysis)
    (hcompleted : analysis.status = .completed) (hthere : analysis.result.isSome)
    (hidle : w.db.activeJob id = none) (now : Instant) :
    ∃ result, structuredAnalysis analysis.result = some result ∧
      Accepted w (.updateAnalysis id (docAt id w).analysisRevision result now) ∧
      readingAt id (perform w (.updateAnalysis id (docAt id w).analysisRevision result now)) =
        readingAt id w := by
  obtain ⟨result, hresult⟩ := Option.isSome_iff_exists.mp hthere
  have hok := run_invariant hrun
  have hsettled := run_settled hrun id analysis hanalysis hcompleted result hresult
  have hsave := save_same hok hanalysis hsettled hidle now
  refine ⟨result, ?_, ⟨_, hsave⟩, ?_⟩
  · rw [hresult, structuredAnalysis, Option.filter_some, if_pos (decide_eq_true hsettled.1)]
  · have hafter : (perform w (.updateAnalysis id (docAt id w).analysisRevision result now)).db = _ :=
      congrArg (settled w.db) hsave
    have hbefore : readingAt id w = some result := by
      rw [readingAt, reading, hanalysis]
      exact hresult
    rw [hbefore, readingAt, docAt, hafter, settled_ok]
    dsimp only
    rw [Function.update_self]
    rfl

theorem unchanged_save_keeps_translated :
    (readingAt 1 translatedWorld).isSome ∧
      ∃ result, Accepted translatedWorld
          (.updateAnalysis 1 (docAt 1 translatedWorld).analysisRevision result 10) ∧
        readingAt 1 (perform translatedWorld
          (.updateAnalysis 1 (docAt 1 translatedWorld).analysisRevision result 10)) =
            readingAt 1 translatedWorld := by
  have hthere : (readingAt 1 translatedWorld).isSome := by decide +kernel
  obtain ⟨stored, hstored⟩ := Option.isSome_iff_exists.mp hthere
  obtain ⟨analysis, hanalysis, hresult⟩ := Option.bind_eq_some_iff.mp hstored
  have hstatus : (docAt 1 translatedWorld).analysis.map (·.status) = some .completed := by
    decide +kernel
  rw [hanalysis, Option.map_some, Option.some_inj] at hstatus
  obtain ⟨result, _, hsave⟩ := unchanged_save_keeps (analysedRun.append translatedRun) hanalysis
    hstatus (by rw [hresult]; rfl) (by decide +kernel) 10
  exact ⟨hthere, result, hsave⟩

end AudioServer.Worker.UnchangedSave
