import AudioServer.Processing.StoredQuotes
import AudioServer.Worker.Grounding

/-! The quotes of a completed analysis, against the segments they name: their times and speakers. -/

namespace AudioServer.Worker.StoredAnalyses

open AudioServer.Foundations.Outcomes AudioServer.Foundations.Strings AudioServer.Foundations.Dicts
open AudioServer.Foundations.Runs AudioServer.Api.Schemas AudioServer.Db.Models
open AudioServer.Jobs.Queue AudioServer.Processing.Contracts AudioServer.Processing.Analysis
open AudioServer.Processing.StoredQuotes AudioServer.Services.Editing
open AudioServer.Worker.Persisters AudioServer.Worker.DocumentInvariant
open AudioServer.Worker.CommittedResults AudioServer.Worker.System
open AudioServer.Worker.Invariant AudioServer.Worker.Grounding

structure Stamps (s : TranscriptSegment) (q : AnalysisQuote) : Prop where
  sequence : s.sequence = q.segmentSequence
  occurs : Occurs q.originalJa s.text
  start : q.startTime = s.startTime
  speaker : q.speakerLabel = s.speakerLabel

def AllStamped (segments : List TranscriptSegment) (result : AnalysisResultV2) : Prop :=
  ∀ q ∈ result.quotes, ∃ s ∈ segments, Stamps s q

def Timed (segments : List TranscriptSegment) (result : AnalysisResultV2) : Prop :=
  ∀ q ∈ result.quotes, ∃ s ∈ segments, s.sequence = q.segmentSequence ∧
    q.startTime = s.startTime ∧ q.endTime = some s.endTime ∧ q.speakerLabel = s.speakerLabel

def CompletedIs (P : List TranscriptSegment → AnalysisResultV2 → Prop) (doc : Document) : Prop :=
  ∀ analysis, doc.analysis = some analysis → analysis.status = .completed →
    ∀ result, analysis.result = some result → P doc.segments result

variable {segments : List TranscriptSegment}

lemma groundResultQuote_ok {q q' : AnalysisQuote} (h : groundResultQuote segments q = .ok q') :
    ∃ s ∈ segments, Stamps s q' ∧
      q' = { q with startTime := s.startTime, speakerLabel := s.speakerLabel } := by
  unfold groundResultQuote at h
  split at h
  · rename_i s hs
    obtain ⟨hmem, hsequence⟩ := dictGet_some hs
    split at h
    · rename_i hoccurs
      cases h
      exact ⟨s, hmem, ⟨hsequence, hoccurs, rfl, rfl⟩, rfl⟩
    · cases h
  · cases h

lemma groundAnalysisResult_ok {result grounded : AnalysisResultV2}
    (h : groundAnalysisResult segments result = .ok grounded) :
    grounded.Valid ∧
      (∀ q' ∈ grounded.quotes, ∃ q ∈ result.quotes, groundResultQuote segments q = .ok q') ∧
      ∀ q ∈ result.quotes, ∃ q' ∈ grounded.quotes, groundResultQuote segments q = .ok q' := by
  obtain ⟨expressions, he, h⟩ := bind_ok h
  obtain ⟨highlights, hh, h⟩ := bind_ok h
  obtain ⟨_, hvalid, h⟩ := bind_ok h
  cases h
  refine ⟨require_ok.mp hvalid, fun q' hq' => ?_, fun q hq => ?_⟩
  · rcases List.mem_append.mp hq' with hq' | hq'
    · obtain ⟨q, hq, hground⟩ := mapM_mem he hq'
      exact ⟨q, List.mem_append_left _ hq, hground⟩
    · obtain ⟨q, hq, hground⟩ := mapM_mem hh hq'
      exact ⟨q, List.mem_append_right _ hq, hground⟩
  · rcases List.mem_append.mp hq with hq | hq
    · obtain ⟨q', hq', hground⟩ := mapM_image he hq
      exact ⟨q', List.mem_append_left _ hq', hground⟩
    · obtain ⟨q', hq', hground⟩ := mapM_image hh hq
      exact ⟨q', List.mem_append_right _ hq', hground⟩

lemma grounded_stamped {result grounded : AnalysisResultV2}
    (h : groundAnalysisResult segments result = .ok grounded) : AllStamped segments grounded := by
  intro q' hq'
  obtain ⟨q, _, hground⟩ := (groundAnalysisResult_ok h).2.1 q' hq'
  obtain ⟨s, hs, hstamps, _⟩ := groundResultQuote_ok hground
  exact ⟨s, hs, hstamps⟩

def OwnEnds (segments : List TranscriptSegment) (result : AnalysisResultV2) : Prop :=
  ∀ q ∈ result.quotes, ∀ s ∈ segments, s.sequence = q.segmentSequence → q.endTime = some s.endTime

lemma grounded_timed_iff (hsequences : (segments.map (·.sequence)).Nodup)
    {result grounded : AnalysisResultV2} (h : groundAnalysisResult segments result = .ok grounded) :
    Timed segments grounded ↔ OwnEnds segments result := by
  obtain ⟨_, hfrom, hto⟩ := groundAnalysisResult_ok h
  constructor
  · intro htimed q hq s hs hsequence
    obtain ⟨q', hq', hground⟩ := hto q hq
    obtain ⟨s', hs', _, rfl⟩ := groundResultQuote_ok hground
    obtain ⟨t, ht, hnumber, _, hend, _⟩ := htimed _ hq'
    obtain rfl : t = s := List.inj_on_of_nodup_map hsequences ht hs (hnumber.trans hsequence.symm)
    exact hend
  · intro hends q' hq'
    obtain ⟨q, hq, hground⟩ := hfrom q' hq'
    obtain ⟨s, hs, hstamps, rfl⟩ := groundResultQuote_ok hground
    exact ⟨s, hs, hstamps.sequence, rfl, hends q hq s hs hstamps.sequence, rfl⟩

lemma computed_stamped {doc : Document} {transcript : List MergedTranscriptSegment}
    (hread : readTranscript doc = .ok transcript) {provider : AnalysisProvider}
    {answer : Except Exn (Text × AnalysisDraft)} {r : AnalysisResult}
    (h : provider.analyze answer transcript = .ok r) {data : AnalysisResultV2} (hd : r.data = some data) :
    data.Valid ∧ AllStamped doc.segments data ∧ Timed doc.segments data := by
  obtain ⟨hvalid, hquotes⟩ := analyze_stored h hd
  have hrow : ∀ q ∈ data.quotes, ∃ s ∈ doc.segments, Stamps s q ∧ q.endTime = some s.endTime := by
    intro q hq
    obtain ⟨m, hm, hof⟩ := hquotes q hq
    obtain ⟨s, hs, hmerge⟩ := mapM_mem hread hm
    obtain ⟨hsequence, hspeaker, hstart, hend, htext⟩ := MergedTranscriptSegment.make_ok hmerge
    refine ⟨s, mem_ordered.mp hs, ⟨hsequence.symm.trans hof.sequence, htext ▸ hof.occurs,
      hof.start.trans hstart, hof.speaker.trans hspeaker⟩, ?_⟩
    rw [hof.end_, hend]
  refine ⟨hvalid, fun q hq => ?_, fun q hq => ?_⟩
  · obtain ⟨s, hs, hstamps, _⟩ := hrow q hq
    exact ⟨s, hs, hstamps⟩
  · obtain ⟨s, hs, hstamps, hend⟩ := hrow q hq
    exact ⟨s, hs, hstamps.sequence, hstamps.start, hend, hstamps.speaker⟩

lemma completedIs_congr {P : List TranscriptSegment → AnalysisResultV2 → Prop} {doc doc' : Document}
    (h : CompletedIs P doc) (hsegments : doc'.segments = doc.segments)
    (hanalysis : doc'.analysis = doc.analysis) : CompletedIs P doc' := by
  intro analysis ha hcompleted result hresult
  rw [hsegments]
  exact h analysis (hanalysis ▸ ha) hcompleted result hresult

lemma step_completedIs {P : List TranscriptSegment → AnalysisResultV2 → Prop} {w : World} {act : Act}
    (hok : WorldInvariant w) (hallowed : act.Allowed w) {id : RecordingId}
    (h : CompletedIs P (docAt id w))
    (hsaved : ∀ expectedRevision result now grounded,
      act = .updateAnalysis id expectedRevision result now →
      groundAnalysisResult (docAt id w).segments result = .ok grounded →
      P (docAt id w).segments grounded)
    (hcomputed : ∀ data, data.Valid → AllStamped (docAt id w).segments data →
      Timed (docAt id w).segments data → P (docAt id w).segments data) :
    CompletedIs P (docAt id (perform w act)) := by
  have hwrote := step_wrote hok.statuses hallowed id
  rw [docAt] at h ⊢
  generalize (perform w act).db.documents id = doc at hwrote ⊢
  cases hwrote with
  | kept => exact h
  | cleared => exact fun analysis ha => nomatch ha
  | transcriptEdited _ _ hdoc =>
    obtain ⟨_, rfl⟩ := editTranscript_doc hdoc
    intro analysis ha hcompleted
    rw [staleAnalysis_status ha] at hcompleted
    cases hcompleted
  | analysisEdited _ _ hdoc =>
    obtain ⟨grounded, jobId, hground, rfl⟩ := editAnalysis_ok hdoc
    intro analysis ha _ result hresult
    cases ha
    cases hresult
    exact hsaved _ _ _ grounded rfl hground
  | translationsEdited _ _ hdoc =>
    obtain ⟨_, _, rfl⟩ := editTranslations_ok hdoc
    exact completedIs_congr h rfl rfl
  | @committed _ claim work _ _ job _ hjob howns hscope hwork _ hpersist =>
    cases work with
    | transcript result ids at_ =>
      obtain ⟨_, _, _, _, _, rfl⟩ := persistTranscript_ok hpersist
      exact fun analysis ha hcompleted => absurd hcompleted (staleCompleted_status ha)
    | analysis result at_ =>
      obtain ⟨_, l, hl, rfl, provider, answer, hanalyze⟩ := hwork
      have hread := hok.current l hl job hjob howns id hscope
      simp only [Work.persist, persistAnalysis] at hpersist
      split at hpersist
      · cases hpersist
        exact h
      · cases hpersist
        intro analysis ha _ data hdata
        cases ha
        obtain ⟨hvalid, hstamped, htimed⟩ := computed_stamped hread hanalyze hdata
        exact hcomputed data hvalid hstamped htimed
    | translations result ids at_ =>
      obtain ⟨_, rfl, _⟩ := persistTranslations_ok hpersist
      exact completedIs_congr h rfl rfl

structure Stores (id : RecordingId) (stored : AnalysisResultV2) (e : Event World Act) : Prop where
  accepted : Accepted e.before e.label
  writes : (∃ expectedRevision result now,
      e.label = .updateAnalysis id expectedRevision result now) ∨
    ∃ queue claim result at_ now row, e.label = .commit queue claim (.analysis result at_) now row ∧
      claim.recordingId = some id ∧ result.status = .completed
  row : ∃ analysis, (docAt id e.after).analysis = some analysis ∧ analysis.status = .completed ∧
    analysis.result = some stored

/-- A save that is accepted submits, with every quote, the end of the segment it names. -/
def SubmitsOwnEnds (id : RecordingId) (w : World) (act : Act) : Prop :=
  Accepted w act → ∀ expectedRevision result now,
    act = .updateAnalysis id expectedRevision result now → OwnEnds (docAt id w).segments result

lemma stores_timed_iff {id : RecordingId} {stored : AnalysisResultV2} {w : World} {act : Act}
    (hok : WorldInvariant w) (hallowed : act.Allowed w) (h : Stores id stored ⟨w, act, perform w act⟩) :
    Timed (docAt id (perform w act)).segments stored ↔ SubmitsOwnEnds id w act := by
  obtain ⟨haccepted, hwrites, analysis, ha, _, hstored⟩ := h
  dsimp only at haccepted hwrites ha
  rcases hwrites with ⟨expectedRevision, result, now, rfl⟩ |
    ⟨queue, claim, result, at_, now, row, rfl, hscope, hcompleted⟩
  · obtain ⟨hother, _⟩ | ⟨_, _, _, _, _, hdoc⟩ := edited_documents id (accepted_db haccepted)
    · exact absurd rfl hother
    · obtain ⟨grounded, jobId, hground, hdoc⟩ := editAnalysis_ok hdoc
      rw [docAt, hdoc] at ha
      cases ha
      cases hstored
      have hsegments : (docAt id (perform w (.updateAnalysis id expectedRevision result now))).segments =
          (docAt id w).segments := by rw [docAt, hdoc, docAt]
      rw [hsegments]
      refine (grounded_timed_iff (hok.documents id).sequences hground).trans ⟨?_, ?_⟩
      · rintro hends _ _ _ _ hact
        cases hact
        exact hends
      · exact fun hsubmits => hsubmits haccepted _ _ _ rfl
  · obtain ⟨job, hjob, howns, hdoc⟩ := accepted_commit haccepted hscope
    obtain ⟨_, l, hl, rfl, provider, answer, hanalyze⟩ := hallowed.2
    have hread := hok.current l hl job hjob howns id hscope
    have hsegments := persistAnalysis_segments hdoc
    simp only [Work.persist, persistAnalysis, hcompleted, ne_eq, not_true_eq_false, false_and,
      if_false, Except.ok.injEq] at hdoc
    rw [← hdoc] at ha
    cases ha
    obtain ⟨_, _, htimed⟩ := computed_stamped hread hanalyze hstored
    rw [hsegments]
    exact iff_of_true htimed (fun _ _ _ _ hact => nomatch hact)

lemma step_timed {w w' : World} {act : Act} {id : RecordingId}
    (h : WorldInvariant w ∧ CompletedIs Timed (docAt id w)) (hends : SubmitsOwnEnds id w act)
    (hstep : WorldStep w act w') : WorldInvariant w' ∧ CompletedIs Timed (docAt id w') := by
  have hok' := step_invariant h.1 hstep
  obtain ⟨hallowed, rfl⟩ := hstep
  refine ⟨hok', ?_⟩
  by_cases haccepted : Accepted w act
  · refine step_completedIs h.1 hallowed h.2 ?_ (fun data _ _ htimed => htimed)
    intro expectedRevision result now grounded hact hground
    exact (grounded_timed_iff (h.1.documents id).sequences hground).mpr
      (hends haccepted _ _ _ hact)
  · rcases perform_db w act with hexec | ⟨hsame, _⟩
    · exact absurd ⟨_, hexec⟩ haccepted
    · rw [docAt, hsame]
      exact h.2

theorem stored_quotes_timed {settings : Option ProcessingSettings} {w : World}
    {es : List (Event World Act)} (hrun : WorldRun (World.init settings) es w) :
    (∀ e ∈ es, ∀ id stored, Stores id stored e →
      (Timed (docAt id e.after).segments stored ↔ SubmitsOwnEnds id e.before e.label)) ∧
    ∀ id, (∀ e ∈ es, SubmitsOwnEnds id e.before e.label) → CompletedIs Timed (docAt id w) := by
  constructor
  · intro e he id stored hstores
    have hok := hrun.event_keeps WorldInvariant (fun _ _ _ => step_invariant)
      (init_invariant settings) he
    obtain ⟨before, act, after⟩ := e
    obtain ⟨hallowed, hafter⟩ := hrun.event_step he
    dsimp only at hallowed hafter hok hstores ⊢
    subst hafter
    exact stores_timed_iff hok hallowed hstores
  · intro id hends
    have hinit : CompletedIs Timed (docAt id (World.init settings)) := fun _ ha => nomatch ha
    exact (hrun.keeps_if (fun w => WorldInvariant w ∧ CompletedIs Timed (docAt id w))
      (SubmitsOwnEnds id) (fun _ _ _ h hends hstep => step_timed h hends hstep)
      ⟨init_invariant settings, hinit⟩ hends).2

theorem stored_quotes_timed_after_commit :
    ((docAt 1 analysedWorld).analysis.bind (·.result)).map (fun r => r.quotes.map (·.endTime)) =
        some [some 2] ∧
      CompletedIs Timed (docAt 1 analysedWorld) := by
  refine ⟨by decide +kernel, (stored_quotes_timed analysedRun).2 1 ?_⟩
  intro e he
  simp only [analysedActs, trail, List.mem_cons, List.not_mem_nil, or_false] at he
  rcases he with rfl | rfl | rfl | rfl | rfl | rfl
  all_goals exact fun _ _ _ _ hact => nomatch hact

def shortenedSave : Act :=
  .updateAnalysis 1 1 ⟨⟨"挨拶".toList, "打招呼".toList⟩, none, [],
    [⟨0, 0, some 1, "A".toList, "はい".toList, "係".toList, "返事".toList, "回應".toList⟩], []⟩ 10

def shortenedWorld : World := perform translatedWorld shortenedSave

theorem submitted_end_stored :
    (∃ es, WorldRun (World.init none) es shortenedWorld) ∧
      (docAt 1 shortenedWorld).analysis.map (·.status) = some .completed ∧
      ((docAt 1 shortenedWorld).analysis.bind (·.result)).map (fun r => r.quotes.map (·.endTime)) =
        some [some 1] ∧
      (docAt 1 shortenedWorld).segments.map (fun s => (s.sequence, s.endTime)) = [(0, 2)] := by
  have hsave : WorldRun translatedWorld [⟨translatedWorld, shortenedSave, shortenedWorld⟩]
      shortenedWorld := .single ⟨trivial, rfl⟩
  exact ⟨⟨_, (analysedRun.append translatedRun).append hsave⟩, by decide +kernel, by decide +kernel,
    by decide +kernel⟩

end AudioServer.Worker.StoredAnalyses
