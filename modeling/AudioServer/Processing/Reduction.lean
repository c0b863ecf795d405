import AudioServer.Foundations.Json
import AudioServer.Foundations.Requests
import AudioServer.Foundations.Runs
import AudioServer.Processing.Analysis
import AudioServer.Processing.Chunks
import AudioServer.Processing.DraftGroups

/-! How the model is asked about a long transcript: once for each chunk, and then for one draft in
place of several until one is left. -/

namespace AudioServer.Processing.Reduction

open AudioServer.Foundations.Json AudioServer.Foundations.Numerals AudioServer.Foundations.Outcomes
open AudioServer.Foundations.Requests AudioServer.Foundations.Runs AudioServer.Foundations.Strings
open AudioServer.Api.Schemas AudioServer.Db.Models AudioServer.Processing.Contracts
open AudioServer.Processing.Analysis AudioServer.Processing.Chunks AudioServer.Processing.DraftGroups

structure LMStudioSettings where
  chunkChars : ℕ
  chunk_in_range : 1000 ≤ chunkChars ∧ chunkChars ≤ 100000

/-- What varies in `_map_prompt` and `_reduce_prompt`. -/
inductive Prompt (δ : Type)
  | map (chunk : Text)
  | reduce (group : List δ)
deriving DecidableEq

def bilingualJson (seps : Separators) (ja zhHk : Text) : Text :=
  jsonObject seps [("ja", jsonString ja), ("zh_hk", jsonString zhHk)]

def quoteJson (noteJa noteZhHk : String) (q : DraftQuote) : Text :=
  jsonObject compact [("segment_sequence", numeral q.segmentSequence.toNat),
    ("original_ja", jsonString q.originalJa), ("translation_zh_hk", jsonString q.translationZhHk),
    (noteJa, jsonString q.noteJa), (noteZhHk, jsonString q.noteZhHk)]

def draftJson (draft : AnalysisDraft) : Text :=
  jsonObject compact [("description", bilingualJson compact draft.description.ja draft.description.zhHk),
    ("summary", bilingualJson compact draft.summary.ja draft.summary.zhHk),
    ("tags", jsonArray compact (draft.tags.map (fun t => bilingualJson compact t.ja t.zhHk))),
    ("natural_expressions",
      jsonArray compact (draft.naturalExpressions.map (quoteJson "usage_ja" "usage_zh_hk"))),
    ("highlights", jsonArray compact (draft.highlights.map (quoteJson "reason_ja" "reason_zh_hk")))]

def groupDrafts (drafts : List AnalysisDraft) (maxChars : ℕ) : List (List AnalysisDraft) :=
  groupBySize (fun draft => (draftJson draft).length) maxChars (8 ≤ ·) drafts

abbrev AnalysisModel := Service (Prompt AnalysisDraft) AnalysisDraft Exn

def reduceDrafts (ask : AnalysisModel) (maxChars : ℕ) (drafts : List AnalysisDraft)
    (asked : List (Prompt AnalysisDraft)) :
    Except Exn (List AnalysisDraft × List (Prompt AnalysisDraft)) :=
  if _hmany : 1 < drafts.length then
    match _h : askAll ask asked ((groupDrafts drafts maxChars).map .reduce) with
    | .error e => .error e
    | .ok (next, asked) => reduceDrafts ask maxChars next asked
  else .ok (drafts, asked)
termination_by drafts.length
decreasing_by
  rw [(askAll_ok _h).2, List.length_map]
  exact groupBySize_lt _hmany

def lastDraft (ask : AnalysisModel) (settings : LMStudioSettings)
    (segments : List MergedTranscriptSegment) : Except Exn AnalysisDraft := do
  let chunks ← chunkTranscript segments settings.chunkChars
  let (drafts, asked) ← askAll ask [] (chunks.map .map)
  let (drafts, _) ← reduceDrafts ask settings.chunkChars drafts asked
  found drafts.head? (.other "IndexError")

structure LoadedModel (δ : Type) where
  identifier : Text
  respond : Service (Prompt δ) δ Exn

def lmstudioAnalyze (casefold : Text → Text) (loaded : List (LoadedModel AnalysisDraft))
    (settings : LMStudioSettings) (segments : List MergedTranscriptSegment) : Except Exn AnalysisResult :=
  (AnalysisProvider.lmstudio casefold).analyze
    (match loaded with
    | [model] => do
      let draft ← lastDraft model.respond settings segments
      .ok (model.identifier, draft)
    | [] => .error (.processing "lmstudio_model_not_loaded"
        "Load exactly one LLM in LM Studio before running analysis." false)
    | _ => .error (.processing "lmstudio_multiple_models"
        "Unload extra LLMs in LM Studio so exactly one remains loaded." false))
    segments

def answering (reply : List (Prompt AnalysisDraft) → Prompt AnalysisDraft → AnalysisDraft) :
    AnalysisModel := fun asked prompt => .ok (reply asked prompt)

abbrev ReduceState := List AnalysisDraft × List (Prompt AnalysisDraft)

def ReducePass (ask : AnalysisModel) (maxChars : ℕ) (s : ReduceState)
    (groups : List (List AnalysisDraft)) (t : ReduceState) : Prop :=
  1 < s.1.length ∧ groups = groupDrafts s.1 maxChars ∧
    askAll ask s.2 (groups.map .reduce) = .ok t

structure SplitsDrafts (e : Event ReduceState (List (List AnalysisDraft))) : Prop where
  flatten : e.label.flatten = e.before.1
  nonempty : ∀ g ∈ e.label, g ≠ []
  fewer : e.label.length < e.before.1.length
  replies : e.after.1.length = e.label.length
  asked : e.after.2 = e.before.2 ++ e.label.map .reduce

variable {ask : AnalysisModel} {maxChars : ℕ}

lemma reducePass_splits {s t : ReduceState} {groups : List (List AnalysisDraft)}
    (h : ReducePass ask maxChars s groups t) : SplitsDrafts ⟨s, groups, t⟩ := by
  obtain ⟨hmany, rfl, hask⟩ := h
  obtain ⟨hasked, hlen⟩ := askAll_ok hask
  exact ⟨groupBySize_flatten s.1, fun g hg => groupBySize_ne_nil hg, groupBySize_lt hmany,
    hlen.trans (List.length_map _), hasked⟩

variable (reply : List (Prompt AnalysisDraft) → Prompt AnalysisDraft → AnalysisDraft)

lemma answering_all (asked ps : List (Prompt AnalysisDraft)) :
    ∃ drafts, askAll (answering reply) asked ps = .ok (drafts, asked ++ ps) ∧
      drafts.length = ps.length := askAll_answers (fun _ _ => ⟨_, rfl⟩) asked ps

/-- The induction is on the number of drafts, which every pass lowers without reaching none. -/
lemma reduceDrafts_ends (n : ℕ) : ∀ drafts asked, drafts.length = n → drafts ≠ [] →
    ∃ passes draft asked', Run (ReducePass (answering reply) maxChars) (drafts, asked) passes
      ([draft], asked') ∧
      reduceDrafts (answering reply) maxChars drafts asked = .ok ([draft], asked') := by
  induction n using Nat.strong_induction_on with
  | _ n ih =>
    intro drafts asked hn hne
    rw [reduceDrafts]
    by_cases hmany : 1 < drafts.length
    · obtain ⟨next, hnext, hlen⟩ :=
        answering_all reply asked ((groupDrafts drafts maxChars).map .reduce)
      have hlt : (groupDrafts drafts maxChars).length < drafts.length := groupBySize_lt hmany
      rw [List.length_map] at hlen
      have hnone : next ≠ [] := by
        rintro rfl
        have hgroups : groupDrafts drafts maxChars = [] := List.length_eq_zero_iff.mp hlen.symm
        have hflat : (groupDrafts drafts maxChars).flatten = drafts := groupBySize_flatten drafts
        rw [hgroups] at hflat
        exact hne hflat.symm
      obtain ⟨passes, draft, asked', hrun, hreduce⟩ :=
        ih next.length (by omega) next _ rfl hnone
      refine ⟨_, draft, asked', .cons ⟨hmany, rfl, hnext⟩ hrun, ?_⟩
      rw [dif_pos hmany]
      split
      · rename_i herror
        rw [hnext] at herror
        cases herror
      · rename_i hok
        rw [hnext] at hok
        cases hok
        exact hreduce
    · obtain ⟨draft, rfl⟩ : ∃ draft, drafts = [draft] := by
        apply List.length_eq_one_iff.mp
        have := List.length_pos_iff.mpr hne
        omega
      exact ⟨[], draft, asked, .nil _, by rw [dif_neg hmany]⟩

theorem map_reduce_ends (settings : LMStudioSettings) {segments : List MergedTranscriptSegment}
    (hne : segments ≠ []) :
    ((∀ m ∈ segments, FitsColumns m) →
      ∃ chunks, chunkTranscript segments settings.chunkChars = .ok chunks) ∧
    ∀ chunks, chunkTranscript segments settings.chunkChars = .ok chunks →
      ∃ drafts passes draft asked,
        askAll (answering reply) [] (chunks.map .map) = .ok (drafts, chunks.map .map) ∧
        drafts.length = chunks.length ∧ chunks ≠ [] ∧
        Run (ReducePass (answering reply) settings.chunkChars) (drafts, chunks.map .map) passes
          ([draft], asked) ∧
        (∀ e ∈ passes, SplitsDrafts e) ∧
        lastDraft (answering reply) settings segments = .ok draft := by
  constructor
  · intro hcolumns
    have hmax := settings.chunk_in_range.1
    exact chunkTranscript_iff.mpr ⟨by omega, fun m hm => roomFor_pos hmax (hcolumns m hm)⟩
  · intro chunks hchunks
    have hsome := chunkTranscript_ne_nil hchunks hne
    obtain ⟨drafts, hdrafts, hlen⟩ := answering_all reply [] (chunks.map .map)
    rw [List.nil_append] at hdrafts
    rw [List.length_map] at hlen
    have hnone : drafts ≠ [] := by
      rintro rfl
      exact hsome (List.length_eq_zero_iff.mp hlen.symm)
    obtain ⟨passes, draft, asked, hrun, hreduce⟩ :=
      @reduceDrafts_ends settings.chunkChars reply _ drafts (chunks.map .map) rfl hnone
    refine ⟨drafts, passes, draft, asked, hdrafts, hlen, hsome, hrun, ?_, ?_⟩
    · exact fun e he => reducePass_splits (hrun.event_step he)
    · rw [lastDraft, hchunks, ok_bind, hdrafts, ok_bind]
      dsimp only
      rw [hreduce]
      rfl

def shortDraft : AnalysisDraft :=
  ⟨⟨"散歩".toList, "散步".toList⟩, ⟨"公園".toList, "公園".toList⟩, [], [], [], by decide, by decide,
    noTags_valid, noExpressions_valid, noHighlights_valid⟩

def longTalk : List MergedTranscriptSegment :=
  (MergedTranscriptSegment.make 0 "A".toList 0 2 (List.replicate 1500 'あ') none none
    false).toOption.toList

def smallestSettings : LMStudioSettings := ⟨1000, by decide⟩

theorem map_reduce_ends_long :
    (valueOr [] (chunkTranscript longTalk smallestSettings.chunkChars)).length = 2 ∧
      ∃ draft, lastDraft (answering (fun _ _ => shortDraft)) smallestSettings longTalk = .ok draft := by
  refine ⟨by decide +kernel, ?_⟩
  obtain ⟨_, _, draft, _, _, _, _, _, _, hdraft⟩ :=
    (@map_reduce_ends (fun _ _ => shortDraft) smallestSettings longTalk (by decide +kernel)).2 _
      (ok_valueOr [] (by decide +kernel))
  exact ⟨draft, hdraft⟩

end AudioServer.Processing.Reduction
