import AudioServer.Foundations.Dicts
import AudioServer.Processing.Contracts

/-! Structured analyses: what a model may answer, and how an answer is grounded. -/

namespace AudioServer.Processing.Analysis

open AudioServer.Foundations.Outcomes AudioServer.Foundations.Strings AudioServer.Foundations.Dicts
open AudioServer.Api.Schemas AudioServer.Db.Models AudioServer.Processing.Contracts

/-- A quote as the model returns it. The note is the usage of an expression or the reason for a
highlight. -/
structure DraftQuote where
  segmentSequence : ℤ
  originalJa : Text
  translationZhHk : Text
  noteJa : Text
  noteZhHk : Text
deriving DecidableEq

def DraftQuote.Valid (q : DraftQuote) : Prop :=
  0 ≤ q.segmentSequence ∧ Sized 1000 q.originalJa ∧ Sized 1000 q.translationZhHk ∧
    Sized 2000 q.noteJa ∧ Sized 2000 q.noteZhHk

instance (q : DraftQuote) : Decidable q.Valid := inferInstanceAs (Decidable (_ ∧ _))

structure AnalysisDraft where
  description : BilingualDescription
  summary : BilingualDescription
  tags : List BilingualTag
  naturalExpressions : List DraftQuote
  highlights : List DraftQuote
  description_valid : description.Valid
  summary_valid : summary.Valid
  tags_valid : tags.length ≤ 12 ∧ ∀ t ∈ tags, t.Valid
  expressions_valid : naturalExpressions.length ≤ 20 ∧ ∀ q ∈ naturalExpressions, q.Valid
  highlights_valid : highlights.length ≤ 12 ∧ ∀ q ∈ highlights, q.Valid

lemma noTags_valid :
    ([] : List BilingualTag).length ≤ 12 ∧ ∀ t ∈ ([] : List BilingualTag), t.Valid := by decide

lemma noExpressions_valid :
    ([] : List DraftQuote).length ≤ 20 ∧ ∀ q ∈ ([] : List DraftQuote), q.Valid := by decide

lemma noHighlights_valid :
    ([] : List DraftQuote).length ≤ 12 ∧ ∀ q ∈ ([] : List DraftQuote), q.Valid := by decide

/-- The pairs of quotation marks a model may wrap a quote in; 34 and 39 are the straight ones. -/
def quotationMarks : List (Char × Char) :=
  [('「', '」'), ('『', '』'), (Char.ofNat 34, Char.ofNat 34), ('“', '”'), ('‘', '’'),
    (Char.ofNat 39, Char.ofNat 39)]

/-- `candidate[1:len(candidate) - 1].strip()` where the pair encloses the candidate. A lone mark
both starts and ends with itself, and leaves nothing. -/
def unwrapped (candidate : Text) (marks : Char × Char) : Option Text :=
  if candidate.head? = some marks.1 ∧ candidate.getLast? = some marks.2 then
    some (strip candidate.tail.dropLast)
  else none

def exactGroundedQuote (quote : Text) (transcript : Option Text) : Option Text :=
  match transcript with
  | none => none
  | some transcript =>
    let candidate := strip quote
    if Occurs candidate transcript then some candidate
    else quotationMarks.findSome? (fun marks =>
      match unwrapped candidate marks with
      | none => none
      | some inner => if inner ≠ [] ∧ Occurs inner transcript then some inner else none)

def groundQuote (segments : List MergedTranscriptSegment) (q : DraftQuote) : Option DraftQuote :=
  let text := (dictGet (·.sequence) segments q.segmentSequence).map (·.text)
  (exactGroundedQuote q.originalJa text).map (fun grounded => { q with originalJa := grounded })

def groundQuotes (segments : List MergedTranscriptSegment) (qs : List DraftQuote) :
    List DraftQuote :=
  qs.filterMap (groundQuote segments)

def firstDistinct {α κ : Type} [DecidableEq κ] (key : α → κ) (bound : ℕ) (xs : List α) : List α :=
  ((xs.foldl (fun acc x => if key x ∈ acc.map key then acc else acc ++ [x]) []).take bound)

def quoteKey (q : DraftQuote) : ℤ × Text := (q.segmentSequence, q.originalJa)

def quoteOf (segments : List MergedTranscriptSegment) (q : DraftQuote) :
    Except Exn AnalysisQuote := do
  let segment ← found (dictGet (·.sequence) segments q.segmentSequence) (.other "KeyError")
  .ok { segmentSequence := q.segmentSequence
        startTime := segment.start
        endTime := some segment.end_
        speakerLabel := segment.speakerLabel
        originalJa := q.originalJa
        translationZhHk := q.translationZhHk
        noteJa := q.noteJa
        noteZhHk := q.noteZhHk }

/-- `_to_result` of a grounded draft. `casefold` is `str.casefold`, which tells tags apart. -/
def toResult (casefold : Text → Text) (draft : AnalysisDraft) (expressions highlights : List DraftQuote)
    (segments : List MergedTranscriptSegment) : Except Exn AnalysisResultV2 := do
  let expressions ← (firstDistinct quoteKey 20 expressions).mapM (quoteOf segments)
  let highlights ← (firstDistinct quoteKey 12 highlights).mapM (quoteOf segments)
  let result : AnalysisResultV2 :=
    { description := draft.description
      summary := some draft.summary
      tags := firstDistinct (fun t => (casefold t.ja, casefold t.zhHk)) 12 draft.tags
      naturalExpressions := expressions
      highlights := highlights }
  require result.Valid (.other "ValidationError")
  .ok result

def emptyAnalysis : AnalysisResultV2 where
  description := ⟨"分析できる発話はありません。".toList, "沒有可供分析的語音內容。".toList⟩
  summary := some ⟨"文字起こしに分析できる発話がないため、詳しい内容要約はありません。".toList,
    "逐字稿沒有可供分析的語音內容，因此暫時沒有詳細內容摘要。".toList⟩
  tags := []
  naturalExpressions := []
  highlights := []

inductive AnalysisProvider
  | disabled
  | lmstudio (casefold : Text → Text)

/-- `answer` is the last draft of the reduction, or what the model's client raised on the way. -/
def AnalysisProvider.analyze (provider : AnalysisProvider) (answer : Except Exn (Text × AnalysisDraft))
    (segments : List MergedTranscriptSegment) : Except Exn AnalysisResult :=
  match provider with
  | .disabled => .ok ⟨.skipped, "disabled".toList, none, 2, none, none, none⟩
  | .lmstudio casefold =>
    if segments = [] then
      .ok ⟨.completed, "lmstudio".toList, none, 2, some emptyAnalysis, none, none⟩
    else do
      let (identifier, draft) ← answer
      let result ← toResult casefold draft (groundQuotes segments draft.naturalExpressions)
        (groundQuotes segments draft.highlights) segments
      .ok ⟨.completed, "lmstudio".toList, some identifier, 2, some result, none, none⟩

lemma exactGroundedQuote_occurs {quote grounded text : Text}
    (h : exactGroundedQuote quote (some text) = some grounded) : Occurs grounded text := by
  simp only [exactGroundedQuote] at h
  split at h
  · rename_i hin
    cases h
    exact hin
  · obtain ⟨marks, _, h⟩ := List.exists_of_findSome?_eq_some h
    split at h
    · cases h
    · split at h
      · rename_i hin
        cases h
        exact hin.2
      · cases h

def Grounded (segments : List MergedTranscriptSegment) (sequence : ℤ) (quote : Text) : Prop :=
  ∃ m ∈ segments, m.sequence = sequence ∧ Occurs quote m.text

lemma groundQuote_grounded {segments : List MergedTranscriptSegment} {q q' : DraftQuote}
    (h : groundQuote segments q = some q') :
    Grounded segments q'.segmentSequence q'.originalJa := by
  obtain ⟨grounded, hgrounded, rfl⟩ := Option.map_eq_some_iff.mp h
  cases hm : dictGet (·.sequence) segments q.segmentSequence with
  | none =>
    rw [hm] at hgrounded
    cases hgrounded
  | some m =>
    rw [hm] at hgrounded
    obtain ⟨hmem, hsequence⟩ := dictGet_some hm
    exact ⟨m, hmem, hsequence, exactGroundedQuote_occurs hgrounded⟩

lemma firstDistinct_subset {α κ : Type} [DecidableEq κ] {key : α → κ} {bound : ℕ} {xs : List α}
    {x : α} (h : x ∈ firstDistinct key bound xs) : x ∈ xs := by
  have hfold : ∀ (rest acc : List α),
      x ∈ rest.foldl (fun acc x => if key x ∈ acc.map key then acc else acc ++ [x]) acc →
      x ∈ acc ∨ x ∈ rest := by
    intro rest
    induction rest with
    | nil => exact fun acc hx => .inl hx
    | cons y rest ih =>
      intro acc hx
      rw [List.foldl_cons] at hx
      rcases ih _ hx with hacc | hrest
      · split at hacc
        · exact .inl hacc
        · rcases List.mem_append.mp hacc with hacc | hy
          · exact .inl hacc
          · rw [List.mem_singleton.mp hy]
            exact .inr List.mem_cons_self
      · exact .inr (List.mem_cons_of_mem _ hrest)
  rcases hfold xs [] (List.mem_of_mem_take h) with hnil | hxs
  · cases hnil
  · exact hxs

lemma quotes_grounded {segments : List MergedTranscriptSegment} {qs : List DraftQuote} {bound : ℕ}
    {quotes : List AnalysisQuote}
    (h : (firstDistinct quoteKey bound (groundQuotes segments qs)).mapM (quoteOf segments) = .ok quotes)
    {quote : AnalysisQuote} (hq : quote ∈ quotes) :
    Grounded segments quote.segmentSequence quote.originalJa := by
  obtain ⟨q, hmem, hquote⟩ := mapM_mem h hq
  obtain ⟨q₀, _, hgrounded⟩ := List.mem_filterMap.mp (firstDistinct_subset hmem)
  obtain ⟨_, _, hquote⟩ := bind_ok hquote
  cases hquote
  exact groundQuote_grounded hgrounded

lemma analyze_grounded {provider : AnalysisProvider} {answer : Except Exn (Text × AnalysisDraft)}
    {segments : List MergedTranscriptSegment} {r : AnalysisResult}
    (h : provider.analyze answer segments = .ok r) {data : AnalysisResultV2} (hd : r.data = some data)
    {quote : AnalysisQuote} (hq : quote ∈ data.quotes) :
    Grounded segments quote.segmentSequence quote.originalJa := by
  cases provider with
  | disabled =>
    cases h
    cases hd
  | lmstudio casefold =>
    simp only [AnalysisProvider.analyze] at h
    split at h
    · cases h
      cases hd
      cases hq
    · obtain ⟨⟨identifier, draft⟩, _, h⟩ := bind_ok h
      obtain ⟨result, hresult, h⟩ := bind_ok h
      cases h
      cases hd
      obtain ⟨expressions, he, hresult⟩ := bind_ok hresult
      obtain ⟨highlights, hh, hresult⟩ := bind_ok hresult
      obtain ⟨_, _, hresult⟩ := bind_ok hresult
      cases hresult
      rcases List.mem_append.mp hq with hq | hq
      · exact quotes_grounded he hq
      · exact quotes_grounded hh hq

end AudioServer.Processing.Analysis
