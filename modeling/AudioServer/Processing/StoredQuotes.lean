import AudioServer.Processing.Analysis

/-! Which quotes of a draft are stored: those that their segment contains, each once, in order. -/

namespace AudioServer.Processing.StoredQuotes

open AudioServer.Foundations.Outcomes AudioServer.Foundations.Strings AudioServer.Foundations.Dicts
open AudioServer.Api.Schemas AudioServer.Db.Models AudioServer.Processing.Contracts
open AudioServer.Processing.Analysis

/-- `grounded` is the quote, stripped and, unless the text has it so, freed of one pair of marks. -/
def ReadsAs (quote text grounded : Text) : Prop :=
  grounded ≠ [] ∧ Occurs grounded text ∧
    (grounded = strip quote ∨ (¬ Occurs (strip quote) text ∧ ∃ marks ∈ quotationMarks, ∃ inner,
      strip quote = marks.1 :: (inner ++ [marks.2]) ∧ grounded = strip inner))

def stampedQuote (segment : MergedTranscriptSegment) (item : DraftQuote) (grounded : Text) :
    AnalysisQuote where
  segmentSequence := item.segmentSequence
  startTime := segment.start
  endTime := some segment.end_
  speakerLabel := segment.speakerLabel
  originalJa := grounded
  translationZhHk := item.translationZhHk
  noteJa := item.noteJa
  noteZhHk := item.noteZhHk

def Stamped (segments : List MergedTranscriptSegment) (item : DraftQuote) (quote : AnalysisQuote) :
    Prop :=
  ∃ segment ∈ segments, segment.sequence = item.segmentSequence ∧
    ∃ grounded, ReadsAs item.originalJa segment.text grounded ∧
      quote = stampedQuote segment item grounded

def storedKey (quote : AnalysisQuote) : ℤ × Text := (quote.segmentSequence, quote.originalJa)

inductive Leaves (segments : List MergedTranscriptSegment) :
    List DraftQuote → List AnalysisQuote → Prop
  | nil : Leaves segments [] []
  | kept {items quotes item quote} : Leaves segments items quotes → Stamped segments item quote →
      storedKey quote ∉ quotes.map storedKey → Leaves segments (items ++ [item]) (quotes ++ [quote])
  | repeated {items quotes item quote} : Leaves segments items quotes →
      Stamped segments item quote → storedKey quote ∈ quotes.map storedKey →
      Leaves segments (items ++ [item]) quotes
  | dropped {items quotes item} : Leaves segments items quotes →
      (∀ quote, ¬ Stamped segments item quote) → Leaves segments (items ++ [item]) quotes

/-- No item quotes nothing of a segment there is, and none quotes a segment that ends at 0. -/
def NothingOdd (segments : List MergedTranscriptSegment) (items : List DraftQuote) : Prop :=
  ∀ item ∈ items, ∀ segment ∈ segments, segment.sequence = item.segmentSequence →
    ¬ Blank item.originalJa ∧
      (segment.end_ = 0 → ∀ grounded, ¬ ReadsAs item.originalJa segment.text grounded)

variable {segments : List MergedTranscriptSegment}

lemma marks_ext {a b : Char × Char} (ha : a ∈ quotationMarks) (hb : b ∈ quotationMarks)
    (h : a.1 = b.1) : a = b := by
  have hall : ∀ a ∈ quotationMarks, ∀ b ∈ quotationMarks, a.1 = b.1 → a = b := by decide
  exact hall a ha b hb h

lemma unwrapped_eq (marks : Char × Char) (inner : Text) :
    unwrapped (marks.1 :: (inner ++ [marks.2])) marks = some (strip inner) := by
  simp [unwrapped, List.getLast?_cons]

lemma unwrapped_some {candidate inner : Text} {marks : Char × Char} (hne : inner ≠ [])
    (h : unwrapped candidate marks = some inner) :
    ∃ middle, candidate = marks.1 :: (middle ++ [marks.2]) ∧ inner = strip middle := by
  rw [unwrapped] at h
  split at h
  · rename_i hmarks
    cases h
    obtain ⟨rest, rfl⟩ := List.head?_eq_some_iff.mp hmarks.1
    rcases List.eq_nil_or_concat' rest with rfl | ⟨middle, last, rfl⟩
    · exact absurd rfl hne
    · have hlast : last = marks.2 := by simpa [List.getLast?_cons] using hmarks.2
      rw [hlast, List.tail_cons, List.dropLast_concat]
      exact ⟨middle, rfl, rfl⟩
  · cases h

lemma findSome?_only {α β : Type} {f : α → Option β} {xs : List α} {x : α} {y : β} (hx : x ∈ xs)
    (hy : f x = some y) (honly : ∀ z ∈ xs, ∀ w, f z = some w → w = y) : xs.findSome? f = some y := by
  have hsome : (xs.findSome? f).isSome := List.findSome?_isSome_iff.mpr ⟨x, hx, by rw [hy]; rfl⟩
  obtain ⟨w, hw⟩ := Option.isSome_iff_exists.mp hsome
  obtain ⟨z, hz, hfz⟩ := List.exists_of_findSome?_eq_some hw
  rw [hw, honly z hz w hfz]

lemma unwrapped_in {candidate text grounded : Text} {marks : Char × Char} :
    (match unwrapped candidate marks with
      | none => none
      | some inner => if inner ≠ [] ∧ Occurs inner text then some inner else none) = some grounded ↔
    grounded ≠ [] ∧ Occurs grounded text ∧
      ∃ middle, candidate = marks.1 :: (middle ++ [marks.2]) ∧ grounded = strip middle := by
  constructor
  · intro h
    split at h
    · cases h
    · rename_i inner hinner
      obtain ⟨hin, hsome⟩ := Option.ite_none_right_eq_some.mp h
      cases hsome
      exact ⟨hin.1, hin.2, unwrapped_some hin.1 hinner⟩
  · rintro ⟨hne, hoccurs, middle, rfl, rfl⟩
    rw [unwrapped_eq]
    exact if_pos ⟨hne, hoccurs⟩

lemma exactGroundedQuote_iff {quote text grounded : Text} (hblank : ¬ Blank quote) :
    exactGroundedQuote quote (some text) = some grounded ↔ ReadsAs quote text grounded := by
  simp only [exactGroundedQuote]
  by_cases hoccurs : Occurs (strip quote) text
  · rw [if_pos hoccurs, Option.some_inj]
    constructor
    · rintro rfl
      exact ⟨hblank, hoccurs, .inl rfl⟩
    · rintro ⟨_, _, rfl | ⟨hnot, _⟩⟩
      · rfl
      · exact absurd hoccurs hnot
  · rw [if_neg hoccurs]
    constructor
    · intro h
      obtain ⟨marks, hmarks, h⟩ := List.exists_of_findSome?_eq_some h
      obtain ⟨hne, hin, inner, hinner⟩ := unwrapped_in.mp h
      exact ⟨hne, hin, .inr ⟨hoccurs, marks, hmarks, inner, hinner⟩⟩
    · rintro ⟨hne, hin, rfl | ⟨_, marks, hmarks, inner, hquote, hinner⟩⟩
      · exact absurd hin hoccurs
      · refine findSome?_only hmarks (unwrapped_in.mpr ⟨hne, hin, inner, hquote, hinner⟩) ?_
        intro marks' hmarks' other hother
        obtain ⟨_, _, inner', hquote', rfl⟩ := unwrapped_in.mp hother
        rw [hquote, List.cons.injEq] at hquote'
        obtain rfl := marks_ext hmarks hmarks' hquote'.1
        rw [hinner, List.append_cancel_right hquote'.2]

lemma readsAs_length {quote text grounded : Text} (h : ReadsAs quote text grounded) :
    grounded.length ≤ quote.length := by
  obtain ⟨_, _, rfl | ⟨_, marks, _, inner, hquote, rfl⟩⟩ := h
  · exact strip_length_le quote
  · have hstrip := strip_length_le quote
    rw [hquote, List.length_cons, List.length_append] at hstrip
    have hinner := strip_length_le inner
    omega

lemma leaves_stamped {items : List DraftQuote} {quotes : List AnalysisQuote}
    (h : Leaves segments items quotes) : ∀ quote ∈ quotes, ∃ item ∈ items, Stamped segments item quote := by
  induction h with
  | nil => exact fun quote hquote => absurd hquote List.not_mem_nil
  | kept _ hstamped _ ih =>
    intro quote hquote
    rcases List.mem_append.mp hquote with hquote | hquote
    · obtain ⟨item, hitem, hof⟩ := ih quote hquote
      exact ⟨item, List.mem_append_left _ hitem, hof⟩
    · rw [List.mem_singleton.mp hquote]
      exact ⟨_, List.mem_append_right _ (List.mem_singleton_self _), hstamped⟩
  | repeated _ _ _ ih =>
    intro quote hquote
    obtain ⟨item, hitem, hof⟩ := ih quote hquote
    exact ⟨item, List.mem_append_left _ hitem, hof⟩
  | dropped _ _ ih =>
    intro quote hquote
    obtain ⟨item, hitem, hof⟩ := ih quote hquote
    exact ⟨item, List.mem_append_left _ hitem, hof⟩

lemma stamped_valid (hlabels : ∀ segment ∈ segments, segment.speakerLabel.length ≤ 64)
    {item : DraftQuote} (hitem : item.Valid) {quote : AnalysisQuote}
    (hodd : ∀ segment ∈ segments, segment.sequence = item.segmentSequence →
      segment.end_ = 0 → ∀ grounded, ¬ ReadsAs item.originalJa segment.text grounded)
    (h : Stamped segments item quote) : quote.Valid := by
  obtain ⟨segment, hsegment, hsequence, grounded, hreads, rfl⟩ := h
  obtain ⟨hnonneg, horiginal, hrest⟩ := hitem
  have hend : 0 < segment.end_ := by
    refine lt_of_le_of_ne (segment.start_nonneg.trans segment.start_le_end) (fun hzero => ?_)
    exact hodd segment hsegment hsequence hzero.symm grounded hreads
  refine ⟨hnonneg, segment.start_nonneg, ?_, ⟨?_, hlabels segment hsegment⟩, ⟨?_, ?_⟩, hrest⟩
  · intro e he
    cases he
    exact hend
  · exact List.length_pos_iff.mpr (nonblank_ne_nil segment.speaker_nonblank)
  · exact List.length_pos_iff.mpr hreads.1
  · exact (readsAs_length hreads).trans horiginal.2

lemma leaves_valid (hlabels : ∀ segment ∈ segments, segment.speakerLabel.length ≤ 64)
    {items : List DraftQuote} (hvalid : ∀ item ∈ items, item.Valid) (hodd : NothingOdd segments items) {quotes : List AnalysisQuote}
    (h : Leaves segments items quotes) : ∀ quote ∈ quotes, quote.Valid := by
  intro quote hquote
  obtain ⟨item, hitem, hstamped⟩ := leaves_stamped h quote hquote
  exact stamped_valid hlabels (hvalid item hitem)
    (fun segment hsegment hsequence => (hodd item hitem segment hsegment hsequence).2) hstamped

lemma groundQuote_some {item q : DraftQuote} :
    groundQuote segments item = some q ↔ ∃ segment grounded,
      dictGet (·.sequence) segments item.segmentSequence = some segment ∧
      exactGroundedQuote item.originalJa (some segment.text) = some grounded ∧
      q = { item with originalJa := grounded } := by
  rw [groundQuote]
  cases dictGet (·.sequence) segments item.segmentSequence with
  | none => simp [exactGroundedQuote]
  | some segment => simp [eq_comm]

lemma groundQuotes_concat {items : List DraftQuote} {item : DraftQuote} :
    groundQuotes segments (items ++ [item]) =
      groundQuotes segments items ++ (groundQuote segments item).toList := by
  rw [groundQuotes, List.filterMap_append, groundQuotes]
  cases h : groundQuote segments item <;> simp [h]

lemma groundQuote_stored {item q : DraftQuote} (h : groundQuote segments item = some q) :
    ∃ quote, quoteOf segments q = .ok quote ∧ storedKey quote = quoteKey q := by
  obtain ⟨segment, grounded, hfound, _, rfl⟩ := groundQuote_some.mp h
  refine ⟨stampedQuote segment item grounded, ?_, rfl⟩
  rw [quoteOf, hfound]
  rfl

structure QuoteOf (m : MergedTranscriptSegment) (quote : AnalysisQuote) : Prop where
  sequence : m.sequence = quote.segmentSequence
  occurs : Occurs quote.originalJa m.text
  start : quote.startTime = m.start
  end_ : quote.endTime = some m.end_
  speaker : quote.speakerLabel = m.speakerLabel

lemma stored_quoteOf {bound : ℕ} {items : List DraftQuote} {quotes : List AnalysisQuote}
    (h : (firstDistinct quoteKey bound (groundQuotes segments items)).mapM (quoteOf segments) =
      .ok quotes) {quote : AnalysisQuote} (hquote : quote ∈ quotes) :
    ∃ m ∈ segments, QuoteOf m quote := by
  obtain ⟨q, hq, hof⟩ := mapM_mem h hquote
  obtain ⟨item, _, hground⟩ := List.mem_filterMap.mp (firstDistinct_subset hq)
  obtain ⟨m, grounded, hfound, hgrounded, rfl⟩ := groundQuote_some.mp hground
  obtain ⟨hm, hsequence⟩ := dictGet_some hfound
  rw [quoteOf, hfound] at hof
  cases hof
  exact ⟨m, hm, hsequence, exactGroundedQuote_occurs hgrounded, rfl, rfl, rfl⟩

lemma analyze_stored {provider : AnalysisProvider} {answer : Except Exn (Text × AnalysisDraft)}
    {r : AnalysisResult} (h : provider.analyze answer segments = .ok r) {data : AnalysisResultV2}
    (hd : r.data = some data) :
    data.Valid ∧ ∀ quote ∈ data.quotes, ∃ m ∈ segments, QuoteOf m quote := by
  cases provider with
  | disabled =>
    cases h
    cases hd
  | lmstudio casefold =>
    simp only [AnalysisProvider.analyze] at h
    split at h
    · cases h
      cases hd
      exact ⟨by decide, fun quote hquote => absurd hquote List.not_mem_nil⟩
    · obtain ⟨⟨identifier, draft⟩, _, h⟩ := bind_ok h
      obtain ⟨result, hresult, h⟩ := bind_ok h
      cases h
      cases hd
      obtain ⟨expressions, he, hresult⟩ := bind_ok hresult
      obtain ⟨highlights, hh, hresult⟩ := bind_ok hresult
      obtain ⟨_, hvalid, hresult⟩ := bind_ok hresult
      cases hresult
      refine ⟨require_ok.mp hvalid, fun quote hquote => ?_⟩
      rcases List.mem_append.mp hquote with hquote | hquote
      · exact stored_quoteOf he hquote
      · exact stored_quoteOf hh hquote

section Distinct

variable {α κ : Type} [DecidableEq κ] {key : α → κ} {bound : ℕ}

lemma firstDistinct_all {xs : List α} (h : xs.length ≤ bound) : firstDistinct key bound xs =
    xs.foldl (fun acc x => if key x ∈ acc.map key then acc else acc ++ [x]) [] := by
  have hfold : ∀ (xs acc : List α),
      (xs.foldl (fun acc x => if key x ∈ acc.map key then acc else acc ++ [x]) acc).length ≤
        acc.length + xs.length := by
    intro xs
    induction xs with
    | nil => exact fun acc => Nat.le_refl _
    | cons x xs ih =>
      intro acc
      rw [List.foldl_cons, List.length_cons]
      refine (ih _).trans ?_
      split
      · omega
      · rw [List.length_append, List.length_singleton]
        omega
  have hlen := hfold xs []
  rw [List.length_nil, Nat.zero_add] at hlen
  exact List.take_of_length_le (hlen.trans h)

lemma firstDistinct_concat {xs : List α} {x : α} (h : xs.length + 1 ≤ bound) :
    firstDistinct key bound (xs ++ [x]) =
      if key x ∈ (firstDistinct key bound xs).map key then firstDistinct key bound xs
      else firstDistinct key bound xs ++ [x] := by
  have hconcat : (xs ++ [x]).length ≤ bound := by rwa [List.length_append, List.length_singleton]
  rw [firstDistinct_all hconcat, firstDistinct_all (Nat.le_of_succ_le h), List.foldl_append]
  rfl

lemma firstDistinct_covers {xs : List α} {x : α} (h : xs.length ≤ bound) (hx : x ∈ xs) :
    key x ∈ (firstDistinct key bound xs).map key := by
  induction xs using List.reverseRecOn with
  | nil => cases hx
  | append_singleton xs y ih =>
    rw [List.length_append, List.length_singleton] at h
    rw [firstDistinct_concat h]
    rcases List.mem_append.mp hx with hx | hx
    · have hkey := ih (Nat.le_of_succ_le h) hx
      split
      · exact hkey
      · rw [List.map_append]
        exact List.mem_append_left _ hkey
    · rw [List.mem_singleton.mp hx]
      split
      · assumption
      · rw [List.map_append]
        exact List.mem_append_right _ (List.mem_singleton_self _)

end Distinct

lemma keys_bound {bound : ℕ} {quotes : List AnalysisQuote} {items : List DraftQuote}
    (h : quotes.map storedKey = (firstDistinct quoteKey bound items).map quoteKey) :
    quotes.length ≤ bound := by
  have hlen := congrArg List.length h
  rw [List.length_map, List.length_map] at hlen
  rw [hlen]
  exact List.length_take_le _ _

section Stored

variable (hsequences : (segments.map (·.sequence)).Nodup)

include hsequences

lemma stamped_iff {item : DraftQuote} (hitem : ∀ segment ∈ segments,
    segment.sequence = item.segmentSequence → ¬ Blank item.originalJa) {quote : AnalysisQuote} :
    Stamped segments item quote ↔
      ∃ q, groundQuote segments item = some q ∧ quoteOf segments q = .ok quote := by
  constructor
  · rintro ⟨segment, hsegment, hsequence, grounded, hreads, rfl⟩
    have hfound : dictGet (·.sequence) segments item.segmentSequence = some segment := by
      rw [← hsequence]
      exact dictGet_eq_some hsequences hsegment
    refine ⟨_, groundQuote_some.mpr ⟨segment, grounded, hfound,
      (exactGroundedQuote_iff (hitem segment hsegment hsequence)).mpr hreads, rfl⟩, ?_⟩
    rw [quoteOf, hfound]
    rfl
  · rintro ⟨q, hq, hquote⟩
    obtain ⟨segment, grounded, hfound, hgrounded, rfl⟩ := groundQuote_some.mp hq
    obtain ⟨hsegment, hsequence⟩ := dictGet_some hfound
    rw [quoteOf, hfound] at hquote
    cases hquote
    exact ⟨segment, hsegment, hsequence, grounded,
      (exactGroundedQuote_iff (hitem segment hsegment hsequence)).mp hgrounded, rfl⟩

lemma groundQuotes_leave {bound : ℕ} {items : List DraftQuote} (hlen : items.length ≤ bound)
    (hitems : ∀ item ∈ items, ∀ segment ∈ segments, segment.sequence = item.segmentSequence →
      ¬ Blank item.originalJa) :
    ∃ quotes, (firstDistinct quoteKey bound (groundQuotes segments items)).mapM (quoteOf segments) =
        .ok quotes ∧
      quotes.map storedKey =
        (firstDistinct quoteKey bound (groundQuotes segments items)).map quoteKey ∧
      Leaves segments items quotes := by
  induction items using List.reverseRecOn with
  | nil =>
    refine ⟨[], ?_, ?_, .nil⟩
    · simp [groundQuotes, firstDistinct, pure, Except.pure]
    · simp [groundQuotes, firstDistinct]
  | append_singleton items item ih =>
    rw [List.length_append, List.length_singleton] at hlen
    obtain ⟨quotes, hquotes, hkeys, hleaves⟩ := ih (Nat.le_of_succ_le hlen)
      (fun other hother => hitems other (List.mem_append_left _ hother))
    have hstamped := @stamped_iff segments hsequences item (hitems item (by simp))
    have hground := @groundQuotes_concat segments items item
    cases hq : groundQuote segments item with
    | none =>
      rw [hground, hq, Option.toList_none, List.append_nil]
      refine ⟨quotes, hquotes, hkeys, hleaves.dropped (fun quote hquote => ?_)⟩
      obtain ⟨q, hsome, _⟩ := hstamped.mp hquote
      rw [hq] at hsome
      cases hsome
    | some q =>
      obtain ⟨quote, hquote, hkey⟩ := groundQuote_stored hq
      have hmade := hstamped.mpr ⟨q, hq, hquote⟩
      have hcount : (groundQuotes segments items).length + 1 ≤ bound :=
        (Nat.succ_le_succ (List.length_filterMap_le _ _)).trans hlen
      rw [hground, hq, Option.toList_some, firstDistinct_concat hcount, ← hkeys, ← hkey]
      by_cases hmem : storedKey quote ∈ quotes.map storedKey
      · rw [if_pos hmem]
        exact ⟨quotes, hquotes, hkeys, hleaves.repeated hmade hmem⟩
      · rw [if_neg hmem]
        refine ⟨quotes ++ [quote], ?_, ?_, hleaves.kept hmade hmem⟩
        · rw [List.mapM_append, hquotes, ok_bind, List.mapM_cons, hquote]
          rfl
        · rw [List.map_append, List.map_append, hkeys, List.map_singleton, List.map_singleton, hkey]

lemma stored_of_ground {bound : ℕ} {items : List DraftQuote} (hlen : items.length ≤ bound)
    {quotes : List AnalysisQuote}
    (h : (firstDistinct quoteKey bound (groundQuotes segments items)).mapM (quoteOf segments) =
      .ok quotes) {item : DraftQuote} (hitem : item ∈ items) {segment : MergedTranscriptSegment}
    (hsegment : segment ∈ segments) (hsequence : segment.sequence = item.segmentSequence)
    {grounded : Text} (hgrounded : exactGroundedQuote item.originalJa (some segment.text) = some grounded) :
    ∃ quote ∈ quotes, quote.originalJa = grounded ∧ quote.endTime = some segment.end_ := by
  have hfound : dictGet (·.sequence) segments item.segmentSequence = some segment := by
    rw [← hsequence]
    exact dictGet_eq_some hsequences hsegment
  have hq := groundQuote_some.mpr ⟨segment, grounded, hfound, hgrounded, rfl⟩
  have hkey := @firstDistinct_covers _ _ _ quoteKey _ _ _ ((List.length_filterMap_le _ _).trans hlen)
    (List.mem_filterMap.mpr ⟨item, hitem, hq⟩)
  obtain ⟨q', hq', hsame⟩ := List.mem_map.mp hkey
  obtain ⟨quote, hquote, hof⟩ := mapM_image h hq'
  rw [quoteKey, quoteKey, Prod.mk.injEq] at hsame
  rw [quoteOf, hsame.1, hfound] at hof
  cases hof
  exact ⟨_, hquote, hsame.2, rfl⟩

lemma odd_invalid {bound : ℕ} {items : List DraftQuote} (hlen : items.length ≤ bound)
    {quotes : List AnalysisQuote}
    (h : (firstDistinct quoteKey bound (groundQuotes segments items)).mapM (quoteOf segments) =
      .ok quotes) (hvalid : ∀ quote ∈ quotes, quote.Valid) : NothingOdd segments items := by
  intro item hitem segment hsegment hsequence
  have hblank : ¬ Blank item.originalJa := by
    intro hblank
    have hempty : exactGroundedQuote item.originalJa (some segment.text) = some [] := by
      simp only [exactGroundedQuote]
      rw [hblank, if_pos (List.nil_infix)]
    obtain ⟨quote, hquote, horiginal, _⟩ :=
      stored_of_ground hsequences hlen h hitem hsegment hsequence hempty
    have hsized := (hvalid quote hquote).2.2.2.2.1.1
    rw [horiginal] at hsized
    exact absurd hsized (by decide)
  refine ⟨hblank, fun hzero grounded hreads => ?_⟩
  obtain ⟨quote, hquote, _, hend⟩ := stored_of_ground hsequences hlen h hitem hsegment hsequence
    ((exactGroundedQuote_iff hblank).mpr hreads)
  have hpos := (hvalid quote hquote).2.2.1 segment.end_ hend
  rw [hzero] at hpos
  exact lt_irrefl _ hpos

theorem grounding_stores_iff (hlabels : ∀ segment ∈ segments, segment.speakerLabel.length ≤ 64)
    (casefold : Text → Text) (draft : AnalysisDraft) :
    (∃ result, toResult casefold draft (groundQuotes segments draft.naturalExpressions)
        (groundQuotes segments draft.highlights) segments = .ok result ∧
      Leaves segments draft.naturalExpressions result.naturalExpressions ∧
      Leaves segments draft.highlights result.highlights) ↔
    NothingOdd segments (draft.naturalExpressions ++ draft.highlights) := by
  obtain ⟨he, hevalid⟩ := draft.expressions_valid
  obtain ⟨hh, hhvalid⟩ := draft.highlights_valid
  rw [NothingOdd, List.forall_mem_append]
  constructor
  · rintro ⟨result, hresult, _⟩
    obtain ⟨expressions, hexpressions, hresult⟩ := bind_ok hresult
    obtain ⟨highlights, hhighlights, hresult⟩ := bind_ok hresult
    obtain ⟨_, hvalid, _⟩ := bind_ok hresult
    obtain ⟨_, _, _, hve, hvh⟩ := require_ok.mp hvalid
    exact ⟨odd_invalid hsequences he hexpressions hve.2, odd_invalid hsequences hh hhighlights hvh.2⟩
  · rintro ⟨hodde, hoddh⟩
    obtain ⟨expressions, hexpressions, hekeys, hleavese⟩ := groundQuotes_leave hsequences he
      (fun item hitem segment hsegment hs => (hodde item hitem segment hsegment hs).1)
    obtain ⟨highlights, hhighlights, hhkeys, hleavesh⟩ := groundQuotes_leave hsequences hh
      (fun item hitem segment hsegment hs => (hoddh item hitem segment hsegment hs).1)
    have htags : (firstDistinct (fun t => (casefold t.ja, casefold t.zhHk)) 12 draft.tags).length ≤ 12 :=
      List.length_take_le _ _
    let result : AnalysisResultV2 := ⟨draft.description, some draft.summary,
      firstDistinct (fun t => (casefold t.ja, casefold t.zhHk)) 12 draft.tags, expressions, highlights⟩
    have hvalid : result.Valid := by
      refine ⟨draft.description_valid, ?_, ⟨htags, ?_⟩, ⟨?_, ?_⟩, ⟨?_, ?_⟩⟩
      · intro summary hsummary
        cases hsummary
        exact draft.summary_valid
      · exact fun t ht => draft.tags_valid.2 t (firstDistinct_subset ht)
      · exact keys_bound hekeys
      · exact leaves_valid hlabels hevalid hodde hleavese
      · exact keys_bound hhkeys
      · exact leaves_valid hlabels hhvalid hoddh hleavesh
    refine ⟨result, ?_, hleavese, hleavesh⟩
    rw [toResult, hexpressions, ok_bind, hhighlights, ok_bind]
    dsimp only
    rw [require_of hvalid]
    rfl

end Stored

def spokenLine : MergedTranscriptSegment :=
  ⟨0, "B".toList, 3, 5, "はい、晴れです。".toList, none, none, false, by decide, by decide, by decide,
    by decide, by decide, by decide⟩

def wrappedDraft : AnalysisDraft :=
  ⟨⟨"天気".toList, "天氣".toList⟩, ⟨"天気".toList, "天氣".toList⟩, [],
    [⟨0, "「晴れ」".toList, "天晴".toList, "天気".toList, "天氣".toList⟩], [],
    by decide, by decide, noTags_valid, by decide, noHighlights_valid⟩

theorem grounding_stores_iff_wrapped :
    ∃ result, toResult id wrappedDraft (groundQuotes [spokenLine] wrappedDraft.naturalExpressions)
        (groundQuotes [spokenLine] wrappedDraft.highlights) [spokenLine] = .ok result ∧
      Leaves [spokenLine] wrappedDraft.naturalExpressions result.naturalExpressions ∧
      Leaves [spokenLine] wrappedDraft.highlights result.highlights := by
  apply (@grounding_stores_iff [spokenLine] (by decide) (by decide) id wrappedDraft).mpr
  intro item hitem segment hsegment _
  rw [List.mem_singleton.mp hitem, List.mem_singleton.mp hsegment]
  exact ⟨by decide, fun hzero => absurd hzero (by decide)⟩

def blankDraft : AnalysisDraft :=
  ⟨⟨"天気".toList, "天氣".toList⟩, ⟨"天気".toList, "天氣".toList⟩, [],
    [⟨0, [' '], "天晴".toList, "天気".toList, "天氣".toList⟩], [],
    by decide, by decide, noTags_valid, by decide, noHighlights_valid⟩

theorem blank_quote_raises :
    toResult id blankDraft (groundQuotes [spokenLine] blankDraft.naturalExpressions)
      (groundQuotes [spokenLine] blankDraft.highlights) [spokenLine] =
        .error (.other "ValidationError") := by
  decide +kernel

end AudioServer.Processing.StoredQuotes
