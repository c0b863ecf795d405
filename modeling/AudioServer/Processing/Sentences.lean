import AudioServer.Foundations.Blocks
import AudioServer.Foundations.Correspondence
import AudioServer.Processing.Contracts
import Mathlib.Data.List.Forall2

/-! Group Whisper segments into sentences before anything translates them. -/

namespace AudioServer.Processing.Sentences

open AudioServer.Foundations.Blocks AudioServer.Foundations.Correspondence
open AudioServer.Foundations.Outcomes AudioServer.Foundations.Strings
open AudioServer.Api.Schemas AudioServer.Db.Models AudioServer.Processing.Contracts

def terminators : List Char := ['。', '．', '.', '!', '！', '?', '？', '…']

/-- Closing quotes and spaces; 34 and 39 are the two straight quotes. -/
def trailing : List Char :=
  ['」', '』', ')', '）', '”', '’', Char.ofNat 34, Char.ofNat 39, '　', ' ']

def maxSentenceChars : ℕ := 400

structure TranscriptSentence where
  startSequence : ℤ
  endSequence : ℤ
  startTime : Seconds
  endTime : Seconds
  speakerLabel : Text
  text : Text
  sequences_ordered : startSequence ≤ endSequence
  times_ordered : startTime ≤ endTime
  text_nonblank : ¬ Blank text

def TranscriptSentence.make (startSequence endSequence : ℤ) (startTime endTime : Seconds)
    (speakerLabel text : Text) : Except Exn TranscriptSentence :=
  if h₁ : startSequence ≤ endSequence then
    if h₂ : startTime ≤ endTime then
      if h₃ : ¬ Blank text then
        .ok ⟨startSequence, endSequence, startTime, endTime, speakerLabel, text, h₁, h₂, h₃⟩
      else .error (.valueError "sentence text cannot be empty")
    else .error (.valueError "sentence end time cannot precede its start")
  else .error (.valueError "sentence end cannot precede its start")

def joined (block : List MergedTranscriptSegment) : Text := strip (block.flatMap (·.text))

structure Grouping where
  sentences : List TranscriptSentence
  pending : List MergedTranscriptSegment

def Grouping.flush (g : Grouping) : Except Exn Grouping :=
  match g.pending with
  | [] => .ok g
  | first :: rest => do
    let last := (first :: rest).getLast (List.cons_ne_nil _ _)
    let sentence ← TranscriptSentence.make first.sequence last.sequence first.start last.end_
      first.speakerLabel (joined (first :: rest))
    .ok ⟨g.sentences ++ [sentence], []⟩

/-- The `while` loop drops closing quotes and the whitespace between them from the end. -/
def endsSentence (text : Text) : Bool :=
  match (text.rdropWhile (fun c => isSpace c || trailing.contains c)).getLast? with
  | none => false
  | some c => terminators.contains c

def groupSegment (maxChars : ℕ) (g : Grouping) (segment : MergedTranscriptSegment) :
    Except Exn Grouping := do
  -- A new voice always starts a new sentence.
  let g ← (if ∃ first ∈ g.pending.head?, segment.speakerLabel ≠ first.speakerLabel then g.flush
    else .ok g)
  let length := (g.pending.map (·.text.length)).sum + segment.text.length
  let g ← (if g.pending ≠ [] ∧ maxChars < length then g.flush else .ok g)
  let g : Grouping := ⟨g.sentences, g.pending ++ [segment]⟩
  if endsSentence segment.text then g.flush else .ok g

def groupSentences (segments : List MergedTranscriptSegment) (maxChars : ℕ) :
    Except Exn (List TranscriptSentence) := do
  require (1 ≤ maxChars) (.valueError "max_chars must be positive")
  let g ← segments.foldlM (groupSegment maxChars) ⟨[], []⟩
  let g ← g.flush
  .ok g.sentences

structure FromBlock (block : List MergedTranscriptSegment) (s : TranscriptSentence) : Prop where
  first : ∃ m ∈ block.head?, m.sequence = s.startSequence ∧ m.start = s.startTime
  last : ∃ m ∈ block.getLast?, m.sequence = s.endSequence
  text : s.text = joined block

lemma TranscriptSentence.make_ok {startSequence endSequence : ℤ} {startTime endTime : Seconds}
    {speakerLabel text : Text} {s : TranscriptSentence}
    (h : make startSequence endSequence startTime endTime speakerLabel text = .ok s) :
    s.startSequence = startSequence ∧ s.endSequence = endSequence ∧ s.startTime = startTime ∧
      s.speakerLabel = speakerLabel ∧ s.text = text := by
  unfold make at h
  split at h
  · split at h
    · split at h
      · cases h
        exact ⟨rfl, rfl, rfl, rfl, rfl⟩
      · cases h
    · cases h
  · cases h

lemma TranscriptSentence.make_error {startSequence endSequence : ℤ} {startTime endTime : Seconds}
    {speakerLabel text : Text} {e : Exn}
    (h : make startSequence endSequence startTime endTime speakerLabel text = .error e) :
    ∃ message, e = .valueError message := by
  unfold make at h
  repeat' split at h
  all_goals
    cases h
    try exact ⟨_, rfl⟩

def rawLength (block : List MergedTranscriptSegment) : ℕ := (block.map (·.text.length)).sum

def Joins (maxChars : ℕ) (block : List MergedTranscriptSegment) (segment : MergedTranscriptSegment) :
    Prop :=
  (∀ first ∈ block.head?, segment.speakerLabel = first.speakerLabel) ∧
    (∀ last ∈ block.getLast?, endsSentence last.text = false) ∧
      rawLength block + segment.text.length ≤ maxChars

instance (maxChars : ℕ) (block : List MergedTranscriptSegment) (segment : MergedTranscriptSegment) :
    Decidable (Joins maxChars block segment) := inferInstanceAs (Decidable (_ ∧ _))

def sentenceOf : List MergedTranscriptSegment → Except Exn TranscriptSentence
  | [] => .error (.valueError "sentence text cannot be empty")
  | first :: rest =>
    let last := (first :: rest).getLast (List.cons_ne_nil _ _)
    TranscriptSentence.make first.sequence last.sequence first.start last.end_ first.speakerLabel
      (joined (first :: rest))

lemma flush_nonempty {block : List MergedTranscriptSegment} (h : block ≠ [])
    (sentences : List TranscriptSentence) :
    Grouping.flush ⟨sentences, block⟩ =
      (sentenceOf block >>= fun s => .ok ⟨sentences ++ [s], []⟩) := by
  cases block with
  | nil => exact absurd rfl h
  | cons first rest => rfl

def close (g : Grouping) (segment : MergedTranscriptSegment) : Except Exn Grouping :=
  if endsSentence segment.text then g.flush else .ok g

lemma groupSegment_start (maxChars : ℕ) (sentences : List TranscriptSentence)
    (segment : MergedTranscriptSegment) :
    groupSegment maxChars ⟨sentences, []⟩ segment = close ⟨sentences, [segment]⟩ segment := by
  simp [groupSegment, close]

lemma groupSegment_joins {maxChars : ℕ} {block : List MergedTranscriptSegment}
    {segment : MergedTranscriptSegment} (h : Joins maxChars block segment)
    (sentences : List TranscriptSentence) :
    groupSegment maxChars ⟨sentences, block⟩ segment =
      close ⟨sentences, block ++ [segment]⟩ segment := by
  obtain ⟨hvoice, _, hlength⟩ := h
  have hsame : ¬ ∃ first ∈ block.head?, segment.speakerLabel ≠ first.speakerLabel := by
    rintro ⟨first, hfirst, hne⟩
    exact hne (hvoice first hfirst)
  have hshort : ¬ (block ≠ [] ∧
      maxChars < (block.map (·.text.length)).sum + segment.text.length) := by
    rintro ⟨_, hlong⟩
    exact absurd hlength (not_le.mpr hlong)
  simp only [groupSegment, if_neg hsame, ok_bind, if_neg hshort]
  rfl

lemma groupSegment_parts {maxChars : ℕ} {block : List MergedTranscriptSegment}
    {segment : MergedTranscriptSegment} (hblock : block ≠ [])
    (hopen : ∀ last ∈ block.getLast?, endsSentence last.text = false)
    (h : ¬ Joins maxChars block segment) (sentences : List TranscriptSentence) :
    groupSegment maxChars ⟨sentences, block⟩ segment =
      (sentenceOf block >>= fun s => close ⟨sentences ++ [s], [segment]⟩ segment) := by
  by_cases hvoice : ∃ first ∈ block.head?, segment.speakerLabel ≠ first.speakerLabel
  · simp only [groupSegment, if_pos hvoice, flush_nonempty hblock]
    cases sentenceOf block with
    | error e => rfl
    | ok s => simp [close]
  · have hlong : maxChars < (block.map (·.text.length)).sum + segment.text.length := by
      by_contra hshort
      refine h ⟨?_, hopen, not_lt.mp hshort⟩
      intro first hfirst
      by_contra hne
      exact hvoice ⟨first, hfirst, hne⟩
    simp only [groupSegment, if_neg hvoice, ok_bind, if_pos (And.intro hblock hlong),
      flush_nonempty hblock]
    cases sentenceOf block with
    | error e => rfl
    | ok s => simp [close]

def groupRest (maxChars : ℕ) (g : Grouping) (segments : List MergedTranscriptSegment) :
    Except Exn (List TranscriptSentence) := do
  let g ← segments.foldlM (groupSegment maxChars) g
  let g ← g.flush
  .ok g.sentences

lemma groupRest_cons (maxChars : ℕ) (g : Grouping) (segment : MergedTranscriptSegment)
    (segments : List MergedTranscriptSegment) :
    groupRest maxChars g (segment :: segments) =
      (groupSegment maxChars g segment >>= fun g => groupRest maxChars g segments) := by
  rw [groupRest, List.foldlM_cons]
  cases groupSegment maxChars g segment with
  | error e => rfl
  | ok g => rfl

def sentencesOf (made : List TranscriptSentence) (blocks : List (List MergedTranscriptSegment)) :
    Except Exn (List TranscriptSentence) := do
  let sentences ← blocks.mapM sentenceOf
  .ok (made ++ sentences)

lemma sentencesOf_cons (made : List TranscriptSentence) (block : List MergedTranscriptSegment)
    (blocks : List (List MergedTranscriptSegment)) :
    sentencesOf made (block :: blocks) =
      (sentenceOf block >>= fun s => sentencesOf (made ++ [s]) blocks) := by
  rw [sentencesOf, List.mapM_cons]
  cases sentenceOf block with
  | error e => rfl
  | ok s =>
    cases hrest : blocks.mapM sentenceOf with
    | error e => simp [sentencesOf, hrest]
    | ok rest => simp [sentencesOf, hrest, pure, Except.pure]

lemma groupRest_cut (maxChars : ℕ) (segments : List MergedTranscriptSegment) :
    (∀ made, groupRest maxChars ⟨made, []⟩ segments =
      sentencesOf made (cut (Joins maxChars) segments)) ∧
    ∀ made block, block ≠ [] → (∀ last ∈ block.getLast?, endsSentence last.text = false) →
      groupRest maxChars ⟨made, block⟩ segments =
        sentencesOf made (cutFrom (Joins maxChars) block segments) := by
  induction segments with
  | nil =>
    refine ⟨?_, ?_⟩
    · intro made
      simp [groupRest, sentencesOf, cut, Grouping.flush, pure, Except.pure]
    · intro made block hblock _
      rw [cutFrom, sentencesOf_cons, groupRest, List.foldlM_nil, pure_bind, flush_nonempty hblock]
      cases sentenceOf block with
      | error e => rfl
      | ok s => simp [sentencesOf, pure, Except.pure]
  | cons segment segments ih =>
    obtain ⟨hbetween, hinside⟩ := ih
    have hclose : ∀ made block, (close ⟨made, block ++ [segment]⟩ segment >>= fun g =>
        groupRest maxChars g segments) =
          sentencesOf made (cutFrom (Joins maxChars) (block ++ [segment]) segments) := by
      intro made block
      have hne : block ++ [segment] ≠ [] := by simp
      cases hends : endsSentence segment.text with
      | true =>
        have hclosed : ∀ x, ¬ Joins maxChars (block ++ [segment]) x := by
          rintro x ⟨_, hopen, _⟩
          have := hopen segment (by simp)
          rw [hends] at this
          cases this
        rw [cutFrom_closed hclosed, sentencesOf_cons, close, if_pos hends, flush_nonempty hne]
        cases sentenceOf (block ++ [segment]) with
        | error e => rfl
        | ok s => exact hbetween _
      | false =>
        rw [close, if_neg (by simp [hends]), ok_bind]
        apply hinside made _ hne
        intro last hlast
        rw [List.getLast?_concat, Option.mem_some_iff] at hlast
        rw [← hlast, hends]
    refine ⟨?_, ?_⟩
    · intro made
      rw [groupRest_cons, groupSegment_start, cut]
      exact hclose made []
    · intro made block hblock hopen
      rw [groupRest_cons]
      by_cases h : Joins maxChars block segment
      · rw [groupSegment_joins h, cutFrom_joined h]
        exact hclose made block
      · rw [groupSegment_parts hblock hopen h, cutFrom_parted h, sentencesOf_cons]
        cases sentenceOf block with
        | error e => rfl
        | ok s => exact hclose _ []

lemma groupSentences_cut {segments : List MergedTranscriptSegment} {maxChars : ℕ}
    (hmax : 1 ≤ maxChars) : groupSentences segments maxChars =
      (cut (Joins maxChars) segments).mapM sentenceOf := by
  have hrest := (groupRest_cut maxChars segments).1 []
  have hgroup : groupSentences segments maxChars = groupRest maxChars ⟨[], []⟩ segments := by
    rw [groupSentences, require_of hmax, ok_bind, groupRest]
  rw [hgroup, hrest, sentencesOf]
  cases (cut (Joins maxChars) segments).mapM sentenceOf with
  | error e => rfl
  | ok s => rfl
lemma sentenceOf_error {block : List MergedTranscriptSegment} {e : Exn}
    (h : sentenceOf block = .error e) : ∃ message, e = .valueError message := by
  cases block with
  | nil =>
    cases h
    exact ⟨_, rfl⟩
  | cons first rest => exact TranscriptSentence.make_error h

lemma groupSentences_error {segments : List MergedTranscriptSegment} {maxChars : ℕ} {e : Exn}
    (h : groupSentences segments maxChars = .error e) : ∃ message, e = .valueError message := by
  by_cases hmax : 1 ≤ maxChars
  · rw [groupSentences_cut hmax] at h
    obtain ⟨_, h⟩ := mapM_error h
    exact sentenceOf_error h
  · rw [groupSentences, require_of_not hmax] at h
    cases h
    exact ⟨_, rfl⟩

lemma groupSentences_max {segments : List MergedTranscriptSegment} {maxChars : ℕ}
    {sentences : List TranscriptSentence} (h : groupSentences segments maxChars = .ok sentences) :
    1 ≤ maxChars := by
  obtain ⟨_, hmax, _⟩ := bind_ok h
  exact require_ok.mp hmax

lemma sentenceOf_ok {block : List MergedTranscriptSegment} {s : TranscriptSentence}
    (h : sentenceOf block = .ok s) : FromBlock block s := by
  cases block with
  | nil => cases h
  | cons first rest =>
    obtain ⟨hstart, hend, htime, _, htext⟩ := TranscriptSentence.make_ok h
    refine ⟨⟨first, rfl, hstart.symm, htime.symm⟩, ?_, htext⟩
    exact ⟨_, List.getLast?_eq_some_getLast (List.cons_ne_nil _ _), hend.symm⟩

lemma sentenceOf_speaker {block : List MergedTranscriptSegment} {s : TranscriptSentence}
    (h : sentenceOf block = .ok s) : ∃ first ∈ block.head?, s.speakerLabel = first.speakerLabel := by
  cases block with
  | nil => cases h
  | cons first rest => exact ⟨first, rfl, (TranscriptSentence.make_ok h).2.2.2.1⟩

lemma groupSentences_blocks {segments : List MergedTranscriptSegment} {maxChars : ℕ}
    {sentences : List TranscriptSentence} (h : groupSentences segments maxChars = .ok sentences) :
    ∃ blocks, blocks.flatten = segments ∧ List.Forall₂ FromBlock blocks sentences := by
  rw [groupSentences_cut (groupSentences_max h)] at h
  exact ⟨_, cut_flatten segments, (mapM_paired h).imp (fun _ _ => sentenceOf_ok)⟩

def Ascending (segments : List MergedTranscriptSegment) : Prop :=
  segments.Pairwise (fun a b => a.sequence < b.sequence)

def covered (segments : List MergedTranscriptSegment) (start end_ : ℤ) :
    List MergedTranscriptSegment :=
  segments.filter (fun m => start ≤ m.sequence ∧ m.sequence ≤ end_)

lemma head_le {block : List MergedTranscriptSegment} (h : Ascending block)
    {first m : MergedTranscriptSegment} (hfirst : first ∈ block.head?) (hm : m ∈ block) :
    first.sequence ≤ m.sequence := by
  cases block with
  | nil => cases hm
  | cons b bs =>
    cases hfirst
    rcases List.mem_cons.mp hm with rfl | hm
    · exact le_rfl
    · exact le_of_lt (List.rel_of_pairwise_cons h hm)

lemma le_last {block : List MergedTranscriptSegment} (h : Ascending block)
    {last m : MergedTranscriptSegment} (hlast : last ∈ block.getLast?) (hm : m ∈ block) :
    m.sequence ≤ last.sequence := by
  obtain ⟨init, rfl⟩ := List.getLast?_eq_some_iff.mp hlast
  rcases List.mem_append.mp hm with hm | hm
  · exact le_of_lt ((List.pairwise_append.mp h).2.2 m hm last (by simp))
  · rw [List.mem_singleton.mp hm]

lemma head_mem {block : List MergedTranscriptSegment} {first : MergedTranscriptSegment}
    (h : first ∈ block.head?) : first ∈ block := List.mem_of_mem_head? h

lemma last_mem {block : List MergedTranscriptSegment} {last : MergedTranscriptSegment}
    (h : last ∈ block.getLast?) : last ∈ block := List.mem_of_getLast? h

lemma covered_block {before block after : List MergedTranscriptSegment} {s : TranscriptSentence}
    (hs : FromBlock block s) (h : Ascending (before ++ (block ++ after))) :
    covered (before ++ (block ++ after)) s.startSequence s.endSequence = block := by
  obtain ⟨⟨first, hfirst, hstart, _⟩, ⟨last, hlast, hend⟩, _⟩ := hs
  obtain ⟨_, hrest, hbefore⟩ := List.pairwise_append.mp h
  obtain ⟨hblock, _, hafter⟩ := List.pairwise_append.mp hrest
  have hlow : before.filter
      (fun m => decide (s.startSequence ≤ m.sequence ∧ m.sequence ≤ s.endSequence)) = [] := by
    rw [List.filter_eq_nil_iff]
    intro m hm hin
    have hlt := hbefore m hm first (List.mem_append_left _ (head_mem hfirst))
    rw [decide_eq_true_eq] at hin
    omega
  have hhigh : after.filter
      (fun m => decide (s.startSequence ≤ m.sequence ∧ m.sequence ≤ s.endSequence)) = [] := by
    rw [List.filter_eq_nil_iff]
    intro m hm hin
    have hlt := hafter last (last_mem hlast) m hm
    rw [decide_eq_true_eq] at hin
    omega
  have hin : block.filter
      (fun m => decide (s.startSequence ≤ m.sequence ∧ m.sequence ≤ s.endSequence)) = block := by
    rw [List.filter_eq_self]
    intro m hm
    have hle := head_le hblock hfirst hm
    have hge := le_last hblock hlast hm
    rw [decide_eq_true_eq]
    omega
  rw [covered, List.filter_append, List.filter_append, hlow, hhigh, hin, List.nil_append,
    List.append_nil]

lemma covered_blocks {before : List MergedTranscriptSegment}
    {blocks : List (List MergedTranscriptSegment)} {sentences : List TranscriptSentence}
    (h : List.Forall₂ FromBlock blocks sentences) (hasc : Ascending (before ++ blocks.flatten)) :
    List.Forall₂ (fun block s =>
      covered (before ++ blocks.flatten) s.startSequence s.endSequence = block) blocks sentences := by
  induction h generalizing before with
  | nil => exact .nil
  | @cons block s blocks sentences hs _ ih =>
    rw [List.flatten_cons] at hasc ⊢
    refine .cons (covered_block hs hasc) ?_
    rw [← List.append_assoc] at hasc ⊢
    exact ih hasc

lemma groupSentences_paired {segments : List MergedTranscriptSegment} {maxChars : ℕ}
    {sentences : List TranscriptSentence} (h : groupSentences segments maxChars = .ok sentences)
    (hasc : Ascending segments) :
    List.Forall₂ (fun block s => sentenceOf block = .ok s ∧
        covered segments s.startSequence s.endSequence = block)
      (cut (Joins maxChars) segments) sentences := by
  rw [groupSentences_cut (groupSentences_max h)] at h
  have hmade := mapM_paired h
  have hflat : [] ++ (cut (Joins maxChars) segments).flatten = segments := cut_flatten segments
  have hcovered := covered_blocks (hmade.imp (fun _ _ => sentenceOf_ok)) (hflat.symm ▸ hasc)
  rw [hflat] at hcovered
  exact paired_and hmade hcovered

lemma groupSentences_text {segments : List MergedTranscriptSegment} {maxChars : ℕ}
    {sentences : List TranscriptSentence} (h : groupSentences segments maxChars = .ok sentences)
    (hasc : Ascending segments) {s : TranscriptSentence} (hs : s ∈ sentences) :
    s.text = joined (covered segments s.startSequence s.endSequence) ∧
      (∃ m ∈ segments, m.sequence = s.startSequence) ∧
      ∃ m ∈ segments, m.sequence = s.endSequence := by
  obtain ⟨block, _, hmade, hcovered⟩ := paired_mem_right (groupSentences_paired h hasc) hs
  have hfrom := sentenceOf_ok hmade
  have hmem : ∀ m ∈ block, m ∈ segments := by
    intro m hm
    rw [← hcovered, covered] at hm
    exact List.mem_of_mem_filter hm
  refine ⟨by rw [hcovered, hfrom.text], ?_, ?_⟩
  · obtain ⟨first, hfirst, hstart, _⟩ := hfrom.first
    exact ⟨first, hmem first (head_mem hfirst), hstart⟩
  · obtain ⟨last, hlast, hend⟩ := hfrom.last
    exact ⟨last, hmem last (last_mem hlast), hend⟩

lemma fromBlock_ordered {block : List MergedTranscriptSegment} {s : TranscriptSentence}
    (hs : FromBlock block s) (hasc : Ascending block) : s.startSequence ≤ s.endSequence := by
  obtain ⟨⟨first, hfirst, hstart, _⟩, ⟨last, hlast, hend⟩, _⟩ := hs
  rw [← hstart, ← hend]
  exact head_le hasc hfirst (last_mem hlast)

lemma blocks_apart {blocks : List (List MergedTranscriptSegment)}
    {sentences : List TranscriptSentence} (h : List.Forall₂ FromBlock blocks sentences)
    (hasc : Ascending blocks.flatten) :
    sentences.Pairwise (fun a b => a.endSequence < b.startSequence) ∧
      ∀ s ∈ sentences, s.startSequence ≤ s.endSequence := by
  induction h with
  | nil => simp
  | @cons block s blocks sentences hs hrest ih =>
    rw [Ascending, List.flatten_cons, List.pairwise_append] at hasc
    obtain ⟨hblock, htail, hacross⟩ := hasc
    obtain ⟨hapart, hordered⟩ := ih htail
    refine ⟨.cons ?_ hapart, List.forall_mem_cons.mpr ⟨fromBlock_ordered hs hblock, hordered⟩⟩
    intro s' hs'
    obtain ⟨last, hlast, hend⟩ := hs.last
    obtain ⟨block', hblock', hfrom⟩ := paired_mem_right hrest hs'
    obtain ⟨first, hfirst, hstart, _⟩ := hfrom.first
    rw [← hend, ← hstart]
    exact hacross last (last_mem hlast) first (List.mem_flatten.mpr ⟨_, hblock', head_mem hfirst⟩)

lemma groupSentences_apart {segments : List MergedTranscriptSegment} {maxChars : ℕ}
    {sentences : List TranscriptSentence} (h : groupSentences segments maxChars = .ok sentences)
    (hasc : Ascending segments) :
    sentences.Pairwise (fun a b => a.endSequence < b.startSequence) ∧
      ∀ s ∈ sentences, s.startSequence ≤ s.endSequence := by
  obtain ⟨blocks, rfl, hblocks⟩ := groupSentences_blocks h
  exact blocks_apart hblocks hasc

lemma groupSentences_starts {segments : List MergedTranscriptSegment} {maxChars : ℕ}
    {sentences : List TranscriptSentence} (h : groupSentences segments maxChars = .ok sentences)
    (hasc : Ascending segments) :
    sentences.Pairwise (fun a b => a.startSequence < b.startSequence) := by
  obtain ⟨hapart, hordered⟩ := groupSentences_apart h hasc
  exact hapart.imp_of_mem (fun ha _ hab => (hordered _ ha).trans_lt hab)

lemma groupSentences_ends {segments : List MergedTranscriptSegment} {maxChars : ℕ}
    {sentences : List TranscriptSentence} (h : groupSentences segments maxChars = .ok sentences)
    (hasc : Ascending segments) :
    sentences.Pairwise (fun a b => a.endSequence < b.endSequence) := by
  obtain ⟨hapart, hordered⟩ := groupSentences_apart h hasc
  exact hapart.imp_of_mem (fun _ hb hab => hab.trans_le (hordered _ hb))

end AudioServer.Processing.Sentences
