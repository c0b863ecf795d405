import AudioServer.Processing.SentenceBlocks
import AudioServer.Worker.DocumentInvariant

/-! The sentences of a transcript are an exact partition of its segments. -/

namespace AudioServer.Worker.SentenceSpans

open AudioServer.Foundations.Blocks AudioServer.Foundations.Correspondence
open AudioServer.Foundations.Outcomes AudioServer.Foundations.Strings
open AudioServer.Api.Schemas AudioServer.Db.Models AudioServer.Processing.Contracts
open AudioServer.Processing.Sentences AudioServer.Processing.SentenceBlocks
open AudioServer.Services.Editing AudioServer.Worker.DocumentInvariant

def Consecutive (segments : List MergedTranscriptSegment) : Prop :=
  segments.IsChain (fun a b => b.sequence = a.sequence + 1)

lemma Consecutive.ascending {segments : List MergedTranscriptSegment} (h : Consecutive segments) :
    Ascending segments := by
  have : Trans (fun a b : MergedTranscriptSegment => a.sequence < b.sequence)
      (fun a b : MergedTranscriptSegment => a.sequence < b.sequence)
      (fun a b : MergedTranscriptSegment => a.sequence < b.sequence) := ⟨lt_trans⟩
  exact (h.imp (fun a b h => h ▸ Int.lt_succ a.sequence)).pairwise

def span (s : TranscriptSentence) : List ℤ :=
  (List.range (s.endSequence - s.startSequence + 1).toNat).map (fun n : ℕ => s.startSequence + n)

lemma consecutive_sequences {segments : List MergedTranscriptSegment} (h : Consecutive segments)
    {first last : MergedTranscriptSegment} (hfirst : first ∈ segments.head?)
    (hlast : last ∈ segments.getLast?) :
    last.sequence - first.sequence + 1 = segments.length ∧
      segments.map (·.sequence) =
        (List.range segments.length).map (fun n : ℕ => first.sequence + n) := by
  induction segments generalizing first with
  | nil => cases hfirst
  | cons m segments ih =>
    cases hfirst
    cases segments with
    | nil =>
      cases hlast
      simp
    | cons next segments =>
      obtain ⟨hnext, hrest⟩ := List.isChain_cons_cons.mp h
      rw [List.getLast?_cons_cons] at hlast
      obtain ⟨hlength, hsequences⟩ := ih hrest rfl hlast
      refine ⟨?_, ?_⟩
      · rw [List.length_cons, Nat.cast_succ]
        omega
      · have hfirst : (List.range (m :: next :: segments).length).map (fun n : ℕ => m.sequence + n) =
            m.sequence :: (List.range (next :: segments).length).map
              (fun n : ℕ => m.sequence + (n + 1 : ℕ)) := by
          rw [List.length_cons, List.range_succ_eq_map, List.map_cons, List.map_map, Nat.cast_zero,
            add_zero]
          rfl
        rw [hfirst, List.map_cons, hsequences, hnext]
        congr 1
        apply List.map_congr_left
        intro n _
        rw [Nat.cast_succ]
        omega

lemma span_block {block : List MergedTranscriptSegment} {s : TranscriptSentence}
    (hs : FromBlock block s) (h : Consecutive block) : span s = block.map (·.sequence) := by
  obtain ⟨⟨first, hfirst, hstart, _⟩, ⟨last, hlast, hend⟩, _⟩ := hs
  obtain ⟨hlength, hsequences⟩ := consecutive_sequences h hfirst hlast
  rw [hsequences, span, ← hstart, ← hend, hlength, Int.toNat_natCast]

structure ExactPartition (maxChars : ℕ) (segments : List MergedTranscriptSegment)
    (sentences : List TranscriptSentence) : Prop where
  spans : sentences.flatMap span = segments.map (·.sequence)
  speaker : ∀ s ∈ sentences, ∀ m ∈ covered segments s.startSequence s.endSequence,
    m.speakerLabel = s.speakerLabel
  terminator : ∀ s ∈ sentences, ∀ m ∈ covered segments s.startSequence s.endSequence,
    endsSentence m.text → m.sequence = s.endSequence
  size : ∀ s ∈ sentences,
    rawLength (covered segments s.startSequence s.endSequence) ≤ maxChars ∨
      s.startSequence = s.endSequence
  forced : sentences.IsChain (fun s t => s.speakerLabel ≠ t.speakerLabel ∨
    (∃ m ∈ segments, m.sequence = s.endSequence ∧ endsSentence m.text) ∨
    ∃ m ∈ segments, m.sequence = t.startSequence ∧
      maxChars < rawLength (covered segments s.startSequence s.endSequence) + m.text.length)
  text : ∀ s ∈ sentences, ∀ stored : List TranscriptSegment,
    segments.map mergedLine = (orderedSegments stored).map lineOf →
      spanText (orderedSegments stored) (some s.startSequence) (some s.endSequence) = some s.text

lemma spans_blocks {blocks : List (List MergedTranscriptSegment)} {sentences : List TranscriptSentence}
    (h : List.Forall₂ FromBlock blocks sentences) (hc : ∀ block ∈ blocks, Consecutive block) :
    sentences.flatMap span = blocks.flatten.map (·.sequence) := by
  induction h with
  | nil => rfl
  | @cons block s blocks sentences hs _ ih =>
    rw [List.flatMap_cons, List.flatten_cons, List.map_append,
      span_block hs (hc block List.mem_cons_self),
      ih (fun b hb => hc b (List.mem_cons_of_mem _ hb))]

theorem groupSentences_exact {segments : List MergedTranscriptSegment} {maxChars : ℕ}
    (hc : Consecutive segments) (hstarts : segments.Pairwise (fun a b => a.start ≤ b.start))
    (hmax : 1 ≤ maxChars) : ∃ sentences, groupSentences segments maxChars = .ok sentences ∧
      ExactPartition maxChars segments sentences := by
  have hasc := hc.ascending
  have hpart : ∀ block ∈ cut (Joins maxChars) segments, block <:+: segments := by
    intro block hb
    have h := List.infix_of_mem_flatten hb
    rwa [cut_flatten] at h
  have hordered : ∀ block ∈ cut (Joins maxChars) segments,
      ∀ first ∈ block.head?, ∀ last ∈ block.getLast?, first.start ≤ last.end_ := by
    intro block hb first hfirst last hlast
    refine le_trans ?_ last.start_le_end
    cases block with
    | nil => cases hfirst
    | cons m rest =>
      cases hfirst
      rcases List.mem_cons.mp (last_mem hlast) with rfl | hmem
      · exact le_rfl
      · exact List.rel_of_pairwise_cons (hstarts.sublist (hpart _ hb).sublist) hmem
  obtain ⟨sentences, hs⟩ := (groupSentences_iff hmax hasc).mpr hordered
  refine ⟨sentences, hs, ?_⟩
  have hpaired := groupSentences_paired hs hasc
  have hfrom : List.Forall₂ FromBlock (cut (Joins maxChars) segments) sentences :=
    hpaired.imp (fun _ _ h => sentenceOf_ok h.1)
  have hmem : ∀ block ∈ cut (Joins maxChars) segments, ∀ m ∈ block, m ∈ segments :=
    fun block hb m hm => (hpart block hb).mem hm
  refine ⟨?_, ?_, ?_, ?_, ?_, ?_⟩
  · rw [spans_blocks hfrom (fun block hb => hc.infix (hpart block hb)), cut_flatten]
  · intro s hsmem m hm
    obtain ⟨block, hb, hmade, hcovered⟩ := paired_mem_right hpaired hsmem
    obtain ⟨first, hfirst, hspeaker⟩ := sentenceOf_speaker hmade
    rw [hspeaker]
    exact grown_speaker (cut_grown hb) hfirst (hcovered ▸ hm)
  · intro s hsmem m hm hends
    obtain ⟨block, hb, hmade, hcovered⟩ := paired_mem_right hpaired hsmem
    rw [hcovered] at hm
    obtain ⟨last, hlast, hend⟩ := (sentenceOf_ok hmade).last
    obtain ⟨init, rfl⟩ := List.getLast?_eq_some_iff.mp hlast
    rcases List.mem_append.mp hm with hm | hm
    · rw [grown_open (cut_grown hb) (by rwa [List.dropLast_concat])] at hends
      cases hends
    · rw [List.mem_singleton.mp hm, hend]
  · intro s hsmem
    obtain ⟨block, hb, hmade, hcovered⟩ := paired_mem_right hpaired hsmem
    rw [hcovered]
    rcases grown_short (cut_grown hb) with hshort | ⟨m, rfl⟩
    · exact .inl hshort
    · obtain ⟨⟨first, hfirst, hstart, _⟩, ⟨last, hlast, hend⟩, _⟩ := sentenceOf_ok hmade
      cases hfirst
      cases hlast
      exact .inr (hstart.symm.trans hend)
  · have hin := (List.forall₂_and_left _ sentences).mpr ⟨hmem, hpaired⟩
    refine paired_chain hin ?_ (cut_forced segments)
    rintro a b s t ⟨ha, hs, hcs⟩ ⟨hb, ht, _⟩ ⟨x, hx, hnot⟩
    obtain ⟨first, hfirst, hspeaker⟩ := sentenceOf_speaker hs
    rcases not_joins hnot with ⟨first', hfirst', hvoice⟩ | ⟨last, hlast, hends⟩ | hlong
    · obtain ⟨x', hx', hspeaker'⟩ := sentenceOf_speaker ht
      rw [hspeaker, hspeaker', Option.mem_unique hfirst hfirst', Option.mem_unique hx' hx]
      exact .inl (Ne.symm hvoice)
    · obtain ⟨last', hlast', hend⟩ := (sentenceOf_ok hs).last
      rw [Option.mem_unique hlast' hlast] at hend
      exact .inr (.inl ⟨last, ha last (last_mem hlast), hend, hends⟩)
    · obtain ⟨x', hx', hstart, _⟩ := (sentenceOf_ok ht).first
      rw [Option.mem_unique hx' hx] at hstart
      exact .inr (.inr ⟨x, hb x (head_mem hx), hstart, by rwa [hcs]⟩)
  · intro s hsmem stored hlines
    rw [spanText_joined hlines, ← (groupSentences_text hs hasc hsmem).1,
      if_neg (fun hnil => s.text_nonblank (by rw [hnil]; rfl))]
def exampleLine (n : ℕ) (text : String) : Except Exn MergedTranscriptSegment :=
  MergedTranscriptSegment.make n "A".toList n (n + 1) text.toList none none false

def exampleLines : List MergedTranscriptSegment :=
  valueOr [] ([(0, "今日は"), (1, "晴れです。"), (2, "「はい。」")].mapM
    (fun line => exampleLine line.1 line.2))

theorem exampleLines_exact : ∃ sentences, groupSentences exampleLines 400 = .ok sentences ∧
    ExactPartition 400 exampleLines sentences := by
  have hc : Consecutive exampleLines := by
    unfold Consecutive
    decide +kernel
  have hstarts : exampleLines.Pairwise (fun a b => a.start ≤ b.start) := by decide +kernel
  exact groupSentences_exact hc hstarts (by decide)

end AudioServer.Worker.SentenceSpans
