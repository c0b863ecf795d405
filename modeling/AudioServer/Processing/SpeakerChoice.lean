import AudioServer.Processing.Utterances
import Mathlib.Data.Char
import Mathlib.Data.Finset.Card
import Mathlib.Data.List.Lex

/-! Whose voice an interval is given, and when two voices are heard at once. -/

namespace AudioServer.Processing.SpeakerChoice

open AudioServer.Foundations.Sorting AudioServer.Foundations.Strings AudioServer.Api.Schemas
open AudioServer.Db.Models AudioServer.Processing.Contracts AudioServer.Processing.Merge
open AudioServer.Processing.Utterances

def turnKey (t : SpeakerTurn) : Seconds ×ₗ Seconds ×ₗ Text :=
  toLex (t.start, toLex (t.end_, t.speakerLabel))

lemma turnOrder_iff (a b : SpeakerTurn) : TurnOrder a b ↔ turnKey a ≤ turnKey b := by
  rw [turnKey, turnKey, Prod.Lex.toLex_le_toLex, Prod.Lex.toLex_le_toLex, TurnOrder, not_lt]

lemma turnKey_injective : Function.Injective turnKey := by
  intro a b h
  simp only [turnKey, EmbeddingLike.apply_eq_iff_eq, Prod.mk.injEq] at h
  obtain ⟨hstart, hend, hlabel⟩ := h
  cases a
  cases b
  simp_all

section Interval

variable (start end_ : Seconds)

def shared (t : SpeakerTurn) : Seconds := overlap start end_ t.start t.end_

def aroundMiddle (t : SpeakerTurn) : Bool := contains t ((start + end_) / 2)

def overlapKey (t : SpeakerTurn) : Seconds ×ₗ Bool ×ₗ Seconds ×ₗ Seconds ×ₗ Text :=
  toLex (-shared start end_ t, toLex (!aroundMiddle start end_ t, turnKey t))

def distanceKey (t : SpeakerTurn) : Seconds ×ₗ Seconds ×ₗ Seconds ×ₗ Text :=
  toLex (distanceToInterval start end_ t, turnKey t)

lemma overlapOrder_iff (a b : SpeakerTurn) :
    OverlapOrder start end_ a b ↔ overlapKey start end_ a ≤ overlapKey start end_ b := by
  have hbool : ∀ p q : Bool, ((!p) < (!q)) ↔ (p ∧ ¬ q) := by decide
  rw [overlapKey, overlapKey, Prod.Lex.toLex_le_toLex, Prod.Lex.toLex_le_toLex]
  simp only [neg_lt_neg_iff, neg_inj, hbool, Bool.not_inj_iff, ← turnOrder_iff]
  rfl

lemma distanceOrder_iff (a b : SpeakerTurn) :
    DistanceOrder start end_ a b ↔ distanceKey start end_ a ≤ distanceKey start end_ b := by
  rw [distanceKey, distanceKey, Prod.Lex.toLex_le_toLex, ← turnOrder_iff]
  rfl

inductive Chosen (tolerance : Seconds) (turns : List SpeakerTurn) (t : SpeakerTurn) : Prop
  | overlapping (hmem : t ∈ turns) (hpositive : 0 < shared start end_ t)
      (hmost : ∀ u ∈ turns, shared start end_ u ≤ shared start end_ t)
      (hmiddle : ∀ u ∈ turns, shared start end_ u = shared start end_ t →
        aroundMiddle start end_ u → aroundMiddle start end_ t)
      (hfirst : ∀ u ∈ turns, shared start end_ u = shared start end_ t →
        aroundMiddle start end_ u = aroundMiddle start end_ t → turnKey t ≤ turnKey u)
  | containing (hnone : ∀ u ∈ turns, ¬ 0 < shared start end_ u) (hmem : t ∈ turns)
      (hmiddle : aroundMiddle start end_ t)
      (hfirst : ∀ u ∈ turns, aroundMiddle start end_ u → turnKey t ≤ turnKey u)
  | nearest (hnone : ∀ u ∈ turns, ¬ 0 < shared start end_ u)
      (houtside : ∀ u ∈ turns, ¬ aroundMiddle start end_ u) (hmem : t ∈ turns)
      (hclose : distanceToInterval start end_ t ≤ tolerance)
      (hleast : ∀ u ∈ turns, distanceToInterval start end_ t ≤ distanceToInterval start end_ u)
      (hfirst : ∀ u ∈ turns, distanceToInterval start end_ u = distanceToInterval start end_ t →
        turnKey t ≤ turnKey u)

def Reaches (tolerance : Seconds) (t : SpeakerTurn) : Prop :=
  0 < shared start end_ t ∨ aroundMiddle start end_ t ∨ distanceToInterval start end_ t ≤ tolerance

end Interval

variable {start end_ tolerance : Seconds} {turns : List SpeakerTurn}

lemma Chosen.mem {t : SpeakerTurn} (h : Chosen start end_ tolerance turns t) : t ∈ turns := by
  cases h <;> assumption

lemma Chosen.reaches {t : SpeakerTurn} (h : Chosen start end_ tolerance turns t) :
    Reaches start end_ tolerance t := by
  cases h with
  | overlapping _ hpositive _ _ _ => exact .inl hpositive
  | containing _ _ hmiddle _ => exact .inr (.inl hmiddle)
  | nearest _ _ _ hclose _ _ => exact .inr (.inr hclose)

lemma Chosen.unique {t u : SpeakerTurn} (ht : Chosen start end_ tolerance turns t)
    (hu : Chosen start end_ tolerance turns u) : t = u := by
  cases ht with
  | overlapping htm htp htmost htmid htf =>
    cases hu with
    | overlapping hum hup humost humid huf =>
      have hshared := le_antisymm (humost t htm) (htmost u hum)
      have hmiddle : aroundMiddle start end_ t = aroundMiddle start end_ u :=
        Bool.eq_iff_iff.mpr ⟨humid t htm hshared, htmid u hum hshared.symm⟩
      exact turnKey_injective (le_antisymm (htf u hum hshared.symm hmiddle.symm)
        (huf t htm hshared hmiddle))
    | containing hnone _ _ _ => exact absurd htp (hnone t htm)
    | nearest hnone _ _ _ _ _ => exact absurd htp (hnone t htm)
  | containing htnone htm htmid htf =>
    cases hu with
    | overlapping hum hup _ _ _ => exact absurd hup (htnone u hum)
    | containing _ hum humid huf =>
      exact turnKey_injective (le_antisymm (htf u hum humid) (huf t htm htmid))
    | nearest _ houtside _ _ _ _ => exact absurd htmid (houtside t htm)
  | nearest htnone htout htm _ htleast htf =>
    cases hu with
    | overlapping hum hup _ _ _ => exact absurd hup (htnone u hum)
    | containing _ hum humid _ => exact absurd humid (htout u hum)
    | nearest _ _ hum _ huleast huf =>
      have hdistance := le_antisymm (htleast u hum) (huleast t htm)
      exact turnKey_injective (le_antisymm (htf u hum hdistance.symm) (huf t htm hdistance))

lemma overlapKey_le {t u : SpeakerTurn} (h : overlapKey start end_ t ≤ overlapKey start end_ u) :
    shared start end_ u ≤ shared start end_ t ∧ (shared start end_ u = shared start end_ t →
      (aroundMiddle start end_ u → aroundMiddle start end_ t) ∧
      (aroundMiddle start end_ u = aroundMiddle start end_ t → turnKey t ≤ turnKey u)) := by
  rw [overlapKey, overlapKey, Prod.Lex.toLex_le_toLex, Prod.Lex.toLex_le_toLex] at h
  simp only [neg_lt_neg_iff, neg_inj] at h
  rcases h with hmore | ⟨hequal, hrest⟩
  · exact ⟨hmore.le, fun heq => absurd heq hmore.ne⟩
  · refine ⟨hequal.ge, fun _ => ⟨?_, ?_⟩⟩
    · intro hu
      rcases hrest with hlt | ⟨heq, _⟩
      · rw [hu] at hlt
        exact absurd hlt (by cases aroundMiddle start end_ t <;> decide)
      · rw [← hu]
        exact Bool.not_inj heq
    · intro heq
      rcases hrest with hlt | ⟨_, hkey⟩
      · rw [heq] at hlt
        exact absurd hlt (lt_irrefl _)
      · exact hkey

lemma distanceKey_le {t u : SpeakerTurn} (h : distanceKey start end_ t ≤ distanceKey start end_ u) :
    distanceToInterval start end_ t ≤ distanceToInterval start end_ u ∧
      (distanceToInterval start end_ u = distanceToInterval start end_ t →
        turnKey t ≤ turnKey u) := by
  rw [distanceKey, distanceKey, Prod.Lex.toLex_le_toLex] at h
  rcases h with hless | ⟨hequal, hkey⟩
  · exact ⟨hless.le, fun heq => absurd heq hless.ne'⟩
  · exact ⟨hequal.le, fun _ => hkey⟩

lemma filter_head {p : SpeakerTurn → Bool} {κ : Type} [LinearOrder κ] {key : SpeakerTurn → κ}
    {r : SpeakerTurn → SpeakerTurn → Prop} [DecidableRel r] (hr : ∀ a b, r a b ↔ key a ≤ key b)
    {t : SpeakerTurn} (h : ((turns.filter p).insertionSort r).head? = some t) :
    t ∈ turns ∧ p t ∧ ∀ u ∈ turns, p u → key t ≤ key u := by
  obtain ⟨hmem, hleast⟩ := sort_head hr h
  obtain ⟨hturn, hp⟩ := List.mem_filter.mp hmem
  exact ⟨hturn, hp, fun u hu hpu => hleast u (List.mem_filter.mpr ⟨hu, hpu⟩)⟩

lemma filter_head_none {p : SpeakerTurn → Bool} {r : SpeakerTurn → SpeakerTurn → Prop}
    [DecidableRel r] (h : ((turns.filter p).insertionSort r).head? = none) :
    ∀ u ∈ turns, ¬ p u := by
  intro u hu hp
  have hnil := sort_head_none h
  rw [List.filter_eq_nil_iff] at hnil
  exact hnil u hu hp

lemma chooseSpeaker_cases (start end_ tolerance : Seconds) (turns : List SpeakerTurn) :
    (∃ t, Chosen start end_ tolerance turns t ∧
      chooseSpeaker start end_ turns tolerance = t.speakerLabel) ∨
    ((∀ t ∈ turns, ¬ Reaches start end_ tolerance t) ∧
      chooseSpeaker start end_ turns tolerance = unknownSpeaker) := by
  simp only [chooseSpeaker]
  split
  · rename_i t ht
    obtain ⟨hmem, hpositive, hleast⟩ := filter_head (overlapOrder_iff start end_) ht
    simp only [decide_eq_true_eq] at hpositive hleast
    have hmost : ∀ u ∈ turns, shared start end_ u ≤ shared start end_ t := by
      intro u hu
      by_cases hpos : 0 < shared start end_ u
      · exact (overlapKey_le (hleast u hu hpos)).1
      · exact (not_lt.mp hpos).trans (le_of_lt hpositive)
    have hties : ∀ u ∈ turns, shared start end_ u = shared start end_ t →
        (aroundMiddle start end_ u → aroundMiddle start end_ t) ∧
        (aroundMiddle start end_ u = aroundMiddle start end_ t → turnKey t ≤ turnKey u) :=
      fun u hu heq => (overlapKey_le (hleast u hu (lt_of_lt_of_eq hpositive heq.symm))).2 heq
    exact .inl ⟨t, .overlapping hmem hpositive hmost (fun u hu heq => (hties u hu heq).1)
      (fun u hu heq => (hties u hu heq).2), rfl⟩
  · rename_i t hnone ht
    have hno := filter_head_none hnone
    obtain ⟨hmem, hmiddle, hleast⟩ := filter_head turnOrder_iff ht
    simp only [decide_eq_true_eq] at hno
    exact .inl ⟨t, .containing hno hmem hmiddle hleast, rfl⟩
  · rename_i t hnone hout ht
    have hno := filter_head_none hnone
    have houtside := filter_head_none hout
    simp only [decide_eq_true_eq] at hno
    obtain ⟨hmem, hleast⟩ := sort_head (distanceOrder_iff start end_) ht
    split
    · rename_i hclose
      exact .inl ⟨t, .nearest hno houtside hmem hclose (fun u hu => (distanceKey_le (hleast u hu)).1)
        (fun u hu => (distanceKey_le (hleast u hu)).2), rfl⟩
    · rename_i hfar
      refine .inr ⟨?_, rfl⟩
      rintro u hu (hpos | hmid | hnear)
      · exact hno u hu hpos
      · exact houtside u hu hmid
      · exact hfar ((distanceKey_le (hleast u hu)).1.trans hnear)
  · rename_i hnearest
    refine .inr ⟨?_, rfl⟩
    rw [sort_head_none hnearest]
    exact fun _ h => absurd h List.not_mem_nil

lemma chooseSpeaker_reached (h : ∃ t ∈ turns, Reaches start end_ tolerance t) :
    ∃ t, Chosen start end_ tolerance turns t ∧
      chooseSpeaker start end_ turns tolerance = t.speakerLabel := by
  rcases chooseSpeaker_cases start end_ tolerance turns with hchosen | ⟨hnone, _⟩
  · exact hchosen
  · obtain ⟨t, ht, hreaches⟩ := h
    exact absurd hreaches (hnone t ht)

lemma chooseSpeaker_unknown : chooseSpeaker start end_ turns tolerance = unknownSpeaker ↔
    (∀ t ∈ turns, ¬ Reaches start end_ tolerance t) ∨
      ∃ t, Chosen start end_ tolerance turns t ∧ t.speakerLabel = unknownSpeaker := by
  rcases chooseSpeaker_cases start end_ tolerance turns with ⟨t, ht, hlabel⟩ | ⟨hnone, hunknown⟩
  · rw [hlabel]
    constructor
    · exact fun h => .inr ⟨t, ht, h⟩
    · rintro (hnone | ⟨u, hu, h⟩)
      · exact absurd ht.reaches (hnone t ht.mem)
      · rwa [ht.unique hu]
  · exact ⟨fun _ => .inl hnone, fun _ => hunknown⟩

/-- Two voices are heard together: for some time inside the interval, or at its one instant. -/
def Together (start end_ : Seconds) (t u : SpeakerTurn) : Prop :=
  if end_ = start then contains t start ∧ contains u start
  else ∃ a b, a < b ∧ start ≤ a ∧ b ≤ end_ ∧ t.start ≤ a ∧ b ≤ t.end_ ∧ u.start ≤ a ∧ b ≤ u.end_

lemma pairs_any {α : Type} {p : α → α → Prop} {f : List α → Bool} (hnil : f [] = false)
    (hcons : ∀ x xs, f (x :: xs) ↔ ∃ y ∈ xs, p x y) (hsymm : ∀ a b, p a b → p b a)
    (hself : ∀ a, ¬ p a a) (xs : List α) : xs.tails.any f ↔ ∃ a ∈ xs, ∃ b ∈ xs, p a b := by
  induction xs with
  | nil => simp [hnil]
  | cons x xs ih =>
    rw [List.tails_cons, List.any_cons, Bool.or_eq_true, ih, hcons]
    constructor
    · rintro (⟨b, hb, h⟩ | ⟨a, ha, b, hb, h⟩)
      · exact ⟨x, List.mem_cons_self, b, List.mem_cons_of_mem x hb, h⟩
      · exact ⟨a, List.mem_cons_of_mem x ha, b, List.mem_cons_of_mem x hb, h⟩
    · rintro ⟨a, ha, b, hb, h⟩
      rcases List.mem_cons.mp ha with rfl | hta
      · rcases List.mem_cons.mp hb with rfl | htb
        · exact absurd h (hself _)
        · exact .inl ⟨b, htb, h⟩
      · rcases List.mem_cons.mp hb with rfl | htb
        · exact .inl ⟨a, hta, hsymm a b h⟩
        · exact .inr ⟨a, hta, b, htb, h⟩

lemma two_labels {labels : List Text} :
    1 < labels.dedup.length ↔ ∃ a ∈ labels, ∃ b ∈ labels, a ≠ b := by
  rw [← List.card_toFinset, Finset.one_lt_card]
  simp only [List.mem_toFinset]

lemma stretch_iff {t u : SpeakerTurn} :
    max start (max t.start u.start) < min end_ (min t.end_ u.end_) ↔
      ∃ a b, a < b ∧ start ≤ a ∧ b ≤ end_ ∧ t.start ≤ a ∧ b ≤ t.end_ ∧ u.start ≤ a ∧ b ≤ u.end_ := by
  constructor
  · intro h
    refine ⟨_, _, h, le_max_left _ _, min_le_left _ _, ?_, ?_, ?_, ?_⟩
    · exact (le_max_left _ _).trans (le_max_right _ _)
    · exact (min_le_right _ _).trans (min_le_left _ _)
    · exact (le_max_right _ _).trans (le_max_right _ _)
    · exact (min_le_right _ _).trans (min_le_right _ _)
  · rintro ⟨a, b, hab, hsa, hbe, hta, hbt, hua, hbu⟩
    exact (max_le hsa (max_le hta hua)).trans_lt (hab.trans_le (le_min hbe (le_min hbt hbu)))

lemma overlap_pos {t : SpeakerTurn} : 0 < overlap start end_ t.start t.end_ ↔
    max start t.start < min end_ t.end_ := by
  rw [overlap, lt_max_iff, sub_pos]
  simp

lemma hasSimultaneousSpeech_iff (start end_ : Seconds) (turns : List SpeakerTurn) :
    hasSimultaneousSpeech start end_ turns ↔
      ∃ t ∈ turns, ∃ u ∈ turns, t.speakerLabel ≠ u.speakerLabel ∧ Together start end_ t u := by
  unfold hasSimultaneousSpeech Together
  split
  · simp only [decide_eq_true_eq, two_labels, List.mem_map, List.mem_filter]
    constructor
    · rintro ⟨_, ⟨t, ⟨ht, hct⟩, rfl⟩, _, ⟨u, ⟨hu, hcu⟩, rfl⟩, hne⟩
      exact ⟨t, ht, u, hu, hne, hct, hcu⟩
    · rintro ⟨t, ht, u, hu, hne, hct, hcu⟩
      exact ⟨_, ⟨t, ⟨ht, hct⟩, rfl⟩, _, ⟨u, ⟨hu, hcu⟩, rfl⟩, hne⟩
  · have hsymm : ∀ t u : SpeakerTurn, (t.speakerLabel ≠ u.speakerLabel ∧
        max start (max t.start u.start) < min end_ (min t.end_ u.end_)) →
        u.speakerLabel ≠ t.speakerLabel ∧
          max start (max u.start t.start) < min end_ (min u.end_ t.end_) := by
      intro t u h
      rw [max_comm u.start, min_comm u.end_]
      exact ⟨h.1.symm, h.2⟩
    refine (pairs_any rfl ?_ hsymm (fun t h => h.1 rfl) _).trans ?_
    · intro t rest
      simp only [List.any_eq_true, decide_eq_true_eq]
    · simp only [List.mem_filter, decide_eq_true_eq, overlap_pos, stretch_iff]
      constructor
      · rintro ⟨t, ⟨ht, _⟩, u, ⟨hu, _⟩, h⟩
        exact ⟨t, ht, u, hu, h⟩
      · rintro ⟨t, ht, u, hu, hne, hstretch⟩
        obtain ⟨a, b, hab, hsa, hbe, hta, hbt, hua, hbu⟩ := hstretch
        have hinside : ∀ v : SpeakerTurn, v.start ≤ a → b ≤ v.end_ →
            max start v.start < min end_ v.end_ :=
          fun v hva hbv => (max_le hsa hva).trans_lt (hab.trans_le (le_min hbe hbv))
        exact ⟨t, ⟨ht, hinside t hta hbt⟩, u, ⟨hu, hinside u hua hbu⟩, hne, a, b, hab, hsa, hbe,
          hta, hbt, hua, hbu⟩

lemma sortedPrimary_perm {d d' : DiarizationResult} (he : d.exclusiveTurns.Perm d'.exclusiveTurns)
    (hr : d.regularTurns.Perm d'.regularTurns) : sortedPrimary d = sortedPrimary d' := by
  apply sort_perm turnOrder_iff turnKey_injective
  rw [DiarizationResult.primaryTurns, DiarizationResult.primaryTurns, he.isEmpty_eq]
  split
  · exact hr
  · exact he

lemma merge_perm (merger : TimestampTranscriptMerger) (transcription : TranscriptionResult)
    {d d' : DiarizationResult} (he : d.exclusiveTurns.Perm d'.exclusiveTurns)
    (hr : d.regularTurns.Perm d'.regularTurns) :
    merger.merge transcription d = merger.merge transcription d' := by
  have hmerge : ∀ d, merger.merge transcription d = (inTime transcription).foldlM
      (merger.mergeSegment transcription (sortedPrimary d) (sortedRegular d)) [] := fun _ => rfl
  have hregular : sortedRegular d = sortedRegular d' := sort_perm turnOrder_iff turnKey_injective hr
  rw [hmerge, hmerge, sortedPrimary_perm he hr, hregular]

theorem speaker_choice :
    (∀ (start end_ tolerance : Seconds) (turns : List SpeakerTurn),
      ((∃ t ∈ turns, Reaches start end_ tolerance t) →
        ∃ t, Chosen start end_ tolerance turns t ∧
          chooseSpeaker start end_ turns tolerance = t.speakerLabel) ∧
      (chooseSpeaker start end_ turns tolerance = unknownSpeaker ↔
        (∀ t ∈ turns, ¬ Reaches start end_ tolerance t) ∨
          ∃ t, Chosen start end_ tolerance turns t ∧ t.speakerLabel = unknownSpeaker)) ∧
    (∀ (start end_ : Seconds) (turns : List SpeakerTurn), hasSimultaneousSpeech start end_ turns ↔
      ∃ t ∈ turns, ∃ u ∈ turns, t.speakerLabel ≠ u.speakerLabel ∧ Together start end_ t u) ∧
    ∀ (merger : TimestampTranscriptMerger) (transcription : TranscriptionResult)
      (d d' : DiarizationResult), d.exclusiveTurns.Perm d'.exclusiveTurns →
        d.regularTurns.Perm d'.regularTurns →
        merger.merge transcription d = merger.merge transcription d' :=
  ⟨fun _ _ _ _ => ⟨chooseSpeaker_reached, chooseSpeaker_unknown⟩, hasSimultaneousSpeech_iff,
    fun merger transcription _ _ => merge_perm merger transcription⟩

/-- A turn may carry the name the code keeps for an unknown voice. -/
theorem unknown_turn_chosen : ¬ ∀ (start end_ tolerance : Seconds) (turns : List SpeakerTurn),
    chooseSpeaker start end_ turns tolerance = unknownSpeaker ↔
      ∀ t ∈ turns, ¬ Reaches start end_ tolerance t := by
  intro h
  have hchosen := (h 0 1 0 [⟨0, 1, unknownSpeaker, le_rfl, by decide, unknownSpeaker_nonblank⟩]).mp
    (by decide +kernel)
  exact hchosen _ List.mem_cons_self (.inl (by decide +kernel))

end AudioServer.Processing.SpeakerChoice
