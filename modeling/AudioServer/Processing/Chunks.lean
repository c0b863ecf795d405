import AudioServer.Foundations.Correspondence
import AudioServer.Foundations.Doubles
import AudioServer.Foundations.Numerals
import AudioServer.Foundations.Packing
import AudioServer.Processing.Contracts

/-! A transcript in chunks of bounded size, and that nothing of it is lost between them. -/

namespace AudioServer.Processing.Chunks

open AudioServer.Foundations.Blocks AudioServer.Foundations.Packing
open AudioServer.Foundations.Correspondence AudioServer.Foundations.Outcomes
open AudioServer.Foundations.Strings AudioServer.Db.Models AudioServer.Processing.Contracts
open AudioServer.Foundations.Doubles AudioServer.Foundations.Numerals

/-- The format `.3f` of a number that is not negative. -/
def fixed3 (x : ℚ) : Text :=
  let thousandths := (roundHalfEven (x * 1000)).toNat
  numeral (thousandths / 1000) ++ '.' ::
    (numeral (thousandths % 1000 / 100) ++ numeral (thousandths % 100 / 10) ++ numeral (thousandths % 10))

def headerLine (m : MergedTranscriptSegment) : Text :=
  "SEGMENT ".toList ++ numeral m.sequence.toNat ++ " | ".toList ++ m.speakerLabel ++ " | ".toList ++
    fixed3 m.start ++ ['s']

structure TranscriptPart where
  header : Text
  text : Text
deriving DecidableEq

def TranscriptPart.rendered (p : TranscriptPart) : Text := p.header ++ '\n' :: (p.text ++ ['\n'])

def roomFor (maxChars : ℕ) (m : MergedTranscriptSegment) : ℕ :=
  maxChars - (headerLine m ++ ['\n']).length - 1

def segmentParts (maxChars : ℕ) (m : MergedTranscriptSegment) : List TranscriptPart :=
  let parts := slices (roomFor maxChars m) m.text
  (if parts = [] then [[]] else parts).map (⟨headerLine m, ·⟩)

structure Chunking where
  chunks : List Text
  current : Text

def addPart (maxChars : ℕ) (s : Chunking) (p : TranscriptPart) : Chunking :=
  if s.current ≠ [] ∧ maxChars < s.current.length + p.rendered.length then
    ⟨s.chunks ++ [rstrip s.current], p.rendered⟩
  else ⟨s.chunks, s.current ++ p.rendered⟩

def addSegment (maxChars : ℕ) (s : Chunking) (m : MergedTranscriptSegment) : Except Exn Chunking := do
  require (0 < roomFor maxChars m) (.valueError "max_chars cannot fit segment metadata")
  .ok ((segmentParts maxChars m).foldl (addPart maxChars) s)

def chunkTranscript (segments : List MergedTranscriptSegment) (maxChars : ℕ) :
    Except Exn (List Text) := do
  require (100 ≤ maxChars) (.valueError "max_chars is too small")
  let s ← segments.foldlM (addSegment maxChars) ⟨[], []⟩
  .ok (if s.current ≠ [] then s.chunks ++ [rstrip s.current] else s.chunks)

abbrev renderAll (parts : List TranscriptPart) : Text := parts.flatMap TranscriptPart.rendered

def Fits (maxChars : ℕ) (block : List TranscriptPart) (p : TranscriptPart) : Prop :=
  (renderAll block).length + p.rendered.length ≤ maxChars

instance (maxChars : ℕ) (block : List TranscriptPart) (p : TranscriptPart) :
    Decidable (Fits maxChars block p) := inferInstanceAs (Decidable (_ ≤ _))

def shown (s : List (List TranscriptPart) × List TranscriptPart) : Chunking :=
  ⟨s.1.map (fun parts => rstrip (renderAll parts)), renderAll s.2⟩

section Packing

variable {maxChars : ℕ}

lemma rendered_ne_nil (p : TranscriptPart) : p.rendered ≠ [] := by
  simp [TranscriptPart.rendered]

lemma renderAll_eq_nil {parts : List TranscriptPart} : renderAll parts = [] ↔ parts = [] := by
  cases parts with
  | nil => simp
  | cons p parts => simp [rendered_ne_nil]

lemma addPart_shown (s : List (List TranscriptPart) × List TranscriptPart) (p : TranscriptPart) :
    addPart maxChars (shown s) p = shown (place (Fits maxChars) s p) := by
  have hfull : (shown s).current ≠ [] ∧ maxChars < (shown s).current.length + p.rendered.length ↔
      ¬ (s.2 = [] ∨ Fits maxChars s.2 p) := by
    simp only [shown, ne_eq, renderAll_eq_nil, Fits, not_or, not_le]
  rw [addPart, place]
  by_cases h : s.2 = [] ∨ Fits maxChars s.2 p
  · rw [if_neg (fun hc => hfull.mp hc h), if_pos h]
    simp [shown]
  · rw [if_pos (hfull.mpr h), if_neg h]
    simp [shown]

lemma foldl_shown (parts : List TranscriptPart)
    (s : List (List TranscriptPart) × List TranscriptPart) :
    parts.foldl (addPart maxChars) (shown s) = shown (parts.foldl (place (Fits maxChars)) s) := by
  induction parts generalizing s with
  | nil => rfl
  | cons p parts ih => rw [List.foldl_cons, List.foldl_cons, addPart_shown, ih]

lemma foldlM_shown {segments : List MergedTranscriptSegment} {t : Chunking}
    {s : List (List TranscriptPart) × List TranscriptPart}
    (h : segments.foldlM (addSegment maxChars) (shown s) = .ok t) :
    (∀ m ∈ segments, 0 < roomFor maxChars m) ∧
      t = shown ((segments.flatMap (segmentParts maxChars)).foldl (place (Fits maxChars)) s) := by
  induction segments generalizing s with
  | nil =>
    cases h
    exact ⟨fun m hm => absurd hm List.not_mem_nil, rfl⟩
  | cons m segments ih =>
    rw [List.foldlM_cons] at h
    obtain ⟨_, hm, h⟩ := bind_ok h
    obtain ⟨_, hroom, hm⟩ := bind_ok hm
    cases hm
    rw [foldl_shown] at h
    obtain ⟨hrest, rfl⟩ := ih h
    refine ⟨List.forall_mem_cons.mpr ⟨require_ok.mp hroom, hrest⟩, ?_⟩
    rw [List.flatMap_cons, List.foldl_append]

lemma shown_flush (s : List (List TranscriptPart) × List TranscriptPart) :
    (if (shown s).current ≠ [] then (shown s).chunks ++ [rstrip (shown s).current]
      else (shown s).chunks) = (flush s).map (fun parts => rstrip (renderAll parts)) := by
  by_cases h : s.2 = []
  · rw [flush, if_pos h, if_neg (by simp [shown, h])]
    rfl
  · rw [flush, if_neg h, if_pos (by rwa [shown, ne_eq, renderAll_eq_nil]), List.map_append,
      List.map_singleton]
    rfl

lemma chunkTranscript_ok {segments : List MergedTranscriptSegment} {chunks : List Text}
    (h : chunkTranscript segments maxChars = .ok chunks) :
    (∀ m ∈ segments, 0 < roomFor maxChars m) ∧
      chunks = (cut (Fits maxChars) (segments.flatMap (segmentParts maxChars))).map
        (fun parts => rstrip (renderAll parts)) := by
  obtain ⟨_, _, h⟩ := bind_ok h
  obtain ⟨t, ht, h⟩ := bind_ok h
  obtain ⟨hroom, rfl⟩ := foldlM_shown (s := ([], [])) ht
  cases h
  exact ⟨hroom, by rw [shown_flush, place_cut]⟩

lemma foldlM_fits {segments : List MergedTranscriptSegment}
    (h : ∀ m ∈ segments, 0 < roomFor maxChars m) (s : Chunking) :
    ∃ t, segments.foldlM (addSegment maxChars) s = .ok t := by
  induction segments generalizing s with
  | nil => exact ⟨s, rfl⟩
  | cons m segments ih =>
    obtain ⟨hm, hrest⟩ := List.forall_mem_cons.mp h
    rw [List.foldlM_cons, addSegment, require_of hm, ok_bind, ok_bind]
    exact ih hrest _

lemma chunkTranscript_iff {segments : List MergedTranscriptSegment} :
    (∃ chunks, chunkTranscript segments maxChars = .ok chunks) ↔
      100 ≤ maxChars ∧ ∀ m ∈ segments, 0 < roomFor maxChars m := by
  constructor
  · rintro ⟨chunks, h⟩
    obtain ⟨_, hmax, _⟩ := bind_ok h
    exact ⟨require_ok.mp hmax, (chunkTranscript_ok h).1⟩
  · rintro ⟨hmax, hroom⟩
    obtain ⟨t, ht⟩ := foldlM_fits hroom ⟨[], []⟩
    exact ⟨_, by rw [chunkTranscript, require_of hmax, ok_bind, ht, ok_bind]⟩

lemma chunkTranscript_ne_nil {segments : List MergedTranscriptSegment} {chunks : List Text}
    (h : chunkTranscript segments maxChars = .ok chunks) (hne : segments ≠ []) : chunks ≠ [] := by
  obtain ⟨m, segments, rfl⟩ := List.exists_cons_of_ne_nil hne
  obtain ⟨_, rfl⟩ := chunkTranscript_ok h
  intro hnil
  have hparts := @cut_flatten _ (Fits maxChars) _ ((m :: segments).flatMap (segmentParts maxChars))
  rw [List.map_eq_nil_iff.mp hnil, List.flatten_nil, List.flatMap_cons] at hparts
  have hnone : segmentParts maxChars m = [] := (List.append_eq_nil_iff.mp hparts.symm).1
  rw [segmentParts, List.map_eq_nil_iff] at hnone
  split at hnone
  · cases hnone
  · contradiction

end Packing

section Parts

variable {maxChars : ℕ} {m : MergedTranscriptSegment}

lemma segmentParts_length (hroom : 0 < roomFor maxChars m) {p : TranscriptPart}
    (hp : p ∈ segmentParts maxChars m) : p.rendered.length ≤ maxChars := by
  obtain ⟨part, hpart, rfl⟩ := List.mem_map.mp hp
  have hlen : part.length ≤ roomFor maxChars m := by
    split at hpart
    · rw [List.mem_singleton.mp hpart]
      exact Nat.zero_le _
    · exact (mem_slices hroom hpart).2
  simp only [roomFor, List.length_append, List.length_singleton] at hlen hroom
  simp only [TranscriptPart.rendered, List.length_append, List.length_cons, List.length_nil]
  omega

lemma segmentParts_text (hroom : 0 < roomFor maxChars m) :
    segmentParts maxChars m ≠ [] ∧ (∀ p ∈ segmentParts maxChars m, p.header = headerLine m) ∧
      (segmentParts maxChars m).flatMap (·.text) = m.text := by
  have hflat := slices_flatten hroom m.text
  refine ⟨?_, ?_, ?_⟩
  · simp only [segmentParts, ne_eq, List.map_eq_nil_iff]
    split
    · exact List.cons_ne_nil _ _
    · assumption
  · intro p hp
    obtain ⟨_, _, rfl⟩ := List.mem_map.mp hp
    rfl
  · have hmap : ∀ parts : List Text,
        (parts.map (fun part => (⟨headerLine m, part⟩ : TranscriptPart))).flatMap (·.text) =
          parts.flatten := by
      intro parts
      rw [List.flatMap_map, List.flatMap_id']
    rw [segmentParts, hmap]
    split
    · rename_i hnone
      rw [hnone] at hflat
      exact hflat
    · exact hflat

lemma cut_length {parts : List TranscriptPart} (hparts : ∀ p ∈ parts, p.rendered.length ≤ maxChars)
    {block : List TranscriptPart} (hblock : block ∈ cut (Fits maxChars) parts) :
    (renderAll block).length ≤ maxChars := by
  have hmem : ∀ p ∈ block, p.rendered.length ≤ maxChars := by
    intro p hp
    apply hparts
    rw [← @cut_flatten _ (Fits maxChars) _ parts]
    exact List.mem_flatten_of_mem hblock hp
  cases cut_grown hblock with
  | one p => simpa using hmem p List.mem_cons_self
  | snoc _ hfits =>
    simp only [renderAll, List.flatMap_append, List.flatMap_singleton, List.length_append]
    exact hfits

end Parts

lemma rstrip_length_le (s : Text) : (rstrip s).length ≤ s.length :=
  (List.rdropWhile_prefix isSpace s).length_le

lemma rstrip_append {u : Text} {c : Char} (hc : ¬ isSpace c) (v : Text) :
    rstrip (u ++ [c] ++ v) = u ++ [c] ++ rstrip v := by
  induction v using List.reverseRecOn with
  | nil =>
    rw [List.append_nil, rstrip, List.rdropWhile_concat_neg _ _ _ hc]
    exact (List.append_nil _).symm
  | append_singleton v d ih =>
    rw [← List.append_assoc]
    by_cases hd : isSpace d
    · simp only [rstrip] at ih ⊢
      rw [List.rdropWhile_concat_pos _ _ _ hd, List.rdropWhile_concat_pos _ _ _ hd, ih]
    · simp only [rstrip]
      rw [List.rdropWhile_concat_neg _ _ _ hd, List.rdropWhile_concat_neg _ _ _ hd, List.append_assoc]

/-- What the columns of a stored segment leave room for: `String(64)`, `Integer` and `Float`, whose
numbers have no more than 309 digits before the point. -/
structure FitsColumns (m : MergedTranscriptSegment) : Prop where
  speakerLabel : m.speakerLabel.length ≤ 64
  sequence : m.sequence < 2 ^ 31
  start : m.start < 10 ^ 309

lemma numeral_length {n e : ℕ} (he : 0 < e) (h : n < 10 ^ e) : (numeral n).length ≤ e := by
  rw [numeral, String.length_toList]
  exact (Nat.length_repr_le_iff he).mpr h

lemma fixed3_length {x : ℚ} {e : ℕ} (h : x < 10 ^ e) : (fixed3 x).length ≤ e + 5 := by
  have hround : roundHalfEven (x * 1000) ≤ (10 ^ e * 1000 : ℤ) := by
    apply roundHalfEven_le
    push_cast
    linarith
  have hwhole : (numeral ((roundHalfEven (x * 1000)).toNat / 1000)).length ≤ e + 1 := by
    apply numeral_length (Nat.succ_pos e)
    have hle : (roundHalfEven (x * 1000)).toNat ≤ 10 ^ e * 1000 := by
      rw [Int.toNat_le]
      exact_mod_cast hround
    have hdiv : (roundHalfEven (x * 1000)).toNat / 1000 ≤ 10 ^ e :=
      (Nat.div_le_div_right hle).trans_eq (Nat.mul_div_cancel _ (by decide))
    exact lt_of_le_of_lt hdiv (Nat.pow_lt_pow_right (by decide) (Nat.lt_succ_self e))
  have hdigit : ∀ n : ℕ, n < 10 → (numeral n).length ≤ 1 := fun n hn => numeral_length (by decide) hn
  have hfirst := hdigit ((roundHalfEven (x * 1000)).toNat % 1000 / 100) (by omega)
  have hsecond := hdigit ((roundHalfEven (x * 1000)).toNat % 100 / 10) (by omega)
  have hthird := hdigit ((roundHalfEven (x * 1000)).toNat % 10) (by omega)
  simp only [fixed3, List.length_append, List.length_cons]
  omega

lemma headerLine_length (m : MergedTranscriptSegment) : (headerLine m).length =
    15 + (numeral m.sequence.toNat).length + m.speakerLabel.length + (fixed3 m.start).length := by
  have hline : ∀ number label time : Text, ("SEGMENT ".toList ++ number ++ " | ".toList ++ label ++
      " | ".toList ++ time ++ ['s']).length = 15 + number.length + label.length + time.length := by
    intro number label time
    have hseg : "SEGMENT ".toList.length = 8 := rfl
    have hbar : " | ".toList.length = 3 := rfl
    simp only [List.length_append, List.length_singleton, hseg, hbar]
    omega
  exact hline _ _ _

lemma roomFor_pos {maxChars : ℕ} {m : MergedTranscriptSegment} (hmax : 1000 ≤ maxChars)
    (h : FitsColumns m) : 0 < roomFor maxChars m := by
  have hsequence : (numeral m.sequence.toNat).length ≤ 10 := by
    apply numeral_length (by decide)
    have hlt := h.sequence
    norm_num at hlt ⊢
    omega
  have hstart : (fixed3 m.start).length ≤ 309 + 5 := fixed3_length h.start
  have hheader : (headerLine m).length ≤ 15 + 10 + 64 + (309 + 5) := by
    rw [headerLine_length]
    exact Nat.add_le_add (Nat.add_le_add (Nat.add_le_add_left hsequence 15) h.speakerLabel) hstart
  rw [roomFor, List.length_append, List.length_singleton]
  omega

/-- Whitespace is removed from the end of a chunk only: never more of its last part than the
text's own and the newlines around it. -/
def Reads (chunk : Text) (parts : List TranscriptPart) : Prop :=
  ∃ before last, parts = before ++ [last] ∧
    chunk = renderAll before ++ last.header ++ rstrip ('\n' :: last.text)

lemma reads_block {parts : List TranscriptPart} (hparts : parts ≠ [])
    (hheaders : ∀ p ∈ parts, ∃ m, p.header = headerLine m) : Reads (rstrip (renderAll parts)) parts := by
  obtain ⟨before, last, rfl⟩ := List.eq_nil_or_concat' parts |>.resolve_left hparts
  obtain ⟨m, hm⟩ := hheaders last (by simp)
  refine ⟨before, last, rfl, ?_⟩
  have hend : ∃ line, last.header = line ++ ['s'] := ⟨_, hm⟩
  obtain ⟨line, hline⟩ := hend
  have hs : ¬ isSpace 's' := by decide
  have htext : rstrip ('\n' :: (last.text ++ ['\n'])) = rstrip ('\n' :: last.text) := by
    rw [← List.cons_append, rstrip, List.rdropWhile_concat_pos _ _ _ (by decide), rstrip]
  rw [renderAll, List.flatMap_append, List.flatMap_singleton, TranscriptPart.rendered, hline,
    ← List.append_assoc, ← List.append_assoc, rstrip_append hs, htext]

theorem chunkTranscript_conserves {segments : List MergedTranscriptSegment} {maxChars : ℕ}
    {chunks : List Text} (h : chunkTranscript segments maxChars = .ok chunks) :
    (∀ chunk ∈ chunks, chunk.length ≤ maxChars) ∧
      ∃ layout bySegment : List (List TranscriptPart), List.Forall₂ Reads chunks layout ∧
        layout.flatten = bySegment.flatten ∧
        List.Forall₂ (fun (m : MergedTranscriptSegment) parts => parts ≠ [] ∧
          (∀ p ∈ parts, p.header = headerLine m) ∧ parts.flatMap (·.text) = m.text)
          segments bySegment := by
  obtain ⟨hroom, rfl⟩ := chunkTranscript_ok h
  have hpart : ∀ p ∈ segments.flatMap (segmentParts maxChars),
      p.rendered.length ≤ maxChars ∧ ∃ m, p.header = headerLine m := by
    intro p hp
    obtain ⟨m, hm, hp⟩ := List.mem_flatMap.mp hp
    exact ⟨segmentParts_length (hroom m hm) hp, m, (segmentParts_text (hroom m hm)).2.1 p hp⟩
  refine ⟨?_, cut (Fits maxChars) (segments.flatMap (segmentParts maxChars)),
    segments.map (segmentParts maxChars), ?_, ?_, ?_⟩
  · intro chunk hchunk
    obtain ⟨block, hblock, rfl⟩ := List.mem_map.mp hchunk
    exact (rstrip_length_le _).trans (cut_length (fun p hp => (hpart p hp).1) hblock)
  · rw [List.forall₂_map_left_iff, List.forall₂_same]
    intro block hblock
    apply reads_block (cut_grown hblock).ne_nil
    intro p hp
    refine (hpart p ?_).2
    rw [← @cut_flatten _ (Fits maxChars) _ (segments.flatMap (segmentParts maxChars))]
    exact List.mem_flatten_of_mem hblock hp
  · rw [cut_flatten, List.flatMap_def]
  · rw [List.forall₂_map_right_iff, List.forall₂_same]
    exact fun m hm => segmentParts_text (hroom m hm)

def longLine : List MergedTranscriptSegment :=
  (MergedTranscriptSegment.make 0 "A".toList 0 2
    (List.replicate 75 'あ' ++ ' ' :: List.replicate 14 'い') none none false).toOption.toList

def longChunks : List Text := valueOr [] (chunkTranscript longLine 100)

theorem chunkTranscript_conserves_long :
    longChunks.map (·.length) = [98, 37] ∧ ∀ chunk ∈ longChunks, chunk.length ≤ 100 :=
  ⟨by decide +kernel, (chunkTranscript_conserves (ok_valueOr [] (by decide +kernel))).1⟩

end AudioServer.Processing.Chunks
