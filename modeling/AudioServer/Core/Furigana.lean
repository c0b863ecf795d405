import AudioServer.Foundations.Strings
import AudioServer.Foundations.Trimming
import Mathlib.Data.List.Chain

/-! Hiragana reading aids. The morphological analyser is a parameter: it cuts a text into
tokens with a reading and a part of speech. -/

namespace AudioServer.Core.Furigana

open AudioServer.Foundations.Strings AudioServer.Foundations.Trimming

/-- What the analyser says of a token; `reading` and `part_of_speech` may be missing. -/
structure Token where
  surface : Text
  reading : Option Text
  partOfSpeech : Option Text

structure FuriganaToken where
  text : Text
  reading : Option Text
  deriving DecidableEq

def isKanji (c : Char) : Bool :=
  let n := c.toNat
  (0x3400 ≤ n && n ≤ 0x4dbf) || (0x4e00 ≤ n && n ≤ 0x9fff) || (0xf900 ≤ n && n ≤ 0xfaff)

def katakanaToHiragana (value : Text) : Text :=
  value.map (fun c => if 'ァ' ≤ c ∧ c ≤ 'ヶ' then Char.ofNat (c.toNat - 0x60) else c)

def hasKanji (value : Text) : Bool := value.any isKanji

def trimOkurigana (surface reading : Text) : Text × Text × Text × Text :=
  let front := matched (fun c => !isKanji c) surface reading
  let back := rmatched (fun c => !isKanji c) surface reading
  (surface.take front, surface.extract front (surface.length - back),
    reading.extract front (reading.length - back), surface.drop (surface.length - back))

def pos (token : Token) : List Text := (token.partOfSpeech.getD []).splitOn ','

def isNumeral (token : Token) : Bool :=
  (pos token)[0]? = some "名詞".toList ∧ (pos token)[1]? = some "数".toList

def isCounter (token : Token) : Bool :=
  (pos token)[0]? = some "名詞".toList ∧ (pos token)[1]? = some "接尾".toList ∧
    (pos token)[2]? = some "助数詞".toList

def append (tokens : List FuriganaToken) (value : Text) (reading : Option Text) :
    List FuriganaToken :=
  if value = [] then tokens
  else
    match reading, tokens.getLast? with
    | none, some ⟨text, none⟩ => tokens.dropLast ++ [⟨text ++ value, none⟩]
    | _, _ => tokens ++ [⟨value, reading⟩]

def hiraganaReading (token : Token) : Text :=
  let rawReading := token.reading.getD ['*']
  if rawReading ≠ ['*'] then katakanaToHiragana rawReading else []

def annotateToken (tokens : List FuriganaToken) (token : Token) : List FuriganaToken :=
  if !hasKanji token.surface then append tokens token.surface none
  else
    let reading := hiraganaReading token
    if reading = [] ∨ reading = token.surface then append tokens token.surface none
    else
      let (leading, core, coreReading, trailing) := trimOkurigana token.surface reading
      let withLead := append tokens leading none
      let withCore :=
        if core ≠ [] ∧ coreReading ≠ [] ∧ hasKanji core then append withLead core (some coreReading)
        else append withLead core none
      append withCore trailing none

def countedRun (analysed : List Token) : Option (List Token × List Token) :=
  match analysed.takeWhile isNumeral, analysed.dropWhile isNumeral with
  | numeral :: run, counter :: rest =>
    if isCounter counter then some (numeral :: run ++ [counter], rest) else none
  | _, _ => none

lemma countedRun_some {analysed run rest : List Token} (h : countedRun analysed = some (run, rest)) :
    ∃ numerals counter, run = numerals ++ [counter] ∧ analysed = numerals ++ counter :: rest ∧
      numerals ≠ [] ∧ (∀ t ∈ numerals, isNumeral t) ∧ isCounter counter := by
  have hsplit := List.takeWhile_append_dropWhile (p := isNumeral) (l := analysed)
  have hall : ∀ t ∈ analysed.takeWhile isNumeral, isNumeral t := fun t => List.mem_takeWhile_imp
  rw [countedRun] at h
  split at h
  · next numeral numerals counter after hfront hback =>
    split at h
    · next hcounter =>
      cases h
      rw [hfront] at hsplit hall
      rw [hback] at hsplit
      exact ⟨numeral :: numerals, counter, rfl, hsplit.symm, List.cons_ne_nil _ _, hall, hcounter⟩
    · cases h
  · cases h

def scan (tokens : List FuriganaToken) (analysed : List Token) : List FuriganaToken :=
  match analysed with
  | [] => tokens
  | token :: rest =>
    match _hrun : countedRun (token :: rest) with
    | some (run, after) => scan (append tokens (run.flatMap (·.surface)) none) after
    | none => scan (annotateToken tokens token) rest
termination_by analysed.length
decreasing_by
  · obtain ⟨numerals, counter, -, hsplit, -⟩ := countedRun_some _hrun
    rw [hsplit, List.length_append, List.length_cons]
    omega
  · exact Nat.lt_succ_self _

def annotate (tokenize : Text → List Token) (text : Text) : List FuriganaToken :=
  if text = [] then []
  else if !hasKanji text then [⟨text, none⟩]
  else scan [] (tokenize text)

/-! ### What each character carries -/

def carried (runs : List FuriganaToken) : List (Char × Option Text) :=
  runs.flatMap (fun run => run.text.map (·, run.reading))

def plain (text : Text) : List (Char × Option Text) := text.map (·, none)

def surfaces (analysed : List Token) : Text := analysed.flatMap (·.surface)

def own (token : Token) : List (Char × Option Text) := carried (annotateToken [] token)

def counted (previous : Option Token) (token : Token) (rest : List Token) : Bool :=
  (isNumeral token && (rest.dropWhile isNumeral).head?.any isCounter) ||
    (isCounter token && previous.any isNumeral)

def span (previous : Option Token) (token : Token) (rest : List Token) : List (Char × Option Text) :=
  if counted previous token rest then plain token.surface else own token

def spans : Option Token → List Token → List (Char × Option Text)
  | _, [] => []
  | previous, token :: rest => span previous token rest ++ spans (some token) rest

section Trim

variable {surface reading lead core coreReading trail : Text}

lemma trim_exact (h : trimOkurigana surface reading = (lead, core, coreReading, trail)) :
    surface = lead ++ core ++ trail ∧ reading = lead ++ coreReading ++ trail ∧
      ¬ hasKanji lead ∧ ¬ hasKanji trail := by
  obtain ⟨rfl, rfl, rfl, rfl⟩ : _ ∧ _ ∧ _ ∧ _ := by simpa [trimOkurigana, -List.extract_eq_take_drop] using h
  refine ⟨(between_ends rmatched_le_left).symm, ?_, ?_, ?_⟩
  · rw [take_matched, drop_rmatched]
    exact (between_ends rmatched_le_right).symm
  · have hkept : ∀ c ∈ surface.take (matched (fun c => !isKanji c) surface reading), !isKanji c :=
      matched_kept
    simpa [hasKanji] using hkept
  · have hkept : ∀ c ∈ surface.drop (surface.length - rmatched (fun c => !isKanji c) surface reading),
        !isKanji c := rmatched_kept
    simpa [hasKanji] using hkept

end Trim

section Append

variable {tokens : List FuriganaToken} {value : Text} {reading : Option Text}

lemma append_cases (tokens : List FuriganaToken) (value : Text) (reading : Option Text) :
    (value = [] ∧ append tokens value reading = tokens) ∨
    (value ≠ [] ∧ reading = none ∧ ∃ front text, tokens = front ++ [⟨text, none⟩] ∧
      append tokens value reading = front ++ [⟨text ++ value, none⟩]) ∨
    (value ≠ [] ∧ (∀ last ∈ tokens.getLast?, ¬ (last.reading = none ∧ reading = none)) ∧
      append tokens value reading = tokens ++ [⟨value, reading⟩]) := by
  by_cases hvalue : value = []
  · exact .inl ⟨hvalue, if_pos hvalue⟩
  · unfold append
    rw [if_neg hvalue]
    split
    · next text hlast =>
      obtain ⟨front, rfl⟩ := List.getLast?_eq_some_iff.mp hlast
      exact .inr (.inl ⟨hvalue, rfl, front, text, rfl, by rw [List.dropLast_concat]⟩)
    · next hother =>
      refine .inr (.inr ⟨hvalue, ?_, rfl⟩)
      rintro ⟨text, last⟩ hlast ⟨rfl, hreading⟩
      exact hother text hreading hlast

@[simp] lemma carried_concat (tokens others : List FuriganaToken) :
    carried (tokens ++ others) = carried tokens ++ carried others := List.flatMap_append

@[simp] lemma carried_append (tokens : List FuriganaToken) (value : Text) (reading : Option Text) :
    carried (append tokens value reading) = carried tokens ++ value.map (·, reading) := by
  obtain ⟨rfl, h⟩ | ⟨-, rfl, front, text, rfl, h⟩ | ⟨-, -, h⟩ := append_cases tokens value reading
  · rw [h, List.map_nil, List.append_nil]
  · simp [h, carried]
  · simp [h, carried]

def NoTwoPlain (runs : List FuriganaToken) : Prop :=
  runs.IsChain (fun a b => ¬ (a.reading = none ∧ b.reading = none))

lemma append_noTwoPlain (h : NoTwoPlain tokens) : NoTwoPlain (append tokens value reading) := by
  obtain ⟨-, heq⟩ | ⟨-, -, front, text, rfl, heq⟩ | ⟨-, hlast, heq⟩ :=
    append_cases tokens value reading
  · rwa [heq]
  · obtain ⟨hfront, -, hjoin⟩ := List.isChain_append.mp h
    rw [heq]
    refine List.isChain_append.mpr ⟨hfront, List.isChain_singleton _, ?_⟩
    rintro a ha b ⟨⟩
    exact hjoin a ha ⟨text, none⟩ rfl
  · rw [heq]
    refine List.isChain_append.mpr ⟨h, List.isChain_singleton _, ?_⟩
    rintro a ha b ⟨⟩
    exact hlast a ha

lemma append_forall {P : FuriganaToken → Prop} (hplain : ∀ text, P ⟨text, none⟩)
    (h : ∀ run ∈ tokens, P run) (hnew : P ⟨value, reading⟩) :
    ∀ run ∈ append tokens value reading, P run := by
  obtain ⟨-, heq⟩ | ⟨-, -, front, text, rfl, heq⟩ | ⟨-, -, heq⟩ := append_cases tokens value reading
  · rwa [heq]
  · rw [heq]
    rw [List.forall_mem_append] at h ⊢
    exact ⟨h.1, List.forall_mem_singleton.mpr (hplain _)⟩
  · rw [heq]
    exact List.forall_mem_append.mpr ⟨h, List.forall_mem_singleton.mpr hnew⟩

end Append

def Sourced (analysed : List Token) (run : FuriganaToken) : Prop :=
  ∀ reading, run.reading = some reading → hasKanji run.text ∧ reading ≠ [] ∧
    ∃ token ∈ analysed, ∃ raw lead trail, token.reading = some raw ∧
      trimOkurigana token.surface (katakanaToHiragana raw) = (lead, run.text, reading, trail)

section Token

variable {tokens : List FuriganaToken} {token : Token} {analysed : List Token}

lemma hiraganaReading_raw (h : hiraganaReading token ≠ []) :
    ∃ raw, token.reading = some raw ∧ hiraganaReading token = katakanaToHiragana raw := by
  unfold hiraganaReading at h ⊢
  cases hraw : token.reading with
  | none => simp [hraw] at h
  | some raw =>
    refine ⟨raw, rfl, ?_⟩
    rw [hraw] at h
    exact if_pos (by_contra fun hstar => h (if_neg hstar))

lemma annotateToken_cases (token : Token) :
    (∀ tokens, annotateToken tokens token = append tokens token.surface none) ∨
    ∃ lead core coreReading trail, token.surface = lead ++ core ++ trail ∧
      (∀ reading, coreReading = some reading → Sourced [token] ⟨core, some reading⟩) ∧
      ∀ tokens, annotateToken tokens token =
        append (append (append tokens lead none) core coreReading) trail none := by
  unfold annotateToken
  by_cases hkanji : !hasKanji token.surface
  · exact .inl (fun _ => if_pos hkanji)
  by_cases hreading : hiraganaReading token = [] ∨ hiraganaReading token = token.surface
  · exact .inl (fun _ => (if_neg hkanji).trans (if_pos hreading))
  obtain ⟨⟨lead, core, coreReading, trail⟩, htrim⟩ : ∃ parts, trimOkurigana token.surface
      (hiraganaReading token) = parts := ⟨_, rfl⟩
  obtain ⟨hsurface, -⟩ := trim_exact htrim
  simp only [if_neg hkanji, if_neg hreading, htrim]
  by_cases hcore : core ≠ [] ∧ coreReading ≠ [] ∧ hasKanji core
  · refine .inr ⟨lead, core, some coreReading, trail, hsurface, ?_, fun _ => by rw [if_pos hcore]⟩
    rintro reading ⟨⟩ _ ⟨⟩
    obtain ⟨raw, hraw, hhiragana⟩ := hiraganaReading_raw (fun h => hreading (.inl h))
    rw [hhiragana] at htrim
    exact ⟨hcore.2.2, hcore.2.1, token, List.mem_singleton_self _, raw, lead, trail, hraw, htrim⟩
  · exact .inr ⟨lead, core, none, trail, hsurface, fun _ h => (by cases h),
      fun _ => by rw [if_neg hcore]⟩

lemma carried_annotateToken (tokens : List FuriganaToken) (token : Token) :
    carried (annotateToken tokens token) = carried tokens ++ own token := by
  have hnone : carried [] = [] := rfl
  obtain h | ⟨lead, core, coreReading, trail, -, -, h⟩ := annotateToken_cases token
  · simp [own, h, hnone]
  · simp [own, h, hnone]

lemma own_text (token : Token) : (own token).map Prod.fst = token.surface := by
  have hnone : carried [] = [] := rfl
  obtain h | ⟨lead, core, coreReading, trail, hsurface, -, h⟩ := annotateToken_cases token
  · simp [own, h, hnone, Function.comp_def]
  · simp [own, h, hnone, hsurface, Function.comp_def]

lemma annotateToken_noTwoPlain (h : NoTwoPlain tokens) : NoTwoPlain (annotateToken tokens token) := by
  obtain heq | ⟨lead, core, coreReading, trail, -, -, heq⟩ := annotateToken_cases token
  · rw [heq]
    exact append_noTwoPlain h
  · rw [heq]
    exact append_noTwoPlain (append_noTwoPlain (append_noTwoPlain h))

lemma sourced_plain (analysed : List Token) (text : Text) : Sourced analysed ⟨text, none⟩ :=
  fun _ h => by cases h

lemma annotateToken_sourced (htoken : token ∈ analysed) (h : ∀ run ∈ tokens, Sourced analysed run) :
    ∀ run ∈ annotateToken tokens token, Sourced analysed run := by
  have hplain := sourced_plain analysed
  obtain heq | ⟨lead, core, coreReading, trail, -, hcore, heq⟩ := annotateToken_cases token
  · rw [heq]
    exact append_forall hplain h (hplain _)
  · rw [heq]
    refine append_forall hplain (append_forall hplain (append_forall hplain h (hplain _)) ?_) (hplain _)
    rintro reading rfl
    obtain ⟨hkanji, hne, source, hsource, hraw⟩ := hcore reading rfl reading rfl
    rw [List.mem_singleton.mp hsource] at hraw
    exact ⟨hkanji, hne, token, htoken, hraw⟩

end Token

section Scan

variable {tokens : List FuriganaToken} {analysed run after : List Token} {counter : Token}

lemma scan_inv {P : List FuriganaToken → Prop}
    (happend : ∀ tokens value, P tokens → P (append tokens value none))
    (htoken : ∀ tokens, ∀ token ∈ analysed, P tokens → P (annotateToken tokens token))
    (h : P tokens) : P (scan tokens analysed) := by
  fun_induction scan tokens analysed with
  | case1 tokens => exact h
  | case2 tokens token rest run after hrun ih =>
    obtain ⟨numerals, counter, -, hsplit, -⟩ := countedRun_some hrun
    refine ih (fun tokens t ht => htoken tokens t ?_) (happend _ _ h)
    rw [hsplit]
    exact List.mem_append_right _ (List.mem_cons_of_mem _ ht)
  | case3 tokens token rest hrun ih =>
    exact ih (fun tokens t ht => htoken tokens t (List.mem_cons_of_mem _ ht))
      (htoken _ _ List.mem_cons_self h)

lemma numeral_not_counter {token : Token} (h : isNumeral token) : ¬ isCounter token := by
  intro hcounter
  simp only [isNumeral, isCounter, decide_eq_true_eq] at h hcounter
  rw [h.2] at hcounter
  exact absurd hcounter.2.1 (by decide)

lemma dropWhile_run (hrun : ∀ t ∈ run, isNumeral t) (hcounter : isCounter counter) :
    (run ++ counter :: after).dropWhile isNumeral = counter :: after := by
  rw [List.dropWhile_append_of_pos hrun]
  exact List.dropWhile_cons_of_neg (fun h => numeral_not_counter h hcounter)

lemma spans_run (hne : run ≠ []) (hrun : ∀ t ∈ run, isNumeral t) (hcounter : isCounter counter)
    (previous : Option Token) : spans previous (run ++ counter :: after) =
      plain (surfaces (run ++ [counter])) ++ spans (some counter) after := by
  induction run generalizing previous with
  | nil => exact absurd rfl hne
  | cons t run ih =>
    rw [List.forall_mem_cons] at hrun
    have hhead : counted previous t (run ++ counter :: after) := by
      rw [counted, dropWhile_run hrun.2 hcounter]
      simp [hrun.1, hcounter]
    rw [List.cons_append, spans, span, if_pos hhead]
    cases run with
    | nil =>
      have hlast : counted (some t) counter after := by simp [counted, hcounter, hrun.1]
      simp [spans, span, if_pos hlast, plain, surfaces]
    | cons t' run =>
      rw [ih (List.cons_ne_nil _ _) hrun.2]
      simp [plain, surfaces]

lemma countedRun_none (h : countedRun analysed = none) {token : Token} {rest : List Token}
    (hcons : analysed = token :: rest) :
    ¬ (isNumeral token ∧ (rest.dropWhile isNumeral).head?.any isCounter) := by
  rintro ⟨hnumeral, hcounter⟩
  rw [hcons, countedRun, List.takeWhile_cons_of_pos hnumeral, List.dropWhile_cons_of_pos hnumeral] at h
  cases hrest : rest.dropWhile isNumeral with
  | nil => simp [hrest] at hcounter
  | cons counter after =>
    rw [hrest] at h hcounter
    simp only [List.head?_cons, Option.any_some] at hcounter
    simp [hcounter] at h

/-- The loop carries what each token is to carry, unless it starts inside a counted run. -/
theorem scan_spans (tokens : List FuriganaToken) (analysed : List Token) (previous : Option Token)
    (h : ¬ (previous.any isNumeral ∧ (analysed.dropWhile isNumeral).head?.any isCounter)) :
    carried (scan tokens analysed) = carried tokens ++ spans previous analysed := by
  fun_induction scan tokens analysed generalizing previous with
  | case1 tokens => rw [spans, List.append_nil]
  | case2 tokens token rest run after hrun ih =>
    obtain ⟨numerals, counter, rfl, hsplit, hne, hnumerals, hcounter⟩ := countedRun_some hrun
    have hstart : ¬ ((some counter).any isNumeral ∧ (after.dropWhile isNumeral).head?.any isCounter) :=
      fun h => numeral_not_counter h.1 hcounter
    rw [ih (some counter) hstart, hsplit, spans_run hne hnumerals hcounter, carried_append,
      List.append_assoc]
    rfl
  | case3 tokens token rest hrun ih =>
    have hnone := countedRun_none hrun rfl
    have hcounted : ¬ counted previous token rest := by
      simp only [counted, Bool.or_eq_true, Bool.and_eq_true]
      rintro (hnumeral | ⟨hcounter, hprevious⟩)
      · exact hnone hnumeral
      · refine h ⟨hprevious, ?_⟩
        rw [List.dropWhile_cons_of_neg (fun h => numeral_not_counter h hcounter)]
        simpa using hcounter
    rw [ih (some token) (by simpa using hnone), spans, span, if_neg hcounted, carried_annotateToken,
      List.append_assoc]

lemma plain_text (text : Text) : (plain text).map Prod.fst = text := by
  simp [plain, Function.comp_def]

lemma span_text (previous : Option Token) (token : Token) (rest : List Token) :
    (span previous token rest).map Prod.fst = token.surface := by
  rw [span]
  split
  · exact plain_text _
  · exact own_text token

lemma spans_text (previous : Option Token) (analysed : List Token) :
    (spans previous analysed).map Prod.fst = surfaces analysed := by
  induction analysed generalizing previous with
  | nil => rfl
  | cons token rest ih =>
    rw [spans, List.map_append, span_text, ih]
    rfl

lemma spans_around (hne : run ≠ []) (hrun : ∀ t ∈ run, isNumeral t) (hcounter : isCounter counter)
    (before : List Token) (previous : Option Token) :
    ∃ front back, spans previous (before ++ run ++ counter :: after) =
      front ++ plain (surfaces (run ++ [counter])) ++ back ∧ front.map Prod.fst = surfaces before := by
  induction before generalizing previous with
  | nil => exact ⟨[], _, spans_run hne hrun hcounter previous, rfl⟩
  | cons token before ih =>
    obtain ⟨front, back, hspans, htext⟩ := ih (some token)
    refine ⟨span previous token (before ++ run ++ counter :: after) ++ front, back, ?_, ?_⟩
    · rw [List.cons_append, List.cons_append, spans, hspans]
      simp only [List.append_assoc]
    · rw [List.map_append, span_text, htext]
      rfl

end Scan

section Annotate

variable {tokenize : Text → List Token} {text : Text}

lemma carried_text (runs : List FuriganaToken) :
    (carried runs).map Prod.fst = runs.flatMap (·.text) := by
  simp [carried, List.map_flatMap, Function.comp_def]

lemma annotate_cases (tokenize : Text → List Token) (text : Text) :
    (text = [] ∧ annotate tokenize text = []) ∨ annotate tokenize text = [⟨text, none⟩] ∨
      annotate tokenize text = scan [] (tokenize text) := by
  unfold annotate
  by_cases hempty : text = []
  · exact .inl ⟨hempty, if_pos hempty⟩
  by_cases hkanji : !hasKanji text
  · exact .inr (.inl ((if_neg hempty).trans (if_pos hkanji)))
  · exact .inr (.inr ((if_neg hempty).trans (if_neg hkanji)))

lemma carried_annotate (tokenize : Text → List Token) (text : Text) :
    carried (annotate tokenize text) = plain text ∨
      carried (annotate tokenize text) = spans none (tokenize text) := by
  obtain ⟨rfl, h⟩ | h | h := annotate_cases tokenize text
  · exact .inl (by rw [h]; rfl)
  · exact .inl (by rw [h]; exact List.flatMap_singleton _ _)
  · exact .inr (by rw [h]; exact scan_spans [] (tokenize text) none (by simp))

lemma annotate_inv {P : List FuriganaToken → Prop} (hnil : P []) (hplain : P [⟨text, none⟩])
    (happend : ∀ tokens value, P tokens → P (append tokens value none))
    (htoken : ∀ tokens, ∀ token ∈ tokenize text, P tokens → P (annotateToken tokens token)) :
    P (annotate tokenize text) := by
  obtain ⟨-, h⟩ | h | h := annotate_cases tokenize text
  · rwa [h]
  · rwa [h]
  · rw [h]
    exact scan_inv happend htoken hnil

lemma annotate_noTwoPlain : NoTwoPlain (annotate tokenize text) :=
  annotate_inv .nil (.singleton _) (fun _ _ => append_noTwoPlain)
    (fun _ _ _ => annotateToken_noTwoPlain)

lemma annotate_sourced : ∀ run ∈ annotate tokenize text, Sourced (tokenize text) run := by
  have hplain := sourced_plain (tokenize text)
  refine annotate_inv (P := fun runs => ∀ run ∈ runs, Sourced (tokenize text) run) ?_ ?_ ?_ ?_
  · exact fun _ h => absurd h List.not_mem_nil
  · exact List.forall_mem_singleton.mpr (hplain text)
  · exact fun _ _ h => append_forall hplain h (hplain _)
  · exact fun _ _ => annotateToken_sourced

lemma annotate_run {before run after : List Token} {counter : Token}
    (htokens : surfaces (tokenize text) = text)
    (hsplit : tokenize text = before ++ run ++ counter :: after) (hne : run ≠ [])
    (hrun : ∀ t ∈ run, isNumeral t) (hcounter : isCounter counter) :
    ∃ front back, carried (annotate tokenize text) =
      front ++ plain (surfaces (run ++ [counter])) ++ back ∧ front.map Prod.fst = surfaces before := by
  obtain h | h := carried_annotate tokenize text
  · refine ⟨plain (surfaces before), plain (surfaces after), ?_, plain_text _⟩
    rw [h, ← htokens, hsplit]
    simp [plain, surfaces]
  · rw [h, hsplit]
    exact spans_around hne hrun hcounter before none

end Annotate

theorem annotate_keeps_text (tokenize : Text → List Token) (text : Text)
    (htokens : surfaces (tokenize text) = text) :
    (annotate tokenize text).flatMap (·.text) = text ∧
    (∀ run ∈ annotate tokenize text, ∀ reading, run.reading = some reading →
      hasKanji run.text ∧ reading ≠ []) ∧
    (annotate tokenize text).IsChain (fun a b => ¬ (a.reading = none ∧ b.reading = none)) ∧
    (∀ before run counter after, tokenize text = before ++ run ++ counter :: after → run ≠ [] →
      (∀ t ∈ run, isNumeral t) → isCounter counter →
      ∃ front back, carried (annotate tokenize text) =
        front ++ plain (surfaces (run ++ [counter])) ++ back ∧ front.map Prod.fst = surfaces before) ∧
    (∀ run ∈ annotate tokenize text, ∀ reading, run.reading = some reading →
      ∃ token ∈ tokenize text, ∃ raw lead trail, token.reading = some raw ∧
        trimOkurigana token.surface (katakanaToHiragana raw) = (lead, run.text, reading, trail)) ∧
    ∀ surface reading lead core coreReading trail,
      trimOkurigana surface reading = (lead, core, coreReading, trail) →
      surface = lead ++ core ++ trail ∧ reading = lead ++ coreReading ++ trail ∧
        ¬ hasKanji lead ∧ ¬ hasKanji trail := by
  refine ⟨?_, ?_, annotate_noTwoPlain, ?_, ?_, ?_⟩
  · rw [← carried_text]
    obtain h | h := carried_annotate tokenize text
    · rw [h, plain_text]
    · rw [h, spans_text, htokens]
  · intro run hrun reading hreading
    obtain ⟨hkanji, hne, -⟩ := annotate_sourced run hrun reading hreading
    exact ⟨hkanji, hne⟩
  · intro before run counter after hsplit hne hrun hcounter
    exact annotate_run htokens hsplit hne hrun hcounter
  · intro run hrun reading hreading
    obtain ⟨-, -, hsource⟩ := annotate_sourced run hrun reading hreading
    exact hsource
  · intro surface reading lead core coreReading trail
    exact trim_exact

section Samples

def two : Token := ⟨"二".toList, some "ニ".toList, some "名詞,数,*,*".toList⟩

def people : Token := ⟨"人".toList, some "ニン".toList, some "名詞,接尾,助数詞,*".toList⟩

def together : Token := ⟨"で".toList, some "デ".toList, some "助詞,格助詞,一般,*".toList⟩

def going : Token := ⟨"行く".toList, some "イク".toList, some "動詞,自立,*,*".toList⟩

def sentence : Text := "二人で行く".toList

def sentenceTokens (_ : Text) : List Token := [two, people, together, going]

theorem annotate_keeps_text_sentence :
    (annotate sentenceTokens sentence).flatMap (·.text) = sentence ∧
      ∃ front back, carried (annotate sentenceTokens sentence) =
        front ++ plain "二人".toList ++ back ∧ front.map Prod.fst = [] := by
  obtain ⟨htext, -, -, hcounted, -⟩ := annotate_keeps_text sentenceTokens sentence (by decide)
  exact ⟨htext, hcounted [] [two] people [together, going] rfl (List.cons_ne_nil _ _) (by decide)
    (by decide)⟩

example : annotate sentenceTokens sentence = [⟨"二人で".toList, none⟩,
    ⟨"行".toList, some "い".toList⟩, ⟨"く".toList, none⟩] := by decide +kernel

end Samples

end AudioServer.Core.Furigana
