import AudioServer.Foundations.Outcomes
import AudioServer.Foundations.Search
import AudioServer.Foundations.Strings

/-! The reply that a response of the model carries: which objects are candidates for it, and which
of them is taken. -/

namespace AudioServer.Processing.Replies

open AudioServer.Foundations.Search AudioServer.Foundations.Strings

variable {μ δ ε : Type}

/-- What `parsed` or `content` of a response holds. -/
inductive ReplyValue (μ : Type)
  | mapping (value : μ)
  | model (dump : μ)
  | text (reply : Text)
  | absent

structure Response (μ : Type) where
  parsed : ReplyValue μ
  content : ReplyValue μ

/-- `JSONDecoder.raw_decode`: nothing where it raises `ValueError`, else the value if it is a
mapping, and where it ends. -/
abbrev Decoder (μ : Type) := Text → ℕ → Option (Option μ × ℕ)

def reasoningMarks : List (Text × Text) :=
  [("<think>".toList, "</think>".toList), ("<thinking>".toList, "</thinking>".toList),
    ("<reasoning>".toList, "</reasoning>".toList)]

/-- No closing mark reads as one before the opener. -/
def insideMark (text opener closer : Text) (start : ℕ) : Bool :=
  match rfind opener text start with
  | none => false
  | some opened =>
    match rfind closer text text.length with
    | none => true
    | some closed => closed < opened || start ≤ closed

def insideReasoning (text : Text) (start : ℕ) : Bool :=
  reasoningMarks.any (fun mark => insideMark text mark.1 mark.2 start)

/-- The loop of `_json_objects_in`, from the position of its next search on. -/
def objectsFrom (decode : Decoder μ) (text : Text) (start : ℕ) : List (Span μ) :=
  match _h : find ['{'] text start with
  | none => []
  | some index =>
    match decode text index with
    | none => objectsFrom decode text (index + 1)
    | some (value, stop) =>
      let rest := objectsFrom decode text (max stop (index + 1))
      match value with
      | some value => if insideReasoning text index then rest else ⟨index, stop, value⟩ :: rest
      | none => rest
termination_by text.length + 1 - start
decreasing_by
  all_goals
    obtain ⟨hstart, ⟨hlen, _⟩, _⟩ := find_some _h
    omega

def jsonObjectsIn (decode : Decoder μ) (text : Text) : List μ :=
  ((objectsFrom decode text 0).map (·.value)).reverse

def ReplyValue.objects (decode : Decoder μ) : ReplyValue μ → List μ
  | .mapping value => [value]
  | .model dump => [dump]
  | .text reply => jsonObjectsIn decode reply
  | .absent => []

def candidates (decode : Decoder μ) (response : Response μ) : List μ :=
  response.parsed.objects decode ++ response.content.objects decode

inductive PayloadError (ε : Type)
  | validationError (error : ε)
  | valueError (message : String)

def firstPayload (validate : μ → Except ε δ) : Option ε → List μ → Except (PayloadError ε) δ
  | none, [] => .error (.valueError "LM Studio structured response is missing parsed data")
  | some error, [] => .error (.validationError error)
  | firstError, candidate :: rest =>
    match validate candidate with
    | .ok payload => .ok payload
    | .error error => firstPayload validate (firstError.or (some error)) rest

def structuredPayload (decode : Decoder μ) (validate : μ → Except ε δ) (response : Response μ) :
    Except (PayloadError ε) δ :=
  firstPayload validate none (candidates decode response)

/-- Some opener precedes `start`, and of the kind of the last one before it the text's last closing
mark, if it has one, lies before that opener or not before `start`. -/
def InReasoning (text : Text) (start : ℕ) : Prop :=
  ∃ mark ∈ reasoningMarks, ∃ opened, LastAt mark.1 text start opened ∧
    ∀ closed, LastAt mark.2 text text.length closed → closed < opened ∨ start ≤ closed

structure TakenFrom (decode : Decoder μ) (text : Text) (taken : List (Span μ)) : Prop where
  disjoint : taken.Pairwise (fun a b => a.start < b.start ∧ a.stop ≤ b.start)
  decoded : ∀ s ∈ taken, OccursAt ['{'] text s.start ∧
    decode text s.start = some (some s.value, s.stop)
  outside : ∀ s ∈ taken, ¬ InReasoning text s.start
  complete : ∀ start stop value, OccursAt ['{'] text start →
    decode text start = some (some value, stop) → ¬ InReasoning text start →
    ⟨start, stop, value⟩ ∈ taken ∨ ∃ earlier later value', OccursAt ['{'] text earlier ∧
      decode text earlier = some (value', later) ∧ earlier < start ∧ start < later

abbrev Accepted (validate : μ → Except ε δ) (candidate : μ) : Prop :=
  ∃ payload, validate candidate = .ok payload

lemma insideMark_iff {text opener closer : Text} {start : ℕ} :
    insideMark text opener closer start ↔ ∃ opened, LastAt opener text start opened ∧
      ∀ closed, LastAt closer text text.length closed → closed < opened ∨ start ≤ closed := by
  rw [insideMark]
  cases hopened : rfind opener text start with
  | none => simp [rfind_none.mp hopened]
  | some opened =>
    have hopener : ∀ i, LastAt opener text start i ↔ i = opened := by
      intro i
      rw [← rfind_some, hopened, Option.some_inj, eq_comm]
    simp only [hopener, exists_eq_left]
    cases hclosed : rfind closer text text.length with
    | none => simp [rfind_none.mp hclosed]
    | some closed =>
      have hcloser : ∀ i, LastAt closer text text.length i ↔ i = closed := by
        intro i
        rw [← rfind_some, hclosed, Option.some_inj, eq_comm]
      simp [hcloser]

lemma insideReasoning_iff {text : Text} {start : ℕ} :
    insideReasoning text start ↔ InReasoning text start := by
  rw [insideReasoning, List.any_eq_true]
  exact exists_congr (fun mark => and_congr_right (fun _ => insideMark_iff))

-- The first thought is ended by its mark, the second by none.
example : insideReasoning "<think>.</think>{.}<think>{.}".toList 16 = false ∧
    insideReasoning "<think>.</think>{.}<think>{.}".toList 26 = true := by decide +kernel

def takenSpan (text : Text) (s : Span (Option μ)) : Option (Span μ) :=
  if insideReasoning text s.start then none else s.value.map (⟨s.start, s.stop, ·⟩)

variable {decode : Decoder μ} {text : Text}

lemma objectsFrom_spans (start : ℕ) :
    objectsFrom decode text start =
      (spansFrom ['{'] text (decode text) start).filterMap (takenSpan text) := by
  fun_induction spansFrom ['{'] text (decode text) start with
  | case1 start hfind =>
    rw [objectsFrom]
    split
    · rfl
    · rename_i hsome
      rw [hfind] at hsome
      cases hsome
  | case2 start index hfind hread ih =>
    rw [← ih, objectsFrom]
    split
    · rename_i hnone
      rw [hfind] at hnone
      cases hnone
    · rename_i hsome
      rw [hfind] at hsome
      cases hsome
      rw [hread]
  | case3 start index hfind value stop hread ih =>
    rw [List.filterMap_cons, ← ih, objectsFrom]
    split
    · rename_i hnone
      rw [hfind] at hnone
      cases hnone
    · rename_i hsome
      rw [hfind] at hsome
      cases hsome
      rw [hread, takenSpan]
      cases value <;> cases insideReasoning text index <;> rfl

lemma takenSpan_some {s : Span (Option μ)} {t : Span μ} :
    takenSpan text s = some t ↔
      ¬ InReasoning text t.start ∧ s = ⟨t.start, t.stop, some t.value⟩ := by
  obtain ⟨start, stop, value⟩ := s
  rw [takenSpan, ← insideReasoning_iff, Option.ite_none_left_eq_some, Option.map_eq_some_iff]
  constructor
  · rintro ⟨houtside, value, rfl, rfl⟩
    exact ⟨houtside, rfl⟩
  · rintro ⟨houtside, h⟩
    cases h
    exact ⟨houtside, _, rfl, rfl⟩

lemma objectsFrom_taken : TakenFrom decode text (objectsFrom decode text 0) := by
  rw [objectsFrom_spans]
  constructor
  · apply spansFrom_disjoint.filterMap
    intro a b ha s hs t ht
    obtain ⟨_, rfl⟩ := takenSpan_some.mp hs
    obtain ⟨_, rfl⟩ := takenSpan_some.mp ht
    exact ha
  · intro s hs
    obtain ⟨t, ht, hs⟩ := List.mem_filterMap.mp hs
    obtain ⟨_, rfl⟩ := takenSpan_some.mp hs
    exact (spansFrom_read ht).2
  · intro s hs
    obtain ⟨t, ht, hs⟩ := List.mem_filterMap.mp hs
    exact (takenSpan_some.mp hs).1
  · intro start stop value hoccurs hdecode houtside
    rcases spansFrom_complete (Nat.zero_le start) hoccurs hdecode with h | ⟨s, hs, h⟩
    · exact .inl (List.mem_filterMap.mpr ⟨_, h, takenSpan_some.mpr ⟨houtside, rfl⟩⟩)
    · obtain ⟨_, hbrace, hread⟩ := spansFrom_read hs
      exact .inr ⟨_, _, _, hbrace, hread, h⟩

variable {validate : μ → Except ε δ}

lemma firstPayload_toOption (firstError : Option ε) (found : List μ) :
    (firstPayload validate firstError found).toOption =
      found.findSome? (fun candidate => (validate candidate).toOption) := by
  induction found generalizing firstError with
  | nil => cases firstError <;> rfl
  | cons candidate rest ih =>
    have hcons : firstPayload validate firstError (candidate :: rest) =
        match validate candidate with
        | .ok payload => .ok payload
        | .error error => firstPayload validate (firstError.or (some error)) rest := by
      cases firstError <;> rfl
    rw [hcons, List.findSome?_cons]
    cases validate candidate with
    | ok payload => rfl
    | error error => exact ih _

lemma toOption_some {ε : Type} {x : Except ε δ} {payload : δ} :
    x.toOption = some payload ↔ x = .ok payload := by
  cases x <;> simp [Except.toOption]

lemma structuredPayload_ok {response : Response μ} {payload : δ} :
    structuredPayload decode validate response = .ok payload ↔
      ∃ before candidate after, candidates decode response = before ++ candidate :: after ∧
        validate candidate = .ok payload ∧ ∀ other ∈ before, ¬ Accepted validate other := by
  have hnone : ∀ other, (validate other).toOption = none ↔ ¬ Accepted validate other := by
    intro other
    cases h : validate other <;> simp [Accepted, h, Except.toOption]
  rw [structuredPayload, ← toOption_some, firstPayload_toOption, List.findSome?_eq_some_iff]
  simp only [toOption_some, hnone]

theorem first_accepted_reply (decode : Decoder μ) (validate : μ → Except ε δ)
    (response : Response μ) :
    ((∃ payload, structuredPayload decode validate response = .ok payload) ↔
      ∃ candidate ∈ candidates decode response, Accepted validate candidate) ∧
    (∀ payload, structuredPayload decode validate response = .ok payload ↔
      ∃ before candidate after, candidates decode response = before ++ candidate :: after ∧
        validate candidate = .ok payload ∧ ∀ other ∈ before, ¬ Accepted validate other) ∧
    ∀ text, ∃ taken, jsonObjectsIn decode text = (taken.map (·.value)).reverse ∧
      TakenFrom decode text taken := by
  refine ⟨?_, fun payload => structuredPayload_ok,
    fun text => ⟨objectsFrom decode text 0, rfl, objectsFrom_taken⟩⟩
  simp only [Accepted, ← toOption_some, ← Option.isSome_iff_exists]
  rw [structuredPayload, firstPayload_toOption, List.findSome?_isSome_iff]

end AudioServer.Processing.Replies
