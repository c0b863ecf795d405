import AudioServer.Foundations.Numerals
import AudioServer.Foundations.Ranks
import AudioServer.Processing.ModelRuntime
import AudioServer.Processing.SpeakerChoice

/-! The tracks of a pyannote annotation as speaker turns. The names a model gives its speakers end
here: what is left of them is their order. -/

namespace AudioServer.Processing.Diarization

open AudioServer.Foundations.Numerals AudioServer.Foundations.Outcomes AudioServer.Foundations.Ranks
open AudioServer.Foundations.Sorting AudioServer.Foundations.Strings
open AudioServer.Api.Schemas AudioServer.Db.Models
open AudioServer.Processing.Contracts AudioServer.Processing.Merge
open AudioServer.Processing.ModelRuntime AudioServer.Processing.SpeakerChoice
open AudioServer.Processing.Utterances

/-- A track as it is read: `unreadable` stands for an `AttributeError`, a `TypeError` or a
`ValueError`, `raises` for any other exception. -/
inductive Track
  | turn (start end_ : PyFloat) (label : Text)
  | unreadable
  | raises (description : Text)

structure DiarizationOutput where
  speakerDiarization : List Track
  exclusiveSpeakerDiarization : Option (List Track)

structure RawTurn where
  start : PyFloat
  end_ : PyFloat
  label : Text
deriving DecidableEq

/-- `lower` is `str.lower`. -/
structure PyannoteDiarizationProvider where
  lower : Text → Text

def invalidResult : Exn :=
  .processing "diarization_invalid_result"
    "The diarization provider returned invalid timestamps." false

def speakerPrefix : Text := "SPEAKER_".toList

def speakerName (index : ℕ) : Text := speakerPrefix ++ padded 2 index

section Provider

variable (provider : PyannoteDiarizationProvider)

def runtimeFailure (description : Text) : Exn :=
  runtimeFailureOf provider.lower "The diarization device ran out of memory and may be retried."
    "diarization_failed" "Speaker diarization failed and may be retried." description

def rawTurn : Track → Except Exn RawTurn
  | .turn start end_ label =>
    if start.lt (.finite 0) || end_.le start || strip label = [] then .error invalidResult
    else .ok ⟨start, end_, label⟩
  | .unreadable => .error invalidResult
  | .raises description => .error (runtimeFailure provider description)

def readAnnotation (tracks : List Track) : Except Exn (List RawTurn) :=
  tracks.mapM (rawTurn provider)

/-- `SpeakerTurn`. A time that is not finite passes the checks of `_raw_turn`, and fails here. -/
def speakerTurn (start end_ : PyFloat) (speakerLabel : Text) : Except Exn SpeakerTurn :=
  match start, end_ with
  | .finite start, .finite end_ =>
    if h : 0 ≤ start ∧ start < end_ ∧ ¬ Blank speakerLabel then
      .ok ⟨start, end_, speakerLabel, h.1, h.2.1, h.2.2⟩
    else .error (runtimeFailure provider "end timestamp must be after start timestamp".toList)
  | _, _ => .error (runtimeFailure provider "timestamps must be finite".toList)

def convertTurn (labelMap : Text → Text) (turn : RawTurn) : Except Exn SpeakerTurn :=
  speakerTurn provider turn.start turn.end_ (labelMap turn.label)

def convertTurns (turns : List RawTurn) (labelMap : Text → Text) : Except Exn (List SpeakerTurn) := do
  let converted ← turns.mapM (convertTurn provider labelMap)
  .ok (converted.insertionSort TurnOrder)

def labelMap (regularRaw exclusiveRaw : List RawTurn) (label : Text) : Text :=
  speakerName (rank ((regularRaw ++ exclusiveRaw).map (·.label)) label)

def named (regularRaw exclusiveRaw : List RawTurn) : Except Exn DiarizationResult := do
  let exclusiveTurns ← convertTurns provider exclusiveRaw (labelMap regularRaw exclusiveRaw)
  let regularTurns ← convertTurns provider regularRaw (labelMap regularRaw exclusiveRaw)
  .ok ⟨exclusiveTurns, regularTurns⟩

def readExclusive (regularRaw : List RawTurn) : Option (List Track) → Except Exn (List RawTurn)
  | some tracks => readAnnotation provider tracks
  | none => .ok regularRaw

/-- `diarize`, once the pipeline has returned or raised. -/
def diarize (output : Except Text DiarizationOutput) : Except Exn DiarizationResult := do
  let output ← output.mapError (runtimeFailure provider)
  let regularRaw ← readAnnotation provider output.speakerDiarization
  let exclusiveRaw ← readExclusive provider regularRaw output.exclusiveSpeakerDiarization
  named provider regularRaw exclusiveRaw

end Provider

section Names

lemma speakerName_injective : Function.Injective speakerName := by
  intro m n h
  exact padded_injective 2 (List.append_cancel_left h)

lemma speakerName_known (n : ℕ) : speakerName n ≠ unknownSpeaker := by
  have hunknown : unknownSpeaker = speakerPrefix ++ "UNKNOWN".toList := rfl
  intro h
  rw [hunknown, speakerName, List.append_cancel_left_eq] at h
  have hletter : 'U' ∈ padded 2 n := by
    rw [h]
    exact List.mem_cons_self
  cases padded_digit hletter

end Names

section Renaming

variable {provider : PyannoteDiarizationProvider} {ρ : Text → Text}

def Track.label? : Track → Option Text
  | .turn _ _ label => some label
  | _ => none

def Track.rename (ρ : Text → Text) : Track → Track
  | .turn start end_ label => .turn start end_ (ρ label)
  | track => track

def RawTurn.rename (ρ : Text → Text) (turn : RawTurn) : RawTurn := { turn with label := ρ turn.label }

def DiarizationOutput.rename (ρ : Text → Text) (output : DiarizationOutput) : DiarizationOutput :=
  ⟨output.speakerDiarization.map (Track.rename ρ),
    output.exclusiveSpeakerDiarization.map (List.map (Track.rename ρ))⟩

def DiarizationOutput.tracks (output : DiarizationOutput) : List Track :=
  output.speakerDiarization ++ output.exclusiveSpeakerDiarization.getD []

def DiarizationOutput.names (output : DiarizationOutput) : List Text :=
  output.tracks.filterMap Track.label?

structure KeepsOrder (ρ : Text → Text) (names : List Text) : Prop where
  order : StrictMonoOn ρ {name | name ∈ names}
  blank : ∀ name ∈ names, Blank (ρ name) ↔ Blank name

lemma mapM_through {α β γ δ ε : Type} {f : α → Except ε β} {g : γ → Except ε δ} {r : α → γ}
    {q : β → δ} {xs : List α} (h : ∀ x ∈ xs, g (r x) = (f x).map q) :
    (xs.map r).mapM g = (xs.mapM f).map (List.map q) := by
  induction xs with
  | nil => rfl
  | cons x xs ih =>
    rw [List.map_cons, List.mapM_cons, List.mapM_cons, h x List.mem_cons_self,
      ih (fun y hy => h y (List.mem_cons_of_mem x hy))]
    cases f x with
    | error e => rfl
    | ok y => cases xs.mapM f <;> rfl

lemma rawTurn_rename {track : Track} (h : ∀ name ∈ track.label?, Blank (ρ name) ↔ Blank name) :
    rawTurn provider (track.rename ρ) = (rawTurn provider track).map (RawTurn.rename ρ) := by
  cases track with
  | unreadable => rfl
  | raises description => rfl
  | turn start end_ label =>
    have hblank : strip (ρ label) = [] ↔ strip label = [] := h label rfl
    simp only [Track.rename, rawTurn, hblank]
    split <;> rfl

lemma readAnnotation_rename {tracks : List Track} {names : List Text} (h : KeepsOrder ρ names)
    (hsub : ∀ name ∈ tracks.filterMap Track.label?, name ∈ names) :
    readAnnotation provider (tracks.map (Track.rename ρ)) =
      ( readAnnotation provider tracks).map (List.map (RawTurn.rename ρ)) := by
  apply mapM_through
  intro track htrack
  apply rawTurn_rename
  intro name hname
  exact h.blank name (hsub name (List.mem_filterMap.mpr ⟨track, htrack, hname⟩))

lemma rawTurn_label {track : Track} {turn : RawTurn} (h : rawTurn provider track = .ok turn) :
    track = .turn turn.start turn.end_ turn.label := by
  cases track with
  | turn start end_ label =>
    rw [rawTurn] at h
    split at h
    · cases h
    · cases h
      rfl
  | unreadable => cases h
  | raises description => cases h

lemma readAnnotation_names {tracks : List Track} {turns : List RawTurn}
    (h : readAnnotation provider tracks = .ok turns) :
    turns.map (·.label) = tracks.filterMap Track.label? := by
  have hpaired := mapM_paired h
  clear h
  induction hpaired with
  | nil => rfl
  | cons hturn _ ih =>
    rw [List.map_cons, ih, rawTurn_label hturn]
    rfl

lemma labelMap_rename {regularRaw exclusiveRaw : List RawTurn} {label : Text}
    (h : StrictMonoOn ρ {name | name ∈ (regularRaw ++ exclusiveRaw).map (·.label)})
    (hlabel : label ∈ (regularRaw ++ exclusiveRaw).map (·.label)) :
    labelMap (regularRaw.map (RawTurn.rename ρ)) (exclusiveRaw.map (RawTurn.rename ρ)) (ρ label) =
      labelMap regularRaw exclusiveRaw label := by
  have hmap : (regularRaw.map (RawTurn.rename ρ) ++ exclusiveRaw.map (RawTurn.rename ρ)).map (·.label) =
      ((regularRaw ++ exclusiveRaw).map (·.label)).map ρ := by
    rw [← List.map_append, List.map_map, List.map_map]
    rfl
  rw [labelMap, labelMap, hmap, rank_map h hlabel]

lemma convertTurns_rename {turns : List RawTurn} {name name' : Text → Text}
    (h : ∀ turn ∈ turns, name' (ρ turn.label) = name turn.label) :
    convertTurns provider (turns.map (RawTurn.rename ρ)) name' = convertTurns provider turns name := by
  have hturns : (turns.map (RawTurn.rename ρ)).mapM (convertTurn provider name') =
      (turns.mapM (convertTurn provider name)).map (List.map id) := by
    apply mapM_through
    intro turn hturn
    change speakerTurn provider turn.start turn.end_ (name' (ρ turn.label)) = _
    rw [convertTurn, ← h turn hturn]
    cases speakerTurn provider turn.start turn.end_ (name' (ρ turn.label)) <;> rfl
  rw [convertTurns, convertTurns, hturns, List.map_id_fun]
  cases turns.mapM (convertTurn provider name) <;> rfl

lemma named_rename {regularRaw exclusiveRaw : List RawTurn}
    (h : StrictMonoOn ρ {name | name ∈ (regularRaw ++ exclusiveRaw).map (·.label)}) :
    named provider (regularRaw.map (RawTurn.rename ρ)) (exclusiveRaw.map (RawTurn.rename ρ)) =
      named provider regularRaw exclusiveRaw := by
  have hlabel : ∀ turn ∈ regularRaw ++ exclusiveRaw,
      labelMap (regularRaw.map (RawTurn.rename ρ)) (exclusiveRaw.map (RawTurn.rename ρ)) (ρ turn.label) =
        labelMap regularRaw exclusiveRaw turn.label :=
    fun turn hturn => labelMap_rename h (List.mem_map_of_mem hturn)
  rw [named, named, convertTurns_rename (fun turn hturn => hlabel turn (List.mem_append_right _ hturn)),
    convertTurns_rename (fun turn hturn => hlabel turn (List.mem_append_left _ hturn))]

lemma readExclusive_names {tracks : Option (List Track)} {regularRaw exclusiveRaw : List RawTurn}
    (h : readExclusive provider regularRaw tracks = .ok exclusiveRaw) :
    ∀ name ∈ exclusiveRaw.map (·.label),
      name ∈ regularRaw.map (·.label) ∨ name ∈ (tracks.getD []).filterMap Track.label? := by
  cases tracks with
  | none =>
    cases h
    exact fun name hname => .inl hname
  | some tracks =>
    rw [ readAnnotation_names h]
    exact fun name hname => .inr hname

lemma diarize_ok {output : Except Text DiarizationOutput} {d : DiarizationResult}
    (h : diarize provider output = .ok d) : ∃ read regularRaw exclusiveRaw,
      output = .ok read ∧
      readAnnotation provider read.speakerDiarization = .ok regularRaw ∧
      readExclusive provider regularRaw read.exclusiveSpeakerDiarization = .ok exclusiveRaw ∧
      named provider regularRaw exclusiveRaw = .ok d := by
  cases output with
  | error description => cases h
  | ok read =>
    obtain ⟨_, houtput, h⟩ := bind_ok h
    cases houtput
    obtain ⟨regularRaw, hregular, h⟩ := bind_ok h
    obtain ⟨exclusiveRaw, hexclusive, h⟩ := bind_ok h
    exact ⟨read, regularRaw, exclusiveRaw, rfl, hregular, hexclusive, h⟩

lemma readExclusive_rename {tracks : Option (List Track)} {regularRaw : List RawTurn}
    {names : List Text} (h : KeepsOrder ρ names)
    (hsub : ∀ name ∈ (tracks.getD []).filterMap Track.label?, name ∈ names) :
    readExclusive provider (regularRaw.map (RawTurn.rename ρ)) (tracks.map (List.map (Track.rename ρ))) =
      (readExclusive provider regularRaw tracks).map (List.map (RawTurn.rename ρ)) := by
  cases tracks with
  | none => rfl
  | some tracks => exact readAnnotation_rename h hsub

lemma diarize_rename {output : DiarizationOutput} (h : KeepsOrder ρ output.names) :
    diarize provider (.ok (output.rename ρ)) = diarize provider (.ok output) := by
  have heq : ∀ o : DiarizationOutput, diarize provider (.ok o) =
      readAnnotation provider o.speakerDiarization >>= fun regularRaw =>
        readExclusive provider regularRaw o.exclusiveSpeakerDiarization >>= fun exclusiveRaw =>
          named provider regularRaw exclusiveRaw := fun _ => rfl
  have hsub : ∀ name, name ∈ output.speakerDiarization.filterMap Track.label? ∨
      name ∈ (output.exclusiveSpeakerDiarization.getD []).filterMap Track.label? →
        name ∈ output.names := by
    intro name hname
    rwa [DiarizationOutput.names, DiarizationOutput.tracks, List.filterMap_append, List.mem_append]
  rw [heq, heq, DiarizationOutput.rename,
    readAnnotation_rename h (fun name hname => hsub name (.inl hname))]
  cases hregular : readAnnotation provider output.speakerDiarization with
  | error e => rw [Except.map, error_bind, error_bind]
  | ok regularRaw =>
    have hexclusive : readExclusive provider (regularRaw.map (RawTurn.rename ρ)) _ = _ :=
      readExclusive_rename h (fun name hname => hsub name (.inr hname))
    rw [Except.map, ok_bind, ok_bind, hexclusive]
    cases hread : readExclusive provider regularRaw output.exclusiveSpeakerDiarization with
    | error e => rw [Except.map, error_bind, error_bind]
    | ok exclusiveRaw =>
      rw [Except.map, ok_bind, ok_bind]
      apply named_rename
      apply h.order.mono
      intro name hname
      apply hsub name
      rcases List.mem_append.mp (List.map_append ▸ hname) with hname | hname
      · exact .inl ( readAnnotation_names hregular ▸ hname)
      · rw [← readAnnotation_names hregular]
        exact readExclusive_names hread name hname

end Renaming

end AudioServer.Processing.Diarization
