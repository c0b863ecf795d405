import AudioServer.Db.Models

/-! The body of a transcript save, before and after it is validated. -/

namespace AudioServer.Api.Requests

open AudioServer.Foundations.Strings AudioServer.Api.Schemas AudioServer.Db.Models

structure SegmentPayload where
  id : SegmentId
  speakerLabel : Text
  startTime : Seconds
  endTime : Seconds
  text : Text

/-- The `Field` constraints of `TranscriptSegmentUpdate`; the pattern is `^[A-Za-z0-9_.-]+$`. -/
def SegmentPayload.WithinFields (p : SegmentPayload) : Prop :=
  (Sized 64 p.speakerLabel ∧ p.speakerLabel.all isSafe) ∧ 0 ≤ p.startTime ∧ 0 < p.endTime ∧
    Sized 100000 p.text

instance (p : SegmentPayload) : Decidable p.WithinFields := inferInstanceAs (Decidable (_ ∧ _))

/-- The constraints of each field, then `strip_nonempty_text`, then `validate_interval`. -/
def SegmentPayload.validate (p : SegmentPayload) : Except Exn TranscriptSegmentUpdate :=
  if h₁ : p.WithinFields then
    if h₂ : ¬ Blank p.speakerLabel ∧ ¬ Blank p.text then
      if h₃ : p.startTime < p.endTime then
        .ok ⟨p.id, strip p.speakerLabel, p.startTime, p.endTime, strip p.text, h₁.2.1, h₃,
          strip_strip _, (sized_strip h₁.1.1).mpr h₂.1, strip_strip _,
          (sized_strip h₁.2.2.2).mpr h₂.2⟩
      else .error (.valueError "end_time must be after start_time")
    else .error (.valueError "value cannot be blank")
  else .error (.other "ValidationError")

def updatePayload (u : TranscriptSegmentUpdate) : SegmentPayload :=
  ⟨u.id, u.speakerLabel, u.startTime, u.endTime, u.text⟩

lemma validate_ok {p : SegmentPayload} {u : TranscriptSegmentUpdate} (h : p.validate = .ok u) :
    p.WithinFields ∧ p.startTime < p.endTime ∧
      updatePayload u = ⟨p.id, strip p.speakerLabel, p.startTime, p.endTime, strip p.text⟩ := by
  unfold SegmentPayload.validate at h
  split at h
  · rename_i hfields
    split at h
    · split at h
      · rename_i hinterval
        cases h
        exact ⟨hfields, hinterval, rfl⟩
      · cases h
    · cases h
  · cases h

lemma validate_succeeds {p : SegmentPayload} (hfields : p.WithinFields)
    (hinterval : p.startTime < p.endTime) (hspeaker : ¬ Blank p.speakerLabel)
    (htext : ¬ Blank p.text) (hstripped : strip p.text = p.text) :
    ∃ u, p.validate = .ok u ∧ updatePayload u = p := by
  have hlabel : strip p.speakerLabel = p.speakerLabel :=
    strip_eq_self (fun c hc => isSafe_not_space (List.all_eq_true.mp hfields.1.2 c hc))
  rw [SegmentPayload.validate, dif_pos hfields, dif_pos ⟨hspeaker, htext⟩, dif_pos hinterval]
  refine ⟨_, rfl, ?_⟩
  have hsame : SegmentPayload.mk p.id (strip p.speakerLabel) p.startTime p.endTime (strip p.text) = p := by
    rw [hlabel, hstripped]
  exact hsame

end AudioServer.Api.Requests
