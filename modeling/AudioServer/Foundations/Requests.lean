import AudioServer.Foundations.Outcomes

/-! A service that is asked one request after the other, and may answer from all it was asked. -/

namespace AudioServer.Foundations.Requests

open AudioServer.Foundations.Outcomes

universe u v

variable {π δ : Type u} {ε : Type v}

abbrev Service (π δ : Type u) (ε : Type v) := List π → π → Except ε δ

def askAll (ask : Service π δ ε) : List π → List π → Except ε (List δ × List π)
  | asked, [] => .ok ([], asked)
  | asked, p :: ps => do
    let answer ← ask asked p
    let (answers, asked') ← askAll ask (asked ++ [p]) ps
    .ok (answer :: answers, asked')

variable {ask : Service π δ ε} {asked ps : List π} {answers : List δ}

lemma askAll_ok {asked' : List π} (h : askAll ask asked ps = .ok (answers, asked')) :
    asked' = asked ++ ps ∧ answers.length = ps.length := by
  induction ps generalizing asked answers with
  | nil =>
    cases h
    exact ⟨(List.append_nil _).symm, rfl⟩
  | cons p ps ih =>
    obtain ⟨answer, _, h⟩ := bind_ok h
    obtain ⟨⟨rest, asked''⟩, hrest, h⟩ := bind_ok h
    cases h
    obtain ⟨hasked, hlen⟩ := ih hrest
    exact ⟨by rw [hasked, List.append_assoc, List.singleton_append], congrArg (· + 1) hlen⟩

lemma askAll_answers (h : ∀ asked p, ∃ d, ask asked p = .ok d) (asked ps : List π) :
    ∃ answers, askAll ask asked ps = .ok (answers, asked ++ ps) ∧ answers.length = ps.length := by
  induction ps generalizing asked with
  | nil => exact ⟨[], by rw [askAll, List.append_nil], rfl⟩
  | cons p ps ih =>
    obtain ⟨answer, ha⟩ := h asked p
    obtain ⟨answers, hrest, hlen⟩ := ih (asked ++ [p])
    refine ⟨answer :: answers, ?_, congrArg (· + 1) hlen⟩
    rw [askAll, ha, ok_bind, hrest, ok_bind, List.append_assoc, List.singleton_append]

end AudioServer.Foundations.Requests
