import AudioServer.Foundations.Runs

/-! What the events of a run say about its end: a thing that was done and has not been undone. -/

namespace AudioServer.Foundations.Histories

open AudioServer.Foundations.Runs

variable {ε : Type} {done undone : ε → Prop} {es : List ε} {e : ε}

/-- The past-time operator: `done` held of an event, and `undone` of none after it. -/
def Since (done undone : ε → Prop) (es : List ε) : Prop :=
  ∃ before e after, es = before ++ e :: after ∧ done e ∧ ∀ f ∈ after, ¬ undone f

lemma not_since_nil : ¬ Since done undone [] := by
  rintro ⟨before, e, after, h, _⟩
  cases before <;> cases h

lemma since_snoc : Since done undone (es ++ [e]) ↔ done e ∨ (Since done undone es ∧ ¬ undone e) := by
  constructor
  · rintro ⟨before, d, after, h, hdone, hafter⟩
    rcases List.eq_nil_or_concat after with rfl | ⟨after, f, rfl⟩
    · obtain ⟨_, he⟩ := List.append_inj' h rfl
      cases he
      exact .inl hdone
    · rw [List.concat_eq_append] at h hafter
      rw [← List.cons_append, ← List.append_assoc] at h
      obtain ⟨rfl, he⟩ := List.append_inj' h rfl
      cases he
      exact .inr ⟨⟨before, d, after, rfl, hdone, fun f hf => hafter f (List.mem_append_left _ hf)⟩,
        hafter _ (List.mem_append_right _ (List.mem_singleton_self _))⟩
  · rintro (hdone | ⟨⟨before, d, after, rfl, hdone, hafter⟩, hnot⟩)
    · refine ⟨es, e, [], rfl, hdone, ?_⟩
      intro f hf
      cases hf
    · refine ⟨before, d, after ++ [e], by simp, hdone, ?_⟩
      intro f hf
      rcases List.mem_append.mp hf with hf | hf
      · exact hafter f hf
      · rw [List.mem_singleton.mp hf]
        exact hnot

lemma run_history {σ α : Type} {step : σ → α → σ → Prop} (P : List (Event σ α) → σ → Prop)
    (hstep : ∀ es s a t, P es s → step s a t → P (es ++ [⟨s, a, t⟩]) t)
    {s t : σ} {es : List (Event σ α)} (h : Run step s es t) (hs : P [] s) : P es t := by
  have hlater : ∀ past, P past s → P (past ++ es) t := by
    clear hs
    induction h with
    | nil s =>
      intro past hp
      rwa [List.append_nil]
    | @cons s a t es u he _ ih =>
      intro past hp
      have hnext := ih (past ++ [⟨s, a, t⟩]) (hstep past s a t hp he)
      rwa [List.append_assoc] at hnext
  exact hlater [] hs

end AudioServer.Foundations.Histories
