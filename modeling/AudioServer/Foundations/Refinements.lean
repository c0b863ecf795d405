import AudioServer.Foundations.Runs

/-! A system seen through a view of its state: each step is a step of the system the view is of,
or one that system does not see. -/

namespace AudioServer.Foundations.Refinements

open AudioServer.Foundations.Runs

variable {σ τ α β : Type} {lower : σ → α → σ → Prop} {upper : τ → β → τ → Prop}

/-- The step is one of the upper system under the label it is seen as, or it is not seen. What it
is seen as may depend on the states around it. -/
def Seen (upper : τ → β → τ → Prop) (view : σ → τ) (label : Event σ α → Option β) (e : Event σ α) :
    Prop :=
  (∃ b ∈ label e, upper (view e.before) b (view e.after)) ∨ view e.after = view e.before

lemma run_seen {view : σ → τ} {label : Event σ α → Option β} (P : σ → Prop)
    (hkeeps : ∀ s a t, P s → lower s a t → P t)
    (hseen : ∀ s a t, P s → lower s a t → Seen upper view label ⟨s, a, t⟩) {s t : σ}
    {es : List (Event σ α)} (h : Run lower s es t) (hs : P s) :
    ∃ fs, Run upper (view s) fs (view t) ∧
      (fs.map (·.label)).Sublist (es.filterMap label) := by
  induction h with
  | nil s => exact ⟨[], .nil _, .slnil⟩
  | @cons s a t es u hstep _ ih =>
    obtain ⟨fs, hrun, hlabels⟩ := ih (hkeeps s a t hs hstep)
    rcases hseen s a t hs hstep with ⟨b, hb, hupper⟩ | hsame
    · have hcons : (⟨s, a, t⟩ :: es).filterMap label = b :: es.filterMap label :=
        List.filterMap_cons_some hb
      refine ⟨⟨view s, b, view t⟩ :: fs, .cons hupper hrun, ?_⟩
      rw [hcons]
      exact hlabels.cons_cons b
    · simp only at hsame
      rw [← hsame]
      exact ⟨fs, hrun, hlabels.trans ((List.sublist_cons_self _ _).filterMap _)⟩

end AudioServer.Foundations.Refinements
