import AudioServer.Foundations.Runs

/-! Optimistic versions: a counter that rises whenever the content it guards
changes, so that an unchanged counter proves an unchanged content. -/

namespace AudioServer.Foundations.Versions

open AudioServer.Foundations.Runs

variable {σ α γ : Type} {version : σ → ℕ} {content : σ → γ}

structure Follows (version : σ → ℕ) (content : σ → γ) (s t : σ) : Prop where
  le : version s ≤ version t
  lt : content t ≠ content s → version s < version t

lemma Follows.refl (s : σ) : Follows version content s s := ⟨Nat.le_refl _, fun h => absurd rfl h⟩

lemma Follows.of_lt {s t : σ} (h : version s < version t) : Follows version content s t :=
  ⟨Nat.le_of_lt h, fun _ => h⟩

lemma Follows.of_eq {s t : σ} (hv : version t = version s) (hc : content t = content s) :
    Follows version content s t := ⟨Nat.le_of_eq hv.symm, fun h => absurd hc h⟩

lemma Follows.trans {s t u : σ} (h : Follows version content s t) (k : Follows version content t u) :
    Follows version content s u := by
  have hst := h.le
  have htu := k.le
  refine ⟨by omega, ?_⟩
  intro hne
  by_cases hc : content t = content s
  · have hlt := k.lt (fun he => hne (he.trans hc))
    omega
  · have hlt := h.lt hc
    omega

lemma Follows.same_content {s t : σ} (h : Follows version content s t)
    (hv : version t = version s) : content t = content s := by
  by_contra hne
  have hlt := h.lt hne
  omega

lemma Follows.read_between {s t u : σ} (h : Follows version content s t)
    (k : Follows version content t u) (hv : version u = version s) : content u = content t := by
  apply k.same_content
  have hst := h.le
  have htu := k.le
  omega

lemma run_follows {step : σ → α → σ → Prop} {s t : σ} {es : List (Event σ α)} (h : Run step s es t)
    (hes : ∀ e ∈ es, Follows version content e.before e.after) : Follows version content s t := by
  induction h with
  | nil s => exact .refl s
  | cons he _ ih =>
    have hes' := List.forall_mem_cons.mp hes
    exact hes'.1.trans (ih hes'.2)

end AudioServer.Foundations.Versions
