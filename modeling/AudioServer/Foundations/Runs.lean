import Mathlib.Data.List.Basic

/-! Finite runs of a labelled transition system, and the rules that lift what
one step preserves to what a run preserves. -/

namespace AudioServer.Foundations.Runs

structure Event (σ α : Type) where
  before : σ
  label : α
  after : σ

variable {σ α : Type} {step : σ → α → σ → Prop}

inductive Run (step : σ → α → σ → Prop) : σ → List (Event σ α) → σ → Prop
  | nil (s) : Run step s [] s
  | cons {s a t es u} : step s a t → Run step t es u → Run step s (⟨s, a, t⟩ :: es) u

lemma Run.single {s : σ} {a : α} {t : σ} (h : step s a t) : Run step s [⟨s, a, t⟩] t :=
  .cons h (.nil t)

lemma Run.append {s t u : σ} {es fs : List (Event σ α)} (h : Run step s es t)
    (k : Run step t fs u) : Run step s (es ++ fs) u := by
  induction h with
  | nil => exact k
  | cons he _ ih => exact .cons he (ih k)

lemma Run.of_append {s u : σ} {es fs : List (Event σ α)} (h : Run step s (es ++ fs) u) :
    ∃ t, Run step s es t ∧ Run step t fs u := by
  induction es generalizing s with
  | nil => exact ⟨s, .nil s, h⟩
  | cons e es ih =>
    cases h with
    | cons he ht =>
      obtain ⟨t, h₁, h₂⟩ := ih ht
      exact ⟨t, .cons he h₁, h₂⟩

lemma Run.around {s u : σ} {es fs : List (Event σ α)} {e : Event σ α}
    (h : Run step s (es ++ e :: fs) u) :
    Run step s es e.before ∧ step e.before e.label e.after ∧ Run step e.after fs u := by
  obtain ⟨t, h₁, h₂⟩ := h.of_append
  cases h₂ with
  | cons he ht => exact ⟨h₁, he, ht⟩

lemma Run.keeps (P : σ → Prop) (hstep : ∀ s a t, P s → step s a t → P t)
    {s t : σ} {es : List (Event σ α)} (h : Run step s es t) (hs : P s) : P t := by
  induction h with
  | nil => exact hs
  | cons he _ ih => exact ih (hstep _ _ _ hs he)

lemma Run.measure_le (f : σ → ℕ) {s t : σ} {es : List (Event σ α)} (h : Run step s es t)
    (hes : ∀ e ∈ es, f e.before ≤ f e.after) : f s ≤ f t := by
  induction h with
  | nil => exact Nat.le_refl _
  | cons he _ ih =>
    have hes' := List.forall_mem_cons.mp hes
    exact Nat.le_trans hes'.1 (ih hes'.2)

lemma Run.keeps_if (P : σ → Prop) (Q : σ → α → Prop)
    (hstep : ∀ s a t, P s → Q s a → step s a t → P t)
    {s t : σ} {es : List (Event σ α)} (h : Run step s es t) (hs : P s)
    (hq : ∀ e ∈ es, Q e.before e.label) : P t := by
  induction h with
  | nil => exact hs
  | cons he _ ih =>
    have hq' := List.forall_mem_cons.mp hq
    exact ih (hstep _ _ _ hs hq'.1 he) hq'.2

lemma Run.event_step {s t : σ} {es : List (Event σ α)} (h : Run step s es t)
    {e : Event σ α} (he : e ∈ es) : step e.before e.label e.after := by
  obtain ⟨es, fs, rfl⟩ := List.append_of_mem he
  exact h.around.2.1

lemma Run.event_keeps (P : σ → Prop) (hstep : ∀ s a t, P s → step s a t → P t) {s t : σ}
    {es : List (Event σ α)} (h : Run step s es t) (hs : P s) {e : Event σ α} (he : e ∈ es) :
    P e.before := by
  obtain ⟨es, fs, rfl⟩ := List.append_of_mem he
  exact h.around.1.keeps P hstep hs

lemma Run.event_before_if (P : σ → Prop) (Q : σ → α → Prop)
    (hstep : ∀ s a t, P s → Q s a → step s a t → P t)
    {s t : σ} {es : List (Event σ α)} (h : Run step s es t) (hs : P s)
    (hq : ∀ e ∈ es, Q e.before e.label) {e : Event σ α} (he : e ∈ es) : P e.before := by
  obtain ⟨es, fs, rfl⟩ := List.append_of_mem he
  exact h.around.1.keeps_if P Q hstep hs (fun e he => hq e (List.mem_append_left _ he))

lemma Run.event_keeps_if (P : σ → Prop) (Q : σ → α → Prop)
    (hstep : ∀ s a t, P s → Q s a → step s a t → P t)
    {s t : σ} {es : List (Event σ α)} (h : Run step s es t) (hs : P s)
    (hq : ∀ e ∈ es, Q e.before e.label) {e : Event σ α} (he : e ∈ es) : P e.after := by
  have hbefore := h.event_before_if P Q hstep hs hq he
  exact hstep _ _ _ hbefore (hq e he) (h.event_step he)

lemma Run.at_most_once (P : σ → Prop) (Q : Event σ α → Bool) (closed : σ → Prop)
    (hkeeps : ∀ s a t, P s → step s a t → P t)
    (hstable : ∀ s a t, P s → step s a t → closed s → closed t)
    (hcloses : ∀ s a t, P s → step s a t → Q ⟨s, a, t⟩ → ¬ closed s ∧ closed t)
    {s t : σ} {es : List (Event σ α)} (h : Run step s es t) (hs : P s) :
    (es.filter Q).length ≤ 1 ∧ (closed s → es.filter Q = []) := by
  induction h with
  | nil => simp
  | @cons s a t es u he _ ih =>
    obtain ⟨hone, hnone⟩ := ih (hkeeps s a t hs he)
    by_cases hq : Q ⟨s, a, t⟩
    · obtain ⟨hopen, hclosed⟩ := hcloses s a t hs he hq
      simp [hq, hnone hclosed, hopen]
    · simp only [hq, Bool.false_eq_true, not_false_eq_true, List.filter_cons_of_neg]
      exact ⟨hone, fun hc => hnone (hstable s a t hs he hc)⟩

section Deterministic

variable (allowed : σ → α → Prop) (next : σ → α → σ)

def trail : σ → List α → List (Event σ α)
  | _, [] => []
  | s, a :: as => ⟨s, a, next s a⟩ :: trail (next s a) as

def AllAllowed : σ → List α → Prop
  | _, [] => True
  | s, a :: as => allowed s a ∧ AllAllowed (next s a) as

instance [∀ s a, Decidable (allowed s a)] :
    (s : σ) → (as : List α) → Decidable (AllAllowed allowed next s as)
  | _, [] => inferInstanceAs (Decidable True)
  | s, a :: as =>
    have := instDecidableAllAllowed (next s a) as
    inferInstanceAs (Decidable (_ ∧ _))

lemma run_trail {s : σ} {as : List α} (h : AllAllowed allowed next s as) :
    Run (fun s a t => allowed s a ∧ t = next s a) s (trail next s as) (as.foldl next s) := by
  induction as generalizing s with
  | nil => exact .nil s
  | cons a as ih => exact .cons ⟨h.1, rfl⟩ (ih h.2)

lemma AllAllowed.append {s : σ} {as bs : List α} (h : AllAllowed allowed next s as)
    (k : AllAllowed allowed next (as.foldl next s) bs) : AllAllowed allowed next s (as ++ bs) := by
  induction as generalizing s with
  | nil => exact k
  | cons a as ih => exact ⟨h.1, ih h.2 k⟩

end Deterministic

end AudioServer.Foundations.Runs
