import AudioServer.Foundations.Runs
import Mathlib.Algebra.GroupWithZero.Nat
import Mathlib.Tactic.Lemma

/-! Accounts kept along a run: what its steps spend is covered by what was left
at its start and what its steps were granted. -/

namespace AudioServer.Foundations.Budgets

open AudioServer.Foundations.Runs

variable {σ α β γ : Type} {step : σ → α → σ → Prop} {s t : σ} {es : List (Event σ α)}

def total (f : Event σ α → ℕ) (es : List (Event σ α)) : ℕ := (es.map f).sum

lemma total_cons (f : Event σ α → ℕ) (e : Event σ α) (es : List (Event σ α)) :
    total f (e :: es) = f e + total f es := rfl

lemma run_within (I : σ → Prop) (left : σ → ℕ) (spent granted : Event σ α → ℕ)
    (hI : ∀ s a t, I s → step s a t → I t)
    (hstep : ∀ s a t, I s → step s a t →
      left t + spent ⟨s, a, t⟩ ≤ left s + granted ⟨s, a, t⟩)
    (h : Run step s es t) (hs : I s) : left t + total spent es ≤ left s + total granted es := by
  induction h with
  | nil => exact Nat.le_refl _
  | @cons s a t es u he _ ih =>
    have hfirst := hstep s a t hs he
    have hrest := ih (hI s a t hs he)
    rw [total_cons, total_cons]
    omega

lemma run_to_end (I ends : σ → Prop) (good : α → Prop) (rank : σ → ℕ)
    (hnext : ∀ s, I s → ¬ ends s → ∃ a t, good a ∧ step s a t ∧ I t ∧ rank t < rank s) (hs : I s) :
    ∃ es t, Run step s es t ∧ (∀ e ∈ es, good e.label) ∧ ends t ∧ es.length + rank t ≤ rank s := by
  induction hn : rank s using Nat.strongRecOn generalizing s with
  | ind n ih =>
    by_cases hend : ends s
    · refine ⟨[], s, .nil s, ?_, hend, by simp [hn]⟩
      intro e he
      cases he
    · obtain ⟨a, u, hgood, hstep, hu, hlt⟩ := hnext s hs hend
      obtain ⟨es, t, hrun, hes, ht, hle⟩ := ih (rank u) (hn ▸ hlt) hu rfl
      refine ⟨⟨s, a, u⟩ :: es, t, .cons hstep hrun, ?_, ht, ?_⟩
      · intro e he
        rcases List.mem_cons.mp he with rfl | he
        · exact hgood
        · exact hes e he
      · rw [List.length_cons]
        omega

section Replacing

variable [DecidableEq γ] {key : β → γ} {xs : List β} {x y : β}

lemma replace_absent (h : ∀ a ∈ xs, key a ≠ key y) :
    xs.map (fun a => if key a = key y then y else a) = xs := by
  apply (List.map_congr_left ?_).trans (List.map_id xs)
  intro a ha
  exact if_neg (h a ha)

lemma sum_replace (weight : β → ℕ) (hkeys : (xs.map key).Nodup) (hx : x ∈ xs)
    (hkey : key y = key x) :
    ((xs.map (fun a => if key a = key y then y else a)).map weight).sum + weight x =
      (xs.map weight).sum + weight y := by
  induction xs with
  | nil => cases hx
  | cons a xs ih =>
    obtain ⟨hnew, hkeys⟩ := List.nodup_cons.mp hkeys
    rw [List.map_cons, List.map_cons, List.map_cons, List.sum_cons, List.sum_cons]
    rcases List.mem_cons.mp hx with rfl | hx
    · have hrest : ∀ b ∈ xs, key b ≠ key y := by
        intro b hb he
        exact hnew (List.mem_map.mpr ⟨b, hb, he.trans hkey⟩)
      rw [if_pos hkey.symm, replace_absent hrest]
      omega
    · have hne : key a ≠ key y := by
        intro he
        exact hnew (List.mem_map.mpr ⟨x, hx, (he.trans hkey).symm⟩)
      have hsum := ih hkeys hx
      rw [if_neg hne]
      omega

end Replacing

end AudioServer.Foundations.Budgets
