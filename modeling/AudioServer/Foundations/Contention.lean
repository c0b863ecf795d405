import AudioServer.Foundations.Pools
import AudioServer.Foundations.Runs

/-! Calls in progress over one shared state: each step takes one of them a step
further, when nothing it waits for is held by another. -/

namespace AudioServer.Foundations.Contention

open AudioServer.Foundations.Pools AudioServer.Foundations.Runs

structure Pool (σ κ : Type) where
  shared : σ
  calls : List κ

variable {σ κ : Type} (ready : Pool σ κ → κ → Prop) (advance : κ → σ → σ × κ)

def Pool.allows (p : Pool σ κ) (i : ℕ) : Prop :=
  ∃ call ∈ p.calls[i]?, ready p call

def Pool.perform (p : Pool σ κ) (i : ℕ) : Pool σ κ :=
  match p.calls[i]? with
  | none => p
  | some call => ⟨(advance call p.shared).1, p.calls.set i (advance call p.shared).2⟩

instance [∀ p call, Decidable (ready p call)] (p : Pool σ κ) (i : ℕ) : Decidable (p.allows ready i) :=
  match h : p.calls[i]? with
  | none => .isFalse (by rintro ⟨call, hcall, _⟩; rw [h] at hcall; cases hcall)
  | some call => decidable_of_iff (ready p call) (by
      constructor
      · intro hr
        exact ⟨call, h, hr⟩
      · rintro ⟨other, hother, hr⟩
        rw [h] at hother
        cases hother
        exact hr)

def PoolStep (p : Pool σ κ) (i : ℕ) (p' : Pool σ κ) : Prop :=
  p.allows ready i ∧ p' = p.perform advance i

abbrev PoolRun (p : Pool σ κ) (es : List (Event (Pool σ κ) ℕ)) (p' : Pool σ κ) : Prop :=
  Run (PoolStep ready advance) p es p'

variable {ready advance} {p p' : Pool σ κ} {i : ℕ} {es : List (Event (Pool σ κ) ℕ)}

lemma PoolStep.cases (h : PoolStep ready advance p i p') :
    ∃ call, p.calls[i]? = some call ∧ ready p call ∧
      p' = ⟨(advance call p.shared).1, p.calls.set i (advance call p.shared).2⟩ := by
  obtain ⟨⟨call, hcall, hready⟩, rfl⟩ := h
  refine ⟨call, hcall, hready, ?_⟩
  rw [Pool.perform, Option.mem_def.mp hcall]

structure Sound (holds : σ → Prop) (good : σ → κ → Prop) (apart : κ → κ → Prop) (p : Pool σ κ) :
    Prop where
  shared : holds p.shared
  good : ∀ call ∈ p.calls, good p.shared call
  apart : Apart apart p.calls

variable {holds : σ → Prop} {good : σ → κ → Prop} {apart : κ → κ → Prop}

lemma Sound.step (h : Sound holds good apart p) (hstep : PoolStep ready advance p i p')
    (hshared : ∀ call ∈ p.calls, holds p.shared → good p.shared call → ready p call →
      holds (advance call p.shared).1)
    (hown : ∀ call ∈ p.calls, holds p.shared → good p.shared call → ready p call →
      good (advance call p.shared).1 (advance call p.shared).2)
    (hother : ∀ call ∈ p.calls, ∀ other ∈ p.calls, good p.shared call → good p.shared other →
      ready p call → apart call other → apart other call →
      good (advance call p.shared).1 other ∧ apart (advance call p.shared).2 other ∧
        apart other (advance call p.shared).2) :
    Sound holds good apart p' := by
  obtain ⟨call, hcall, hready, rfl⟩ := hstep.cases
  have hmem := List.mem_of_getElem? hcall
  have hrest : ∀ k other, p.calls[k]? = some other → k ≠ i →
      good (advance call p.shared).1 other ∧ apart (advance call p.shared).2 other ∧
        apart other (advance call p.shared).2 := by
    intro k other hk hne
    have hother' := List.mem_of_getElem? hk
    exact hother call hmem other hother' (h.good call hmem) (h.good other hother') hready
      (h.apart i k call other hcall hk (Ne.symm hne)) (h.apart k i other call hk hcall hne)
  constructor
  · exact hshared call hmem h.shared (h.good call hmem) hready
  · intro other hmem'
    obtain ⟨k, hk⟩ := List.mem_iff_getElem?.mp hmem'
    rcases set_some hk with ⟨_, rfl⟩ | ⟨hne, hold⟩
    · exact hown call hmem h.shared (h.good call hmem) hready
    · exact (hrest k other hold hne).1
  · apply h.apart.set
    intro k other hk hne
    exact (hrest k other hk hne).2

lemma ahead_le (work : κ → ℕ)
    (hless : ∀ p, ∀ call ∈ p.calls, ready p call → work (advance call p.shared).2 < work call)
    (h : PoolRun ready advance p es p') :
    es.length + (p'.calls.map work).sum ≤ (p.calls.map work).sum := by
  induction h with
  | nil => simp
  | @cons p i q es p' hstep _ ih =>
    obtain ⟨call, hcall, hready, rfl⟩ := hstep.cases
    have hlt := hless p call (List.mem_of_getElem? hcall) hready
    have hsum : ((p.calls.set i (advance call p.shared).2).map work).sum + work call =
        (p.calls.map work).sum + work (advance call p.shared).2 := sum_map_set hcall
    rw [List.length_cons]
    simp only at ih
    omega

lemma length_le (work : κ → ℕ) {n : ℕ}
    (hless : ∀ p, ∀ call ∈ p.calls, ready p call → work (advance call p.shared).2 < work call)
    (h : PoolRun ready advance p es p') (hstart : ∀ call ∈ p.calls, work call ≤ n) :
    es.length ≤ n * p.calls.length := by
  have hahead := ahead_le work hless h
  have hsum : (p.calls.map work).sum ≤ n * p.calls.length := sum_map_le hstart
  omega

lemma not_ready_of_stuck (h : ∀ i, ¬ p.allows ready i) {call : κ} (hcall : call ∈ p.calls) :
    ¬ ready p call := by
  intro hready
  obtain ⟨i, hi⟩ := List.mem_iff_getElem?.mp hcall
  exact h i ⟨call, hi, hready⟩

lemma settled_at (h : PoolRun ready advance p es p') {call : κ} (hi : p'.calls[i]? = some call) :
    p.calls[i]? = some call ∨ ∃ e ∈ es, e.label = i ∧ ∃ earlier,
      e.before.calls[i]? = some earlier ∧ advance earlier e.before.shared = (e.after.shared, call) := by
  induction h with
  | nil => exact .inl hi
  | @cons p k q es p' hstep _ ih =>
    obtain ⟨earlier, hearlier, _, rfl⟩ := hstep.cases
    rcases ih hi with hq | ⟨e, he, hlabel, hsettled⟩
    · rcases set_some hq with ⟨rfl, rfl⟩ | ⟨_, hold⟩
      · exact .inr ⟨_, List.mem_cons_self, rfl, earlier, hearlier, rfl⟩
      · exact .inl hold
    · exact .inr ⟨e, List.mem_cons_of_mem _ he, hlabel, hsettled⟩

lemma map_calls {β : Type} (f : κ → β) (hsame : ∀ call s, f (advance call s).2 = f call)
    (h : PoolRun ready advance p es p') : p'.calls.map f = p.calls.map f := by
  induction h with
  | nil => rfl
  | cons hstep _ ih =>
    obtain ⟨call, hcall, _, rfl⟩ := hstep.cases
    rw [ih]
    exact map_set_same hcall (hsame call _)

lemma poolRun_trail (is : List ℕ)
    (h : AllAllowed (Pool.allows ready) (Pool.perform advance) p is) :
    PoolRun ready advance p (trail (Pool.perform advance) p is) (is.foldl (Pool.perform advance) p) :=
  run_trail _ _ h

end AudioServer.Foundations.Contention
