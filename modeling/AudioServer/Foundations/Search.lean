import Mathlib.Data.List.Basic
import Mathlib.Data.List.Range
import Mathlib.Tactic.Lemma

/-! Searching a list for a pattern from either end, and reading the values that start at a mark. -/

namespace AudioServer.Foundations.Search

universe u v

variable {α : Type u} [DecidableEq α] {β : Type v}

abbrev OccursAt (pat xs : List α) (i : ℕ) : Prop := i ≤ xs.length ∧ pat <+: xs.drop i

/-- `str.find` from `start` on. -/
def find (pat xs : List α) (start : ℕ) : Option ℕ :=
  (List.range' start (xs.length + 1 - start)).find? (OccursAt pat xs ·)

def lastBelow (p : ℕ → Prop) [DecidablePred p] : ℕ → Option ℕ
  | 0 => none
  | n + 1 => if p n then some n else lastBelow p n

/-- `str.rfind` of what ends at `stop` or before. -/
def rfind (pat xs : List α) (stop : ℕ) : Option ℕ :=
  lastBelow (fun i => OccursAt pat xs i ∧ i + pat.length ≤ stop) (xs.length + 1)

structure LastAt (pat xs : List α) (stop i : ℕ) : Prop where
  occurs : OccursAt pat xs i
  ends : i + pat.length ≤ stop
  last : ∀ j, i < j → j + pat.length ≤ stop → ¬ OccursAt pat xs j

variable {pat xs : List α} {start stop i : ℕ}

lemma find_some (h : find pat xs start = some i) :
    start ≤ i ∧ OccursAt pat xs i ∧ ∀ j, start ≤ j → j < i → ¬ OccursAt pat xs j := by
  obtain ⟨hoccurs, hmem, hfirst⟩ := List.find?_range'_eq_some.mp h
  refine ⟨(List.mem_range'_1.mp hmem).1, of_decide_eq_true hoccurs, fun j hstart hj hoccurs => ?_⟩
  have hno := hfirst j hstart hj
  simp [hoccurs] at hno

lemma find_none (h : find pat xs start = none) (hstart : start ≤ i) : ¬ OccursAt pat xs i := by
  intro hoccurs
  have hno := List.find?_range'_eq_none.mp h i hstart (by have := hoccurs.1; omega)
  simp [hoccurs] at hno

lemma lastBelow_some {p : ℕ → Prop} [DecidablePred p] {n : ℕ} :
    lastBelow p n = some i ↔ i < n ∧ p i ∧ ∀ j, i < j → j < n → ¬ p j := by
  induction n with
  | zero => simp [lastBelow]
  | succ n ih =>
    rw [lastBelow]
    by_cases hn : p n
    · rw [if_pos hn, Option.some_inj]
      constructor
      · rintro rfl
        exact ⟨Nat.lt_succ_self _, hn, fun j hj hlt => absurd hlt (by omega)⟩
      · rintro ⟨hi, _, hlast⟩
        by_contra hne
        exact hlast n (by omega) (Nat.lt_succ_self n) hn
    · rw [if_neg hn, ih]
      constructor
      · rintro ⟨hi, hp, hlast⟩
        refine ⟨by omega, hp, fun j hj hlt hpj => ?_⟩
        rcases Nat.lt_succ_iff_lt_or_eq.mp hlt with hlt | rfl
        · exact hlast j hj hlt hpj
        · exact hn hpj
      · rintro ⟨hi, hp, hlast⟩
        refine ⟨?_, hp, fun j hj hlt => hlast j hj (by omega)⟩
        rcases Nat.lt_succ_iff_lt_or_eq.mp hi with hi | rfl
        · exact hi
        · exact absurd hp hn

lemma rfind_some : rfind pat xs stop = some i ↔ LastAt pat xs stop i := by
  rw [rfind, lastBelow_some]
  constructor
  · rintro ⟨_, ⟨hoccurs, hends⟩, hlast⟩
    refine ⟨hoccurs, hends, fun j hj hstop hoccurs => ?_⟩
    exact hlast j hj (Nat.lt_succ_of_le hoccurs.1) ⟨hoccurs, hstop⟩
  · rintro ⟨hoccurs, hends, hlast⟩
    exact ⟨Nat.lt_succ_of_le hoccurs.1, ⟨hoccurs, hends⟩,
      fun j hj _ hp => hlast j hj hp.2 hp.1⟩

lemma rfind_none : rfind pat xs stop = none ↔ ∀ i, ¬ LastAt pat xs stop i := by
  rw [← Option.not_isSome_iff_eq_none, Option.isSome_iff_exists, not_exists]
  simp only [rfind_some]

section Spans

structure Span (β : Type v) where
  start : ℕ
  stop : ℕ
  value : β

def spansFrom (mark xs : List α) (read : ℕ → Option (β × ℕ)) (start : ℕ) : List (Span β) :=
  match _h : find mark xs start with
  | none => []
  | some i =>
    match read i with
    | none => spansFrom mark xs read (i + 1)
    | some (value, stop) => ⟨i, stop, value⟩ :: spansFrom mark xs read (max stop (i + 1))
termination_by xs.length + 1 - start
decreasing_by
  all_goals
    obtain ⟨hstart, ⟨hlen, _⟩, _⟩ := find_some _h
    omega

variable {mark : List α} {read : ℕ → Option (β × ℕ)}

lemma spansFrom_read {s : Span β} (h : s ∈ spansFrom mark xs read start) :
    start ≤ s.start ∧ OccursAt mark xs s.start ∧ read s.start = some (s.value, s.stop) := by
  fun_induction spansFrom mark xs read start with
  | case1 start hfind => cases h
  | case2 start i hfind hread ih =>
    obtain ⟨hle, hs⟩ := ih h
    exact ⟨(Nat.le_succ_of_le (find_some hfind).1).trans hle, hs⟩
  | case3 start i hfind value stop hread ih =>
    obtain ⟨hstart, hoccurs, _⟩ := find_some hfind
    rcases List.mem_cons.mp h with rfl | h
    · exact ⟨hstart, hoccurs, hread⟩
    · obtain ⟨hle, hs⟩ := ih h
      exact ⟨by omega, hs⟩

lemma spansFrom_disjoint : (spansFrom mark xs read start).Pairwise
    (fun a b => a.start < b.start ∧ a.stop ≤ b.start) := by
  fun_induction spansFrom mark xs read start with
  | case1 start hfind => exact .nil
  | case2 start i hfind hread ih => exact ih
  | case3 start i hfind value stop hread ih =>
    refine List.pairwise_cons.mpr ⟨fun s hs => ?_, ih⟩
    have hle := (spansFrom_read hs).1
    dsimp only
    omega

lemma spansFrom_complete (hstart : start ≤ i) (hoccurs : OccursAt mark xs i)
    {value : β} {stop : ℕ} (hread : read i = some (value, stop)) :
    ⟨i, stop, value⟩ ∈ spansFrom mark xs read start ∨
      ∃ s ∈ spansFrom mark xs read start, s.start < i ∧ i < s.stop := by
  fun_induction spansFrom mark xs read start with
  | case1 start hfind => exact absurd hoccurs (find_none hfind hstart)
  | case2 start j hfind hnone ih =>
    apply ih
    obtain ⟨_, _, hfirst⟩ := find_some hfind
    rcases lt_trichotomy i j with hlt | rfl | hlt
    · exact absurd hoccurs (hfirst i hstart hlt)
    · rw [hread] at hnone
      cases hnone
    · exact hlt
  | case3 start j hfind value' stop' hsome ih =>
    obtain ⟨_, _, hfirst⟩ := find_some hfind
    rcases lt_trichotomy i j with hlt | rfl | hlt
    · exact absurd hoccurs (hfirst i hstart hlt)
    · rw [hread] at hsome
      cases hsome
      exact .inl List.mem_cons_self
    · by_cases hwithin : i < stop'
      · exact .inr ⟨_, List.mem_cons_self, hlt, hwithin⟩
      · rcases ih (by omega) with h | ⟨s, hs, h⟩
        · exact .inl (List.mem_cons_of_mem _ h)
        · exact .inr ⟨s, List.mem_cons_of_mem _ hs, h⟩

end Spans

end AudioServer.Foundations.Search
