import Mathlib.Order.MinMax
import Mathlib.Data.List.Induction
import Mathlib.Tactic.Lemma

/-! Intervals in the order of their starts: one sweep finds those that share time with another. -/

namespace AudioServer.Foundations.Intervals

universe u v

variable {α : Type u} {β : Type v} [LinearOrder β] (lo hi : α → β)

def Shares (a b : α) : Prop := max (lo a) (lo b) < min (hi a) (hi b)

instance (a b : α) : Decidable (Shares lo hi a b) := inferInstanceAs (Decidable (_ < _))

def SharesWithAnother (xs : List α) (i : ℕ) (a : α) : Prop :=
  ∃ p ∈ xs.zipIdx, p.2 ≠ i ∧ Shares lo hi a p.1

instance (xs : List α) (i : ℕ) (a : α) : Decidable (SharesWithAnother lo hi xs i a) :=
  inferInstanceAs (Decidable (∃ p ∈ xs.zipIdx, _))

def pairwise (xs : List α) : List Bool :=
  xs.zipIdx.map (fun p => decide (SharesWithAnother lo hi xs p.2 p.1))

/-- One pass that keeps the latest end so far and looks at the next start. -/
def sweep : Option β → List α → List Bool
  | _, [] => []
  | latest, a :: rest =>
    (latest.any (fun e => lo a < e) || rest.head?.any (fun next => lo next < hi a)) ::
      sweep (some (latest.elim (hi a) (max · (hi a)))) rest

def latestEnd (xs : List α) : Option β :=
  xs.foldl (fun latest a => some (latest.elim (hi a) (max · (hi a)))) none

variable {lo hi}

lemma latestEnd_snoc (xs : List α) (a : α) :
    latestEnd hi (xs ++ [a]) = some ((latestEnd hi xs).elim (hi a) (max · (hi a))) := by
  rw [latestEnd, List.foldl_append]
  rfl

lemma latestEnd_after (xs : List α) (t : β) :
    (latestEnd hi xs).any (fun e => t < e) ↔ ∃ a ∈ xs, t < hi a := by
  induction xs using List.reverseRecOn with
  | nil => simp [latestEnd]
  | append_singleton xs a ih =>
    have hmem : (∃ b ∈ xs ++ [a], t < hi b) ↔ (∃ b ∈ xs, t < hi b) ∨ t < hi a := by
      simp only [List.mem_append, List.mem_singleton]
      constructor
      · rintro ⟨b, hb | rfl, ht⟩
        · exact .inl ⟨b, hb, ht⟩
        · exact .inr ht
      · rintro (⟨b, hb, ht⟩ | ht)
        · exact ⟨b, .inl hb, ht⟩
        · exact ⟨a, .inr rfl, ht⟩
    rw [latestEnd_snoc, hmem, ← ih]
    cases latestEnd hi xs with
    | none => simp
    | some e => simp

/-- The induction is on what is still to come; `before` is what the latest end was taken over. -/
lemma sweep_get (before rest : List α) {i : ℕ} {a : α} (h : rest[i]? = some a) :
    (sweep lo hi (latestEnd hi before) rest)[i]? =
      some ((latestEnd hi (before ++ rest.take i)).any (fun e => lo a < e) ||
        rest[i + 1]?.any (fun next => lo next < hi a)) := by
  induction rest generalizing before i with
  | nil => cases h
  | cons b rest ih =>
    rw [sweep, ← latestEnd_snoc]
    cases i with
    | zero =>
      cases h
      rw [List.getElem?_cons_zero, List.take_zero, List.append_nil, List.getElem?_cons_succ,
        List.head?_eq_getElem?]
    | succ i =>
      rw [List.getElem?_cons_succ, ih (before ++ [b]) h, List.take_succ_cons, List.append_assoc,
        List.singleton_append, List.getElem?_cons_succ]

lemma sweep_length (latest : Option β) (xs : List α) :
    (sweep lo hi latest xs).length = xs.length := by
  induction xs generalizing latest with
  | nil => rfl
  | cons a xs ih => rw [sweep, List.length_cons, List.length_cons, ih]

lemma shares_iff {a b : α} (ha : lo a < hi a) (hb : lo b < hi b) :
    Shares lo hi a b ↔ lo a < hi b ∧ lo b < hi a := by
  rw [Shares, max_lt_iff, lt_min_iff, lt_min_iff]
  constructor
  · exact fun h => ⟨h.1.2, h.2.1⟩
  · exact fun h => ⟨⟨ha, h.1⟩, h.2, hb⟩

section Sorted

variable {xs : List α} (hsorted : xs.Pairwise (fun a b => lo a ≤ lo b))
  (hpositive : ∀ a ∈ xs, lo a < hi a)
include hsorted hpositive

lemma shares_earlier {i : ℕ} {a : α} (h : xs[i]? = some a) :
    (∃ b ∈ xs.take i, lo a < hi b) ↔ ∃ j b, j < i ∧ xs[j]? = some b ∧ Shares lo hi a b := by
  obtain ⟨hi', rfl⟩ := List.getElem?_eq_some_iff.mp h
  constructor
  · rintro ⟨b, hb, ht⟩
    obtain ⟨j, hj, rfl⟩ := List.mem_iff_getElem.mp hb
    rw [List.length_take] at hj
    rw [List.getElem_take] at ht
    have hstart := List.pairwise_iff_getElem.mp hsorted j i (by omega) hi' (by omega)
    have hpos := hpositive xs[i] (List.getElem_mem hi')
    refine ⟨j, xs[j], by omega, List.getElem?_eq_getElem (by omega), ?_⟩
    rw [shares_iff hpos (hpositive _ (List.getElem_mem (by omega)))]
    exact ⟨ht, lt_of_le_of_lt hstart hpos⟩
  · rintro ⟨j, b, hj, hb, hshares⟩
    obtain ⟨hjl, rfl⟩ := List.getElem?_eq_some_iff.mp hb
    rw [shares_iff (hpositive _ (List.getElem_mem hi')) (hpositive _ (List.getElem_mem hjl))]
      at hshares
    refine ⟨xs[j], ?_, hshares.1⟩
    exact List.mem_iff_getElem.mpr ⟨j, by rw [List.length_take]; omega, List.getElem_take⟩

lemma shares_later {i : ℕ} {a : α} (h : xs[i]? = some a) :
    (∃ b, xs[i + 1]? = some b ∧ lo b < hi a) ↔
      ∃ j b, i < j ∧ xs[j]? = some b ∧ Shares lo hi a b := by
  obtain ⟨hi', rfl⟩ := List.getElem?_eq_some_iff.mp h
  have hpos := hpositive xs[i] (List.getElem_mem hi')
  constructor
  · rintro ⟨b, hb, ht⟩
    obtain ⟨hlt, rfl⟩ := List.getElem?_eq_some_iff.mp hb
    have hstart := List.pairwise_iff_getElem.mp hsorted i (i + 1) hi' hlt (Nat.lt_succ_self i)
    have hnext := hpositive _ (List.getElem_mem hlt)
    refine ⟨i + 1, _, Nat.lt_succ_self i, hb, (shares_iff hpos hnext).mpr ⟨?_, ht⟩⟩
    exact lt_of_le_of_lt hstart hnext
  · rintro ⟨j, b, hij, hb, hshares⟩
    obtain ⟨hjl, rfl⟩ := List.getElem?_eq_some_iff.mp hb
    have hnext : i + 1 < xs.length := by omega
    -- The next start is the smallest of those to come.
    have hstart : lo xs[i + 1] ≤ lo xs[j] := by
      rcases Nat.eq_or_lt_of_le (Nat.succ_le_of_lt hij) with he | hlt
      · subst he
        exact le_refl _
      · exact List.pairwise_iff_getElem.mp hsorted (i + 1) j hnext hjl hlt
    rw [shares_iff hpos (hpositive _ (List.getElem_mem hjl))] at hshares
    exact ⟨_, List.getElem?_eq_getElem (by omega), lt_of_le_of_lt hstart hshares.2⟩

lemma sharesWithAnother_iff {i : ℕ} {a : α} (h : xs[i]? = some a) :
    SharesWithAnother lo hi xs i a ↔
      (∃ b ∈ xs.take i, lo a < hi b) ∨ ∃ b, xs[i + 1]? = some b ∧ lo b < hi a := by
  rw [shares_earlier hsorted hpositive h, shares_later hsorted hpositive h]
  constructor
  · rintro ⟨⟨b, j⟩, hb, hne, hshares⟩
    have hj : xs[j]? = some b := List.mem_zipIdx_iff_getElem?.mp hb
    rcases Nat.lt_or_gt_of_ne hne with hlt | hgt
    · exact .inl ⟨j, b, hlt, hj, hshares⟩
    · exact .inr ⟨j, b, hgt, hj, hshares⟩
  · rintro (⟨j, b, hlt, hj, hshares⟩ | ⟨j, b, hlt, hj, hshares⟩)
    · exact ⟨(b, j), List.mem_zipIdx_iff_getElem?.mpr hj, Nat.ne_of_lt hlt, hshares⟩
    · exact ⟨(b, j), List.mem_zipIdx_iff_getElem?.mpr hj, Nat.ne_of_gt hlt, hshares⟩

lemma sweep_pairwise : sweep lo hi none xs = pairwise lo hi xs := by
  apply List.ext_getElem?
  intro i
  cases h : xs[i]? with
  | none =>
    have hlen : xs.length ≤ i := List.getElem?_eq_none_iff.mp h
    rw [List.getElem?_eq_none (by rw [sweep_length]; exact hlen),
      List.getElem?_eq_none (by rw [pairwise, List.length_map, List.length_zipIdx]; exact hlen)]
  | some a =>
    have hswept : (sweep lo hi (latestEnd hi []) xs)[i]? = some ((latestEnd hi (xs.take i)).any
        (fun e => lo a < e) || xs[i + 1]?.any (fun next => lo next < hi a)) := sweep_get [] xs h
    have hpaired : (pairwise lo hi xs)[i]? = some (decide (SharesWithAnother lo hi xs i a)) := by
      rw [pairwise, List.getElem?_map, List.getElem?_zipIdx, h]
      simp
    rw [hpaired]
    refine hswept.trans (congrArg some ?_)
    rw [Bool.eq_iff_iff, Bool.or_eq_true, latestEnd_after, decide_eq_true_iff,
      sharesWithAnother_iff hsorted hpositive h, Option.any_eq_true]
    simp only [decide_eq_true_eq]

end Sorted

end AudioServer.Foundations.Intervals
