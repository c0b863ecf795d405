import AudioServer.Foundations.Sorting

/-! Lists that are served by the order of a key: the rows that a condition leaves keep
their order, and the first row hides none that is ready before it. -/

namespace AudioServer.Foundations.Priorities

open AudioServer.Foundations.Sorting

universe u v w

variable {α : Type u} {κ : Type v} {key : α → κ}

def Distinct (key : α → κ) (xs : List α) : Prop := ∀ a ∈ xs, ∀ b ∈ xs, key a = key b → a = b

lemma Distinct.filter {xs : List α} (h : Distinct key xs) (p : α → Bool) :
    Distinct key (xs.filter p) :=
  fun a ha b hb => h a (List.mem_of_mem_filter ha) b (List.mem_of_mem_filter hb)

variable [LinearOrder κ] {r : α → α → Prop} [DecidableRel r]

lemma sort_unique (hr : ∀ a b, r a b ↔ key a ≤ key b) {xs ys : List α} (hkey : Distinct key xs)
    (hperm : ys.Perm xs) (hys : ys.Pairwise (fun a b => key a ≤ key b)) :
    xs.insertionSort r = ys := by
  have hsorted := (List.perm_insertionSort r xs).trans hperm.symm
  refine hsorted.eq_of_pairwise ?_ (sort_ordered hr xs) hys
  intro a b ha hb hab hba
  exact hkey a ((List.mem_insertionSort r).mp ha) b (hperm.mem_iff.mp hb) (le_antisymm hab hba)

lemma sort_filter (hr : ∀ a b, r a b ↔ key a ≤ key b) {xs : List α} (hkey : Distinct key xs)
    (p : α → Bool) : (xs.filter p).insertionSort r = (xs.insertionSort r).filter p :=
  sort_unique hr (hkey.filter p) ((List.perm_insertionSort r xs).filter p)
    ((sort_ordered hr xs).sublist List.filter_sublist)

lemma head_filter {τ : Type w} [LinearOrder τ] {ready : α → τ} {xs : List α}
    (h : xs.Pairwise (fun a b => ready a ≤ ready b)) (t : τ) :
    (xs.filter (fun a => ready a ≤ t)).head? = xs.head?.filter (fun a => ready a ≤ t) := by
  cases xs with
  | nil => rfl
  | cons a rest =>
    by_cases ha : ready a ≤ t
    · simp [ha, Option.filter_some]
    · have hrest : rest.filter (fun b => ready b ≤ t) = [] := by
        apply List.filter_eq_nil_iff.mpr
        intro b hb
        have hle := List.rel_of_pairwise_cons h hb
        simpa using lt_of_lt_of_le (not_le.mp ha) hle
      simp [ha, hrest, Option.filter_some]

end AudioServer.Foundations.Priorities
