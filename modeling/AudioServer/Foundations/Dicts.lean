import Mathlib.Data.List.Basic
import Mathlib.Data.List.Nodup
import Mathlib.Tactic.Lemma

/-! Dictionaries built by a comprehension over rows, and rows replaced by key. -/

namespace AudioServer.Foundations.Dicts

universe u v

variable {α : Type u} {κ : Type v} [DecidableEq κ]

/-- `{key(x): x for x in xs}.get(k)`: a later row takes the place of an earlier one. -/
def dictGet (key : α → κ) (xs : List α) (k : κ) : Option α :=
  xs.reverse.find? (fun x => key x = k)

lemma dictGet_some {key : α → κ} {xs : List α} {k : κ} {x : α} (h : dictGet key xs k = some x) :
    x ∈ xs ∧ key x = k := by
  refine ⟨?_, by simpa using List.find?_some h⟩
  exact List.mem_reverse.mp (List.mem_of_find?_eq_some h)

lemma dictGet_none {key : α → κ} {xs : List α} {k : κ} :
    dictGet key xs k = none ↔ ∀ x ∈ xs, key x ≠ k := by
  simp [dictGet, List.find?_eq_none]

lemma dictGet_eq_some {key : α → κ} {xs : List α} (hkeys : (xs.map key).Nodup) {x : α}
    (hx : x ∈ xs) : dictGet key xs (key x) = some x := by
  cases h : dictGet key xs (key x) with
  | none => exact absurd rfl (dictGet_none.mp h x hx)
  | some y =>
    obtain ⟨hy, he⟩ := dictGet_some h
    rw [List.inj_on_of_nodup_map hkeys hy hx he]

lemma dictGet_last {key : α → κ} {xs : List α} {k : κ} {x : α} (h : dictGet key xs k = some x) :
    ∃ before after, xs = before ++ x :: after ∧ ∀ y ∈ after, key y ≠ k := by
  obtain ⟨_, after, before, hxs, hafter⟩ := List.find?_eq_some_iff_append.mp h
  refine ⟨before.reverse, after.reverse, ?_, ?_⟩
  · have hrev := congrArg List.reverse hxs
    simpa using hrev
  · intro y hy hk
    have hnot := hafter y (List.mem_reverse.mp hy)
    simp [hk] at hnot

lemma find_key {key : α → κ} {xs : List α} (hkeys : (xs.map key).Nodup) {x : α} (hx : x ∈ xs) :
    xs.find? (fun y => key y = key x) = some x := by
  cases hf : xs.find? (fun y => key y = key x) with
  | none =>
    have hnot := List.find?_eq_none.mp hf x hx
    simp at hnot
  | some y =>
    have hkey : key y = key x := by simpa using List.find?_some hf
    rw [List.inj_on_of_nodup_map hkeys (List.mem_of_find?_eq_some hf) hx hkey]

lemma filter_key {key : α → κ} {xs : List α} (hkeys : (xs.map key).Nodup) {x : α} (hx : x ∈ xs) :
    xs.filter (fun y => key y = key x) = [x] := by
  induction xs with
  | nil => cases hx
  | cons y ys ih =>
    rw [List.map_cons, List.nodup_cons] at hkeys
    rcases List.mem_cons.mp hx with rfl | hx
    · have hrest : ys.filter (fun y => key y = key x) = [] := by
        rw [List.filter_eq_nil_iff]
        intro z hz he
        exact hkeys.1 (List.mem_map.mpr ⟨z, hz, of_decide_eq_true he⟩)
      rw [List.filter_cons_of_pos (by simp), hrest]
    · have hne : key y ≠ key x := by
        intro he
        exact hkeys.1 (List.mem_map.mpr ⟨x, hx, he.symm⟩)
      rw [List.filter_cons_of_neg (by simp [hne]), ih hkeys.2 hx]

def replaceRow (key : α → κ) (x : α) (xs : List α) : List α :=
  xs.map (fun y => if key y = key x then x else y)

lemma replaceRow_keys (key : α → κ) (x : α) (xs : List α) :
    (replaceRow key x xs).map key = xs.map key := by
  rw [replaceRow, List.map_map]
  apply List.map_congr_left
  intro y _
  by_cases h : key y = key x <;> simp [h]

lemma mem_replaceRow {key : α → κ} {x y : α} {xs : List α} (h : y ∈ replaceRow key x xs) :
    y = x ∨ (y ∈ xs ∧ key y ≠ key x) := by
  obtain ⟨z, hz, rfl⟩ := List.mem_map.mp h
  by_cases he : key z = key x
  · exact .inl (if_pos he)
  · rw [if_neg he]
    exact .inr ⟨hz, he⟩

lemma replaceRow_append (key : α → κ) (x : α) (xs ys : List α) :
    replaceRow key x (xs ++ ys) = replaceRow key x xs ++ replaceRow key x ys := List.map_append

lemma replaceRow_absent {key : α → κ} {x : α} {xs : List α} (h : ∀ y ∈ xs, key y ≠ key x) :
    replaceRow key x xs = xs := by
  rw [replaceRow]
  conv_rhs => rw [← List.map_id xs]
  apply List.map_congr_left
  intro y hy
  simp [h y hy]

lemma replaceRow_map {β : Type v} {key : α → κ} {f : α → β} {x y : α} {xs : List α}
    (hkeys : (xs.map key).Nodup) (hx : x ∈ xs) (hkey : key y = key x) (hf : f y = f x) :
    (replaceRow key y xs).map f = xs.map f := by
  rw [replaceRow, List.map_map]
  apply List.map_congr_left
  intro z hz
  by_cases he : key z = key y
  · have hzx : z = x := List.inj_on_of_nodup_map hkeys hz hx (he.trans hkey)
    simp [hzx, hkey, hf]
  · simp [he]

end AudioServer.Foundations.Dicts
