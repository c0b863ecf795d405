import Mathlib.Data.List.Chain
import Mathlib.Data.List.Flatten
import Mathlib.Tactic.Lemma

/-! Cutting a list greedily into blocks: an element joins the block before it
whenever it may. -/

namespace AudioServer.Foundations.Blocks

universe u v

variable {α : Type u}

/-- A block grown from its first element, each later one having joined what stood before it. -/
inductive Grown (joins : List α → α → Prop) : List α → Prop
  | one (x : α) : Grown joins [x]
  | snoc {block : List α} {x : α} (h : Grown joins block) (hx : joins block x) :
      Grown joins (block ++ [x])

lemma Grown.ne_nil {joins : List α → α → Prop} {block : List α} (h : Grown joins block) :
    block ≠ [] := by
  cases h with
  | one x => exact List.cons_ne_nil x []
  | snoc _ _ => simp

variable (joins : List α → α → Prop) [∀ block x, Decidable (joins block x)]

def cutFrom : List α → List α → List (List α)
  | block, [] => [block]
  | block, x :: xs => if joins block x then cutFrom (block ++ [x]) xs else block :: cutFrom [x] xs

def cut : List α → List (List α)
  | [] => []
  | x :: xs => cutFrom joins [x] xs

variable {joins}

lemma cutFrom_joined {block xs : List α} {x : α} (h : joins block x) :
    cutFrom joins block (x :: xs) = cutFrom joins (block ++ [x]) xs := by
  rw [cutFrom, if_pos h]

lemma cutFrom_parted {block xs : List α} {x : α} (h : ¬ joins block x) :
    cutFrom joins block (x :: xs) = block :: cut joins (x :: xs) := by
  rw [cutFrom, if_neg h, cut]

lemma cutFrom_closed {block : List α} (h : ∀ x, ¬ joins block x) (xs : List α) :
    cutFrom joins block xs = block :: cut joins xs := by
  cases xs with
  | nil => rfl
  | cons x xs => exact cutFrom_parted (h x)

lemma cutFrom_flatten (block xs : List α) : (cutFrom joins block xs).flatten = block ++ xs := by
  induction xs generalizing block with
  | nil => simp [cutFrom]
  | cons x xs ih =>
    by_cases h : joins block x
    · rw [cutFrom_joined h, ih, List.append_assoc, List.singleton_append]
    · rw [cutFrom_parted h, List.flatten_cons, cut, ih, List.singleton_append]

lemma cut_flatten (xs : List α) : (cut joins xs).flatten = xs := by
  cases xs with
  | nil => rfl
  | cons x xs => exact cutFrom_flatten [x] xs

lemma cutFrom_grown {block xs : List α} (hb : Grown joins block) {b : List α}
    (h : b ∈ cutFrom joins block xs) : Grown joins b := by
  induction xs generalizing block with
  | nil =>
    rw [cutFrom, List.mem_singleton] at h
    exact h ▸ hb
  | cons x xs ih =>
    by_cases hx : joins block x
    · rw [cutFrom_joined hx] at h
      exact ih (hb.snoc hx) h
    · rw [cutFrom_parted hx, cut] at h
      rcases List.mem_cons.mp h with rfl | h
      · exact hb
      · exact ih (.one x) h

lemma cut_grown {xs b : List α} (h : b ∈ cut joins xs) : Grown joins b := by
  cases xs with
  | nil => cases h
  | cons x xs => exact cutFrom_grown (.one x) h

lemma cutFrom_head (block xs : List α) :
    ∃ more rest, cutFrom joins block xs = (block ++ more) :: rest := by
  induction xs generalizing block with
  | nil => exact ⟨[], [], by rw [cutFrom, List.append_nil]⟩
  | cons x xs ih =>
    by_cases h : joins block x
    · obtain ⟨more, rest, he⟩ := ih (block ++ [x])
      exact ⟨x :: more, rest, by rw [cutFrom_joined h, he, List.append_assoc, List.singleton_append]⟩
    · exact ⟨[], _, by rw [cutFrom_parted h, List.append_nil]⟩

lemma cutFrom_forced (block xs : List α) :
    (cutFrom joins block xs).IsChain (fun b c => ∃ x ∈ c.head?, ¬ joins b x) := by
  induction xs generalizing block with
  | nil => exact .singleton block
  | cons x xs ih =>
    by_cases h : joins block x
    · rw [cutFrom_joined h]
      exact ih _
    · obtain ⟨more, rest, he⟩ : ∃ more rest, cutFrom joins [x] xs = ([x] ++ more) :: rest :=
        cutFrom_head [x] xs
      have hrest := ih [x]
      rw [he] at hrest
      rw [cutFrom_parted h, cut, he]
      exact .cons_cons ⟨x, rfl, h⟩ hrest

lemma cut_forced (xs : List α) :
    (cut joins xs).IsChain (fun b c => ∃ x ∈ c.head?, ¬ joins b x) := by
  cases xs with
  | nil => exact .nil
  | cons x xs => exact cutFrom_forced [x] xs

section Map

variable {β : Type v} {merges : List β → β → Prop} [∀ block x, Decidable (merges block x)] {f : α → β}

lemma cutFrom_map (h : ∀ block x, joins block x ↔ merges (block.map f) (f x)) (block xs : List α) :
    cutFrom merges (block.map f) (xs.map f) = (cutFrom joins block xs).map (List.map f) := by
  induction xs generalizing block with
  | nil => rfl
  | cons x xs ih =>
    rw [List.map_cons]
    by_cases hx : joins block x
    · rw [cutFrom_joined hx, cutFrom_joined ((h block x).mp hx), ← ih, List.map_append,
        List.map_singleton]
    · rw [cutFrom_parted hx, cutFrom_parted (fun hm => hx ((h block x).mpr hm)), List.map_cons, cut,
        cut, ← ih, List.map_singleton]

lemma cut_map (h : ∀ block x, joins block x ↔ merges (block.map f) (f x)) (xs : List α) :
    cut merges (xs.map f) = (cut joins xs).map (List.map f) := by
  cases xs with
  | nil => rfl
  | cons x xs => exact cutFrom_map h [x] xs

end Map

end AudioServer.Foundations.Blocks
