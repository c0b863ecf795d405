import AudioServer.Foundations.Blocks
import Mathlib.Data.List.Basic

/-! The loop that fills one block after the other, and how few blocks it needs; slices of one size. -/

namespace AudioServer.Foundations.Packing

open AudioServer.Foundations.Blocks

universe u

variable {α : Type u}

section Place

variable (joins : List α → α → Prop) [∀ block x, Decidable (joins block x)]

def place (s : List (List α) × List α) (x : α) : List (List α) × List α :=
  if s.2 = [] ∨ joins s.2 x then (s.1, s.2 ++ [x]) else (s.1 ++ [s.2], [x])

def flush (s : List (List α) × List α) : List (List α) :=
  if s.2 = [] then s.1 else s.1 ++ [s.2]

variable {joins}

lemma flush_open (done : List (List α)) {block : List α} (h : block ≠ []) :
    flush (done, block) = done ++ [block] := if_neg h

lemma foldl_place {done : List (List α)} {block : List α} (hblock : block ≠ []) (xs : List α) :
    flush (xs.foldl (place joins) (done, block)) = done ++ cutFrom joins block xs := by
  induction xs generalizing done block with
  | nil => exact flush_open done hblock
  | cons x xs ih =>
    rw [List.foldl_cons, place]
    by_cases h : joins block x
    · rw [if_pos (.inr h), ih (by simp), cutFrom_joined h]
    · rw [if_neg (by simp [hblock, h]), ih (by simp), cutFrom_parted h, cut, List.append_assoc,
        List.singleton_append]

lemma place_cut (xs : List α) : flush (xs.foldl (place joins) ([], [])) = cut joins xs := by
  cases xs with
  | nil => rfl
  | cons x xs =>
    rw [List.foldl_cons, place, if_pos (.inl rfl), List.nil_append, foldl_place (by simp),
      List.nil_append, cut]

end Place

section Singletons

variable {joins : List α → α → Prop} [∀ block x, Decidable (joins block x)]

lemma cut_apart {xs : List α} (h : xs.IsChain (fun a b => ¬ joins [a] b)) :
    cut joins xs = xs.map (fun x => [x]) := by
  induction xs with
  | nil => rfl
  | cons a xs ih =>
    cases xs with
    | nil => rfl
    | cons b xs =>
      rw [List.isChain_cons_cons] at h
      rw [cut, cutFrom_parted h.1, ih h.2]
      rfl

lemma singletons {groups : List (List α)} (h : ∀ g ∈ groups, g.length = 1) :
    groups = groups.flatten.map (fun x => [x]) := by
  induction groups with
  | nil => rfl
  | cons g groups ih =>
    obtain ⟨hg, hrest⟩ := List.forall_mem_cons.mp h
    obtain ⟨x, rfl⟩ := List.length_eq_one_iff.mp hg
    rw [List.flatten_cons, List.map_append, ← ih hrest]
    rfl

lemma apart_of_singletons {xs : List α} (h : ∀ g ∈ cut joins xs, g.length = 1) :
    xs.IsChain (fun a b => ¬ joins [a] b) := by
  have hforced : (cut joins xs).IsChain (fun b c => ∃ x ∈ c.head?, ¬ joins b x) := cut_forced xs
  rw [singletons h, cut_flatten, List.isChain_map] at hforced
  refine hforced.imp ?_
  rintro a b ⟨x, hx, hjoins⟩
  cases hx
  exact hjoins

end Singletons

section Fewest

variable {joins : List α → α → Prop} [∀ block x, Decidable (joins block x)]

lemma cutFrom_split (block xs : List α) : ∃ more rest, xs = more ++ rest ∧
    cutFrom joins block xs = (block ++ more) :: cut joins rest ∧
      ∀ x ∈ rest.head?, ¬ joins (block ++ more) x := by
  induction xs generalizing block with
  | nil => exact ⟨[], [], rfl, by rw [cutFrom, List.append_nil, cut], by simp⟩
  | cons x xs ih =>
    by_cases h : joins block x
    · obtain ⟨more, rest, rfl, hcut, hstop⟩ := ih (block ++ [x])
      rw [List.append_assoc, List.singleton_append] at hcut hstop
      exact ⟨x :: more, rest, rfl, by rw [cutFrom_joined h, hcut], hstop⟩
    · refine ⟨[], x :: xs, rfl, by rw [cutFrom_parted h, List.append_nil], ?_⟩
      rintro y ⟨rfl⟩
      rwa [List.append_nil]

structure Divides (small : List α → Prop) (groups : List (List α)) (xs : List α) : Prop where
  flatten : groups.flatten = xs
  small : ∀ g ∈ groups, g ≠ [] ∧ small g

variable {small : List α → Prop}
  (hpart : ∀ xs ys zs : List α, ys ≠ [] → small (xs ++ ys ++ zs) → small ys)
  (hjoins : ∀ block x, block ≠ [] → small (block ++ [x]) → joins block x)
include hpart hjoins

/-- The loop never falls behind: what a division has covered, `t` included, it has covered too. -/
lemma cut_le {groups : List (List α)} (hsmall : ∀ g ∈ groups, g ≠ [] ∧ small g) (t : List α)
    {xs : List α} (h : groups.flatten = t ++ xs) : (cut joins xs).length ≤ groups.length := by
  induction groups generalizing t xs with
  | nil =>
    obtain ⟨_, rfl⟩ := List.append_eq_nil_iff.mp h.symm
    exact Nat.zero_le _
  | cons g groups ih =>
    obtain ⟨⟨hg, hgs⟩, hrest⟩ := List.forall_mem_cons.mp hsmall
    rw [List.flatten_cons] at h
    rcases List.append_eq_append_iff.mp h with ⟨t', rfl, hgroups⟩ | ⟨q, rfl, hxs⟩
    · exact (ih hrest t' hgroups).trans (Nat.le_succ _)
    · cases xs with
      | nil => exact Nat.zero_le _
      | cons x xs =>
        obtain ⟨more, rest, hmore, hcut, hstop⟩ := @cutFrom_split _ joins _ [x] xs
        have hblock : x :: xs = ([x] ++ more) ++ rest := by rw [hmore]; simp
        rw [cut, hcut, List.length_cons, List.length_cons]
        apply Nat.succ_le_succ
        rw [hblock] at hxs
        rcases List.append_eq_append_iff.mp hxs with ⟨r, rfl, hrestq⟩ | ⟨r, hq, hgroups⟩
        · -- The group reaches past the block, so its next element could still have joined it.
          cases r with
          | nil =>
            rw [List.nil_append] at hrestq
            exact ih hrest [] hrestq.symm
          | cons y r =>
            have hy : rest.head? = some y := by rw [hrestq]; rfl
            have hlong : small (t ++ ([x] ++ more ++ [y]) ++ r) := by
              simpa [List.append_assoc] using hgs
            exact absurd (hjoins _ y (by simp) (hpart _ _ _ (by simp) hlong)) (hstop y hy)
        · exact ih hrest r hgroups

lemma cut_fewest {groups : List (List α)} {xs : List α} (h : Divides small groups xs) :
    (cut joins xs).length ≤ groups.length :=
  cut_le hpart hjoins h.small [] h.flatten

end Fewest

section Slices

/-- `[xs[i : i + n] for i in range(0, len(xs), n)]`. -/
def slices (n : ℕ) (xs : List α) : List (List α) :=
  (List.range ((xs.length + n - 1) / n)).map (fun i => (xs.drop (i * n)).take n)

lemma slices_nil {n : ℕ} (hn : 0 < n) : slices n ([] : List α) = [] := by
  have : (n - 1) / n = 0 := Nat.div_eq_of_lt (by omega)
  simp [slices, this]

lemma slices_cons {n : ℕ} (hn : 0 < n) {xs : List α} (h : xs ≠ []) :
    slices n xs = xs.take n :: slices n (xs.drop n) := by
  have hlen : 0 < xs.length := List.length_pos_iff.mpr h
  have hcount : (xs.length + n - 1) / n = ((xs.drop n).length + n - 1) / n + 1 := by
    rw [List.length_drop]
    rcases Nat.lt_or_ge n xs.length with hlt | hge
    · rw [← Nat.add_div_right _ hn]
      congr 1
      omega
    · rw [Nat.sub_eq_zero_of_le hge, Nat.zero_add, Nat.div_eq_of_lt (a := n - 1) (by omega)]
      exact Nat.div_eq_of_lt_le (by omega) (by omega)
  rw [slices, hcount, List.range_succ_eq_map, List.map_cons, List.map_map, slices]
  congr 1
  · simp
  · apply List.map_congr_left
    intro i _
    simp only [Function.comp_apply, List.drop_drop, Nat.succ_mul]
    rw [Nat.add_comm]

lemma slices_length (n : ℕ) (xs : List α) : (slices n xs).length = (xs.length + n - 1) / n := by
  rw [slices, List.length_map, List.length_range]

lemma slices_flatten {n : ℕ} (hn : 0 < n) (xs : List α) : (slices n xs).flatten = xs := by
  induction h : xs.length using Nat.strong_induction_on generalizing xs with
  | _ k ih =>
    by_cases hxs : xs = []
    · rw [hxs, slices_nil hn, List.flatten_nil]
    · have hlen : 0 < xs.length := List.length_pos_iff.mpr hxs
      rw [slices_cons hn hxs, List.flatten_cons,
        ih (xs.drop n).length (by rw [List.length_drop]; omega) _ rfl, List.take_append_drop]

lemma mem_slices {n : ℕ} (hn : 0 < n) {xs part : List α} (h : part ∈ slices n xs) :
    part ≠ [] ∧ part.length ≤ n := by
  obtain ⟨i, hi, rfl⟩ := List.mem_map.mp h
  have hcount := List.mem_range.mp hi
  refine ⟨?_, List.length_take_le _ _⟩
  have hle : (i + 1) * n ≤ xs.length + n - 1 := (Nat.le_div_iff_mul_le hn).mp hcount
  have hlt : i * n < xs.length := by
    rw [Nat.succ_mul] at hle
    omega
  apply List.ne_nil_of_length_pos
  rw [List.length_take, List.length_drop]
  omega

end Slices

end AudioServer.Foundations.Packing
