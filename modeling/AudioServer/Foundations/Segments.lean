import Mathlib.Data.List.DropRight
import Mathlib.Data.List.Infix

/-! Lists read as their segments between separators, as a path is: equality, prefixes and a
trailing separator, told by the segments. -/

namespace AudioServer.Foundations.Segments

variable {α : Type} [DecidableEq α] {sep : α} {s t : List α} {parts rest : List (List α)}

omit [DecidableEq α] in
lemma intercalate_append {between : List α} (hparts : parts ≠ []) (hrest : rest ≠ []) :
    between.intercalate (parts ++ rest) =
      between.intercalate parts ++ (between ++ between.intercalate rest) := by
  induction parts with
  | nil => exact absurd rfl hparts
  | cons part parts ih =>
    cases parts with
    | nil =>
      rw [List.singleton_append, List.intercalate_cons_of_ne_nil hrest, List.intercalate_singleton,
        List.append_assoc]
    | cons next parts =>
      rw [List.cons_append, List.intercalate_cons_of_ne_nil (by simp), ih (by simp),
        List.intercalate_cons_cons]
      simp only [List.append_assoc]

lemma splitOn_inj : s.splitOn sep = t.splitOn sep ↔ s = t := by
  refine ⟨fun h => ?_, congrArg _⟩
  have hjoined := congrArg [sep].intercalate h
  rwa [List.intercalate_splitOn, List.intercalate_splitOn] at hjoined

lemma prefix_iff : s ++ [sep] <+: t ↔ s.splitOn sep <+: t.splitOn sep ∧ s ≠ t := by
  constructor
  · rintro ⟨rest, rfl⟩
    rw [List.append_assoc, List.singleton_append]
    refine ⟨?_, by simp⟩
    rw [List.splitOn_append_cons_self]
    exact List.prefix_append _ _
  · rintro ⟨⟨rest, hrest⟩, hne⟩
    have hsome : rest ≠ [] := by
      rintro rfl
      rw [List.append_nil, splitOn_inj] at hrest
      exact hne hrest
    refine ⟨[sep].intercalate rest, ?_⟩
    have hjoined : [sep].intercalate (s.splitOn sep ++ rest) = _ :=
      intercalate_append (List.splitOn_ne_nil sep s) hsome
    rw [hrest, List.intercalate_splitOn, List.intercalate_splitOn] at hjoined
    rw [List.append_assoc, hjoined]

lemma rdropWhile_whole (h : (t.splitOn sep).getLast? ≠ some []) : t.rdropWhile (· == sep) = t := by
  apply List.rdropWhile_eq_self_iff.mpr
  intro hne hlast
  have hsep : t.getLast hne = sep := by simpa using hlast
  apply h
  rw [← List.dropLast_append_getLast hne, hsep, List.splitOn_append_cons_self]
  simp

end AudioServer.Foundations.Segments
