import AudioServer.Foundations.Dicts

/-! Rows written one after another under a column whose values must stay apart. -/

namespace AudioServer.Foundations.RowWrites

open AudioServer.Foundations.Dicts

universe u v w

variable {α : Type u} {κ : Type v} {ν : Type w} [DecidableEq κ] {key : α → κ} {unique : α → ν}
  {rows written : List α} {x row : α}

def overlay (key : α → κ) (written : List α) (row : α) : α :=
  (written.find? (fun x => key x = key row)).getD row

lemma overlay_cases (key : α → κ) (written : List α) (row : α) :
    (overlay key written row ∈ written ∧ key (overlay key written row) = key row) ∨
      (overlay key written row = row ∧ ∀ x ∈ written, key x ≠ key row) := by
  rw [overlay]
  cases hf : written.find? (fun x => key x = key row) with
  | none => exact .inr ⟨rfl, fun x hx => by simpa using List.find?_eq_none.mp hf x hx⟩
  | some x => exact .inl ⟨List.mem_of_find?_eq_some hf, by simpa using List.find?_some hf⟩

lemma overlay_key (key : α → κ) (written : List α) (row : α) :
    key (overlay key written row) = key row := by
  rcases overlay_cases key written row with ⟨_, h⟩ | ⟨h, _⟩
  · exact h
  · rw [h]

lemma overlay_keys (key : α → κ) (written rows : List α) :
    (rows.map (overlay key written)).map key = rows.map key := by
  rw [List.map_map]
  exact List.map_congr_left (fun row _ => overlay_key key written row)

lemma overlay_written (hkeys : (written.map key).Nodup) (hx : x ∈ written) (h : key x = key row) :
    overlay key written row = x := by
  rcases overlay_cases key written row with ⟨hmem, hkey⟩ | ⟨_, hnone⟩
  · exact List.inj_on_of_nodup_map hkeys hmem hx (hkey.trans h.symm)
  · exact absurd h (hnone x hx)

lemma overlay_concat (hnew : ∀ y ∈ written, key y ≠ key x) :
    rows.map (overlay key (written ++ [x])) = replaceRow key x (rows.map (overlay key written)) := by
  rw [replaceRow, List.map_map]
  apply List.map_congr_left
  intro row _
  rw [Function.comp_apply, overlay_key key written row]
  by_cases h : key row = key x
  · rw [if_pos h, overlay, List.find?_append, List.find?_eq_none.mpr]
    · simp [h]
    · intro y hy
      simpa [h] using hnew y hy
  · rw [if_neg h, overlay, overlay, List.find?_append]
    simp [Ne.symm h]

lemma overlay_apart (hvalues : ((written ++ [x]).map unique).Nodup)
    (hfree : ∀ r ∈ rows, unique x ≠ unique r) :
    ∀ r ∈ rows.map (overlay key written), unique r ≠ unique x := by
  intro r hr he
  obtain ⟨row, hrow, rfl⟩ := List.mem_map.mp hr
  rcases overlay_cases key written row with ⟨hmem, _⟩ | ⟨hsame, _⟩
  · rw [List.map_append, List.nodup_append] at hvalues
    exact hvalues.2.2 _ (List.mem_map_of_mem hmem) _ (List.mem_singleton.mpr rfl) he
  · rw [hsame] at he
    exact hfree row hrow he.symm

lemma overlay_nodup (hkeys : (rows.map key).Nodup) (hold : (rows.map unique).Nodup)
    (hvalues : (written.map unique).Nodup) (hfree : ∀ x ∈ written, ∀ r ∈ rows, unique x ≠ unique r) :
    ((rows.map (overlay key written)).map unique).Nodup := by
  rw [List.map_map]
  refine (List.nodup_map_iff_inj_on hkeys.of_map).mpr ?_
  intro a ha b hb he
  rw [Function.comp_apply, Function.comp_apply] at he
  rcases overlay_cases key written a with ⟨hwa, hka⟩ | ⟨hra, _⟩ <;>
    rcases overlay_cases key written b with ⟨hwb, hkb⟩ | ⟨hrb, _⟩
  · have hsame := List.inj_on_of_nodup_map hvalues hwa hwb he
    exact List.inj_on_of_nodup_map hkeys ha hb (hka.symm.trans ((congrArg key hsame).trans hkb))
  · rw [hrb] at he
    exact absurd he (hfree _ hwa b hb)
  · rw [hra] at he
    exact absurd he.symm (hfree _ hwb a ha)
  · rw [hra, hrb] at he
    exact List.inj_on_of_nodup_map hold ha hb he

end AudioServer.Foundations.RowWrites
