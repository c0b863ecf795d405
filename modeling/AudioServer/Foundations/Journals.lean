import Mathlib.Data.List.Nodup
import Mathlib.Tactic.Lemma

/-! A log that many owners share: what each of them has in it, which marks its
entries carry, and in which order they came. -/

namespace AudioServer.Foundations.Journals

variable {ε ι μ τ : Type}

section Entries

variable [DecidableEq ι] (owner : ε → ι)

def entriesOf (log : List ε) (i : ι) : List ε := log.filter (fun e => owner e = i)

lemma mem_entriesOf {log : List ε} {i : ι} {e : ε} :
    e ∈ entriesOf owner log i ↔ e ∈ log ∧ owner e = i := by
  simp [entriesOf]

lemma entriesOf_snoc_self (log : List ε) (e : ε) :
    entriesOf owner (log ++ [e]) (owner e) = entriesOf owner log (owner e) ++ [e] := by
  simp [entriesOf]

lemma entriesOf_snoc_other (log : List ε) {i : ι} {e : ε} (h : owner e ≠ i) :
    entriesOf owner (log ++ [e]) i = entriesOf owner log i := by
  simp [entriesOf, h]

lemma entriesOf_filter {p : ε → Bool} {log : List ε} {i : ι}
    (h : ∀ e ∈ log, owner e = i → p e) : entriesOf owner (log.filter p) i = entriesOf owner log i := by
  rw [entriesOf, entriesOf, List.filter_filter]
  apply List.filter_congr
  intro e he
  by_cases ho : owner e = i
  · simp [ho, h e he ho]
  · simp [ho]

lemma entriesOf_nil {log : List ε} {i : ι} (h : ∀ e ∈ log, owner e ≠ i) :
    entriesOf owner log i = [] := by
  rw [entriesOf, List.filter_eq_nil_iff]
  intro e he
  simpa using h e he

end Entries

section Marks

variable [DecidableEq μ] (mark : ε → μ)

def Once (entries : List ε) (m : μ) : Prop := ∃ e, entries.filter (fun e => mark e = m) = [e]

lemma filter_mark {entries : List ε} (h : (entries.map mark).Nodup) {e : ε} (he : e ∈ entries) :
    entries.filter (fun d => mark d = mark e) = [e] := by
  induction entries with
  | nil => cases he
  | cons d entries ih =>
    obtain ⟨hnot, hnodup⟩ := List.nodup_cons.mp h
    rcases List.mem_cons.mp he with rfl | he
    · have hrest : entries.filter (fun d => mark d = mark e) = [] := by
        rw [List.filter_eq_nil_iff]
        intro d hd hm
        exact hnot (List.mem_map.mpr ⟨d, hd, by simpa using hm⟩)
      simp [hrest]
    · have hne : mark d ≠ mark e := fun hm => hnot (List.mem_map.mpr ⟨e, he, hm.symm⟩)
      simp [hne, ih hnodup he]

lemma once_of_mem {entries : List ε} {m : μ} (h : (entries.map mark).Nodup)
    (hm : m ∈ entries.map mark) : Once mark entries m := by
  obtain ⟨e, he, rfl⟩ := List.mem_map.mp hm
  exact ⟨e, filter_mark mark h he⟩

lemma none_of_not_mem {entries : List ε} {m : μ} (hm : m ∉ entries.map mark) :
    entries.filter (fun e => mark e = m) = [] := by
  rw [List.filter_eq_nil_iff]
  intro e he h
  exact hm (List.mem_map.mpr ⟨e, he, by simpa using h⟩)

lemma filter_mark_length {entries : List ε} (h : (entries.map mark).Nodup) (m : μ) :
    (entries.filter (fun e => mark e = m)).length ≤ 1 := by
  by_cases hm : m ∈ entries.map mark
  · obtain ⟨e, he⟩ := once_of_mem mark h hm
    simp [he]
  · simp [none_of_not_mem mark hm]

end Marks

section Keyed

variable (same : ε → ε → Prop) [DecidableRel same]

def note (log : List ε) (e : ε) : List ε := if log.any (same e ·) then log else log ++ [e]

lemma note_fresh {log : List ε} {e : ε} (h : ∀ d ∈ log, ¬ same e d) : note same log e = log ++ [e] := by
  simpa [note] using h

lemma note_known {log : List ε} {d e : ε} (hd : d ∈ log) (h : same e d) : note same log e = log := by
  rw [note, if_pos]
  simpa using ⟨d, hd, h⟩

lemma note_extends (log : List ε) (e : ε) : log <+: note same log e := by
  rw [note]
  split
  · exact List.prefix_refl _
  · exact List.prefix_append _ _

lemma notes_extend (log es : List ε) : log <+: es.foldl (note same) log := by
  induction es generalizing log with
  | nil => exact List.prefix_refl _
  | cons e es ih => exact (note_extends same log e).trans (ih _)

lemma mem_notes {log es : List ε} {e : ε} (h : e ∈ es.foldl (note same) log) : e ∈ log ∨ e ∈ es := by
  induction es generalizing log with
  | nil => exact .inl h
  | cons d es ih =>
    rcases ih h with hlog | hes
    · rw [note] at hlog
      split at hlog
      · exact .inl hlog
      · rcases List.mem_append.mp hlog with hlog | hd
        · exact .inl hlog
        · exact .inr (List.mem_cons.mpr (.inl (List.mem_singleton.mp hd)))
    · exact .inr (List.mem_cons_of_mem _ hes)

lemma entriesOf_notes [DecidableEq ι] (owner : ε → ι) {log es : List ε} {i : ι}
    (h : ∀ e ∈ es, owner e ≠ i) : entriesOf owner (es.foldl (note same) log) i = entriesOf owner log i := by
  induction es generalizing log with
  | nil => rfl
  | cons e es ih =>
    obtain ⟨he, hes⟩ := List.forall_mem_cons.mp h
    rw [List.foldl_cons, ih hes, note]
    split
    · rfl
    · exact entriesOf_snoc_other owner log he

abbrev Keyed (log : List ε) : Prop := log.Pairwise (fun a b => ¬ same a b)

lemma note_keyed (hsymm : ∀ a b, same a b → same b a) {log : List ε} (h : Keyed same log) (e : ε) :
    Keyed same (note same log e) := by
  rw [note]
  split
  · exact h
  · rename_i hnew
    simp only [List.any_eq_true, decide_eq_true_eq, not_exists, not_and] at hnew
    rw [Keyed, List.pairwise_append]
    refine ⟨h, List.pairwise_singleton _ _, ?_⟩
    intro a ha b hb hab
    rw [List.mem_singleton] at hb
    subst hb
    exact hnew a ha (hsymm a b hab)

lemma notes_keyed (hsymm : ∀ a b, same a b → same b a) {log : List ε} (h : Keyed same log)
    (es : List ε) : Keyed same (es.foldl (note same) log) := by
  induction es generalizing log with
  | nil => exact h
  | cons e es ih => exact ih (note_keyed same hsymm h e)

end Keyed

section Order

variable [LE τ] (time : ε → τ)

abbrev Chronological (entries : List ε) : Prop := entries.Pairwise (fun a b => time a ≤ time b)

lemma chronological_snoc {entries : List ε} {e : ε} (h : Chronological time entries)
    (he : ∀ d ∈ entries, time d ≤ time e) : Chronological time (entries ++ [e]) := by
  rw [Chronological, List.pairwise_append]
  refine ⟨h, List.pairwise_singleton _ _, ?_⟩
  intro d hd b hb
  rw [List.mem_singleton] at hb
  subst hb
  exact he d hd

end Order

end AudioServer.Foundations.Journals
