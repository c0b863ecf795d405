import AudioServer.Foundations.Runs
import Mathlib.Logic.Function.Basic

/-! Directory entries as a partial map from paths to contents, with the atomic
calls that add, move and remove one. A content is never written in place. -/

namespace AudioServer.Foundations.Files

open AudioServer.Foundations.Runs

variable {π ω : Type}

abbrev Directory (π ω : Type) := π → Option ω

inductive LinkError
  | missing
  | taken
deriving DecidableEq

section Calls

variable [DecidableEq π]

def link (files : Directory π ω) (source target : π) : Except LinkError (Directory π ω) :=
  match files source with
  | none => .error .missing
  | some content =>
    if (files target).isSome then .error .taken
    else .ok (Function.update files target (some content))

def rename (files : Directory π ω) (source target : π) : Option (Directory π ω) :=
  (files source).map (fun content =>
    Function.update (Function.update files source none) target (some content))

def unlink (files : Directory π ω) (path : π) : Directory π ω := Function.update files path none

def write (files : Directory π ω) (path : π) (content : ω) : Directory π ω :=
  Function.update files path (some content)

variable {files files' : Directory π ω} {source target path other : π} {content : ω}

lemma link_ok (h : link files source target = .ok files') : ∃ content,
    files source = some content ∧ files target = none ∧
      files' = write files target content := by
  unfold link at h
  cases hs : files source with
  | none =>
    rw [hs] at h
    cases h
  | some content =>
    simp only [hs] at h
    split at h
    · cases h
    · rename_i hfree
      cases h
      exact ⟨content, rfl, by simpa using hfree, rfl⟩

lemma link_taken (h : link files source target = .error .taken) :
    (files source).isSome ∧ (files target).isSome := by
  unfold link at h
  cases hs : files source with
  | none =>
    rw [hs] at h
    cases h
  | some content =>
    simp only [hs] at h
    split at h
    · rename_i htaken
      exact ⟨rfl, htaken⟩
    · cases h

lemma link_missing (h : link files source target = .error .missing) : files source = none := by
  unfold link at h
  cases hs : files source with
  | none => rfl
  | some content =>
    simp only [hs] at h
    split at h <;> cases h

lemma rename_some (h : rename files source target = some files') : ∃ content,
    files source = some content ∧ files' = write (unlink files source) target content := by
  obtain ⟨content, hs, rfl⟩ := Option.map_eq_some_iff.mp h
  exact ⟨content, hs, rfl⟩

@[simp] lemma write_apply : write files path content other =
    if other = path then some content else files other := Function.update_apply ..

@[simp] lemma unlink_apply : unlink files path other = if other = path then none else files other :=
  Function.update_apply ..

end Calls

section Kept

def Kept (path : π) (files files' : Directory π ω) : Prop :=
  ∀ content content', files path = some content → files' path = some content' → content' = content

variable {path : π} {files files' : Directory π ω}

lemma Kept.same (h : files' path = files path) : Kept path files files' := by
  intro content content' hbefore hafter
  rw [h, hbefore] at hafter
  exact (Option.some.inj hafter).symm

lemma Kept.absent (h : files path = none) : Kept path files files' := by
  intro content content' hbefore
  rw [h] at hbefore
  cases hbefore

lemma Kept.gone (h : files' path = none) : Kept path files files' := by
  intro content content' _ hafter
  rw [h] at hafter
  cases hafter

lemma run_kept {σ α : Type} {step : σ → α → σ → Prop} (files : σ → Directory π ω)
    (hkept : ∀ s a t, step s a t → Kept path (files s) (files t)) {s t : σ}
    {es : List (Event σ α)} (h : Run step s es t) {content : ω} (hs : files s path = some content)
    (hvisible : ∀ e ∈ es, (files e.after path).isSome) : files t path = some content := by
  induction h with
  | nil => exact hs
  | @cons s a t es u hstep _ ih =>
    obtain ⟨hnext, hrest⟩ := List.forall_mem_cons.mp hvisible
    obtain ⟨content', hnext⟩ := Option.isSome_iff_exists.mp hnext
    apply ih ?_ hrest
    rw [hnext, hkept s a t hstep content content' hs hnext]

end Kept

end AudioServer.Foundations.Files
