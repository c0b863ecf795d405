import AudioServer.Services.BrowserUpload
import AudioServer.Services.DeletedAudio

/-! What the operations of the storage leave when one step of a browser upload raises. -/

namespace AudioServer.Services.StorageFaults

open AudioServer.Foundations.Effects AudioServer.Foundations.Outcomes AudioServer.Db.Models
open AudioServer.Services.Recordings AudioServer.Services.Storage AudioServer.Services.Uploads
open AudioServer.Services.Interleaving AudioServer.Services.DeletedAudio
open AudioServer.Services.BrowserUpload

def Strikes (fault : Option Fault) (s : UploadStep) : Prop := ∃ f ∈ fault, f.step = s

def Lost (fault : Option Fault) (s : UploadStep) : Prop := ∃ f ∈ fault, f.step = s ∧ ¬ f.took

def StrikesIn (fault : Option Fault) (steps : List UploadStep) : Prop := ∃ s ∈ steps, Strikes fault s

def After (fault : Option Fault) (s : UploadStep) (g : Archive → Archive) (a b : Archive) : Prop :=
  (Lost fault s → b = a) ∧ (¬ Lost fault s → b = g a)

def withObject (key : StorageKey) (staged : Object) (a : Archive) : Archive :=
  { a with objects := Function.update a.objects key (some staged) }

def withoutObject (key : StorageKey) (a : Archive) : Archive :=
  { a with objects := deleteOriginal a.objects key }

def withoutStaged (a : Archive) : Archive := { a with staged := none }

def DiscardRaises (fault : Option Fault) (discard : Discard) : Prop :=
  (∃ f ∈ fault, f.step = .unlinkStaged discard ∧ f.exn ≠ .fileNotFound) ∨
    Strikes fault (.fsyncStaging discard)

def StrandsPut (fault : Option Fault) : Prop :=
  (∃ f ∈ fault, f.step = .link ∧ f.took ∧ f.exn ≠ fileExists) ∨ DiscardRaises fault .put ∨
    Strikes fault .fsyncDestination

def LosesRemoval (fault : Option Fault) (removal : Removal) : Prop :=
  Strikes fault (.resolveRemoved removal) ∨ Lost fault (.unlinkOriginal removal)

section Steps

variable {fault : Option Fault} {s t : UploadStep} {steps : List UploadStep} {a b : Archive}
  {α : Type} {Q : α → Archive → Prop} {E : Exn → Archive → Prop}

lemma Strikes.unique (hs : Strikes fault s) (ht : Strikes fault t) : s = t := by
  obtain ⟨f, hf, rfl⟩ := hs
  obtain ⟨g, hg, rfl⟩ := ht
  cases hf
  cases hg
  rfl

lemma Lost.strikes (h : Lost fault s) : Strikes fault s := by
  obtain ⟨f, hf, hs, -⟩ := h
  exact ⟨f, hf, hs⟩

lemma StrikesIn.not (h : StrikesIn fault steps) (ht : t ∉ steps) : ¬ Strikes fault t := by
  obtain ⟨s, hs, hstrikes⟩ := h
  rintro h
  exact ht (hstrikes.unique h ▸ hs)

lemma StrikesIn.apart {steps' : List UploadStep} (h : StrikesIn fault steps)
    (hapart : ∀ s ∈ steps', s ∉ steps) : ¬ StrikesIn fault steps' := by
  rintro ⟨s, hs, hstrikes⟩
  exact h.not (hapart s hs) hstrikes

lemma step_ends (fault : Option Fault) (s : UploadStep) (a : Archive) :
    Ends (step fault s) a (fun _ b => b = a ∧ ¬ Strikes fault s) (fun _ b => b = a ∧ Strikes fault s) := by
  unfold step effect
  cases fault with
  | none => exact ⟨rfl, fun ⟨_, hf, _⟩ => by cases hf⟩
  | some f =>
    by_cases hs : f.step = s
    · simp only [if_pos hs]
      cases f.took <;> exact ⟨rfl, f, rfl, hs⟩
    · simp only [if_neg hs]
      refine ⟨rfl, ?_⟩
      rintro ⟨_, ⟨⟩, h⟩
      exact hs h

lemma step_bind {x : Disk α} (hstrikes : ∀ exn, Strikes fault s → E exn a)
    (hpasses : ¬ Strikes fault s → Ends x a Q E) : Ends (step fault s >>= fun _ => x) a Q E := by
  refine ends_bind.mpr ((step_ends fault s a).imp ?_ ?_)
  · rintro _ _ ⟨rfl, h⟩
    exact hpasses h
  · rintro exn _ ⟨rfl, h⟩
    exact hstrikes exn h

lemma effect_ends (fault : Option Fault) (s : UploadStep) (g : Archive → Archive) (a : Archive) :
    Ends (effect fault s (modify g)) a (fun _ b => b = g a ∧ ¬ Strikes fault s)
      (fun exn b => After fault s g a b ∧ ∃ f ∈ fault, f.step = s ∧ f.exn = exn) := by
  unfold effect
  cases fault with
  | none => exact ⟨rfl, fun ⟨_, hf, _⟩ => by cases hf⟩
  | some f =>
    by_cases hs : f.step = s
    · simp only [if_pos hs]
      cases htook : f.took with
      | true =>
        refine ⟨⟨?_, fun _ => rfl⟩, f, rfl, hs, rfl⟩
        rintro ⟨_, ⟨⟩, -, hlost⟩
        exact absurd htook hlost
      | false =>
        exact ⟨⟨fun _ => rfl, fun h => absurd ⟨f, rfl, hs, by simp [htook]⟩ h⟩, f, rfl, hs, rfl⟩
    · simp only [if_neg hs]
      refine ⟨rfl, ?_⟩
      rintro ⟨_, ⟨⟩, h⟩
      exact hs h

lemma effect_congr (fault : Option Fault) (s : UploadStep) {run run' : Disk Unit}
    (h : run a = run' a) : effect fault s run a = effect fault s run' a := by
  unfold effect
  cases fault with
  | none => exact h
  | some f =>
    simp only
    split
    · split
      · show EStateM.bind run _ a = EStateM.bind run' _ a
        rw [EStateM.bind, EStateM.bind, h]
      · rfl
    · exact h

lemma effect_raises (fault : Option Fault) (s : UploadStep) {run : Disk Unit} {e : Exn}
    (h : run a = .error e a) : Ends (effect fault s run) a (fun _ _ => False)
      (fun exn b => b = a ∧ (exn = e ∨ ∃ f ∈ fault, f.step = s ∧ f.exn = exn)) := by
  have hrun : Ends run a (fun _ _ => False) (fun exn b => b = a ∧ exn = e) := by
    rw [Ends, h]
    exact ⟨rfl, rfl⟩
  unfold effect
  cases fault with
  | none => exact hrun.imp (fun _ _ h => h) (fun _ _ h => ⟨h.1, .inl h.2⟩)
  | some f =>
    simp only
    split
    · next hs =>
      split
      · exact ends_bind.mpr (hrun.imp (fun _ _ h => h.elim) (fun _ _ h => ⟨h.1, .inl h.2⟩))
      · exact ⟨rfl, .inr ⟨f, rfl, hs, rfl⟩⟩
    · exact hrun.imp (fun _ _ h => h) (fun _ _ h => ⟨h.1, .inl h.2⟩)

lemma after_passed (h : ¬ Strikes fault s) (g : Archive → Archive) (a : Archive) :
    After fault s g a (g a) :=
  ⟨fun hlost => absurd hlost.strikes h, fun _ => rfl⟩

lemma missingOk_ends (fault : Option Fault) (s : UploadStep) (g : Archive → Archive) (a : Archive) :
    Ends (missingOk (effect fault s (modify g))) a (fun _ b => After fault s g a b)
      (fun _ b => After fault s g a b ∧ Strikes fault s) := by
  refine ends_catch.mpr ((effect_ends fault s g a).imp ?_ ?_)
  · rintro _ _ ⟨rfl, h⟩
    exact after_passed h g a
  · rintro exn b ⟨hafter, f, hf, hs, -⟩
    split
    · exact hafter
    · exact ⟨hafter, f, hf, hs⟩

end Steps

section Storage

variable {fault : Option Fault} {a b : Archive} {key : StorageKey} {staged : Object}
  {discard : Discard} {removal : Removal}

def Deleted (fault : Option Fault) (removal : Removal) (key : StorageKey) (a b : Archive) : Prop :=
  (LosesRemoval fault removal → b = a) ∧ (¬ LosesRemoval fault removal → b = withoutObject key a)

def removalSteps (removal : Removal) : List UploadStep :=
  [.resolveRemoved removal, .unlinkOriginal removal, .fsyncRemoved removal]

lemma delete_ends (fault : Option Fault) (removal : Removal) (key : StorageKey) (a : Archive) :
    Ends (delete fault removal key) a (fun _ b => Deleted fault removal key a b)
      (fun _ b => Deleted fault removal key a b ∧ StrikesIn fault (removalSteps removal)) := by
  refine step_bind ?_ ?_
  · intro _ hresolve
    exact ⟨⟨fun _ => rfl, fun h => absurd (.inl hresolve) h⟩, _, List.mem_cons_self, hresolve⟩
  · intro hresolve
    have hdeleted : ∀ b, After fault (.unlinkOriginal removal) (withoutObject key) a b →
        Deleted fault removal key a b := by
      intro b hafter
      refine ⟨fun h => hafter.1 (h.resolve_left hresolve), fun h => hafter.2 (fun hlost => h (.inr hlost))⟩
    refine ends_bind.mpr ((missingOk_ends fault (.unlinkOriginal removal) (withoutObject key) a).imp ?_ ?_)
    · intro _ b hafter
      refine (step_ends fault _ b).imp ?_ ?_
      · rintro _ _ ⟨rfl, -⟩
        exact hdeleted _ hafter
      · rintro _ _ ⟨rfl, hfsync⟩
        exact ⟨hdeleted _ hafter, _, by simp [removalSteps], hfsync⟩
    · rintro _ b ⟨hafter, hunlink⟩
      exact ⟨hdeleted _ hafter, _, by simp [removalSteps], hunlink⟩

lemma linkStaged_none {a : Archive} (h : a.objects key = none) (staged : Object) :
    linkStaged key staged a = .ok () (withObject key staged a) := by
  have hlink : linkOriginal a.objects key staged = some (Function.update a.objects key (some staged)) :=
    if_neg (by simp [h])
  unfold linkStaged
  rw [get_bind, hlink]
  rfl

lemma linkStaged_some {a : Archive} (h : (a.objects key).isSome) (staged : Object) :
    linkStaged key staged a = .error fileExists a := by
  have hlink : linkOriginal a.objects key staged = none := if_pos h
  unfold linkStaged
  rw [get_bind, hlink]
  rfl

def Discarded (fault : Option Fault) (discard : Discard) (a b : Archive) : Prop :=
  After fault (.unlinkStaged discard) withoutStaged a b

lemma unlinkStaged_none {a : Archive} (h : a.staged = none) : unlinkStaged a = .error .fileNotFound a := by
  unfold unlinkStaged
  rw [get_bind, h]
  rfl

lemma unlinkStaged_some {a : Archive} {o : Object} (h : a.staged = some o) :
    unlinkStaged a = (modify withoutStaged : Disk Unit) a := by
  unfold unlinkStaged
  rw [get_bind, h]
  rfl

lemma discarded_none {a : Archive} (h : a.staged = none) : Discarded fault discard a a :=
  ⟨fun _ => rfl, fun _ => by rw [withoutStaged, ← h]⟩

lemma unlinkFound_ends (fault : Option Fault) (discard : Discard) (a : Archive) :
    Ends (tryCatch (do effect fault (.unlinkStaged discard) unlinkStaged; pure true)
      (fun exn => if exn = .fileNotFound then pure false else throw exn)) a
      (fun found b => Discarded fault discard a b ∧
        (found = false → a.staged.isSome →
          ∃ f ∈ fault, f.step = .unlinkStaged discard ∧ f.exn = .fileNotFound) ∧
        (found = true → ¬ Strikes fault (.unlinkStaged discard)))
      (fun _ b => Discarded fault discard a b ∧
        ∃ f ∈ fault, f.step = .unlinkStaged discard ∧ f.exn ≠ .fileNotFound) := by
  refine ends_catch.mpr (ends_bind.mpr ?_)
  cases hstaged : a.staged with
  | none =>
    refine (effect_raises fault _ (unlinkStaged_none hstaged)).imp (fun _ _ h => h.elim) ?_
    rintro exn b ⟨rfl, hexn⟩
    have hdiscarded : Discarded fault discard _ _ := discarded_none hstaged
    split
    · exact ⟨hdiscarded, by simp, by simp⟩
    · next hne =>
      obtain ⟨f, hf, hs, hfexn⟩ := hexn.resolve_left hne
      exact ⟨hdiscarded, f, hf, hs, by rwa [hfexn]⟩
  | some o =>
    refine Ends.congr (effect_congr fault _ (unlinkStaged_some hstaged)) ?_
    refine (effect_ends fault _ withoutStaged a).imp ?_ ?_
    · rintro _ _ ⟨rfl, hpassed⟩
      exact ⟨after_passed hpassed _ a, by simp, fun _ => hpassed⟩
    · rintro exn b ⟨hafter, f, hf, hs, rfl⟩
      split
      · next hnotFound => exact ⟨hafter, fun _ _ => ⟨f, hf, hs, hnotFound⟩, by simp⟩
      · next hother => exact ⟨hafter, f, hf, hs, hother⟩

lemma discardStaged_ends (fault : Option Fault) (discard : Discard) (a : Archive) :
    Ends (discardStaged fault discard) a
      (fun _ b => Discarded fault discard a b ∧ (a.staged.isSome → ¬ DiscardRaises fault discard))
      (fun _ b => Discarded fault discard a b ∧ DiscardRaises fault discard) := by
  refine ends_bind.mpr ((unlinkFound_ends fault discard a).imp ?_ ?_)
  · rintro found b ⟨hdiscarded, hmissed, hpassed⟩
    cases found with
    | false =>
      refine ⟨hdiscarded, ?_⟩
      intro hstaged hraises
      obtain ⟨f, hf, hs, hexn⟩ := hmissed rfl hstaged
      rcases hraises with ⟨g, hg, -, hother⟩ | hfsync
      · cases hf
        cases hg
        exact hother hexn
      · cases hfsync.unique ⟨f, hf, hs⟩
    | true =>
      refine (step_ends fault (.fsyncStaging discard) b).imp ?_ ?_
      · rintro _ _ ⟨rfl, hfsync⟩
        refine ⟨hdiscarded, ?_⟩
        rintro - (⟨f, hf, hs, -⟩ | h)
        · exact hpassed rfl ⟨f, hf, hs⟩
        · exact hfsync h
      · rintro _ _ ⟨rfl, hfsync⟩
        exact ⟨hdiscarded, .inr hfsync⟩
  · rintro _ b ⟨hdiscarded, hraises⟩
    exact ⟨hdiscarded, .inl hraises⟩

def putSteps : List UploadStep :=
  [.resolveKey, .ensureDirectory, .link, .readIdentity, .setMode, .unlinkStaged .put,
    .fsyncStaging .put, .fsyncDestination]

/-- The steps of `put_original` after a link that did not find its key free. -/
def comparedSteps : List UploadStep :=
  [.readIdentity, .setMode, .unlinkStaged .put, .fsyncStaging .put]

def OnlyKey (key : StorageKey) (a b : Archive) : Prop :=
  b.db = a.db ∧ ∀ other, other ≠ key → b.objects other = a.objects other

lemma onlyKey_refl (key : StorageKey) (a : Archive) : OnlyKey key a a := ⟨rfl, fun _ _ => rfl⟩

lemma OnlyKey.trans {c : Archive} (h : OnlyKey key a b) (h' : OnlyKey key b c) : OnlyKey key a c :=
  ⟨h'.1.trans h.1, fun other hne => (h'.2 other hne).trans (h.2 other hne)⟩

lemma onlyKey_withObject (key : StorageKey) (staged : Object) (a : Archive) :
    OnlyKey key a (withObject key staged a) :=
  ⟨rfl, fun _ hne => Function.update_of_ne hne _ _⟩

lemma onlyKey_withoutObject (key : StorageKey) (a : Archive) : OnlyKey key a (withoutObject key a) :=
  ⟨rfl, fun _ hne => deleteOriginal_other hne⟩

lemma After.either {s : UploadStep} {g : Archive → Archive} (h : After fault s g a b) :
    (Lost fault s ∧ b = a) ∨ (¬ Lost fault s ∧ b = g a) := by
  by_cases hlost : Lost fault s
  · exact .inl ⟨hlost, h.1 hlost⟩
  · exact .inr ⟨hlost, h.2 hlost⟩

lemma Discarded.same (h : Discarded fault discard a b) : b.db = a.db ∧ b.objects = a.objects := by
  rcases h.either with ⟨-, rfl⟩ | ⟨-, rfl⟩ <;> exact ⟨rfl, rfl⟩

lemma StrikesIn.mono {steps steps' : List UploadStep} (h : StrikesIn fault steps)
    (hsteps : steps ⊆ steps') : StrikesIn fault steps' := by
  obtain ⟨s, hs, hstrikes⟩ := h
  exact ⟨s, hsteps hs, hstrikes⟩

lemma compared_subset_put : comparedSteps ⊆ putSteps := by decide

lemma DiscardRaises.strikesIn (h : DiscardRaises fault .put) : StrikesIn fault comparedSteps := by
  rcases h with ⟨f, hf, hs, -⟩ | h
  · exact ⟨_, by simp [comparedSteps], f, hf, hs⟩
  · exact ⟨_, by simp [comparedSteps], h⟩

/-- The steps of `put_original` from the link on, when the key was free. -/
def linkedSteps : List UploadStep :=
  [.link, .unlinkStaged .put, .fsyncStaging .put, .fsyncDestination]

lemma linked_subset_put : linkedSteps ⊆ putSteps := by decide

lemma StrandsPut.strikesIn (h : StrandsPut fault) : StrikesIn fault linkedSteps := by
  rcases h with ⟨f, hf, hs, -⟩ | (⟨f, hf, hs, -⟩ | h) | h
  · exact ⟨_, by simp [linkedSteps], f, hf, hs⟩
  · exact ⟨_, by simp [linkedSteps], f, hf, hs⟩
  · exact ⟨_, by simp [linkedSteps], h⟩
  · exact ⟨_, by simp [linkedSteps], h⟩

lemma StrandsPut.link {f : Fault} (h : StrandsPut fault) (hf : f ∈ fault) (hlink : f.step = .link) :
    f.took ∧ f.exn ≠ fileExists := by
  have hstrikes : Strikes fault .link := ⟨f, hf, hlink⟩
  rcases h with ⟨g, hg, -, h⟩ | (⟨g, hg, hs, -⟩ | hfsync) | hfsync
  · cases hf
    cases hg
    exact h
  · cases hstrikes.unique ⟨g, hg, hs⟩
  · cases hstrikes.unique hfsync
  · cases hstrikes.unique hfsync

lemma linkFree_ends (fault : Option Fault) {a : Archive} (hfree : a.objects key = none) (staged : Object) :
    Ends (tryCatch (do effect fault .link (linkStaged key staged); pure true)
      (fun exn => if exn = fileExists then pure false else throw exn)) a
      (fun found b => After fault .link (withObject key staged) a b ∧
        (found = true → ¬ Strikes fault .link) ∧
        (found = false → ∃ f ∈ fault, f.step = .link ∧ f.exn = fileExists))
      (fun _ b => After fault .link (withObject key staged) a b ∧
        ∃ f ∈ fault, f.step = .link ∧ f.exn ≠ fileExists) := by
  refine ends_catch.mpr (ends_bind.mpr ?_)
  have hlink : linkStaged key staged a = (modify (withObject key staged) : Disk Unit) a :=
    linkStaged_none hfree staged
  refine Ends.congr (effect_congr fault .link hlink) ?_
  refine (effect_ends fault .link (withObject key staged) a).imp ?_ ?_
  · rintro _ _ ⟨rfl, hpassed⟩
    exact ⟨after_passed hpassed _ a, fun _ => hpassed, by simp⟩
  · rintro exn b ⟨hafter, f, hf, hs, rfl⟩
    split
    · next hexists => exact ⟨hafter, by simp, fun _ => ⟨f, hf, hs, hexists⟩⟩
    · next hother => exact ⟨hafter, f, hf, hs, hother⟩

lemma linkTaken_ends (fault : Option Fault) {a : Archive} (htaken : (a.objects key).isSome)
    (staged : Object) :
    Ends (tryCatch (do effect fault .link (linkStaged key staged); pure true)
      (fun exn => if exn = fileExists then pure false else throw exn)) a
      (fun found b => b = a ∧ found = false) (fun _ b => b = a ∧ Strikes fault .link) := by
  refine ends_catch.mpr (ends_bind.mpr ?_)
  refine (effect_raises fault .link (linkStaged_some htaken staged)).imp (fun _ _ h => h.elim) ?_
  rintro exn b ⟨rfl, hexn⟩
  split
  · exact ⟨rfl, rfl⟩
  · next hne =>
    obtain ⟨f, hf, hs, -⟩ := hexn.resolve_left hne
    exact ⟨rfl, f, hf, hs⟩

lemma linked_ends (fault : Option Fault) {a : Archive} (hstaged : a.staged.isSome) :
    Ends (do discardStaged fault .put; step fault .fsyncDestination) a
      (fun _ b => Discarded fault .put a b ∧ ¬ DiscardRaises fault .put ∧ ¬ Strikes fault .fsyncDestination)
      (fun _ b => Discarded fault .put a b ∧
        (DiscardRaises fault .put ∨ Strikes fault .fsyncDestination)) := by
  refine ends_bind.mpr ((discardStaged_ends fault .put a).imp ?_ ?_)
  · rintro _ b ⟨hdiscarded, hquiet⟩
    refine (step_ends fault .fsyncDestination b).imp ?_ ?_
    · rintro _ _ ⟨rfl, hpassed⟩
      exact ⟨hdiscarded, hquiet hstaged, hpassed⟩
    · rintro _ _ ⟨rfl, hstrikes⟩
      exact ⟨hdiscarded, .inr hstrikes⟩
  · rintro _ b ⟨hdiscarded, hraises⟩
    exact ⟨hdiscarded, .inl hraises⟩

lemma compared_ends (fault : Option Fault) (key : StorageKey) (staged : Object) (a : Archive) :
    Ends (do
      step fault .readIdentity
      lift (compareOriginal (← get).objects key staged)
      step fault .setMode
      discardStaged fault .put) a
      (fun _ b => Discarded fault .put a b ∧ a.objects key = some staged)
      (fun _ b => (StrikesIn fault comparedSteps ∧ b.db = a.db ∧ b.objects = a.objects) ∨
        (b = a ∧ a.objects key ≠ some staged)) := by
  refine step_bind ?_ fun _ => ?_
  · intro _ h
    exact .inl ⟨⟨_, by simp [comparedSteps], h⟩, rfl, rfl⟩
  refine ends_get_bind.mpr (ends_bind.mpr (ends_lift.mpr ⟨?_, ?_⟩))
  · intro _ hsame
    have hobject := compareOriginal_ok hsame
    refine step_bind ?_ fun _ => ?_
    · intro _ h
      exact .inl ⟨⟨_, by simp [comparedSteps], h⟩, rfl, rfl⟩
    refine (discardStaged_ends fault .put a).imp ?_ ?_
    · rintro _ b ⟨hdiscarded, -⟩
      exact ⟨hdiscarded, hobject⟩
    · rintro _ b ⟨hdiscarded, hraises⟩
      exact .inl ⟨hraises.strikesIn, hdiscarded.same⟩
  · intro exn hdiffers
    refine .inr ⟨rfl, ?_⟩
    intro hobject
    rw [compareOriginal, hobject, found_some, ok_bind, require_of rfl] at hdiffers
    cases hdiffers

def PutReturned (fault : Option Fault) (key : StorageKey) (staged : Object) (a b : Archive) : Prop :=
  b.db = a.db ∧ b.objects = (withObject key staged a).objects ∧ ¬ StrandsPut fault ∧
    (b.staged = none ∨ Strikes fault (.unlinkStaged .put))

def PutRaised (fault : Option Fault) (key : StorageKey) (staged : Object) (a b : Archive) : Prop :=
  b.db = a.db ∧ StrikesIn fault putSteps ∧
    (StrandsPut fault → b.objects = (withObject key staged a).objects) ∧
    (¬ StrandsPut fault → b.objects = a.objects)

lemma putRaised_early {s : UploadStep} (hs : s ∈ putSteps) (hfirst : s ∉ linkedSteps)
    (hstrikes : Strikes fault s) : PutRaised fault key staged a a :=
  ⟨rfl, ⟨s, hs, hstrikes⟩, fun h => absurd hstrikes (h.strikesIn.not hfirst), fun _ => rfl⟩

lemma linkMade_ends {a : Archive} (hstaged : a.staged.isSome) (hlink : ¬ Strikes fault .link) :
    Ends (do discardStaged fault .put; step fault .fsyncDestination) (withObject key staged a)
      (fun _ b => PutReturned fault key staged a b) (fun _ b => PutRaised fault key staged a b) := by
  refine (linked_ends fault (a := withObject key staged a) hstaged).imp ?_ ?_
  · rintro _ b ⟨hdiscarded, hquiet, hfsync⟩
    refine ⟨hdiscarded.same.1, hdiscarded.same.2, ?_, ?_⟩
    · rintro (⟨f, hf, hs, -⟩ | h | h)
      · exact hlink ⟨f, hf, hs⟩
      · exact hquiet h
      · exact hfsync h
    · rcases hdiscarded.either with ⟨hlost, -⟩ | ⟨-, rfl⟩
      · exact .inr hlost.strikes
      · exact .inl rfl
  · rintro _ b ⟨hdiscarded, hraises⟩
    have hstrands : StrandsPut fault := .inr hraises
    exact ⟨hdiscarded.same.1, hstrands.strikesIn.mono linked_subset_put,
      fun _ => hdiscarded.same.2, fun h => absurd hstrands h⟩

lemma linkMistaken_ends {a : Archive} (hfree : a.objects key = none) {f : Fault} (hf : f ∈ fault)
    (hlink : f.step = .link) (hexists : f.exn = fileExists)
    (hafter : After fault .link (withObject key staged) a b) :
    Ends (do
      step fault .readIdentity
      lift (compareOriginal (← get).objects key staged)
      step fault .setMode
      discardStaged fault .put) b
      (fun _ c => PutReturned fault key staged a c) (fun _ c => PutRaised fault key staged a c) := by
  have hstrikes : Strikes fault .link := ⟨f, hf, hlink⟩
  have hquiet : ¬ StrandsPut fault := fun h => (h.link hf hlink).2 hexists
  refine (compared_ends fault key staged b).imp ?_ ?_
  · rintro _ c ⟨hdiscarded, hobject⟩
    rcases hafter.either with ⟨-, rfl⟩ | ⟨-, rfl⟩
    · rw [hfree] at hobject
      cases hobject
    · refine ⟨hdiscarded.same.1, hdiscarded.same.2, hquiet, .inl ?_⟩
      rw [hdiscarded.2 (fun hlost => by cases hstrikes.unique hlost.strikes)]
      rfl
  · rintro _ c (⟨hcompared, -⟩ | ⟨rfl, hobject⟩)
    · exact absurd hstrikes (hcompared.not (by decide))
    · rcases hafter.either with ⟨-, rfl⟩ | ⟨-, rfl⟩
      · exact ⟨rfl, ⟨_, by simp [putSteps], hstrikes⟩, fun h => absurd h hquiet, fun _ => rfl⟩
      · have hput : (withObject key staged a).objects key = some staged := Function.update_self _ _ _
        exact absurd hput hobject

lemma linkRaised {f : Fault} (hf : f ∈ fault) (hlink : f.step = .link) (hother : f.exn ≠ fileExists)
    (hafter : After fault .link (withObject key staged) a b) : PutRaised fault key staged a b := by
  have hstrikes : StrikesIn fault putSteps := ⟨.link, by simp [putSteps], f, hf, hlink⟩
  rcases hafter.either with ⟨⟨g, hg, -, hnot⟩, rfl⟩ | ⟨htook, rfl⟩
  · refine ⟨rfl, hstrikes, fun h => ?_, fun _ => rfl⟩
    cases hf
    cases hg
    exact absurd (h.link rfl hlink).1 hnot
  · have hstrands : StrandsPut fault :=
      .inl ⟨f, hf, hlink, by_contra fun hnot => htook ⟨f, hf, hlink, hnot⟩, hother⟩
    exact ⟨rfl, hstrikes, fun _ => rfl, fun h => absurd hstrands h⟩

lemma putOriginal_free {a : Archive} (hfree : a.objects key = none) (hstaged : a.staged.isSome)
    (staged : Object) :
    Ends (putOriginal fault key staged) a
      (fun _ b => PutReturned fault key staged a b) (fun _ b => PutRaised fault key staged a b) := by
  refine step_bind (fun _ => putRaised_early (by decide) (by decide)) fun _ => ?_
  refine step_bind (fun _ => putRaised_early (by decide) (by decide)) fun _ => ?_
  refine ends_bind.mpr ((linkFree_ends fault hfree staged).imp ?_ ?_)
  · rintro found b ⟨hafter, hlinked, hmistaken⟩
    cases found with
    | true =>
      have hlink := hlinked rfl
      obtain rfl := hafter.2 (fun hlost => hlink hlost.strikes)
      exact linkMade_ends hstaged hlink
    | false =>
      obtain ⟨f, hf, hlink, hexists⟩ := hmistaken rfl
      exact linkMistaken_ends hfree hf hlink hexists hafter
  · rintro exn b ⟨hafter, f, hf, hlink, hother⟩
    exact linkRaised hf hlink hother hafter

def Conflict (key : StorageKey) (staged : Object) (objects : Objects) : Prop :=
  ∃ o, objects key = some o ∧ o ≠ staged

lemma onlyKey_of_objects (staged : Object) (hdb : b.db = a.db)
    (h : b.objects = (withObject key staged a).objects ∨ b.objects = a.objects) : OnlyKey key a b := by
  refine ⟨hdb, fun other hne => ?_⟩
  rcases h with h | h
  · rw [h, (onlyKey_withObject key staged a).2 other hne]
  · rw [h]

lemma putOriginal_any {a : Archive} (hstaged : a.staged.isSome) (key : StorageKey) (staged : Object) :
    Ends (putOriginal fault key staged) a
      (fun _ b => OnlyKey key a b ∧ (¬ StrikesIn fault putSteps → ¬ Conflict key staged a.objects))
      (fun _ b => OnlyKey key a b ∧
        (¬ StrikesIn fault putSteps → Conflict key staged a.objects ∧ b = a)) := by
  cases hobject : a.objects key with
  | none =>
    refine (putOriginal_free hobject hstaged staged).imp ?_ ?_
    · rintro _ b ⟨hdb, hobjects, -⟩
      refine ⟨onlyKey_of_objects staged hdb (.inl hobjects), ?_⟩
      rintro - ⟨o, ho, -⟩
      rw [hobject] at ho
      cases ho
    · rintro _ b ⟨hdb, hstrikes, hstranded, hquiet⟩
      refine ⟨onlyKey_of_objects staged hdb ?_, fun h => absurd hstrikes h⟩
      by_cases h : StrandsPut fault
      · exact .inl (hstranded h)
      · exact .inr (hquiet h)
  | some o =>
    have hearly : ∀ s ∈ putSteps, Strikes fault s → OnlyKey key a a ∧
        (¬ StrikesIn fault putSteps → Conflict key staged a.objects ∧ a = a) :=
      fun s hs h => ⟨onlyKey_refl key a, fun hquiet => absurd ⟨s, hs, h⟩ hquiet⟩
    refine step_bind (fun _ => hearly _ (by decide)) fun _ => ?_
    refine step_bind (fun _ => hearly _ (by decide)) fun _ => ?_
    refine ends_bind.mpr ((linkTaken_ends fault (by rw [hobject]; rfl) staged).imp ?_ ?_)
    · rintro _ _ ⟨rfl, rfl⟩
      refine (compared_ends fault key staged _).imp ?_ ?_
      · rintro _ b ⟨hdiscarded, hsame⟩
        refine ⟨onlyKey_of_objects staged hdiscarded.same.1 (.inr hdiscarded.same.2), ?_⟩
        rintro - ⟨o', ho', hne⟩
        rw [hsame] at ho'
        cases ho'
        exact hne rfl
      · rintro _ b (⟨hstrikes, hdb, hobjects⟩ | ⟨rfl, hdiffers⟩)
        · exact ⟨onlyKey_of_objects staged hdb (.inr hobjects),
            fun h => absurd (hstrikes.mono compared_subset_put) h⟩
        · refine ⟨onlyKey_refl key _, fun _ => ⟨⟨o, hobject, ?_⟩, rfl⟩⟩
          rintro rfl
          exact hdiffers hobject
    · rintro _ _ ⟨rfl, hlink⟩
      exact hearly _ (by decide) hlink

lemma LosesRemoval.strikesIn (h : LosesRemoval fault removal) :
    StrikesIn fault (removalSteps removal) := by
  rcases h with h | h
  · exact ⟨_, by simp [removalSteps], h⟩
  · exact ⟨_, by simp [removalSteps], h.strikes⟩

lemma Deleted.frame (h : Deleted fault removal key a b) : OnlyKey key a b ∧ b.staged = a.staged := by
  by_cases hloses : LosesRemoval fault removal
  · rw [h.1 hloses]
    exact ⟨onlyKey_refl key a, rfl⟩
  · rw [h.2 hloses]
    exact ⟨onlyKey_withoutObject key a, rfl⟩

lemma Deleted.gone (h : Deleted fault removal key a b) (hkeeps : ¬ LosesRemoval fault removal) :
    b.objects key = none := by
  rw [h.2 hkeeps]
  exact deleteOriginal_same a.objects key

end Storage

end AudioServer.Services.StorageFaults
