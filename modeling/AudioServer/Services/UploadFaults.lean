import AudioServer.Services.StorageFaults

/-! When a browser upload that raises leaves nothing behind. -/

namespace AudioServer.Services.UploadFaults

open AudioServer.Foundations.Effects AudioServer.Foundations.Outcomes AudioServer.Db.Models
open AudioServer.Services.Recordings AudioServer.Services.Storage AudioServer.Services.Uploads
open AudioServer.Services.Interleaving AudioServer.Services.DeletedAudio
open AudioServer.Services.BrowserUpload AudioServer.Services.StorageFaults

section Create

variable {fault : Option Fault} {web : WebService} {upload : WebUpload} {a : Archive}
  {key : StorageKey} {probe : AudioProbe}

def createSteps : List UploadStep := [.beginCreate, .flush, .appendActivity, .commit]

def recoverySteps : List UploadStep :=
  [.openRecovery, .selectRecovery, .selectOwner] ++ removalSteps .unreferenced

def Unowned (key : StorageKey) (db : Database) : Prop := ∀ r ∈ db.recordings, r.storageKey ≠ key

lemma createRows_ends (fault : Option Fault) (web : WebService) (upload : WebUpload) (row : Recording)
    (a : Archive) : Ends (createRows fault web upload row) a (fun _ _ => True)
      (fun exn b => b.objects = a.objects ∧ b.staged = a.staged ∧
        (¬ StrikesIn fault createSteps → b = a ∧ ∃ constraint, exn = .integrityError constraint)) := by
  have hearly : ∀ s ∈ createSteps, ∀ exn : Exn, Strikes fault s → a.objects = a.objects ∧
      a.staged = a.staged ∧ (¬ StrikesIn fault createSteps →
        a = a ∧ ∃ constraint, exn = .integrityError constraint) :=
    fun s hs _ h => ⟨rfl, rfl, fun hquiet => absurd ⟨s, hs, h⟩ hquiet⟩
  refine step_bind (hearly _ (by decide)) fun _ => ?_
  refine step_bind (hearly _ (by decide)) fun _ => ?_
  refine ends_get_bind.mpr (ends_bind.mpr (ends_lift.mpr ⟨?_, ?_⟩))
  · rintro ⟨recording, db⟩ -
    refine step_bind (hearly _ (by decide)) fun _ => ?_
    refine ends_bind.mpr ((effect_ends fault .commit (fun a => { a with db := db }) a).imp ?_ ?_)
    · exact fun _ _ _ => trivial
    · rintro exn b ⟨hafter, f, hf, hs, -⟩
      have hstrikes : StrikesIn fault createSteps := ⟨.commit, by decide, f, hf, hs⟩
      rcases hafter.either with ⟨-, rfl⟩ | ⟨-, rfl⟩
      · exact ⟨rfl, rfl, fun h => absurd hstrikes h⟩
      · exact ⟨rfl, rfl, fun h => absurd hstrikes h⟩
  · intro exn hfails
    exact ⟨rfl, rfl, fun _ => ⟨rfl, createRecordingAndJob_error web.maxAttempts_pos hfails⟩⟩

lemma deleteIfUnreferenced_ends (fault : Option Fault) (key : StorageKey) (a : Archive) :
    Ends (deleteIfUnreferenced fault key) a
      (fun _ b => (OnlyKey key a b ∧ b.staged = a.staged) ∧
        (¬ StrikesIn fault recoverySteps → Unowned key a.db → b.objects key = none))
      (fun _ b => (OnlyKey key a b ∧ b.staged = a.staged) ∧ StrikesIn fault recoverySteps) := by
  have hsteps : removalSteps .unreferenced ⊆ recoverySteps := by decide
  refine step_bind ?_ fun _ => ?_
  · exact fun _ h => ⟨⟨onlyKey_refl key a, rfl⟩, _, by decide, h⟩
  refine ends_get_bind.mpr ?_
  split
  · next howner =>
    refine ⟨⟨onlyKey_refl key a, rfl⟩, fun _ hunowned => ?_⟩
    obtain ⟨r, hr, hkey⟩ := List.any_eq_true.mp howner
    exact absurd (of_decide_eq_true hkey) (hunowned r hr)
  · refine (delete_ends fault .unreferenced key a).imp ?_ ?_
    · intro _ b hdeleted
      refine ⟨hdeleted.frame, fun hquiet _ => hdeleted.gone ?_⟩
      exact fun hloses => hquiet (hloses.strikesIn.mono hsteps)
    · rintro _ b ⟨hdeleted, hstrikes⟩
      exact ⟨hdeleted.frame, hstrikes.mono hsteps⟩

lemma recoverDuplicate_ends (fault : Option Fault) (upload : WebUpload) (key : StorageKey) (exn : Exn)
    (a : Archive) : Ends (recoverDuplicate fault upload key exn) a (fun _ _ => True)
      (fun _ b => (OnlyKey key a b ∧ b.staged = a.staged) ∧ (¬ StrikesIn fault recoverySteps →
        (∃ constraint, exn = .integrityError constraint) → Unowned key a.db → b.objects key = none)) := by
  have hearly : ∀ s ∈ recoverySteps, Strikes fault s → (OnlyKey key a a ∧ a.staged = a.staged) ∧
      (¬ StrikesIn fault recoverySteps → (∃ constraint, exn = .integrityError constraint) →
        Unowned key a.db → a.objects key = none) :=
    fun s hs h => ⟨⟨onlyKey_refl key a, rfl⟩, fun hquiet => absurd ⟨s, hs, h⟩ hquiet⟩
  unfold recoverDuplicate
  split
  · next constraint =>
    refine step_bind (fun _ => hearly _ (by decide)) fun _ => ?_
    refine step_bind (fun _ => hearly _ (by decide)) fun _ => ?_
    refine ends_get_bind.mpr ?_
    split
    · refine ends_bind.mpr ((deleteIfUnreferenced_ends fault key a).imp ?_ ?_)
      · exact fun _ _ _ => trivial
      · rintro _ b ⟨hframe, hstrikes⟩
        exact ⟨hframe, fun hquiet => absurd hstrikes hquiet⟩
    · refine ends_bind.mpr ((deleteIfUnreferenced_ends fault key a).imp ?_ ?_)
      · rintro _ b ⟨hframe, hgone⟩
        exact ⟨hframe, fun hquiet _ => hgone hquiet⟩
      · rintro _ b ⟨hframe, hstrikes⟩
        exact ⟨hframe, fun hquiet => absurd hstrikes hquiet⟩
  · next hother =>
    refine ⟨⟨onlyKey_refl key a, rfl⟩, ?_⟩
    rintro - ⟨constraint, rfl⟩
    exact absurd rfl (hother constraint)

def DatesOverflow (web : WebService) (upload : WebUpload) (probe : AudioProbe) : Prop :=
  ∃ exn, rowDates web upload probe = .error exn

lemma createWeb_ends (fault : Option Fault) (web : WebService) (upload : WebUpload) (probe : AudioProbe)
    (hunowned : Unowned key a.db) :
    Ends (createWebRecordingAndJob fault web upload probe key) a
      (fun _ _ => ¬ DatesOverflow web upload probe)
      (fun _ b => b.staged = a.staged ∧ (∀ other, other ≠ key → b.objects other = a.objects other) ∧
        (DatesOverflow web upload probe → b = a) ∧
        (¬ DatesOverflow web upload probe → LosesRemoval fault .compensation → b.objects key = none)) := by
  refine ends_bind.mpr (ends_lift.mpr ⟨?_, ?_⟩)
  · intro dates hdates
    have hfits : ¬ DatesOverflow web upload probe := by
      rintro ⟨exn, hexn⟩
      cases hdates.symm.trans hexn
    refine ends_catch.mpr ((createRows_ends fault web upload (webRow upload probe key) a).imp ?_ ?_)
    · exact fun _ _ _ => hfits
    · rintro exn b ⟨hobjects, hstaged, hnatural⟩
      refine (recoverDuplicate_ends fault upload key exn b).imp (fun _ _ _ => hfits) ?_
      rintro _ c ⟨⟨hframe, hsame⟩, hgone⟩
      refine ⟨hsame.trans hstaged, ?_, fun h => absurd h hfits, ?_⟩
      · intro other hne
        rw [hframe.2 other hne, hobjects]
      · intro _ hloses
        have hcompensation := hloses.strikesIn
        obtain ⟨rfl, hintegrity⟩ := hnatural (hcompensation.apart (by decide))
        exact hgone (hcompensation.apart (by decide)) hintegrity hunowned
  · intro exn hoverflow
    exact ⟨rfl, fun _ _ => rfl, fun _ => rfl, fun h => absurd ⟨exn, hoverflow⟩ h⟩

def Owned (key : StorageKey) (a : Archive) : Prop :=
  ∃ r ∈ a.db.recordings, r.storageKey = key ∧ a.objects key = some ⟨r.fileSize, r.sha256⟩

def Uncompensated (fault : Option Fault) (web : WebService) (upload : WebUpload) (probe : AudioProbe) :
    Prop :=
  DatesOverflow web upload probe ∧ LosesRemoval fault .compensation

/-- Between the link and the end of the upload the fault leaves the object without a row. -/
def Orphans (fault : Option Fault) (web : WebService) (upload : WebUpload) (probe : AudioProbe) : Prop :=
  StrandsPut fault ∨ Uncompensated fault web upload probe

lemma compensated_ends (fault : Option Fault) (web : WebService) (upload : WebUpload)
    (probe : AudioProbe) (hunowned : Unowned key a.db) :
    Ends (tryCatch (createWebRecordingAndJob fault web upload probe key) (fun exn => do
        delete fault .compensation key
        throw exn)) a
      (fun _ _ => ¬ Uncompensated fault web upload probe)
      (fun _ b => b.staged = a.staged ∧ (∀ other, other ≠ key → b.objects other = a.objects other) ∧
        (Uncompensated fault web upload probe → b = a) ∧
        (¬ Uncompensated fault web upload probe → b.objects key = none)) := by
  refine ends_catch.mpr ((createWeb_ends fault web upload probe hunowned).imp ?_ ?_)
  · rintro _ _ hfits ⟨hoverflow, -⟩
    exact hfits hoverflow
  · rintro exn b ⟨hstaged, hothers, hoverflow, hfits⟩
    have hremoved : ∀ c, Deleted fault .compensation key b c →
        c.staged = a.staged ∧ (∀ other, other ≠ key → c.objects other = a.objects other) ∧
          (Uncompensated fault web upload probe → c = a) ∧
          (¬ Uncompensated fault web upload probe → c.objects key = none) := by
      intro c hdeleted
      obtain ⟨hframe, hcstaged⟩ := hdeleted.frame
      refine ⟨hcstaged.trans hstaged, ?_, ?_, ?_⟩
      · intro other hne
        rw [hframe.2 other hne, hothers other hne]
      · rintro ⟨hdates, hloses⟩
        exact (hdeleted.1 hloses).trans (hoverflow hdates)
      · intro hcompensated
        by_cases hloses : LosesRemoval fault .compensation
        · obtain rfl := hdeleted.1 hloses
          exact hfits (fun hdates => hcompensated ⟨hdates, hloses⟩) hloses
        · exact hdeleted.gone hloses
    refine ends_bind.mpr ((delete_ends fault .compensation key b).imp ?_ ?_)
    · exact fun _ c hdeleted => hremoved c hdeleted
    · exact fun _ c hdeleted => hremoved c hdeleted.1

lemma publish_ends (fault : Option Fault) (web : WebService) (upload : WebUpload) (probe : AudioProbe)
    (hfree : a.objects key = none) (hunowned : Unowned key a.db) (hstaged : a.staged.isSome) :
    Ends (publish fault web upload probe key) a (fun _ _ => ¬ Orphans fault web upload probe)
      (fun _ b => (∀ other, other ≠ key → b.objects other = a.objects other) ∧
        (Strikes fault (.unlinkStaged .cleanup) → b.staged = none) ∧
        (Orphans fault web upload probe ↔ ¬ (b.objects key = none ∨ Owned key b))) := by
  have horphan : ∀ b : Archive, b.db = a.db → b.objects = (withObject key upload.staged a).objects →
      ¬ (b.objects key = none ∨ Owned key b) := by
    rintro b hdb hobjects (h | ⟨r, hr, hkey, -⟩)
    · rw [hobjects] at h
      simp [withObject] at h
    · exact hunowned r (hdb ▸ hr) hkey
  refine ends_bind.mpr ((putOriginal_free hfree hstaged upload.staged).imp ?_ ?_)
  · rintro _ b ⟨hdb, hobjects, hquiet, hdiscarded⟩
    have hothers : ∀ other, other ≠ key → b.objects other = a.objects other := by
      intro other hne
      rw [hobjects, (onlyKey_withObject key upload.staged a).2 other hne]
    have hcleared : Strikes fault (.unlinkStaged .cleanup) → b.staged = none := by
      intro hcleanup
      exact hdiscarded.resolve_right (fun hput => by cases hcleanup.unique hput)
    refine (compensated_ends fault web upload probe (hdb ▸ hunowned)).imp ?_ ?_
    · rintro _ _ hcompensated (hput | huncompensated)
      · exact hquiet hput
      · exact hcompensated huncompensated
    · rintro _ c ⟨hcstaged, hcothers, hkept, hgone⟩
      refine ⟨fun other hne => (hcothers other hne).trans (hothers other hne), ?_, ?_⟩
      · intro hcleanup
        rw [hcstaged, hcleared hcleanup]
      · by_cases huncompensated : Uncompensated fault web upload probe
        · obtain rfl := hkept huncompensated
          exact iff_of_true (.inr huncompensated) (horphan _ hdb hobjects)
        · refine iff_of_false ?_ (fun h => h (.inl (hgone huncompensated)))
          rintro (hput | h)
          · exact hquiet hput
          · exact huncompensated h
  · rintro _ b ⟨hdb, hstrikes, hstranded, hquiet⟩
    have hkeeps : ¬ LosesRemoval fault .compensation :=
      fun h => hstrikes.apart (by decide) h.strikesIn
    refine ⟨?_, fun hcleanup => absurd hcleanup (hstrikes.not (by decide)), ?_⟩
    · intro other hne
      by_cases hput : StrandsPut fault
      · rw [hstranded hput, (onlyKey_withObject key upload.staged a).2 other hne]
      · rw [hquiet hput]
    · by_cases hput : StrandsPut fault
      · exact iff_of_true (.inl hput) (horphan b hdb (hstranded hput))
      · refine iff_of_false ?_ (fun h => h (.inl (by rw [hquiet hput, hfree])))
        rintro (h | ⟨-, h⟩)
        · exact hput h
        · exact hkeeps h

end Create

section Ingest

variable {fault : Option Fault} {web : WebService} {upload : WebUpload} {s : Store} {a b c : Archive}

def Fresh (identifier : RecordingId) (s : Store) : Prop :=
  ∀ key, key.recordingId = identifier → s.objects key = none ∧ Unowned key s.db

def KeysClear (identifier : RecordingId) (a : Archive) : Prop :=
  ∀ key, key.recordingId = identifier → a.objects key = none ∨ Owned key a

def LeavesNothing (identifier : RecordingId) (a : Archive) : Prop :=
  a.staged = none ∧ KeysClear identifier a

def Fits (web : WebService) (upload : WebUpload) : Prop :=
  upload.staged.fileSize ≤ web.service.maxUploadBytes

instance (web : WebService) (upload : WebUpload) : Decidable (Fits web upload) :=
  inferInstanceAs (Decidable (_ ≤ _))

def Refuses (web : WebService) (upload : WebUpload) (s : Store) : Prop :=
  (∃ exn, checkedProbe web upload = .error exn) ∨ ∃ probe, checkedProbe web upload = .ok probe ∧
    ((∃ d, findWebDuplicate s.db upload.staged.sha256 = some d ∧
        Conflict d.storageKey upload.staged s.objects) ∨
      (findWebDuplicate s.db upload.staged.sha256 = none ∧ ∃ exn, finalKey upload probe = .error exn))

def Publishes (web : WebService) (upload : WebUpload) (s : Store) (probe : AudioProbe) : Prop :=
  checkedProbe web upload = .ok probe ∧ findWebDuplicate s.db upload.staged.sha256 = none ∧
    ∃ key, finalKey upload probe = .ok key

def Orphaned (fault : Option Fault) (web : WebService) (upload : WebUpload) (s : Store) : Prop :=
  ∃ probe, Publishes web upload s probe ∧ Orphans fault web upload probe

def StagingStrands (fault : Option Fault) (web : WebService) (upload : WebUpload) : Prop :=
  (∃ f ∈ fault, f.step = .mkstemp ∧ f.took) ∨ (¬ Fits web upload ∧ Lost fault .unlinkPartial)

def Strands (fault : Option Fault) (web : WebService) (upload : WebUpload) (s : Store) : Prop :=
  upload.startedAt ≠ some .naive ∧ (StagingStrands fault web upload ∨ (Fits web upload ∧
    ((Refuses web upload s ∧ Lost fault (.unlinkStaged .cleanup)) ∨ Orphaned fault web upload s)))

def afterStaging (upload : WebUpload) (s : Store) : Archive := ⟨s.db, s.objects, some upload.staged⟩

lemma keysClear_of_others {key : StorageKey} (hfresh : Fresh upload.identifier s)
    (hothers : ∀ other, other ≠ key → b.objects other = s.objects other)
    (hkey : b.objects key = none ∨ Owned key b) : KeysClear upload.identifier b := by
  intro other hother
  by_cases hne : other = key
  · rwa [hne]
  · exact .inl ((hothers other hne).trans (hfresh other hother).1)

lemma keysClear_afterStaging (hfresh : Fresh upload.identifier s) :
    KeysClear upload.identifier (afterStaging upload s) :=
  fun key hkey => .inl (hfresh key hkey).1

lemma finalKey_ok {probe : AudioProbe} {key : StorageKey} (h : finalKey upload probe = .ok key) :
    key.recordingId = upload.identifier := by
  obtain ⟨-, rfl⟩ := originalStorageKey_ok.mp h
  rfl

lemma Orphaned.strikesIn (h : Orphaned fault web upload s) :
    StrikesIn fault (linkedSteps ++ removalSteps .compensation) := by
  obtain ⟨probe, -, hput | ⟨-, hloses⟩⟩ := h
  · exact hput.strikesIn.mono (List.subset_append_left _ _)
  · exact hloses.strikesIn.mono (List.subset_append_right _ _)

def lookupSteps : List UploadStep := [.openLookup, .selectDuplicate, .closeLookup]

section Course

variable {probe : AudioProbe} {duplicate : Recording} {key : StorageKey}

lemma refuses_duplicate (hprobe : checkedProbe web upload = .ok probe)
    (hduplicate : findWebDuplicate s.db upload.staged.sha256 = some duplicate) :
    Refuses web upload s ↔ Conflict duplicate.storageKey upload.staged s.objects := by
  constructor
  · rintro (⟨exn, hexn⟩ | ⟨_, -, ⟨d, hd, hconflict⟩ | ⟨hnone, -⟩⟩)
    · cases hprobe.symm.trans hexn
    · cases hduplicate.symm.trans hd
      exact hconflict
    · cases hduplicate.symm.trans hnone
  · exact fun h => .inr ⟨probe, hprobe, .inl ⟨duplicate, hduplicate, h⟩⟩

lemma refuses_new (hprobe : checkedProbe web upload = .ok probe)
    (hnone : findWebDuplicate s.db upload.staged.sha256 = none) :
    Refuses web upload s ↔ ∃ exn, finalKey upload probe = .error exn := by
  constructor
  · rintro (⟨exn, hexn⟩ | ⟨probe', hprobe', ⟨d, hd, -⟩ | ⟨-, hkey⟩⟩)
    · cases hprobe.symm.trans hexn
    · cases hnone.symm.trans hd
    · cases hprobe.symm.trans hprobe'
      exact hkey
  · exact fun h => .inr ⟨probe, hprobe, .inr ⟨hnone, h⟩⟩

lemma orphaned_iff (hprobe : checkedProbe web upload = .ok probe)
    (hnone : findWebDuplicate s.db upload.staged.sha256 = none) (hkey : finalKey upload probe = .ok key) :
    Orphaned fault web upload s ↔ Orphans fault web upload probe := by
  constructor
  · rintro ⟨_, ⟨hprobe', -⟩, h⟩
    cases hprobe.symm.trans hprobe'
    exact h
  · exact fun h => ⟨probe, ⟨hprobe, hnone, key, hkey⟩, h⟩

def Accounted (fault : Option Fault) (web : WebService) (upload : WebUpload) (s : Store)
    (b : Archive) : Prop :=
  (Orphaned fault web upload s ↔ ¬ KeysClear upload.identifier b) ∧
    (Strikes fault (.unlinkStaged .cleanup) → (Refuses web upload s ↔ b.staged ≠ none))

def Unharmed (fault : Option Fault) (web : WebService) (upload : WebUpload) (s : Store) : Prop :=
  ¬ Orphaned fault web upload s ∧ (Strikes fault (.unlinkStaged .cleanup) → ¬ Refuses web upload s)

lemma accounted_lookup (hclear : KeysClear upload.identifier b) {t : UploadStep}
    (ht : t ∈ lookupSteps) (hstrikes : Strikes fault t) : Accounted fault web upload s b := by
  have hin : StrikesIn fault lookupSteps := ⟨t, ht, hstrikes⟩
  refine ⟨iff_of_false (fun h => hin.apart (by decide) h.strikesIn) (fun h => h hclear), ?_⟩
  exact fun hcleanup => absurd hcleanup (hin.not (by decide))

lemma accounted_refused (hfresh : Fresh upload.identifier s) (hunpublished : ¬ Orphaned fault web upload s)
    (hrefuses : Refuses web upload s) : Accounted fault web upload s (afterStaging upload s) :=
  ⟨iff_of_false hunpublished (fun h => h (keysClear_afterStaging hfresh)), fun _ =>
    iff_of_true hrefuses (by simp [afterStaging])⟩

lemma duplicate_ends (hfresh : Fresh upload.identifier s) (hprobe : checkedProbe web upload = .ok probe)
    (hduplicate : findWebDuplicate s.db upload.staged.sha256 = some duplicate) :
    Ends (do
      putOriginal fault duplicate.storageKey upload.staged
      step fault .closeLookup
      pure (⟨duplicate, true⟩ : IngestResult)) (afterStaging upload s)
      (fun _ _ => Unharmed fault web upload s) (fun _ b => Accounted fault web upload s b) := by
  have hforeign : ∀ key, key.recordingId = upload.identifier → key ≠ duplicate.storageKey := by
    rintro key hkey rfl
    exact (hfresh _ hkey).2 duplicate (List.mem_of_find?_eq_some hduplicate) rfl
  have hkept : ∀ b, OnlyKey duplicate.storageKey (afterStaging upload s) b →
      KeysClear upload.identifier b :=
    fun b hframe key hkey => .inl ((hframe.2 key (hforeign key hkey)).trans (hfresh key hkey).1)
  have hunpublished : ¬ Orphaned fault web upload s := by
    rintro ⟨_, ⟨-, hnone, -⟩, -⟩
    cases hduplicate.symm.trans hnone
  have hquiet : Strikes fault (.unlinkStaged .cleanup) → ¬ StrikesIn fault putSteps :=
    fun hcleanup hput => hput.not (by decide) hcleanup
  have hrefuses : Refuses web upload s ↔ Conflict duplicate.storageKey upload.staged s.objects :=
    refuses_duplicate hprobe hduplicate
  refine ends_bind.mpr ((putOriginal_any (by rfl) duplicate.storageKey upload.staged).imp ?_ ?_)
  · rintro _ b ⟨hframe, hagrees⟩
    refine step_bind (fun _ => accounted_lookup (hkept b hframe) (by decide)) fun _ => ?_
    refine ⟨hunpublished, fun hcleanup => ?_⟩
    rw [hrefuses]
    exact hagrees (hquiet hcleanup)
  · rintro _ b ⟨hframe, hconflict⟩
    refine ⟨iff_of_false hunpublished (fun h => h (hkept b hframe)), fun hcleanup => ?_⟩
    obtain ⟨hdiffers, rfl⟩ := hconflict (hquiet hcleanup)
    exact iff_of_true (hrefuses.mpr hdiffers) (by simp [afterStaging])

lemma newRecording_ends (hfresh : Fresh upload.identifier s)
    (hprobe : checkedProbe web upload = .ok probe)
    (hnone : findWebDuplicate s.db upload.staged.sha256 = none) :
    Ends (do
      step fault .closeLookup
      let key ← lift (finalKey upload probe)
      publish fault web upload probe key) (afterStaging upload s)
      (fun _ _ => Unharmed fault web upload s) (fun _ b => Accounted fault web upload s b) := by
  have hclear : KeysClear upload.identifier (afterStaging upload s) := keysClear_afterStaging hfresh
  refine step_bind (fun _ => accounted_lookup hclear (by decide)) fun _ => ?_
  refine ends_bind.mpr (ends_lift.mpr ⟨?_, ?_⟩)
  · intro key hkey
    obtain ⟨hfree, hunowned⟩ := hfresh key (finalKey_ok hkey)
    have horphaned : Orphaned fault web upload s ↔ Orphans fault web upload probe :=
      orphaned_iff hprobe hnone hkey
    have haccepts : ¬ Refuses web upload s := by
      rw [refuses_new hprobe hnone]
      rintro ⟨exn, hexn⟩
      cases hkey.symm.trans hexn
    have hpublished := publish_ends (a := afterStaging upload s) fault web upload probe hfree hunowned
      (by rfl)
    refine hpublished.imp ?_ ?_
    · intro _ _ hquiet
      exact ⟨fun h => hquiet (horphaned.mp h), fun _ => haccepts⟩
    · rintro _ b ⟨hothers, hcleared, horphans⟩
      rw [Accounted, horphaned, horphans]
      refine ⟨not_congr ⟨keysClear_of_others hfresh hothers, fun h => h key (finalKey_ok hkey)⟩, ?_⟩
      exact fun hcleanup => iff_of_false haccepts (fun h => h (hcleared hcleanup))
  · intro exn hkey
    have hunpublished : ¬ Orphaned fault web upload s := by
      rintro ⟨_, ⟨hprobe', -, key, hkey'⟩, -⟩
      cases hprobe.symm.trans hprobe'
      cases hkey.symm.trans hkey'
    exact accounted_refused hfresh hunpublished ((refuses_new hprobe hnone).mpr ⟨exn, hkey⟩)

end Course

lemma ingestStaged_ends (hfresh : Fresh upload.identifier s) :
    Ends (ingestStaged fault web upload) (afterStaging upload s)
      (fun _ _ => Unharmed fault web upload s) (fun _ b => Accounted fault web upload s b) := by
  have hclear : KeysClear upload.identifier (afterStaging upload s) := keysClear_afterStaging hfresh
  refine ends_bind.mpr (ends_lift.mpr ⟨?_, ?_⟩)
  · intro probe hprobe
    refine step_bind (fun _ => accounted_lookup hclear (by decide)) fun _ => ?_
    refine step_bind (fun _ => accounted_lookup hclear (by decide)) fun _ => ?_
    refine ends_get_bind.mpr ?_
    split
    · next duplicate hduplicate => exact duplicate_ends hfresh hprobe hduplicate
    · next hnone => exact newRecording_ends hfresh hprobe hnone
  · intro exn hprobe
    have hunpublished : ¬ Orphaned fault web upload s := by
      rintro ⟨_, ⟨hprobe', -⟩, -⟩
      cases hprobe.symm.trans hprobe'
    exact accounted_refused hfresh hunpublished (.inl ⟨exn, hprobe⟩)

def writeSteps : List UploadStep := [.openStaged, .writeStaged, .fsyncStaged, .fsyncNew]

def stagingSteps : List UploadStep := .mkstemp :: writeSteps

lemma writes_ends (fault : Option Fault) (web : WebService) (upload : WebUpload) (a : Archive) :
    Ends (do
      step fault .openStaged
      step fault .writeStaged
      lift (createStagedUpload web.service upload.staged)
      step fault .fsyncStaged
      step fault .fsyncNew) a (fun _ b => b = a ∧ Fits web upload)
      (fun _ b => b = a ∧ (StrikesIn fault writeSteps ∨ ¬ Fits web upload)) := by
  have hearly : ∀ t ∈ writeSteps, Strikes fault t →
      a = a ∧ (StrikesIn fault writeSteps ∨ ¬ Fits web upload) := fun t ht h => ⟨rfl, .inl ⟨t, ht, h⟩⟩
  refine step_bind (fun _ => hearly _ (by decide)) fun _ => ?_
  refine step_bind (fun _ => hearly _ (by decide)) fun _ => ?_
  refine ends_bind.mpr (ends_lift.mpr ⟨?_, ?_⟩)
  · intro _ hfits
    refine step_bind (fun _ => hearly _ (by decide)) fun _ => ?_
    refine (step_ends fault .fsyncNew a).imp ?_ ?_
    · rintro _ _ ⟨rfl, -⟩
      exact ⟨rfl, require_ok.mp hfits⟩
    · rintro _ _ ⟨rfl, h⟩
      exact hearly _ (by decide) h
  · intro _ hrefused
    refine ⟨rfl, .inr fun hfits => ?_⟩
    have hsize : upload.staged.fileSize ≤ web.service.maxUploadBytes := hfits
    rw [createStagedUpload, require_of hsize] at hrefused
    cases hrefused

lemma createStaged_ends (fault : Option Fault) (web : WebService) (upload : WebUpload) (s : Store) :
    Ends (createStaged fault web upload) (.before s)
      (fun _ b => b = afterStaging upload s ∧ Fits web upload ∧ ¬ StagingStrands fault web upload)
      (fun _ b => (b.db = s.db ∧ b.objects = s.objects) ∧
        (StagingStrands fault web upload ↔ b.staged ≠ none) ∧
        (Fits web upload → StrikesIn fault stagingSteps)) := by
  refine ends_bind.mpr ((effect_ends fault .mkstemp
    (fun a => { a with staged := some upload.staged }) (.before s)).imp ?_ ?_)
  · rintro _ _ ⟨rfl, hmade⟩
    have hmkstemp : ¬ ∃ f ∈ fault, f.step = .mkstemp ∧ f.took :=
      fun ⟨f, hf, hs, _⟩ => hmade ⟨f, hf, hs⟩
    refine ends_catch.mpr ((writes_ends fault web upload (afterStaging upload s)).imp ?_ ?_)
    · rintro _ _ ⟨rfl, hfits⟩
      exact ⟨rfl, hfits, fun h => h.elim hmkstemp (fun h => h.1 hfits)⟩
    · rintro exn _ ⟨rfl, hraised⟩
      have hcleaned : ∀ c, After fault .unlinkPartial withoutStaged (afterStaging upload s) c →
          (c.db = s.db ∧ c.objects = s.objects) ∧
            (StagingStrands fault web upload ↔ c.staged ≠ none) ∧
            (Fits web upload → StrikesIn fault stagingSteps) := by
        intro c hafter
        have hsteps : Fits web upload → StrikesIn fault stagingSteps := fun hfits =>
          (hraised.resolve_right (fun h => h hfits)).mono (List.subset_cons_self _ _)
        rcases hafter.either with ⟨hlost, rfl⟩ | ⟨hdone, rfl⟩
        · have htooLarge : ¬ Fits web upload :=
            hraised.resolve_left (fun h => h.not (by decide) hlost.strikes)
          exact ⟨⟨rfl, rfl⟩, iff_of_true (.inr ⟨htooLarge, hlost⟩) (by simp [afterStaging]), hsteps⟩
        · refine ⟨⟨rfl, rfl⟩, iff_of_false ?_ (fun h => h rfl), hsteps⟩
          exact fun h => h.elim hmkstemp (fun h => hdone h.2)
      refine ends_bind.mpr ((missingOk_ends fault .unlinkPartial withoutStaged _).imp ?_ ?_)
      · exact fun _ c => hcleaned c
      · exact fun _ c h => hcleaned c h.1
  · rintro exn b ⟨hafter, f, hf, hs, -⟩
    have hstrikes : Strikes fault .mkstemp := ⟨f, hf, hs⟩
    have hsteps : Fits web upload → StrikesIn fault stagingSteps :=
      fun _ => ⟨_, List.mem_cons_self, hstrikes⟩
    rcases hafter.either with ⟨⟨g, hg, -, hnot⟩, rfl⟩ | ⟨hdone, rfl⟩
    · refine ⟨⟨rfl, rfl⟩, iff_of_false ?_ (fun h => h rfl), hsteps⟩
      rintro (⟨g', hg', -, htook⟩ | ⟨-, hlost⟩)
      · cases hg
        cases hg'
        exact hnot htook
      · cases hstrikes.unique hlost.strikes
    · refine ⟨⟨rfl, rfl⟩, iff_of_true ?_ (by simp), hsteps⟩
      exact .inl ⟨f, hf, hs, by_contra fun hnot => hdone ⟨f, hf, hs, hnot⟩⟩

lemma recoverFrom_ends (fault : Option Fault) (exn : Exn) (a : Archive) :
    Ends (recoverFrom fault exn) a (fun _ _ => False)
      (fun _ b => After fault (.unlinkStaged .cleanup) withoutStaged a b) := by
  refine ends_bind.mpr ((discardStaged_ends fault .cleanup a).imp ?_ ?_)
  · exact fun _ _ h => h.1
  · exact fun _ _ h => h.1

lemma ingestWeb_ends (fault : Option Fault) (web : WebService) (hfresh : Fresh upload.identifier s) :
    Ends (ingestWeb fault web upload) (.before s) (fun _ _ => ¬ Strands fault web upload s)
      (fun _ c => LeavesNothing upload.identifier c ↔ ¬ Strands fault web upload s) := by
  unfold ingestWeb
  split
  · next hnaive =>
    refine iff_of_true ⟨rfl, fun key hkey => .inl (hfresh key hkey).1⟩ ?_
    exact fun h => h.1 hnaive
  · next haware =>
    refine ends_bind.mpr ((createStaged_ends fault web upload s).imp ?_ ?_)
    · rintro _ _ ⟨rfl, hfits, hstaging⟩
      refine ends_catch.mpr ((ingestStaged_ends hfresh).imp ?_ ?_)
      · rintro _ _ ⟨hclear, haccepts⟩ ⟨-, h | ⟨-, ⟨hrefuses, hlost⟩ | horphaned⟩⟩
        · exact hstaging h
        · exact haccepts hlost.strikes hrefuses
        · exact hclear horphaned
      · rintro exn b ⟨horphaned, hrefuses⟩
        refine (recoverFrom_ends fault exn b).imp (fun _ _ h => h.elim) ?_
        intro _ c hafter
        have hstrands : Strands fault web upload s ↔
            (Refuses web upload s ∧ Lost fault (.unlinkStaged .cleanup)) ∨ Orphaned fault web upload s := by
          constructor
          · rintro ⟨-, h | ⟨-, h⟩⟩
            · exact absurd h hstaging
            · exact h
          · exact fun h => ⟨haware, .inr ⟨hfits, h⟩⟩
        rw [hstrands, horphaned]
        rcases hafter.either with ⟨hlost, rfl⟩ | ⟨hdone, rfl⟩
        · rw [hrefuses hlost.strikes, LeavesNothing]
          tauto
        · have hsame : LeavesNothing upload.identifier (withoutStaged b) ↔
              KeysClear upload.identifier b := and_iff_right rfl
          have hkept : ¬ (Refuses web upload s ∧ Lost fault (.unlinkStaged .cleanup)) :=
            fun h => hdone h.2
          rw [hsame, or_iff_right hkept, not_not]
    · rintro exn b ⟨⟨hdb, hobjects⟩, hstaging, hsteps⟩
      have hclear : KeysClear upload.identifier b := by
        intro key hkey
        exact .inl (by rw [hobjects, (hfresh key hkey).1])
      have hstrands : Strands fault web upload s ↔ StagingStrands fault web upload := by
        constructor
        · rintro ⟨-, h | ⟨hfits, ⟨-, hlost⟩ | horphaned⟩⟩
          · exact h
          · exact absurd hlost.strikes ((hsteps hfits).not (by decide))
          · exact absurd horphaned.strikesIn ((hsteps hfits).apart (by decide))
        · exact fun h => ⟨haware, .inl h⟩
      rw [hstrands, hstaging, LeavesNothing]
      tauto

def databaseSteps : List UploadStep :=
  lookupSteps ++ createSteps ++ [.openRecovery, .selectRecovery, .selectOwner]

lemma not_strands_of_database (h : StrikesIn fault databaseSteps) : ¬ Strands fault web upload s := by
  rintro ⟨-, (⟨f, hf, hs, -⟩ | ⟨-, hlost⟩) | ⟨-, ⟨-, hlost⟩ | horphaned⟩⟩
  · exact h.not (by decide) ⟨f, hf, hs⟩
  · exact h.not (by decide) hlost.strikes
  · exact h.not (by decide) hlost.strikes
  · exact h.apart (by decide) horphaned.strikesIn

end Ingest

theorem failed_upload_leaves_nothing (fault : Option Fault) (web : WebService) (upload : WebUpload)
    (s : Store) (hfresh : Fresh upload.identifier s) :
    (∀ exn b, ingestWeb fault web upload (.before s) = .error exn b →
      LeavesNothing upload.identifier b) ↔ ¬ Strands fault web upload s := by
  have hends := ingestWeb_ends fault web hfresh
  constructor
  · intro hall hstrands
    obtain ⟨exn, b, hraises, hleaves⟩ := (hends.imp (fun _ _ h => h hstrands) (fun _ _ h => h)).raises
    exact hleaves.mp (hall exn b hraises) hstrands
  · intro hquiet exn b hraises
    exact (hends.error hraises).mpr hquiet

section Samples

def sampleWeb : WebService := ⟨⟨100, 3600, 3⟩, none, none, Nat.succ_pos 2⟩

def sampleUpload : WebUpload where
  identifier := 7
  startedAt := none
  uploadTime := 1000
  staged := ⟨10, "digest".toList⟩
  probe := .ok ⟨2, .mp3⟩
  defaults := ⟨1, 1000⟩

def fsyncFault : Fault := ⟨.fsyncDestination, false, .other "OSError"⟩

def flushFault : Fault := ⟨.flush, false, .other "OperationalError"⟩

def raises {α : Type} : EStateM.Result Exn Archive α → Bool
  | .ok _ _ => false
  | .error _ _ => true

lemma sample_fresh : Fresh sampleUpload.identifier (.empty none) :=
  fun _ _ => ⟨rfl, fun _ h => absurd h List.not_mem_nil⟩

/-- The object is linked and its staged file discarded before the `fsync`; no row is created. -/
theorem fsync_failure_orphans_upload : ∃ exn b,
    ingestWeb (some fsyncFault) sampleWeb sampleUpload (.before (.empty none)) = .error exn b ∧
      ¬ LeavesNothing sampleUpload.identifier b := by
  let key : StorageKey := ⟨0, 7, "mp3".toList⟩
  let b : Archive := ⟨.empty none, Function.update (fun _ => none) key (some sampleUpload.staged), none⟩
  have hobject : b.objects key = some sampleUpload.staged := by simp [b]
  refine ⟨fsyncFault.exn, b, rfl, ?_⟩
  rintro ⟨-, hclear⟩
  rcases hclear key rfl with hgone | ⟨r, hr, -⟩
  · rw [hobject] at hgone
    cases hgone
  · cases hr

theorem flush_failure_leaves_nothing : ∃ exn b,
    ingestWeb (some flushFault) sampleWeb sampleUpload (.before (.empty none)) = .error exn b ∧
      LeavesNothing sampleUpload.identifier b := by
  have hflush : StrikesIn (some flushFault) databaseSteps := ⟨.flush, by decide, _, rfl, rfl⟩
  have hraises : raises (ingestWeb (some flushFault) sampleWeb sampleUpload (.before (.empty none))) := by
    decide +kernel
  cases hrun : ingestWeb (some flushFault) sampleWeb sampleUpload (.before (.empty none)) with
  | ok result b =>
    rw [hrun] at hraises
    cases hraises
  | error exn b =>
    refine ⟨exn, b, rfl, ?_⟩
    exact (failed_upload_leaves_nothing _ _ _ _ sample_fresh).mpr (not_strands_of_database hflush) exn b
      hrun

end Samples

end AudioServer.Services.UploadFaults
