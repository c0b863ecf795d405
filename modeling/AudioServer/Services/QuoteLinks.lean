import AudioServer.Services.Bookmarks
import AudioServer.Services.DeletedAudio
import AudioServer.Services.Transactions
import Mathlib.Data.Set.Function

/-! Saved quotes while recordings are uploaded and deleted: whether what a `create` returns still
links to the recording it was asked for. -/

namespace AudioServer.Services.QuoteLinks

open AudioServer.Foundations.Outcomes AudioServer.Foundations.Strings AudioServer.Foundations.Uuids
open AudioServer.Foundations.Dicts AudioServer.Foundations.Pools AudioServer.Foundations.Runs
open AudioServer.Foundations.Contention
open AudioServer.Db.Models AudioServer.Jobs.Queue AudioServer.Services.Recordings
open AudioServer.Services.Transactions AudioServer.Services.Consistency
open AudioServer.Services.DeletedAudio AudioServer.Services.Bookmarks

/-- `filename` is the upload's, `now` the time a deletion detaches at. -/
inductive LibraryAct
  | begin (request : CreateRequest)
  | step (i : ℕ)
  | removeBookmark (userId bookmarkId : ℕ)
  | server (call : ServerCall) (filename : Text) (now : Instant)

/-- A deletion locks its recording, which an uncommitted row that references it keeps from it. -/
def Library.allows (library : Library) : LibraryAct → Prop
  | .step i => Pool.allows ready library i
  | .server (.deleteRecording id) _ _ => ∀ call ∈ library.calls, ∀ row ∈ call.phase.uncommitted,
      row.recordingId ≠ some id
  | _ => True

instance (library : Library) : (act : LibraryAct) → Decidable (Library.allows library act)
  | .step i => inferInstanceAs (Decidable (Pool.allows ready library i))
  | .server (.deleteRecording _) _ _ =>
    inferInstanceAs (Decidable (∀ call ∈ _, ∀ row ∈ Phase.uncommitted _, _ ≠ _))
  | .server (.queue _) _ _ | .server (.create _ _ _ _) _ _ | .server (.retry _ _ _ _) _ _
  | .server (.reprocess _ _ _ _) _ _ | .server (.reprocessAnalysis _ _ _ _) _ _
  | .server (.reprocessTranslation _ _ _ _) _ _ | .server (.dailySummary _ _ _ _) _ _
  | .server (.switches _) _ _ | .begin _ | .removeBookmark _ _ => inferInstanceAs (Decidable True)

def Shelf.serve (shelf : Shelf) (call : ServerCall) (filename : Text) (now : Instant) : Shelf :=
  match call.exec shelf.db with
  | .error _ => shelf
  | .ok ((), db) =>
    match call with
    | .create _ recording _ _ => { shelf with
        db := db
        originalFilename := Function.update shelf.originalFilename recording.id filename }
    | .deleteRecording id => { shelf with
        db := db
        bookmarks := detachRecordingBookmarks id now shelf.bookmarks }
    | _ => { shelf with db := db }

def removeBookmark (userId bookmarkId : ℕ) (bookmarks : List Bookmark) : List Bookmark :=
  bookmarks.filter (fun b => ¬ (b.id = bookmarkId ∧ b.userId = userId))

variable (sha256 : Text → Text)

def Library.perform (library : Library) : LibraryAct → Library
  | .begin request => ⟨library.shared, library.calls ++ [⟨request, .finding⟩]⟩
  | .step i => Pool.perform (advance sha256) library i
  | .removeBookmark userId bookmarkId => ⟨{ library.shared with
      bookmarks := removeBookmark userId bookmarkId library.shared.bookmarks }, library.calls⟩
  | .server call filename now => ⟨Shelf.serve library.shared call filename now, library.calls⟩

def LibraryStep (library : Library) (act : LibraryAct) (library' : Library) : Prop :=
  Library.allows library act ∧ library' = Library.perform sha256 library act

abbrev LibraryRun := Run (LibraryStep sha256)

def Library.empty (settings : Option ProcessingSettings) : Library :=
  ⟨⟨.empty settings, fun _ => [], []⟩, []⟩

def called (library : Library) : LibraryAct → Option CreateCall
  | .step i => library.calls[i]?
  | _ => none

def answer : Phase → Option Bookmark
  | .returned b => some b
  | _ => none

def looks : Phase → Bool
  | .finding | .recovering _ => true
  | _ => false

/-- `String.prototype.trim` drops white space and line terminators, U+FEFF with them. -/
def isTrimmed (c : Char) : Bool :=
  let n := c.toNat
  (9 ≤ n && n ≤ 13) || n == 32 || n == 0xa0 || n == 0x1680 || (0x2000 ≤ n && n ≤ 0x200a) ||
    n == 0x2028 || n == 0x2029 || n == 0x202f || n == 0x205f || n == 0x3000 || n == 0xfeff

def bookmarkKey (kind : BookmarkKind) (originalJa : Text) : Text :=
  kindValue kind ++ '|' :: (originalJa.dropWhile isTrimmed).rdropWhile isTrimmed

def savedBookmarks (id : RecordingId) (items : List Bookmark) : Text → Option Bookmark :=
  dictGet (fun item => bookmarkKey item.kind item.originalJa)
    (items.filter (fun item => item.recordingId = some id))

def ShownSaved (id : RecordingId) (request : CreateRequest) (b : Bookmark) : Prop :=
  ∀ items, b ∈ items →
    (savedBookmarks id items (bookmarkKey request.kind (strip request.originalJa))).isSome

def LinksReturn (e : Event Library LibraryAct) : Prop :=
  ∀ call ∈ called e.before e.label, ∀ id ∈ call.request.recordingId,
    (e.before.shared.db.recording id.int).isSome →
    ∀ b ∈ (called e.after e.label).bind (fun call => answer call.phase),
      b.recordingId = some id.int ∧ ShownSaved id.int call.request b

/-- This step looks up a quote of an existing recording and finds a row that an earlier deletion
detached. -/
def FindsDetached (e : Event Library LibraryAct) : Prop :=
  ∃ call ∈ called e.before e.label, looks call.phase ∧
    (∃ id ∈ call.request.recordingId, (e.before.shared.db.recording id.int).isSome) ∧
    ∃ b ∈ find sha256 call.request e.before.shared, b.sourceDeletedAt.isSome

instance (e : Event Library LibraryAct) : Decidable (FindsDetached sha256 e) :=
  inferInstanceAs (Decidable (∃ call ∈ called e.before e.label, _ ∧ _ ∧ _))

def Made (S : Set Text) (b : Bookmark) : Prop :=
  ∃ recordingId text, sourcePayload b.kind recordingId text ∈ S ∧
    b.sourceDigest = sourceDigest sha256 b.kind recordingId text ∧ b.originalJa = strip text ∧
    (b.sourceDeletedAt = none ∧ b.recordingId = recordingId.map Uuid.int ∨
      b.sourceDeletedAt.isSome ∧ b.recordingId = none)

def Writes (request : CreateRequest) : Phase → Prop
  | .adding b | .inserted b => ∃ label, b = request.row sha256 label
  | _ => True

structure LibrarySound (S : Set Text) (library : Library) : Prop where
  rows : ∀ b ∈ library.shared.bookmarks, Made sha256 S b
  asked : ∀ call ∈ library.calls, call.request.payload ∈ S
  writes : ∀ call ∈ library.calls, Writes sha256 call.request call.phase

variable {sha256} {S : Set Text} {library library' : Library} {act : LibraryAct} {shelf : Shelf}
  {request : CreateRequest} {phase : Phase} {b : Bookmark}

section Steps

lemma made_row {label : Text} (h : request.payload ∈ S) : Made sha256 S (request.row sha256 label) :=
  ⟨request.recordingId, request.originalJa, h, rfl, rfl, .inl ⟨rfl, rfl⟩⟩

lemma made_detached {id : RecordingId} {now : Instant} {rows : List Bookmark}
    (h : ∀ b ∈ rows, Made sha256 S b) : ∀ b ∈ detachRecordingBookmarks id now rows, Made sha256 S b := by
  intro b hb
  obtain ⟨old, hold, rfl⟩ := List.mem_map.mp hb
  have hmade := h old hold
  split
  · obtain ⟨recordingId, text, hpayload, hdigest, htext, _⟩ := hmade
    exact ⟨recordingId, text, hpayload, hdigest, htext, .inr ⟨rfl, rfl⟩⟩
  · exact hmade

lemma writes_advance : Writes sha256 request phase →
    Writes sha256 request (phase.advance sha256 request shelf).2 := by
  intro h
  cases phase with
  | finding =>
    simp only [Phase.advance]
    split <;> trivial
  | lookingUp =>
    simp only [Phase.advance]
    split
    · trivial
    · exact ⟨_, rfl⟩
  | adding b =>
    simp only [Phase.advance]
    split
    · trivial
    · exact h
  | inserted b => trivial
  | recovering exn =>
    simp only [Phase.advance]
    split <;> trivial
  | returned b => trivial
  | raised exn => trivial

lemma serve_rows {call : ServerCall} {filename : Text} {now : Instant}
    (h : ∀ b ∈ shelf.bookmarks, Made sha256 S b) :
    ∀ b ∈ (Shelf.serve shelf call filename now).bookmarks, Made sha256 S b := by
  unfold Shelf.serve
  split
  · exact h
  · split
    · exact h
    · exact made_detached h
    · exact h

lemma rows_advance (hrows : ∀ b ∈ shelf.bookmarks, Made sha256 S b) (hasked : request.payload ∈ S)
    (hwrites : Writes sha256 request phase) :
    ∀ b ∈ (phase.advance sha256 request shelf).1.bookmarks, Made sha256 S b := by
  rcases shelf_advance sha256 request shelf phase with hsame | ⟨b, rfl, hgrown⟩
  · rw [hsame]
    exact hrows
  · obtain ⟨label, rfl⟩ := hwrites
    rw [hgrown]
    exact forall_snoc hrows (made_row hasked)

lemma librarySound_begin (h : LibrarySound sha256 S library) (hask : request.payload ∈ S) :
    LibrarySound sha256 S (Library.perform sha256 library (.begin request)) := by
  have hwrites : Writes sha256 request .finding := trivial
  exact ⟨h.rows, forall_snoc h.asked hask, forall_snoc h.writes hwrites⟩

lemma librarySound_moved {i : ℕ} (h : LibrarySound sha256 S library)
    (hstep : PoolStep ready (advance sha256) library i library') : LibrarySound sha256 S library' := by
  obtain ⟨call, hcall, _, rfl⟩ := hstep.cases
  have hmem := List.mem_of_getElem? hcall
  have hasked := h.asked call hmem
  have hwrites := h.writes call hmem
  exact ⟨rows_advance h.rows hasked hwrites, forall_set h.asked hasked,
    forall_set h.writes (writes_advance hwrites)⟩

lemma librarySound_step (h : LibrarySound sha256 S library)
    (hask : ∀ request, act = .begin request → request.payload ∈ S)
    (hstep : LibraryStep sha256 library act library') : LibrarySound sha256 S library' := by
  obtain ⟨hallowed, rfl⟩ := hstep
  cases act with
  | begin request => exact librarySound_begin h (hask request rfl)
  | step i => exact librarySound_moved h ⟨hallowed, rfl⟩
  | removeBookmark userId bookmarkId =>
    exact ⟨fun b hb => h.rows b (List.mem_filter.mp hb).1, h.asked, h.writes⟩
  | server call filename now => exact ⟨serve_rows h.rows, h.asked, h.writes⟩

lemma librarySound_empty (settings : Option ProcessingSettings) :
    LibrarySound sha256 S (Library.empty settings) :=
  ⟨fun _ hb => absurd hb List.not_mem_nil, fun _ hc => absurd hc List.not_mem_nil,
    fun _ hc => absurd hc List.not_mem_nil⟩

end Steps

section Returns

lemma returned_advance (h : (phase.advance sha256 request shelf).2 = .returned b) :
    phase = .returned b ∨ phase = .inserted b ∨
      (looks phase ∧ find sha256 request shelf = some b) := by
  cases phase with
  | finding =>
    simp only [Phase.advance] at h
    split at h
    · rename_i existing hfound
      cases h
      exact .inr (.inr ⟨rfl, hfound⟩)
    · cases h
  | lookingUp =>
    simp only [Phase.advance] at h
    split at h <;> cases h
  | adding c =>
    simp only [Phase.advance] at h
    split at h <;> cases h
  | inserted c =>
    cases h
    exact .inr (.inl rfl)
  | recovering exn =>
    simp only [Phase.advance] at h
    split at h
    · rename_i concurrent hfound
      cases h
      exact .inr (.inr ⟨rfl, hfound⟩)
    · cases h
  | returned c =>
    cases h
    exact .inl rfl
  | raised exn => cases h

lemma looks_advance (hlooks : looks phase) (h : find sha256 request shelf = some b) :
    (phase.advance sha256 request shelf).2 = .returned b := by
  cases phase with
  | finding => rw [Phase.advance, h]
  | recovering exn => rw [Phase.advance, h]
  | lookingUp => cases hlooks
  | adding c => cases hlooks
  | inserted c => cases hlooks
  | returned c => cases hlooks
  | raised exn => cases hlooks

lemma shownSaved {id : RecordingId} (hid : b.recordingId = some id) (hkind : b.kind = request.kind)
    (htext : b.originalJa = strip request.originalJa) : ShownSaved id request b := by
  intro items hb
  rw [Option.isSome_iff_ne_none]
  intro hnone
  apply dictGet_none.mp hnone b (List.mem_filter.mpr ⟨hb, decide_eq_true hid⟩)
  rw [hkind, htext]

lemma found_cases (hsha : S.InjOn sha256) (h : LibrarySound sha256 S library)
    (hasked : request.payload ∈ S) (hfound : find sha256 request library.shared = some b) :
    b.kind = request.kind ∧ b.originalJa = strip request.originalJa ∧
      (b.sourceDeletedAt = none ∧ b.recordingId = request.recordingId.map Uuid.int ∨
        b.sourceDeletedAt.isSome ∧ b.recordingId = none) := by
  obtain ⟨hmem, _, hdigest⟩ := find_some hfound
  obtain ⟨recordingId, text, hpayload, hsource, htext, hlink⟩ := h.rows b hmem
  obtain ⟨hkind, rfl, hstrip⟩ := sourcePayload_inj (hsha hpayload hasked (hsource.symm.trans hdigest))
  exact ⟨hkind, htext.trans hstrip, hlink⟩

lemma called_step {library' : Library} {call : CreateCall}
    (h : LibraryStep sha256 library act library') (hcall : called library act = some call) :
    call ∈ library.calls ∧ ready library call ∧
      called library' act = some (advance sha256 call library.shared).2 := by
  obtain ⟨hallowed, rfl⟩ := h
  cases act with
  | step i =>
    obtain ⟨other, hother, hready⟩ := hallowed
    cases hcall.symm.trans hother
    refine ⟨List.mem_of_getElem? hother, hready, ?_⟩
    rw [Library.perform, Pool.perform, Option.mem_def.mp hother]
    exact set_self hother
  | begin request => cases hcall
  | removeBookmark userId bookmarkId => cases hcall
  | server call filename now => cases hcall

lemma answer_some (h : answer phase = some b) : phase = .returned b := by
  cases phase with
  | returned c =>
    cases h
    rfl
  | _ => cases h

lemma not_returned {call : CreateCall} (h : ready library call) : call.phase ≠ .returned b := by
  intro hphase
  rw [ready, hphase] at h
  exact h

section Event

variable {e : Event Library LibraryAct} (hsha : S.InjOn sha256)
  (hsound : LibrarySound sha256 S e.before) (hstep : LibraryStep sha256 e.before e.label e.after)
include hsha hsound hstep

lemma detached_unlinked (h : FindsDetached sha256 e) : ¬ LinksReturn e := by
  obtain ⟨call, hcall, hlooks, ⟨id, hid, hthere⟩, b, hfound, hmarked⟩ := h
  obtain ⟨hmem, _, hcalled⟩ := called_step hstep hcall
  have hreturned : b ∈ (called e.after e.label).bind (fun call => answer call.phase) := by
    rw [hcalled, Option.bind_some, advance, looks_advance hlooks hfound]
    rfl
  intro hlinks
  have hlink := (hlinks call hcall id hid hthere b hreturned).1
  obtain ⟨_, _, ⟨hnone, _⟩ | ⟨_, hnone⟩⟩ := found_cases hsha hsound (hsound.asked call hmem) hfound
  · rw [hnone] at hmarked
    cases hmarked
  · rw [hnone] at hlink
    cases hlink

lemma linked_of_attached (h : ¬ FindsDetached sha256 e) : LinksReturn e := by
  intro call hcall id hid hthere b hb
  obtain ⟨hmem, hready, hcalled⟩ := called_step hstep hcall
  have hreturned : (call.phase.advance sha256 call.request e.before.shared).2 = .returned b := by
    rw [hcalled, Option.bind_some] at hb
    exact answer_some hb
  rcases returned_advance hreturned with hphase | hphase | ⟨hlooks, hfound⟩
  · exact absurd hphase (not_returned hready)
  · have hwrites := hsound.writes call hmem
    rw [hphase] at hwrites
    obtain ⟨label, rfl⟩ := hwrites
    have hlink : call.request.recordingId.map Uuid.int = some id.int := by
      rw [Option.mem_def.mp hid]
      rfl
    exact ⟨hlink, shownSaved hlink rfl rfl⟩
  · obtain ⟨hkind, htext, ⟨_, hlink⟩ | ⟨hmarked, _⟩⟩ :=
      found_cases hsha hsound (hsound.asked call hmem) hfound
    · rw [Option.mem_def.mp hid] at hlink
      exact ⟨hlink, shownSaved hlink hkind htext⟩
    · exact absurd ⟨call, hcall, hlooks, ⟨id, hid, hthere⟩, b, hfound, hmarked⟩ h

end Event

end Returns

def recordingUuid : Uuid :=
  ⟨1, Nat.one_lt_pow (Nat.succ_ne_zero 31) (Nat.one_lt_succ_succ 14)⟩

def quoteRequest (id : ℕ) : CreateRequest :=
  ⟨id, 1, .expression, some recordingUuid, "あ".toList, "y".toList, "n".toList, "m".toList,
    "A".toList, 0, none⟩

def knownDigest (payload : Text) : Text :=
  if payload = "expression|00000000-0000-0000-0000-000000000001|あ".toList then
    "801afc9bc5b38937b61ae5d2fb89d28d00ef487afc1555eea66102d6e41a0d5a".toList
  else []

def quoteClaim : ClaimedJob := { exampleClaim with id := 1, recordingId := some 1 }

def savedActs : List LibraryAct :=
  [.server (.create exampleService exampleRecording ⟨1, 0⟩ 0) "talk.wav".toList 0,
    .server (.queue (.claimNext exampleWorker 0 7 none [])) [] 0,
    .server (.queue (.fail exampleWorker quoteClaim exampleFailure 1 ⟨9, 0⟩)) [] 1,
    .begin (quoteRequest 1), .step 0, .step 0, .step 0, .step 0]

def reuploadedActs : List LibraryAct :=
  savedActs ++ [.server (.deleteRecording 1) [] 2,
    .server (.create exampleService exampleRecording ⟨2, 3⟩ 3) "talk.wav".toList 3,
    .begin (quoteRequest 2)]

def reuploaded : Library := reuploadedActs.foldl (Library.perform knownDigest) (Library.empty none)

end AudioServer.Services.QuoteLinks
