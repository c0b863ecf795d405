import AudioServer.Db.Models
import AudioServer.Foundations.Contention
import AudioServer.Foundations.Uuids

/-! Saving a quote: what identifies it, and the transactions of `BookmarkService.create`. -/

namespace AudioServer.Services.Bookmarks

open AudioServer.Foundations.Strings AudioServer.Foundations.Uuids AudioServer.Foundations.Contention
open AudioServer.Api.Schemas AudioServer.Db.Models

inductive BookmarkConstraint
  | uqBookmarksUserSource | recordingIdFkey
deriving DecidableEq

inductive BookmarkExn
  | bookmarkService (code message : String) (statusCode : ℕ)
  | integrityError (constraint : BookmarkConstraint)
deriving DecidableEq

def recordingNotFound : BookmarkExn :=
  .bookmarkService "recording_not_found" "Recording was not found." 404

def kindValue : BookmarkKind → Text
  | .expression => "expression".toList
  | .highlight => "highlight".toList

/-- What `source_digest` hashes. A `UUID` is always truthy, so only `None` falls back to `''`. -/
def sourcePayload (kind : BookmarkKind) (recordingId : Option Uuid) (originalJa : Text) : Text :=
  kindValue kind ++ '|' :: ((recordingId.map Uuid.text).getD [] ++ '|' :: strip originalJa)

structure CreateRequest where
  id : ℕ
  userId : ℕ
  kind : BookmarkKind
  recordingId : Option Uuid
  originalJa : Text
  translationZhHk : Text
  noteJa : Text
  noteZhHk : Text
  speakerLabel : Text
  startTime : Seconds
  endTime : Option Seconds
deriving DecidableEq

def CreateRequest.payload (request : CreateRequest) : Text :=
  sourcePayload request.kind request.recordingId request.originalJa

/-- The committed rows; `originalFilename` is the column of `recordings` a bookmark quotes. -/
structure Shelf where
  db : Database
  originalFilename : RecordingId → Text
  bookmarks : List Bookmark

def detachRecordingBookmarks (id : RecordingId) (now : Instant) (bookmarks : List Bookmark) :
    List Bookmark :=
  bookmarks.map (fun b => if b.recordingId = some id then
    { b with recordingId := none, sourceDeletedAt := some now } else b)

def findBookmark (userId : ℕ) (digest : Text) (bookmarks : List Bookmark) : Option Bookmark :=
  bookmarks.find? (fun b => b.userId = userId ∧ b.sourceDigest = digest)

def SameKey (a b : Bookmark) : Prop := a.userId = b.userId ∧ a.sourceDigest = b.sourceDigest

instance (a b : Bookmark) : Decidable (SameKey a b) := inferInstanceAs (Decidable (_ ∧ _))

/-- The flush of the new row, against `uq_bookmarks_user_source` and its reference to `recordings`. -/
def insertBookmark (shelf : Shelf) (bookmark : Bookmark) : Except BookmarkExn Unit :=
  if shelf.bookmarks.any (fun b => SameKey b bookmark) then
    .error (.integrityError .uqBookmarksUserSource)
  else if bookmark.recordingId.any (fun id => (shelf.db.recording id).isNone) then
    .error (.integrityError .recordingIdFkey)
  else .ok ()

inductive Phase
  | finding
  | lookingUp
  | adding (bookmark : Bookmark)
  | inserted (bookmark : Bookmark)
  | recovering (exn : BookmarkExn)
  | returned (bookmark : Bookmark)
  | raised (exn : BookmarkExn)
deriving DecidableEq

def Phase.uncommitted : Phase → Option Bookmark
  | .inserted bookmark => some bookmark
  | _ => none

structure CreateCall where
  request : CreateRequest
  phase : Phase
deriving DecidableEq

abbrev Library := Pool Shelf CreateCall

/-- An `INSERT` waits for who has inserted the same key and not committed yet. -/
def ready (library : Library) (call : CreateCall) : Prop :=
  match call.phase with
  | .adding bookmark => ∀ other ∈ library.calls, ∀ row ∈ other.phase.uncommitted, ¬ SameKey row bookmark
  | .finding | .lookingUp | .inserted _ | .recovering _ => True
  | .returned _ | .raised _ => False

instance (library : Library) : (call : CreateCall) → Decidable (ready library call)
  | ⟨_, .adding _⟩ => inferInstanceAs (Decidable (∀ other ∈ _, ∀ row ∈ Phase.uncommitted _, ¬ SameKey _ _))
  | ⟨_, .finding⟩ | ⟨_, .lookingUp⟩ | ⟨_, .inserted _⟩ | ⟨_, .recovering _⟩ =>
    inferInstanceAs (Decidable True)
  | ⟨_, .returned _⟩ | ⟨_, .raised _⟩ => inferInstanceAs (Decidable False)

section Create

variable (sha256 : Text → Text)

def sourceDigest (kind : BookmarkKind) (recordingId : Option Uuid) (originalJa : Text) : Text :=
  sha256 (sourcePayload kind recordingId originalJa)

def CreateRequest.digest (request : CreateRequest) : Text :=
  sourceDigest sha256 request.kind request.recordingId request.originalJa

def CreateRequest.row (request : CreateRequest) (sourceLabel : Text) : Bookmark where
  id := request.id
  userId := request.userId
  kind := request.kind
  sourceDigest := request.digest sha256
  originalJa := strip request.originalJa
  translationZhHk := strip request.translationZhHk
  noteJa := strip request.noteJa
  noteZhHk := strip request.noteZhHk
  speakerLabel := request.speakerLabel
  startTime := request.startTime
  endTime := request.endTime
  recordingId := request.recordingId.map Uuid.int
  sourceLabel := sourceLabel
  sourceDeletedAt := none

def find (request : CreateRequest) (shelf : Shelf) : Option Bookmark :=
  findBookmark request.userId (request.digest sha256) shelf.bookmarks

def sourceLabel (recordingId : Option Uuid) (shelf : Shelf) : Except BookmarkExn Text :=
  match recordingId with
  | none => .ok "—".toList
  | some id =>
    match shelf.db.recording id.int with
    | none => .error recordingNotFound
    | some _ => .ok (shelf.originalFilename id.int)

def Phase.advance (request : CreateRequest) (shelf : Shelf) : Phase → Shelf × Phase
  | .finding =>
    match find sha256 request shelf with
    | some existing => (shelf, .returned existing)
    | none => (shelf, .lookingUp)
  | .lookingUp =>
    match sourceLabel request.recordingId shelf with
    | .error exn => (shelf, .raised exn)
    | .ok label => (shelf, .adding (request.row sha256 label))
  | .adding bookmark =>
    match insertBookmark shelf bookmark with
    | .error exn => (shelf, .recovering exn)
    | .ok () => (shelf, .inserted bookmark)
  | .inserted bookmark =>
    ({ shelf with bookmarks := shelf.bookmarks ++ [bookmark] }, .returned bookmark)
  | .recovering exn =>
    match find sha256 request shelf with
    | some concurrent => (shelf, .returned concurrent)
    | none => (shelf, .raised exn)
  | .returned bookmark => (shelf, .returned bookmark)
  | .raised exn => (shelf, .raised exn)

def advance (call : CreateCall) (shelf : Shelf) : Shelf × CreateCall :=
  ((call.phase.advance sha256 call.request shelf).1,
    ⟨call.request, (call.phase.advance sha256 call.request shelf).2⟩)

end Create

section Payload

variable {k l : BookmarkKind} {a b : Option Uuid} {s t : Text}

lemma bar_not_in_kind (kind : BookmarkKind) : '|' ∉ kindValue kind := by
  cases kind <;> decide

lemma bar_not_in_recording (a : Option Uuid) : '|' ∉ (a.map Uuid.text).getD [] := by
  cases a with
  | none => exact List.not_mem_nil
  | some id => exact bar_not_in_text id

lemma kindValue_inj (h : kindValue k = kindValue l) : k = l := by
  cases k <;> cases l <;> first | rfl | exact absurd h (by decide)

lemma recordingText_inj (h : (a.map Uuid.text).getD [] = (b.map Uuid.text).getD []) : a = b := by
  cases a with
  | none =>
    cases b with
    | none => rfl
    | some id => exact absurd h.symm (text_ne_nil id)
  | some id =>
    cases b with
    | none => exact absurd h (text_ne_nil id)
    | some other => rw [text_inj h]

/-- Neither the kind nor the identifier contains the bar, so the text behind the second one may. -/
lemma sourcePayload_inj (h : sourcePayload k a s = sourcePayload l b t) :
    k = l ∧ a = b ∧ strip s = strip t := by
  obtain ⟨hkind, hrest⟩ := append_delimiter_inj (bar_not_in_kind k) (bar_not_in_kind l) h
  obtain ⟨hid, htext⟩ := append_delimiter_inj (bar_not_in_recording a) (bar_not_in_recording b) hrest
  exact ⟨kindValue_inj hkind, recordingText_inj hid, htext⟩

end Payload

section Find

variable {sha256 : Text → Text} {request : CreateRequest} {shelf : Shelf} {b : Bookmark}

lemma find_some (h : find sha256 request shelf = some b) :
    b ∈ shelf.bookmarks ∧ b.userId = request.userId ∧ b.sourceDigest = request.digest sha256 := by
  have hkey := List.find?_some h
  simp only [decide_eq_true_eq] at hkey
  exact ⟨List.mem_of_find?_eq_some h, hkey⟩

lemma find_none (h : find sha256 request shelf = none) (hb : b ∈ shelf.bookmarks) :
    ¬ (b.userId = request.userId ∧ b.sourceDigest = request.digest sha256) := by
  have hkey := List.find?_eq_none.mp h b hb
  simpa using hkey

lemma insertBookmark_ok {u : Unit} (h : insertBookmark shelf b = .ok u) :
    (∀ c ∈ shelf.bookmarks, ¬ SameKey c b) ∧
      ∀ id ∈ b.recordingId, (shelf.db.recording id).isSome := by
  unfold insertBookmark at h
  split at h
  · cases h
  rename_i hfree
  split at h
  · cases h
  rename_i hkept
  constructor
  · simpa using hfree
  · intro id hid
    rw [Option.mem_def.mp hid] at hkept
    simpa [Option.isSome_iff_ne_none] using hkept

lemma insertBookmark_error {exn : BookmarkExn} (h : insertBookmark shelf b = .error exn) :
    (∃ c ∈ shelf.bookmarks, SameKey c b) ∨ ∃ id ∈ b.recordingId, shelf.db.recording id = none := by
  unfold insertBookmark at h
  split at h
  · rename_i htaken
    left
    simpa using htaken
  split at h
  · rename_i hgone
    cases hid : b.recordingId with
    | none =>
      rw [hid] at hgone
      cases hgone
    | some id =>
      rw [hid] at hgone
      exact .inr ⟨id, rfl, by simpa using hgone⟩
  · cases h

lemma sourceLabel_ok {label : Text} (h : sourceLabel request.recordingId shelf = .ok label) :
    ∀ id ∈ request.recordingId, (shelf.db.recording id.int).isSome := by
  intro id hid
  rw [Option.mem_def.mp hid, sourceLabel] at h
  cases hthere : shelf.db.recording id.int with
  | none =>
    rw [hthere] at h
    cases h
  | some recording => rfl

lemma sourceLabel_error {exn : BookmarkExn} (h : sourceLabel request.recordingId shelf = .error exn) :
    exn = recordingNotFound ∧ ∃ id ∈ request.recordingId, shelf.db.recording id.int = none := by
  cases hid : request.recordingId with
  | none =>
    rw [hid] at h
    cases h
  | some id =>
    rw [hid, sourceLabel] at h
    cases hgone : shelf.db.recording id.int with
    | none =>
      rw [hgone] at h
      cases h
      exact ⟨rfl, id, rfl, hgone⟩
    | some recording =>
      rw [hgone] at h
      cases h

end Find

lemma shelf_advance (sha256 : Text → Text) (request : CreateRequest) (shelf : Shelf) (phase : Phase) :
    (phase.advance sha256 request shelf).1 = shelf ∨ ∃ b, phase = .inserted b ∧
    (phase.advance sha256 request shelf).1 = { shelf with bookmarks := shelf.bookmarks ++ [b] } := by
  cases phase with
  | finding =>
    left
    simp only [Phase.advance]
    split <;> rfl
  | lookingUp =>
    left
    simp only [Phase.advance]
    split <;> rfl
  | adding b =>
    left
    simp only [Phase.advance]
    split <;> rfl
  | inserted b => exact .inr ⟨b, rfl, rfl⟩
  | recovering exn =>
    left
    simp only [Phase.advance]
    split <;> rfl
  | returned b => exact .inl rfl
  | raised exn => exact .inl rfl

end AudioServer.Services.Bookmarks
