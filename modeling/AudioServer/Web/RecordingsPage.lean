import AudioServer.Foundations.Paging
import AudioServer.Foundations.Runs
import AudioServer.Services.Daily
import AudioServer.Web.DetailPage

/-! The recordings list: the server's filtered pages, and the page that reviews
them, its marks in flight and its way to the next offset. -/

namespace AudioServer.Web.RecordingsPage

open AudioServer.Foundations.Outcomes AudioServer.Foundations.Paging AudioServer.Foundations.Runs
open AudioServer.Foundations.Strings AudioServer.Api.Schemas AudioServer.Db.Models
open AudioServer.Services.Days AudioServer.Services.Recordings AudioServer.Services.Daily
open AudioServer.Web.DetailPage (Caught)

structure ListedRecording extends Recording where
  checked : Bool
deriving DecidableEq

structure ListFilter where
  deviceId : Option Text
  status : Option RecordingStatus
  checked : Option Bool
  day : Option Day
deriving DecidableEq

/-- The `where` clauses of `list_recordings`, short of the one on the mark. -/
def ListFilter.Covers (filter : ListFilter) (row : ListedRecording) : Prop :=
  (∀ device ∈ filter.deviceId, row.deviceId = device) ∧
    (∀ day ∈ filter.day, inWindow day row.toRecording) ∧
    ∀ status ∈ filter.status, row.processingStatus = status

instance (filter : ListFilter) (row : ListedRecording) : Decidable (filter.Covers row) :=
  inferInstanceAs (Decidable (_ ∧ _))

def ListFilter.Admits (filter : ListFilter) (row : ListedRecording) : Prop :=
  filter.Covers row ∧ ∀ checked ∈ filter.checked, row.checked = checked

instance (filter : ListFilter) (row : ListedRecording) : Decidable (filter.Admits row) :=
  inferInstanceAs (Decidable (_ ∧ _))

def ListFilter.Readable (filter : ListFilter) : Prop := ∀ day ∈ filter.day, (dayWindow day).isOk

instance (filter : ListFilter) : Decidable filter.Readable :=
  inferInstanceAs (Decidable (∀ day ∈ filter.day, _))

/-- `ORDER BY started_at DESC, id DESC`. -/
def NewestFirst (a b : ListedRecording) : Prop := ListOrder b.toRecording a.toRecording

instance : DecidableRel NewestFirst := fun a b =>
  inferInstanceAs (Decidable (ListOrder b.toRecording a.toRecording))

def Precedes (a b : ListedRecording) : Prop :=
  b.startedAt < a.startedAt ∨ (b.startedAt = a.startedAt ∧ b.id < a.id)

instance : DecidableRel Precedes := fun _ _ => inferInstanceAs (Decidable (_ ∨ _))

def matchingRecordings (filter : ListFilter) (rows : List ListedRecording) : List ListedRecording :=
  (rows.filter (filter.Admits ·)).insertionSort NewestFirst

def listRecordings (limit offset : ℕ) (filter : ListFilter) (rows : List ListedRecording) :
    List ListedRecording :=
  page offset limit (matchingRecordings filter rows)

section Listing

variable {filter : ListFilter} {rows : List ListedRecording} {row a b : ListedRecording}

instance : Std.Asymm Precedes where
  asymm a b := by
    rintro (h | ⟨h, hid⟩) (k | ⟨k, kid⟩)
    · exact lt_asymm h k
    · exact h.ne k.symm
    · exact k.ne h.symm
    · exact lt_asymm hid kid

instance : Std.Total NewestFirst where
  total a b := Std.Total.total (r := ListOrder) b.toRecording a.toRecording

instance : IsTrans ListedRecording NewestFirst where
  trans _ _ _ hab hbc := IsTrans.trans (r := ListOrder) _ _ _ hbc hab

lemma precedes_of_newest (h : NewestFirst a b) (hid : a.id ≠ b.id) : Precedes a b := by
  rcases h with h | ⟨h, hle⟩
  · exact .inl h
  · exact .inr ⟨h, lt_of_le_of_ne hle (Ne.symm hid)⟩

lemma mem_matchingRecordings : row ∈ matchingRecordings filter rows ↔ row ∈ rows ∧ filter.Admits row := by
  rw [matchingRecordings, List.mem_insertionSort, List.mem_filter, decide_eq_true_eq]

lemma newest_ordered (hids : (rows.map (·.id)).Nodup) :
    (rows.insertionSort NewestFirst).Pairwise Precedes := by
  have hsorted := List.pairwise_insertionSort NewestFirst rows
  have hdistinct : (rows.insertionSort NewestFirst).Pairwise (fun a b => a.id ≠ b.id) :=
    (List.pairwise_map.mp hids).perm (List.perm_insertionSort NewestFirst _).symm Ne.symm
  exact hsorted.imp₂ (fun _ _ h hid => precedes_of_newest h hid) hdistinct

lemma matchingRecordings_ordered (hids : (rows.map (·.id)).Nodup) :
    (matchingRecordings filter rows).Pairwise Precedes :=
  newest_ordered (hids.sublist ((List.filter_sublist).map _))

end Listing

def mark (id : RecordingId) (checked : Bool) (row : ListedRecording) : ListedRecording :=
  if row.id = id then { row with checked := checked } else row

def setChecked (id : RecordingId) (checked : Bool) :
    Transaction (List ListedRecording) Exn ListedRecording := fun rows => do
  let recording ← found (rows.find? (fun r => r.id = id)) recordingNotFound
  .ok ({ recording with checked := checked }, rows.map (mark id checked))

def pageSize : ℕ := 20

/-- A `toggleChecked` that waits for its answer. `saved` is the mark the server has stored for it. -/
structure Toggle where
  recordingId : RecordingId
  next : Bool
  saved : Option Bool
deriving DecidableEq

structure Page where
  offset : ℕ
  data : Option (List ListedRecording)
  loading : Bool
  error : Option String
  checkedError : Option String
  flight : List Toggle
  left : Bool
deriving DecidableEq

namespace Page

def mount (offset : ℕ) : Page where
  offset := offset
  data := none
  loading := true
  error := none
  checkedError := none
  flight := []
  left := false

def pageItems (p : Page) : List ListedRecording := p.data.getD []

def checkPending (p : Page) : List RecordingId := p.flight.map (·.recordingId)

def driftedOut (filter : ListFilter) (p : Page) : ℕ :=
  match filter.checked with
  | none => 0
  | some checked => (p.pageItems.filter (fun item => decide (item.checked ≠ checked))).length

def displayed (p : Page) : Option (List ListedRecording) :=
  if p.left ∨ p.loading then none else some p.pageItems

def NextEnabled (p : Page) : Prop :=
  p.left = false ∧ p.loading = false ∧
    (∃ items ∈ p.data, (0 < p.offset ∨ items.length = pageSize) ∧ ¬ items.length < pageSize) ∧
    p.checkPending = []

instance (p : Page) : Decidable p.NextEnabled := inferInstanceAs (Decidable (_ ∧ _))

/-- The effect that loads the list runs again only when the offset is another one. -/
def goToOffset (nextOffset : ℕ) (p : Page) : Page :=
  if nextOffset = p.offset then p
  else { p with offset := nextOffset, loading := true, error := none }

def next (filter : ListFilter) (p : Page) : Page :=
  p.goToOffset (p.offset + pageSize - p.driftedOut filter)

def loaded (items : List ListedRecording) (p : Page) : Page :=
  { p with data := some items, loading := false }

def loadFailed (caught : Caught) (p : Page) : Page :=
  if caught.status = some 401 then { p with left := true }
  else { p with error := some "recordings.error", loading := false }

def toggleChecked (recordingId : RecordingId) (next csrfToken : Bool) (p : Page) : Page :=
  if csrfToken then
    { p with checkedError := none, flight := p.flight ++ [⟨recordingId, next, none⟩] }
  else { p with left := true }

def toggled (k : ℕ) (recordingId : RecordingId) (saved : Bool) (p : Page) : Page :=
  { p with
    data := p.data.map (fun items => items.map (mark recordingId saved))
    flight := p.flight.eraseIdx k }

def toggleFailed (k : ℕ) (caught : Caught) (p : Page) : Page :=
  if caught.status = some 401 then { p with left := true, flight := p.flight.eraseIdx k }
  else { p with checkedError := some "recordings.checkedError", flight := p.flight.eraseIdx k }

end Page

def Page.opposite (recordingId : RecordingId) (p : Page) : Bool :=
  !((p.pageItems.find? (fun item => item.id = recordingId)).any (·.checked))

structure World where
  rows : List ListedRecording
  page : Page
deriving DecidableEq

inductive ListAnswer
  | listed
  | failed (caught : Caught)
deriving DecidableEq

inductive ListAct
  | answered (answer : ListAnswer)
  | toggle (recordingId : RecordingId) (csrfToken : Bool)
  | save (k : ℕ)
  | saved (k : ℕ)
  | refused (k : ℕ) (caught : Caught)
  | pressNext
deriving DecidableEq

/-- No list is answered for a day that has no window. The box of a row is disabled while a mark of the
row is in flight. -/
def ListAct.Allowed (filter : ListFilter) (w : World) : ListAct → Prop
  | .answered .listed => w.page.left = false ∧ w.page.loading ∧ filter.Readable
  | .answered (.failed _) => w.page.left = false ∧ w.page.loading
  | .toggle recordingId _ =>
    (∃ items ∈ w.page.displayed, ∃ item ∈ items, item.id = recordingId) ∧
      recordingId ∉ w.page.checkPending
  | .save k => ∃ t ∈ w.page.flight[k]?, t.saved = none
  | .saved k => w.page.left = false ∧ ∃ t ∈ w.page.flight[k]?, t.saved.isSome
  | .refused k _ => w.page.left = false ∧ ∃ t ∈ w.page.flight[k]?, t.saved = none
  | .pressNext => w.page.NextEnabled

instance (filter : ListFilter) (w : World) : (act : ListAct) → Decidable (act.Allowed filter w)
  | .answered .listed | .answered (.failed _) | .toggle _ _ => inferInstanceAs (Decidable (_ ∧ _))
  | .save k => inferInstanceAs (Decidable (∃ t ∈ w.page.flight[k]?, t.saved = none))
  | .saved k =>
    inferInstanceAs (Decidable (w.page.left = false ∧ ∃ t ∈ w.page.flight[k]?, t.saved.isSome))
  | .refused k _ =>
    inferInstanceAs (Decidable (w.page.left = false ∧ ∃ t ∈ w.page.flight[k]?, t.saved = none))
  | .pressNext => inferInstanceAs (Decidable w.page.NextEnabled)

namespace World

def answer (filter : ListFilter) (w : World) : ListAnswer → World
  | .listed =>
    { w with page := w.page.loaded (listRecordings pageSize w.page.offset filter w.rows) }
  | .failed caught => { w with page := w.page.loadFailed caught }

def save (k : ℕ) (t : Toggle) (w : World) : World :=
  match setChecked t.recordingId t.next w.rows with
  | .ok (recording, rows) =>
    let t := { t with saved := some recording.checked }
    ⟨rows, { w.page with flight := w.page.flight.set k t }⟩
  | .error _ => w

def saved (k : ℕ) (t : Toggle) (w : World) : World :=
  t.saved.elim w (fun checked => { w with page := w.page.toggled k t.recordingId checked })

def perform (filter : ListFilter) (w : World) : ListAct → World
  | .answered answer => w.answer filter answer
  | .toggle recordingId csrfToken =>
    { w with page := w.page.toggleChecked recordingId (w.page.opposite recordingId) csrfToken }
  | .save k => (w.page.flight[k]?).elim w (w.save k)
  | .saved k => (w.page.flight[k]?).elim w (w.saved k)
  | .refused k caught => { w with page := w.page.toggleFailed k caught }
  | .pressNext => { w with page := w.page.next filter }

def afterNext (filter : ListFilter) (answer : ListAnswer) (w : World) : World :=
  let pressed := w.perform filter .pressNext
  if pressed.page.loading then pressed.answer filter answer else pressed

end World

def ListStep (filter : ListFilter) (w : World) (act : ListAct) (w' : World) : Prop :=
  act.Allowed filter w ∧ w' = w.perform filter act

abbrev ListRun (filter : ListFilter) := Run (ListStep filter)

end AudioServer.Web.RecordingsPage
