import AudioServer.Foundations.Runs
import AudioServer.Web.DetailPage

/-! The page of a day: the day of its route, the detail it has taken in, its poll,
and the requests that queue work and read the day back. Setting state and running
the effects that watch it is one step. -/

namespace AudioServer.Web.DayPage

open AudioServer.Foundations.Runs
open AudioServer.Api.Schemas AudioServer.Db.Models AudioServer.Api.Responses
open AudioServer.Web.DetailPage (Caught)

structure DayDetailResponse where
  day : Day
  recordings : List RecordingSummary
  analysedRecordingIds : List RecordingId
  activeJobRecordingIds : List RecordingId
  summary : Option DailySummaryResultV1
  stale : Bool
  job : Option JobStatusResponse
deriving DecidableEq

inductive Action
  | generate | analysePending
deriving DecidableEq

inductive Notice
  | queued
  | analysisQueued (queued skipped : ℕ)
  | queueError
  | analysisError
  | message (text : String)
deriving DecidableEq

/-- What waits for an answer. A read carries the change count it was issued under, and the request of
an action goes on to a read of its own. -/
inductive Task
  | listDays (visit : ℕ)
  | load (day : Day) (run issuedAt : ℕ)
  | refresh (action : Action) (day : Day) (issuedAt : ℕ)
  | request (action : Action) (day : Day) (committed : Bool)
deriving DecidableEq

def Task.waits : Task → Bool
  | .request _ _ committed => !committed
  | _ => false

/-- `askedAt` records when the call was made; the page does not keep it. -/
structure Call where
  task : Task
  askedAt : ℕ
deriving DecidableEq

inductive Reply
  | failed (caught : Caught)
  | days (items : List Day)
  | detail (response : DayDetailResponse)
  | queued (queuedRecordingIds : List RecordingId) (skipped : ℕ)
deriving DecidableEq

/-- Any call can fail, a request also after the server has carried it out. -/
def Reply.Answers : Task → Reply → Prop
  | _, .failed _ => True
  | .listDays _, .days _ => True
  | .load day _ _, .detail response => response.day = day
  | .refresh _ day _, .detail response => response.day = day
  | .request _ _ committed, .queued _ _ => committed
  | _, _ => False

instance : (task : Task) → (reply : Reply) → Decidable (reply.Answers task)
  | .listDays _, .failed _ | .load _ _ _, .failed _ => inferInstanceAs (Decidable True)
  | .refresh _ _ _, .failed _ | .request _ _ _, .failed _ => inferInstanceAs (Decidable True)
  | .listDays _, .days _ => inferInstanceAs (Decidable True)
  | .load day _ _, .detail response => inferInstanceAs (Decidable (response.day = day))
  | .refresh _ day _, .detail response => inferInstanceAs (Decidable (response.day = day))
  | .request _ _ committed, .queued _ _ => inferInstanceAs (Decidable (committed = true))
  | .listDays _, .detail _ | .listDays _, .queued _ _ => inferInstanceAs (Decidable False)
  | .load _ _ _, .days _ | .load _ _ _, .queued _ _ => inferInstanceAs (Decidable False)
  | .refresh _ _ _, .days _ | .refresh _ _ _, .queued _ _ => inferInstanceAs (Decidable False)
  | .request _ _ _, .days _ | .request _ _ _, .detail _ => inferInstanceAs (Decidable False)

/-- The detail on the page. When it was asked for, when it was taken in and the day the route named
then are records of where it came from; the page keeps the response. -/
structure Shown where
  response : DayDetailResponse
  askedAt : ℕ
  takenAt : ℕ
  under : Option Day
deriving DecidableEq

structure Commit where
  action : Action
  day : Day
  moment : ℕ
deriving DecidableEq

structure Told where
  action : Action
  day : Day
  visit : ℕ
  moment : ℕ
deriving DecidableEq

/-- `visit` and `run` tell the runs of the two effects apart, so that a run knows it was cancelled.
`clock`, `commits` and `told` record the order of events; the page does not keep them. -/
structure Page where
  day : Option Day
  days : Option (List Day)
  detail : Option Shown
  loading : Bool
  error : Option String
  notice : Option Notice
  queueing : Bool
  analysing : Bool
  pendingReload : Bool
  changes : ℕ
  visit : ℕ
  run : ℕ
  timer : Bool
  left : Bool
  flight : List Call
  clock : ℕ
  commits : List Commit
  told : List Told
deriving DecidableEq

namespace Page

def blank (day : Option Day) : Page where
  day := day
  days := none
  detail := none
  loading := true
  error := none
  notice := none
  queueing := false
  analysing := false
  pendingReload := false
  changes := 0
  visit := 0
  run := 0
  timer := false
  left := false
  flight := []
  clock := 0
  commits := []
  told := []

def rendered (p : Page) : Option Shown :=
  if p.left ∨ (p.day = none ∧ p.days = some []) then none else p.detail

def response (p : Page) : Option DayDetailResponse := p.detail.map (·.response)

def summaryJobActive (p : Page) : Bool :=
  (p.response.bind (·.job)).any (fun job => job.kind = .dailySummary ∧ job.status.active)

def activeJobIds (p : Page) : List RecordingId :=
  (p.response.map (·.activeJobRecordingIds)).getD []

def recordingJobsActive (p : Page) : Bool := p.activeJobIds ≠ []

def running (p : Page) : Bool := p.summaryJobActive || p.recordingJobsActive || p.pendingReload

def pendingAnalysis (p : Page) : List RecordingSummary :=
  ((p.response.map (·.recordings)).getD []).filter (fun recording =>
    recording.processingStatus = .completed ∧
      recording.id ∉ (p.response.map (·.analysedRecordingIds)).getD [] ∧
      recording.id ∉ p.activeJobIds)

def busy (p : Page) : Action → Bool
  | .generate => p.queueing
  | .analysePending => p.analysing

def setBusy (action : Action) (busy : Bool) (p : Page) : Page :=
  match action with
  | .generate => { p with queueing := busy }
  | .analysePending => { p with analysing := busy }

def disabled (p : Page) : Action → Bool
  | .generate => p.queueing || p.summaryJobActive || p.pendingReload
  | .analysePending => p.analysing || p.pendingReload

def offers (p : Page) : Action → Prop
  | .generate => ∃ shown ∈ p.rendered, shown.response.recordings ≠ []
  | .analysePending =>
    (∃ shown ∈ p.rendered, shown.response.recordings ≠ []) ∧ p.pendingAnalysis ≠ []

instance (p : Page) : (action : Action) → Decidable (p.offers action)
  | .generate => inferInstanceAs (Decidable (∃ shown ∈ p.rendered, shown.response.recordings ≠ []))
  | .analysePending => inferInstanceAs (Decidable (_ ∧ _))

def send (task : Task) (p : Page) : Page :=
  { p with flight := p.flight ++ [⟨task, p.clock⟩], clock := p.clock + 1 }

def listDaysEffect (p : Page) : Page :=
  { p with visit := p.visit + 1 }.send (.listDays (p.visit + 1))

def load (p : Page) : Page :=
  match p.day with
  | some day => p.send (.load day p.run p.changes)
  | none => p

/-- The cleanup cancels the run before and clears its timer. -/
def pollEffect (p : Page) : Page :=
  let p := { p with run := p.run + 1, timer := false }
  if p.day.isSome then { p with loading := true }.load else p

def mount (day : Option Day) : Page := (blank day).listDaysEffect.pollEffect

def moveTo (day : Option Day) (p : Page) : Page :=
  if p.day = day then p
  else { { p with day := day }.listDaysEffect with notice := none }.pollEffect

def watched (p : Page) : Bool × Bool × Bool :=
  (p.pendingReload, p.recordingJobsActive, p.summaryJobActive)

def rerender (p before : Page) : Page := if p.watched = before.watched then p else p.pollEffect

def current (p : Page) (day : Day) (issuedAt : ℕ) : Prop := p.day = some day ∧ p.changes = issuedAt

instance (p : Page) (day : Day) (issuedAt : ℕ) : Decidable (p.current day issuedAt) :=
  inferInstanceAs (Decidable (_ ∧ _))

def takeIn (response : DayDetailResponse) (askedAt : ℕ) (p : Page) : Page :=
  { p with
    detail := some ⟨response, askedAt, p.clock, p.day⟩
    error := none
    pendingReload := false
    clock := p.clock + 1 }

def listDaysSettled (p : Page) (visit : ℕ) : Reply → Page
  | .days items =>
    if p.visit = visit then
      match p.day, items with
      | some _, _ => { p with days := some items }
      | none, day :: _ => { p with days := some items }.moveTo (some day)
      | none, [] => { p with days := some items, loading := false }
    else p
  | .failed caught =>
    if p.visit = visit then
      if caught.status = some 401 then { p with left := true }
      else { p with error := some "days.loadError", loading := false }
    else p
  | _ => p

/-- Past its `finally`, a run that was not cancelled sets its timer again while the day is waited
on. -/
def loadSettled (p : Page) (day : Day) (run issuedAt askedAt : ℕ) : Reply → Page
  | .detail response =>
    if p.run = run then
      if p.current day issuedAt then
        ({ p with loading := false, timer := p.running }.takeIn response askedAt).rerender p
      else { p with loading := false, timer := p.running }
    else p
  | .failed caught =>
    if p.run = run then
      if caught.status = some 401 then { p with left := true }
      else if p.current day issuedAt then
        { p with error := some "days.loadError", loading := false, timer := p.running }
      else { p with loading := false, timer := p.running }
    else p
  | _ => p

/-- The read of an action ends the action. Its failure is the day's, not the action's. -/
def refreshSettled (p : Page) (action : Action) (day : Day) (issuedAt askedAt : ℕ) : Reply → Page
  | .detail response =>
    if p.current day issuedAt then
      ((p.takeIn response askedAt).setBusy action false).rerender p
    else p.setBusy action false
  | .failed caught =>
    if caught.status = some 401 then { p with left := true }.setBusy action false
    else if p.current day issuedAt then
      ({ p with error := some "days.loadError", pendingReload := true }.setBusy action false).rerender p
    else p.setBusy action false
  | _ => p

def queuedNotice (queuedRecordingIds : List RecordingId) (skipped : ℕ) : Action → Notice
  | .generate => .queued
  | .analysePending => .analysisQueued queuedRecordingIds.length skipped

def failedNotice (caught : Caught) : Action → Notice
  | .generate => match caught with
    | .api _ _ message => .message message
    | .other => .queueError
  | .analysePending => match caught with
    | .api _ _ message => .message message
    | .other => .analysisError

def tell (action : Action) (day : Day) (p : Page) : Page :=
  { p with
    changes := p.changes + 1
    told := p.told ++ [⟨action, day, p.visit, p.clock⟩]
    clock := p.clock + 1 }

def requestSettled (p : Page) (action : Action) (day : Day) : Reply → Page
  | .queued queuedRecordingIds skipped =>
    if p.day = some day then
      { p.tell action day with notice := some (queuedNotice queuedRecordingIds skipped action) }.send
        (.refresh action day (p.changes + 1))
    else p.setBusy action false
  | .failed caught =>
    if caught.status = some 401 then { p with left := true }.setBusy action false
    else if p.day = some day then
      { p with notice := some (failedNotice caught action) }.setBusy action false
    else p.setBusy action false
  | _ => p

def settle (p : Page) (reply : Reply) (call : Call) : Page :=
  match call.task with
  | .listDays visit => p.listDaysSettled visit reply
  | .load day run issuedAt => p.loadSettled day run issuedAt call.askedAt reply
  | .refresh action day issuedAt => p.refreshSettled action day issuedAt call.askedAt reply
  | .request action day _ => p.requestSettled action day reply

/-- `generate` and `analysePending`, up to their request. -/
def press (action : Action) (p : Page) : Page :=
  match p.day with
  | some day => { p.setBusy action true with notice := none }.send (.request action day false)
  | none => p

def commit (k : ℕ) (p : Page) : Page :=
  match p.flight[k]? with
  | some ⟨.request action day _, askedAt⟩ =>
    { p with
      flight := p.flight.set k ⟨.request action day true, askedAt⟩
      commits := p.commits ++ [⟨action, day, p.clock⟩]
      clock := p.clock + 1 }
  | _ => p

end Page

inductive DayAct
  | moveTo (day : Option Day)
  | tick
  | press (action : Action)
  | commit (k : ℕ)
  | arrive (k : ℕ) (reply : Reply)
deriving DecidableEq

def DayAct.Allowed (p : Page) : DayAct → Prop
  | .moveTo _ => p.left = false
  | .tick => p.left = false ∧ p.timer
  | .press action => p.left = false ∧ p.offers action ∧ p.disabled action = false
  | .commit k => p.left = false ∧ ∃ call ∈ p.flight[k]?, call.task.waits
  | .arrive k reply => p.left = false ∧ ∃ call ∈ p.flight[k]?, reply.Answers call.task

instance (p : Page) : (act : DayAct) → Decidable (act.Allowed p)
  | .moveTo _ => inferInstanceAs (Decidable (p.left = false))
  | .tick | .press _ => inferInstanceAs (Decidable (_ ∧ _))
  | .commit k => inferInstanceAs (Decidable (p.left = false ∧ ∃ call ∈ p.flight[k]?, call.task.waits))
  | .arrive k reply =>
    inferInstanceAs (Decidable (p.left = false ∧ ∃ call ∈ p.flight[k]?, reply.Answers call.task))

def Page.perform (p : Page) : DayAct → Page
  | .moveTo day => p.moveTo day
  | .tick => { p with timer := false }.load
  | .press action => p.press action
  | .commit k => p.commit k
  | .arrive k reply =>
    (p.flight[k]?).elim p ({ p with flight := p.flight.eraseIdx k }.settle reply)

def DayStep (p : Page) (act : DayAct) (p' : Page) : Prop := act.Allowed p ∧ p' = p.perform act

abbrev DayRun := Run DayStep

end AudioServer.Web.DayPage
