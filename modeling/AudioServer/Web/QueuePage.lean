import AudioServer.Api.QueueView
import AudioServer.Foundations.Polling
import AudioServer.Web.DetailPage

/-! The queue page: what it polls for, and what it has made of the answers it took in. -/

namespace AudioServer.Web.QueuePage

open AudioServer.Foundations.Polling AudioServer.Foundations.Runs
open AudioServer.Db.Models AudioServer.Jobs.Queue AudioServer.Services.ActiveJobs
open AudioServer.Services.Consistency AudioServer.Services.Transactions AudioServer.Api.QueueView
open AudioServer.Worker.System AudioServer.Worker.Invariant
open AudioServer.Web.DetailPage (Caught)

inductive Part
  | rows (items : List QueueEntryResponse)
  | totals (processing queued : ℕ)
deriving DecidableEq

def queueLimit : ℕ := 50

def rows (kind : JobKind) (w : World) : Part :=
  .rows ((listActiveJobs queueLimit (some kind) w.db).map (fun row => ⟨row.1.id, row.2⟩))

def totals (w : World) : Part :=
  .totals (countActiveJobs w.db).1 (countActiveJobs w.db).2

def queries : List (World → Part) := listedKinds.map rows ++ [totals]

def Part.items : Part → List QueueEntryResponse
  | .rows items => items
  | .totals _ _ => []

def Part.processing : Part → ℕ
  | .rows _ => 0
  | .totals processing _ => processing

def Part.queued : Part → ℕ
  | .rows _ => 0
  | .totals _ queued => queued

def response (parts : List Part) : QueueResponse :=
  ⟨parts.flatMap Part.items, (parts.map Part.processing).sum, (parts.map Part.queued).sum⟩

/-- `signedOut` is what `invalidate` and the navigation to the login page leave behind. -/
structure Page where
  data : Option QueueResponse
  loading : Bool
  error : Option String
  signedOut : Bool

def mounted : Page := ⟨none, true, none, false⟩

def Page.settled (p : Page) : Except Caught (List (ℕ × Part)) → Page
  | .ok parts => { p with data := some (response (parts.map Prod.snd)), error := none, loading := false }
  | .error caught =>
    if caught.status = some 401 then { p with signedOut := true, loading := false }
    else { p with error := some "queue.error", loading := false }

def listed (data : QueueResponse) (kind : JobKind) : List QueueEntryResponse :=
  data.items.filter (fun entry => entry.job.kind = kind)

abbrev Polled := System World Part Caught

abbrev PolledRun (s : Polled)
    (es : List (Event Polled (Foundations.Polling.Act Worker.System.Act Caught))) (s' : Polled) : Prop :=
  Run (Step WorldStep queries) s es s'

def page (s : Polled) : Page := s.reader.applied.foldl Page.settled mounted

def answer (s : Polled) : Option (List (ℕ × Part)) :=
  (s.reader.applied.filterMap Except.toOption).getLast?

/-- Each section is the listing of its kind at a moment of the reading, and the totals are those of a
moment no earlier than the sections'. -/
structure ReadOff (s : Polled) (parts : List (ℕ × Part)) (data : QueueResponse) : Prop where
  sections : ∀ kind ∈ listedKinds, ∃ n ∈ parts.map Prod.fst, ∃ u ∈ s.at n,
    (listed data kind).map (·.job) = ((unfinished u.db kind).insertionSort ViewOrder).take queueLimit
  totals : ∃ n ∈ parts.map Prod.fst, (∀ m ∈ parts.map Prod.fst, m ≤ n) ∧ ∃ u ∈ s.at n,
    (data.processing, data.queued) = countActiveJobs u.db

section Polls

variable {s s' : Polled} {es : List (Event Polled (Foundations.Polling.Act Worker.System.Act Caught))}

lemma data_answer (s : Polled) :
    (page s).data = (answer s).map (fun parts => response (parts.map Prod.snd)) := by
  rw [page, answer]
  induction s.reader.applied using List.reverseRecOn with
  | nil => rfl
  | append_singleton applied outcome ih =>
    rw [List.foldl_append, List.filterMap_append]
    cases outcome with
    | ok parts => simp [Page.settled, Except.toOption]
    | error caught =>
      simp only [List.foldl_cons, List.foldl_nil, Page.settled]
      split <;> simpa [Except.toOption] using ih

lemma answer_applied {parts : List (ℕ × Part)} (h : answer s = some parts) :
    .ok parts ∈ s.reader.applied := by
  obtain ⟨outcome, hmem, hok⟩ := List.mem_filterMap.mp (List.mem_of_getLast? h)
  cases outcome with
  | error caught => cases hok
  | ok parts' =>
    cases hok
    exact hmem

lemma rows_kind {w : World} (hw : WorldInvariant w) {kind : JobKind} (hkind : kind ∈ listedKinds)
    (other : JobKind) : ((rows kind w).items.filter (fun entry => entry.job.kind = other)).map (·.job) =
      if kind = other then ((unfinished w.db kind).insertionSort ViewOrder).take queueLimit else [] := by
  have hrecording : kind ≠ .dailySummary := by
    rintro rfl
    exact absurd hkind (by decide)
  have hjobs : (rows kind w).items.map (·.job) =
      ((unfinished w.db kind).insertionSort ViewOrder).take queueLimit := by
    rw [← listed_jobs hw.statuses hrecording queueLimit]
    exact List.map_map
  have hof : ∀ entry ∈ (rows kind w).items, entry.job.kind = kind := by
    intro entry hentry
    have hjob : entry.job ∈ ((unfinished w.db kind).insertionSort ViewOrder).take queueLimit :=
      hjobs ▸ List.mem_map_of_mem hentry
    have hjob := (List.mem_insertionSort ViewOrder).mp (List.mem_of_mem_take hjob)
    exact (of_decide_eq_true (List.mem_filter.mp hjob).2).2
  split
  · rename_i hsame
    subst hsame
    rw [List.filter_eq_self.mpr (fun entry hentry => decide_eq_true (hof entry hentry)), hjobs]
  · rename_i hother
    rw [List.filter_eq_nil_iff.mpr, List.map_nil]
    intro entry hentry hkind'
    rw [hof entry hentry] at hkind'
    exact hother (of_decide_eq_true hkind')

lemma reads_four {parts : List (ℕ × Part)} (h : Reads queries s parts)
    (hlength : parts.length = queries.length) :
    ∃ n₀ n₁ n₂ n₃ u₀ u₁ u₂ u₃, parts = [(n₀, rows .full u₀), (n₁, rows .analysis u₁),
        (n₂, rows .translation u₂), (n₃, totals u₃)] ∧
      s.at n₀ = some u₀ ∧ s.at n₁ = some u₁ ∧ s.at n₂ = some u₂ ∧ s.at n₃ = some u₃ := by
  match parts, hlength with
  | [(n₀, v₀), (n₁, v₁), (n₂, v₂), (n₃, v₃)], _ =>
    obtain ⟨_, u₀, ⟨⟩, hu₀, rfl⟩ := h 0 n₀ v₀ rfl
    obtain ⟨_, u₁, ⟨⟩, hu₁, rfl⟩ := h 1 n₁ v₁ rfl
    obtain ⟨_, u₂, ⟨⟩, hu₂, rfl⟩ := h 2 n₂ v₂ rfl
    obtain ⟨_, u₃, ⟨⟩, hu₃, rfl⟩ := h 3 n₃ v₃ rfl
    exact ⟨n₀, n₁, n₂, n₃, u₀, u₁, u₂, u₃, rfl, hu₀, hu₁, hu₂, hu₃⟩

lemma listed_rows {u₀ u₁ u₂ : World} (h₀ : WorldInvariant u₀) (h₁ : WorldInvariant u₁)
    (h₂ : WorldInvariant u₂) (u₃ : World) (kind : JobKind) :
    (listed (response [rows .full u₀, rows .analysis u₁, rows .translation u₂, totals u₃]) kind).map
        (·.job) =
      (if .full = kind then ((unfinished u₀.db .full).insertionSort ViewOrder).take queueLimit else []) ++
      (if .analysis = kind then
        ((unfinished u₁.db .analysis).insertionSort ViewOrder).take queueLimit else []) ++
      (if .translation = kind then
        ((unfinished u₂.db .translation).insertionSort ViewOrder).take queueLimit else []) := by
  have hitems : (response [rows .full u₀, rows .analysis u₁, rows .translation u₂, totals u₃]).items =
      (rows .full u₀).items ++ (rows .analysis u₁).items ++ (rows .translation u₂).items := by
    simp [response, totals, Part.items]
  rw [listed, hitems, List.filter_append, List.filter_append, List.map_append, List.map_append,
    rows_kind h₀ (by decide), rows_kind h₁ (by decide), rows_kind h₂ (by decide)]

lemma answer_read {parts : List (ℕ × Part)} (h : Reads queries s parts)
    (hlength : parts.length = queries.length) (hordered : (parts.map Prod.fst).Pairwise (· ≤ ·))
    (hok : ∀ u ∈ s.past ++ [s.server], WorldInvariant u) :
    ReadOff s parts (response (parts.map Prod.snd)) := by
  obtain ⟨n₀, n₁, n₂, n₃, u₀, u₁, u₂, u₃, rfl, hu₀, hu₁, hu₂, hu₃⟩ := reads_four h hlength
  have hat : ∀ {n u}, s.at n = some u → WorldInvariant u :=
    fun hu => hok _ (List.mem_of_getElem? hu)
  have hlisted := listed_rows (hat hu₀) (hat hu₁) (hat hu₂) u₃
  refine ⟨?_, n₃, by simp, ?_, u₃, hu₃, ?_⟩
  · intro kind hkind
    simp only [listedKinds, List.mem_cons, List.not_mem_nil, or_false] at hkind
    rcases hkind with rfl | rfl | rfl
    · exact ⟨n₀, by simp, u₀, hu₀, (hlisted .full).trans (by simp)⟩
    · exact ⟨n₁, by simp, u₁, hu₁, (hlisted .analysis).trans (by simp)⟩
    · exact ⟨n₂, by simp, u₂, hu₂, (hlisted .translation).trans (by simp)⟩
  · simp only [List.map_cons, List.map_nil, List.pairwise_cons] at hordered
    obtain ⟨h₀, h₁, h₂, _⟩ := hordered
    intro m hm
    simp only [List.map_cons, List.map_nil, List.mem_cons, List.not_mem_nil, or_false] at hm
    rcases hm with rfl | rfl | rfl | rfl
    · exact h₀ _ (by simp)
    · exact h₁ _ (by simp)
    · exact h₂ _ (by simp)
    · exact Nat.le_refl _
  · simp [response, rows, totals, Part.processing, Part.queued]

lemma answers_advance (hs' : Sound queries s') (happlied : s.reader.applied <+: s'.reader.applied)
    {parts parts' : List (ℕ × Part)} (h : answer s = some parts) (h' : answer s' = some parts') :
    parts' = parts ∨ ∀ n ∈ parts.map Prod.fst, ∀ m ∈ parts'.map Prod.fst, n ≤ m := by
  obtain ⟨more, hmore⟩ := happlied
  rw [answer, ← hmore, List.filterMap_append, List.getLast?_append] at h'
  cases hlast : (more.filterMap Except.toOption).getLast? with
  | none =>
    rw [hlast, Option.none_or] at h'
    exact .inl (Option.some.inj (h'.symm.trans h))
  | some last =>
    right
    rw [hlast, Option.some_or] at h'
    cases h'
    obtain ⟨outcome, hmem, hok⟩ := List.mem_filterMap.mp (List.mem_of_getLast? hlast)
    have hlater : .ok parts' ∈ more := by
      cases outcome with
      | error caught => cases hok
      | ok parts' =>
        cases hok
        exact hmem
    have hordered := hs'.ordered
    rw [← hmore, moments, List.flatMap_append, List.pairwise_append] at hordered
    intro n hn m hm
    exact hordered.2.2 n ((moments_of (answer_applied h)).subset hn) m
      ((moments_of hlater).subset hm)

theorem queue_page {settings : Option ProcessingSettings}
    (hrun : PolledRun (.begin (World.init settings)) es s) :
    (s.reader.closed = false → s.reader.timer.toNat + s.reader.live = 1) ∧
      (s.reader.closed = true → s.reader.timer = false) ∧
      (page s).data = (answer s).map (fun parts => response (parts.map Prod.snd)) ∧
      (∀ parts, answer s = some parts → ReadOff s parts (response (parts.map Prod.snd))) ∧
      ∀ es' s', PolledRun s es' s' → ∀ parts, answer s = some parts →
        ∀ parts', answer s' = some parts' →
          parts' = parts ∨ ∀ n ∈ parts.map Prod.fst, ∀ m ∈ parts'.map Prod.fst, n ≤ m := by
  have hsound := run_sound hrun
  refine ⟨hsound.one, hsound.stopped, data_answer s, ?_, ?_⟩
  · intro parts hparts
    have happlied := answer_applied hparts
    have hok := run_states (P := WorldInvariant) (fun _ _ _ => step_invariant)
      (init_invariant settings) hrun
    exact answer_read (hsound.applied parts happlied) (hsound.whole parts happlied)
      (hsound.ordered.sublist (moments_of happlied)) hok
  · intro es' s' hlater parts hparts parts' hparts'
    exact answers_advance (run_sound (hrun.append hlater)) (run_applied hlater) hparts hparts'

end Polls

def upload : Worker.System.Act := .server (.create exampleService exampleRecording ⟨1, 0⟩ 0)

theorem queue_page_after_upload : ∃ es s es' s' parts parts',
    PolledRun (.begin (World.init none)) es s ∧ PolledRun s es' s' ∧
      answer s = some parts ∧ answer s' = some parts' ∧
      parts = [(0, .rows []), (1, .rows []), (1, .rows []), (1, .totals 0 1)] ∧
      (parts'.flatMap (fun part => part.2.items)).map (·.recordingId) = [1] ∧
      (parts' = parts ∨ ∀ n ∈ parts.map Prod.fst, ∀ m ∈ parts'.map Prod.fst, n ≤ m) := by
  have hfirst : ∃ es s, PolledRun (.begin (World.init none)) es s ∧
      answer s = some [(0, .rows []), (1, .rows []), (1, .rows []), (1, .totals 0 1)] ∧
      ∃ es' s' parts', PolledRun s es' s' ∧ answer s' = some parts' ∧
        (parts'.flatMap (fun part => part.2.items)).map (·.recordingId) = [1] := by
    refine ⟨_, _, .cons (.serve (k := 0) rfl rfl) (.cons (.server (show WorldStep _ upload _ from
      ⟨trivial, rfl⟩)) (.cons (.serve (k := 0) rfl rfl) (.cons (.serve (k := 0) rfl rfl)
      (.cons (.serve (k := 0) rfl rfl) (.cons (.arrive (k := 0) rfl rfl) (.nil _)))))), ?_, _, _, _,
      .cons (.tick rfl) (.cons (.serve (k := 0) rfl rfl) (.cons (.serve (k := 0) rfl rfl)
      (.cons (.serve (k := 0) rfl rfl) (.cons (.serve (k := 0) rfl rfl)
      (.cons (.arrive (k := 0) rfl rfl) (.nil _)))))), rfl, ?_⟩
    · decide +kernel
    · decide +kernel
  obtain ⟨es, s, hrun, hparts, es', s', parts', hlater, hparts', hlisted⟩ := hfirst
  exact ⟨es, s, es', s', _, parts', hrun, hlater, hparts, hparts', rfl, hlisted,
    (queue_page hrun).2.2.2.2 es' s' hlater _ hparts parts' hparts'⟩

end AudioServer.Web.QueuePage
