import AudioServer.Foundations.Contention
import AudioServer.Jobs.Queue

/-! `ProcessingSettingsService.update`: any number of calls at once on the one row of the switches,
seeded or not. -/

namespace AudioServer.Services.SwitchUpdates

open AudioServer.Foundations.Runs AudioServer.Foundations.Pools AudioServer.Foundations.Contention
open AudioServer.Db.Models AudioServer.Jobs.Queue

inductive Switch
  | analysis
  | translation
deriving DecidableEq

structure SwitchChange where
  autoAnalysis : Option Bool
  autoTranslation : Option Bool
deriving DecidableEq

def SwitchChange.names (change : SwitchChange) : Switch → Option Bool
  | .analysis => change.autoAnalysis
  | .translation => change.autoTranslation

def shows (switches : AutomaticFollowUps) : Switch → Bool
  | .analysis => switches.analysis
  | .translation => switches.translation

def SwitchChange.assign (change : SwitchChange) (settings : ProcessingSettings) : ProcessingSettings :=
  ⟨change.autoAnalysis.getD settings.autoAnalysis, change.autoTranslation.getD settings.autoTranslation⟩

def defaultSettings : ProcessingSettings :=
  ⟨(readAutomaticFollowUps none).analysis, (readAutomaticFollowUps none).translation⟩

def netColumn (read written : Bool) : Option Bool :=
  if written = read then none else some written

/-- The flush updates only the columns whose value is not the one read. -/
def dirtyColumns (read written : ProcessingSettings) : SwitchChange :=
  ⟨netColumn read.autoAnalysis written.autoAnalysis,
    netColumn read.autoTranslation written.autoTranslation⟩

inductive Attempt
  | first
  | second
deriving DecidableEq

/-- Where an `update` stands: before the locking read, with the row it read and holds, with a row
to insert, with its write flushed, at its end. -/
inductive Phase
  | reading (attempt : Attempt)
  | holding (settings : ProcessingSettings)
  | adding (attempt : Attempt)
  | updated (columns : SwitchChange) (answer : AutomaticFollowUps)
  | inserted (settings : ProcessingSettings)
  | returned (answer : AutomaticFollowUps)
  | integrityError
deriving DecidableEq

def Phase.locks : Phase → Bool
  | .holding _ | .updated _ _ => true
  | _ => false

def Phase.flushed : Phase → Bool
  | .updated _ _ | .inserted _ => true
  | _ => false

structure UpdateCall where
  change : SwitchChange
  phase : Phase
deriving DecidableEq

abbrev Table := Pool (Option ProcessingSettings) UpdateCall

def Table.shows (table : Table) : Switch → Bool :=
  SwitchUpdates.shows (readAutomaticFollowUps table.shared)

/-- `SELECT … FOR UPDATE` waits for who holds the row, an `INSERT` for who has written its key. -/
def ready (table : Table) (call : UpdateCall) : Prop :=
  match call.phase with
  | .reading _ => table.shared.isSome → ∀ other ∈ table.calls, ¬ other.phase.locks
  | .adding _ => ∀ other ∈ table.calls, ¬ other.phase.flushed
  | .holding _ | .updated _ _ | .inserted _ => True
  | .returned _ | .integrityError => False

instance (table : Table) : (call : UpdateCall) → Decidable (ready table call)
  | ⟨_, .reading _⟩ => inferInstanceAs (Decidable (_ → ∀ other ∈ _, ¬ _))
  | ⟨_, .adding _⟩ => inferInstanceAs (Decidable (∀ other ∈ _, ¬ _))
  | ⟨_, .holding _⟩ | ⟨_, .updated _ _⟩ | ⟨_, .inserted _⟩ => inferInstanceAs (Decidable True)
  | ⟨_, .returned _⟩ | ⟨_, .integrityError⟩ => inferInstanceAs (Decidable False)

/-- The first `IntegrityError` is caught, its transaction rolled back and the write repeated. -/
def retried : Attempt → Phase
  | .first => .reading .second
  | .second => .integrityError

def Phase.advance (change : SwitchChange) (row : Option ProcessingSettings) :
    Phase → Option ProcessingSettings × Phase
  | .reading attempt =>
    match row with
    | some settings => (row, .holding settings)
    | none => (row, .adding attempt)
  | .holding settings =>
    (row, .updated (dirtyColumns settings (change.assign settings))
      (readAutomaticFollowUps (some (change.assign settings))))
  | .adding attempt =>
    match row with
    | some _ => (row, retried attempt)
    | none => (row, .inserted (change.assign defaultSettings))
  | .updated columns answer => (row.map columns.assign, .returned answer)
  | .inserted settings => (some settings, .returned (readAutomaticFollowUps (some settings)))
  | .returned answer => (row, .returned answer)
  | .integrityError => (row, .integrityError)

def advance (call : UpdateCall) (row : Option ProcessingSettings) :
    Option ProcessingSettings × UpdateCall :=
  ((call.phase.advance call.change row).1, ⟨call.change, (call.phase.advance call.change row).2⟩)

def Table.opened (row : Option ProcessingSettings) (changes : List SwitchChange) : Table :=
  ⟨row, changes.map (fun change => ⟨change, .reading .first⟩)⟩

abbrev UpdateStep := PoolStep ready advance

abbrev UpdateRun := PoolRun ready advance

def commits (table : Table) (i : ℕ) : Option SwitchChange :=
  (table.calls[i]?.filter (·.phase.flushed)).map (·.change)

def committedValue (switch : Switch) (e : Event Table ℕ) : Option Bool :=
  (commits e.before e.label).bind (·.names switch)

def GoodPhase (row : Option ProcessingSettings) (change : SwitchChange) : Phase → Prop
  | .reading .first => True
  | .reading .second => row.isSome
  | .holding settings => row = some settings
  | .adding attempt => attempt = .first
  | .updated columns answer => ∃ settings, row = some settings ∧
      columns = dirtyColumns settings (change.assign settings) ∧
      answer = readAutomaticFollowUps (some (change.assign settings))
  | .inserted settings => row = none ∧ settings = change.assign defaultSettings
  | .returned answer => ∀ switch, ∀ value ∈ change.names switch, shows answer switch = value
  | .integrityError => False

def good (row : Option ProcessingSettings) (call : UpdateCall) : Prop :=
  GoodPhase row call.change call.phase

def apart (a b : UpdateCall) : Prop :=
  ¬ (a.phase.locks ∧ b.phase.locks) ∧ ¬ (a.phase.flushed ∧ b.phase.flushed)

abbrev SoundTable := Sound (fun _ => True) good apart

section Columns

lemma netColumn_getD {read written : Bool} : (netColumn read written).getD read = written := by
  unfold netColumn
  split
  · rename_i he
    rw [Option.getD_none, he]
  · rfl

lemma dirtyColumns_assign {read written : ProcessingSettings} :
    (dirtyColumns read written).assign read = written := by
  unfold dirtyColumns SwitchChange.assign
  rw [netColumn_getD, netColumn_getD]

lemma shows_assign {change : SwitchChange} {settings : ProcessingSettings} (switch : Switch) :
    shows (readAutomaticFollowUps (some (change.assign settings))) switch =
      (change.names switch).getD (shows (readAutomaticFollowUps (some settings)) switch) := by
  cases switch <;> rfl

lemma shows_default (switch : Switch) :
    shows (readAutomaticFollowUps (some defaultSettings)) switch =
      shows (readAutomaticFollowUps none) switch := by
  cases switch <;> rfl

lemma answer_shows {change : SwitchChange} {settings : ProcessingSettings} (switch : Switch)
    (value : Bool) (h : value ∈ change.names switch) :
    shows (readAutomaticFollowUps (some (change.assign settings))) switch = value := by
  rw [shows_assign, Option.mem_def.mp h, Option.getD_some]

end Columns

section Steps

variable {row : Option ProcessingSettings} {change asked : SwitchChange} {phase other : Phase}
  {table table' : Table} {i : ℕ}

lemma goodPhase_advance (h : GoodPhase row change phase) :
    GoodPhase (phase.advance change row).1 change (phase.advance change row).2 := by
  cases phase with
  | reading attempt =>
    cases row with
    | some settings => exact rfl
    | none =>
      cases attempt with
      | first => exact rfl
      | second => exact absurd h Bool.false_ne_true
  | holding settings => exact ⟨settings, h, rfl, rfl⟩
  | adding attempt =>
    obtain rfl : attempt = .first := h
    cases row with
    | some settings => exact rfl
    | none => exact ⟨rfl, rfl⟩
  | updated columns answer =>
    obtain ⟨settings, _, _, rfl⟩ := h
    exact answer_shows
  | inserted settings =>
    obtain ⟨_, rfl⟩ := h
    exact answer_shows
  | returned answer => exact h
  | integrityError => exact h

lemma goodPhase_kept (h : GoodPhase row change phase) (hother : GoodPhase row asked other)
    (hlocks : ¬ (phase.locks ∧ other.locks)) (hflushed : ¬ (phase.flushed ∧ other.flushed)) :
    GoodPhase (phase.advance change row).1 asked other := by
  cases phase with
  | reading attempt => cases row <;> exact hother
  | holding settings => exact hother
  | adding attempt => cases row <;> exact hother
  | updated columns answer =>
    obtain ⟨settings, rfl, _⟩ := h
    cases other with
    | reading attempt => cases attempt <;> exact hother
    | holding held => exact absurd ⟨rfl, rfl⟩ hlocks
    | updated columns answer => exact absurd ⟨rfl, rfl⟩ hlocks
    | inserted settings => exact absurd ⟨rfl, rfl⟩ hflushed
    | adding attempt => exact hother
    | returned answer => exact hother
    | integrityError => exact hother
  | inserted settings =>
    obtain ⟨rfl, _⟩ := h
    cases other with
    | reading attempt => cases attempt with
      | first => trivial
      | second => exact rfl
    | holding held => cases hother
    | updated columns answer => exact absurd ⟨rfl, rfl⟩ hflushed
    | inserted settings => exact absurd ⟨rfl, rfl⟩ hflushed
    | adding attempt => exact hother
    | returned answer => exact hother
    | integrityError => exact hother
  | returned answer => exact hother
  | integrityError => exact hother

lemma locks_advance (hlocks : (phase.advance change row).2.locks) :
    phase.locks ∨ ∃ attempt, phase = .reading attempt ∧ row.isSome := by
  cases phase with
  | reading attempt =>
    cases row with
    | some settings => exact .inr ⟨attempt, rfl, rfl⟩
    | none => cases hlocks
  | holding settings => exact .inl rfl
  | adding attempt => cases row <;> cases attempt <;> cases hlocks
  | updated columns answer => cases hlocks
  | inserted settings => cases hlocks
  | returned answer => cases hlocks
  | integrityError => cases hlocks

lemma flushed_advance (hflushed : (phase.advance change row).2.flushed) :
    (∃ settings, phase = .holding settings) ∨ ∃ attempt, phase = .adding attempt := by
  cases phase with
  | reading attempt => cases row <;> cases hflushed
  | holding settings => exact .inl ⟨settings, rfl⟩
  | adding attempt => exact .inr ⟨attempt, rfl⟩
  | updated columns answer => cases hflushed
  | inserted settings => cases hflushed
  | returned answer => cases hflushed
  | integrityError => cases hflushed

lemma flushed_locks (h : GoodPhase row change phase) (hrow : row.isSome) (hflushed : phase.flushed) :
    phase.locks := by
  cases phase with
  | updated columns answer => rfl
  | inserted settings =>
    rw [h.1] at hrow
    cases hrow
  | reading attempt => cases hflushed
  | holding settings => cases hflushed
  | adding attempt => cases hflushed
  | returned answer => cases hflushed
  | integrityError => cases hflushed

lemma apart_advance {call call' : UpdateCall} (hmem : call' ∈ table.calls)
    (hgood : good table.shared call) (hgood' : good table.shared call') (hready : ready table call)
    (h : apart call call') : apart (advance call table.shared).2 call' := by
  obtain ⟨hlocks, hflushed⟩ := h
  constructor
  · rintro ⟨hl, hl'⟩
    rcases locks_advance hl with hheld | ⟨attempt, hphase, hrow⟩
    · exact hlocks ⟨hheld, hl'⟩
    · rw [ready, hphase] at hready
      exact hready hrow call' hmem hl'
  · rintro ⟨hf, hf'⟩
    rcases flushed_advance hf with ⟨settings, hphase⟩ | ⟨attempt, hphase⟩
    · rw [good, hphase] at hgood
      have hrow : table.shared = some settings := hgood
      have hl : call'.phase.locks := flushed_locks hgood' (by rw [hrow]; rfl) hf'
      exact hlocks ⟨by rw [hphase]; rfl, hl⟩
    · rw [ready, hphase] at hready
      exact hready call' hmem hf'

lemma apart_symm {a b : UpdateCall} (h : apart a b) : apart b a :=
  ⟨fun hl => h.1 hl.symm, fun hf => h.2 hf.symm⟩

lemma soundTable_step (h : SoundTable table) (hstep : UpdateStep table i table') :
    SoundTable table' := by
  apply h.step hstep
  · intro _ _ _ _ _
    trivial
  · intro call _ _ hgood _
    exact goodPhase_advance hgood
  · intro call _ other hother hgood hgood' hready hapart _
    have hmoved := apart_advance hother hgood hgood' hready hapart
    exact ⟨goodPhase_kept hgood hgood' hapart.1 hapart.2, hmoved, apart_symm hmoved⟩

lemma soundTable_opened (row : Option ProcessingSettings) (changes : List SwitchChange) :
    SoundTable (Table.opened row changes) := by
  constructor
  · trivial
  · intro call hcall
    obtain ⟨change, _, rfl⟩ := List.mem_map.mp hcall
    trivial
  · intro j k a b ha _ _
    obtain ⟨change, _, rfl⟩ := List.mem_map.mp (List.mem_of_getElem? ha)
    constructor
    · rintro ⟨hl, _⟩
      cases hl
    · rintro ⟨hf, _⟩
      cases hf

lemma ready_or_returned (h : SoundTable table) :
    (∃ call ∈ table.calls, ready table call) ∨
      ∀ call ∈ table.calls, ∃ answer, call.phase = .returned answer := by
  by_cases hheld : ∃ call ∈ table.calls, call.phase.locks ∨ call.phase.flushed
  · obtain ⟨call, hcall, hheld⟩ := hheld
    refine .inl ⟨call, hcall, ?_⟩
    unfold ready
    rcases call with ⟨change, phase⟩
    cases phase <;> simp [Phase.locks, Phase.flushed] at hheld ⊢
  · by_cases hall : ∀ call ∈ table.calls, ∃ answer, call.phase = .returned answer
    · exact .inr hall
    · push Not at hheld hall
      obtain ⟨call, hcall, hopen⟩ := hall
      refine .inl ⟨call, hcall, ?_⟩
      have hgood := h.good call hcall
      unfold ready
      cases hphase : call.phase with
      | reading attempt => exact fun _ other hother => (hheld other hother).1
      | adding attempt => exact fun other hother => (hheld other hother).2
      | holding settings => trivial
      | updated columns answer => trivial
      | inserted settings => trivial
      | returned answer => exact absurd hphase (hopen answer)
      | integrityError =>
        rw [good, hphase] at hgood
        exact hgood

lemma row_advance (h : GoodPhase row change phase) (switch : Switch) :
    shows (readAutomaticFollowUps (phase.advance change row).1) switch =
      (if phase.flushed then change.names switch else none).getD
        (shows (readAutomaticFollowUps row) switch) := by
  cases phase with
  | reading attempt => cases row <;> rfl
  | holding settings => rfl
  | adding attempt => cases row <;> rfl
  | updated columns answer =>
    obtain ⟨settings, rfl, rfl, _⟩ := h
    have hrow : (some settings).map (dirtyColumns settings (change.assign settings)).assign =
        some (change.assign settings) := by
      rw [Option.map_some, dirtyColumns_assign]
    change shows (readAutomaticFollowUps (Option.map _ (some settings))) switch = _
    rw [hrow]
    exact shows_assign switch
  | inserted settings =>
    obtain ⟨rfl, rfl⟩ := h
    change shows (readAutomaticFollowUps (some (change.assign defaultSettings))) switch = _
    rw [shows_assign, shows_default]
    rfl
  | returned answer => rfl
  | integrityError => rfl

lemma shows_step (h : SoundTable table) (hstep : UpdateStep table i table') (switch : Switch) :
    table'.shows switch = ((commits table i).bind (·.names switch)).getD (table.shows switch) := by
  obtain ⟨call, hcall, _, rfl⟩ := hstep.cases
  have hrow := row_advance (h.good call (List.mem_of_getElem? hcall)) switch
  rw [commits, hcall]
  refine hrow.trans ?_
  cases hflushed : call.phase.flushed <;> simp [Option.filter, hflushed, Table.shows]

lemma unnamed_step {call : UpdateCall} {switch : Switch} (h : SoundTable table)
    (hstep : UpdateStep table i table') (hcall : table.calls[i]? = some call)
    (hnot : call.change.names switch = none) : table'.shows switch = table.shows switch := by
  have hnone : (commits table i).bind (·.names switch) = none := by
    rw [commits, hcall]
    cases hflushed : call.phase.flushed <;> simp [Option.filter, hflushed, hnot]
  rw [shows_step h hstep, hnone, Option.getD_none]

def Phase.ahead : Phase → ℕ
  | .reading .first => 5
  | .adding .first => 4
  | .reading .second => 3
  | .adding .second => 2
  | .holding _ => 2
  | .updated _ _ | .inserted _ => 1
  | .returned _ | .integrityError => 0

lemma ahead_advance {call : UpdateCall} (hready : ready table call) :
    (advance call table.shared).2.phase.ahead < call.phase.ahead := by
  rcases call with ⟨change, phase⟩
  cases phase with
  | reading attempt =>
    cases hrow : table.shared <;> cases attempt <;>
      simp [advance, Phase.advance, Phase.ahead]
  | holding settings => exact Nat.lt_succ_self 1
  | adding attempt =>
    cases hrow : table.shared <;> cases attempt <;>
      simp [advance, Phase.advance, Phase.ahead, retried]
  | updated columns answer => exact Nat.zero_lt_one
  | inserted settings => exact Nat.zero_lt_one
  | returned answer => exact hready.elim
  | integrityError => exact hready.elim

end Steps

section Runs

variable {row : Option ProcessingSettings} {changes : List SwitchChange} {table table' : Table}
  {es : List (Event Table ℕ)}

lemma soundTable_run (h : UpdateRun (Table.opened row changes) es table) : SoundTable table :=
  h.keeps SoundTable (fun _ _ _ => soundTable_step) (soundTable_opened row changes)

lemma shows_run (h : UpdateRun table es table') (hsound : SoundTable table) (switch : Switch) :
    table'.shows switch = (es.filterMap (committedValue switch)).getLastD (table.shows switch) := by
  induction h with
  | nil => rfl
  | @cons s i t es u hstep _ ih =>
    rw [ih (soundTable_step hsound hstep), shows_step hsound hstep]
    cases hvalue : committedValue switch ⟨s, i, t⟩ with
    | none => rw [List.filterMap_cons_none hvalue, show (commits s i).bind _ = none from hvalue,
        Option.getD_none]
    | some value => rw [List.filterMap_cons_some hvalue, List.getLastD_cons,
        show (commits s i).bind _ = some value from hvalue, Option.getD_some]

lemma updates_end (h : UpdateRun (Table.opened row changes) es table) :
    es.length ≤ 5 * changes.length := by
  have hle := length_le (fun call : UpdateCall => call.phase.ahead)
    (fun _ _ _ hready => ahead_advance hready) h (n := 5) (by
      intro call hcall
      obtain ⟨change, _, rfl⟩ := List.mem_map.mp hcall
      exact Nat.le_refl 5)
  rwa [Table.opened, List.length_map] at hle

theorem switches_last_given (h : UpdateRun (Table.opened row changes) es table) :
    table.calls.map (·.change) = changes ∧ es.length ≤ 5 * changes.length ∧
    ((∀ i, ¬ table.allows ready i) → ∀ call ∈ table.calls, ∃ answer, call.phase = .returned answer) ∧
    (∀ call ∈ table.calls, call.phase ≠ .integrityError) ∧
    (∀ call ∈ table.calls, ∀ answer, call.phase = .returned answer →
      ∀ switch, ∀ value ∈ call.change.names switch, shows answer switch = value) ∧
    (∀ switch, table.shows switch =
      (es.filterMap (committedValue switch)).getLastD (shows (readAutomaticFollowUps row) switch)) ∧
    ∀ e ∈ es, ∀ call ∈ e.before.calls[e.label]?, ∀ switch, call.change.names switch = none →
      e.after.shows switch = e.before.shows switch := by
  have hsound := soundTable_run h
  refine ⟨?_, updates_end h, ?_, ?_, ?_,
    fun switch => shows_run h (soundTable_opened row changes) switch, ?_⟩
  · rw [map_calls (·.change) (fun _ _ => rfl) h, Table.opened, List.map_map]
    exact List.map_id changes
  · intro hblocked
    rcases ready_or_returned hsound with ⟨call, hcall, hready⟩ | hall
    · exact absurd hready (not_ready_of_stuck hblocked hcall)
    · exact hall
  · intro call hcall hphase
    have hgood := hsound.good call hcall
    rw [good, hphase] at hgood
    exact hgood
  · intro call hcall answer hphase
    have hgood := hsound.good call hcall
    rw [good, hphase] at hgood
    exact hgood
  · intro e he call hcall switch hnot
    have hbefore := h.event_keeps SoundTable (fun _ _ _ => soundTable_step)
      (soundTable_opened row changes) he
    exact unnamed_step hbefore (h.event_step he) hcall hnot

def raced : List ℕ := [0, 1, 0, 0, 1, 1, 1, 1]

def firstWrites : Table := Table.opened none [⟨some false, none⟩, ⟨none, some false⟩]

theorem raced_keeps_both :
    (raced.foldl (Pool.perform advance) firstWrites).shared = some ⟨false, false⟩ ∧
    (raced.foldl (Pool.perform advance) firstWrites).calls.map (·.phase) =
      [.returned ⟨false, true⟩, .returned ⟨false, false⟩] ∧
    ∀ call ∈ (raced.foldl (Pool.perform advance) firstWrites).calls,
      call.phase ≠ .integrityError :=
  ⟨rfl, rfl, (switches_last_given (poolRun_trail raced (by decide))).2.2.2.1⟩

end Runs

end AudioServer.Services.SwitchUpdates
