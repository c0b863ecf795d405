import AudioServer.Foundations.Contention
import AudioServer.WebAuth.Sessions

/-! The first setup, by any number of requests at once: each looks for an administrator in one
transaction and adds one in another. -/

namespace AudioServer.WebAuth.SetupRace

open AudioServer.Foundations.Contention AudioServer.Foundations.Outcomes AudioServer.Foundations.Pools
open AudioServer.Foundations.Runs AudioServer.Foundations.Strings AudioServer.Db.Models
open AudioServer.WebAuth.Service AudioServer.WebAuth.Service.WebAuthService
open AudioServer.WebAuth.Sessions (sampleLimiter sampleService)

structure SetupInput where
  suppliedSetupToken : Text
  username : Text
  password : Text
  passwordHash : Text
  id : UserId
  now : Instant

structure UserRow where
  singletonKey : ℕ
  user : User
deriving DecidableEq

inductive Stage
  | begun
  | checked (row : UserRow)
  | finished (outcome : Except AuthExn WebUser)

structure SetupCall where
  input : SetupInput
  stage : Stage

def SetupCall.ready (call : SetupCall) : Bool :=
  match call.stage with
  | .finished _ => false
  | _ => true

def SetupCall.succeeded (call : SetupCall) : Bool :=
  match call.stage with
  | .finished (.ok _) => true
  | _ => false

def insertUser (users : List UserRow) (row : UserRow) : Except AuthExn (List UserRow) := do
  require (row.singletonKey = 1 ∧ 3 ≤ row.user.username.length ∧ row.user.username.length ≤ 64)
    .integrityError
  require (∀ other ∈ users, other.user.id ≠ row.user.id ∧ other.singletonKey ≠ row.singletonKey ∧
    other.user.username ≠ row.user.username) .integrityError
  .ok (users ++ [row])

section Setup

variable (service : WebAuthService)

/-- `setup_admin`, from the first transaction to the second. -/
def newUser (input : SetupInput) : Except AuthExn UserRow := do
  require (service.setupToken ≠ []) setupUnavailable
  require (input.suppliedSetupToken.length ≤ maxTokenTextLength ∧
    input.suppliedSetupToken = service.setupToken) setupAuthorizationFailed
  let normalizedUsername ← service.normalizeUsername input.username
  validatePassword input.password
  .ok ⟨1, ⟨input.id, normalizedUsername, input.passwordHash, true, input.now, input.now, none⟩⟩

def SetupCall.advance (call : SetupCall) (users : List UserRow) : List UserRow × SetupCall :=
  match call.stage with
  | .begun =>
    if users ≠ [] then (users, { call with stage := .finished (.error setupCompletedError) })
    else match newUser service call.input with
      | .error e => (users, { call with stage := .finished (.error e) })
      | .ok row => (users, { call with stage := .checked row })
  | .checked row =>
    match insertUser users row with
    | .ok users' => (users', { call with stage := .finished (.ok (webUser row.user)) })
    | .error _ => (users, { call with stage := .finished (.error setupCompletedError) })
  | .finished _ => (users, call)

abbrev SetupPool := Pool (List UserRow) SetupCall

abbrev SetupRun (p : SetupPool) (es : List (Event SetupPool ℕ)) (p' : SetupPool) : Prop :=
  PoolRun (fun _ call => call.ready) (SetupCall.advance service) p es p'

def opening (inputs : List SetupInput) : SetupPool := ⟨[], inputs.map (fun input => ⟨input, .begun⟩)⟩

def tablesOf (users : List UserRow) (sessions : List WebSession) : Tables :=
  ⟨users.head?.map UserRow.user, sessions⟩

def setupAtOnce (input : SetupInput) (tables : Tables) : Except AuthExn Tables :=
  service.setupAdmin input.suppliedSetupToken input.username input.password input.passwordHash
    input.id input.now tables

end Setup

section Race

variable {service : WebAuthService} {input : SetupInput} {row : UserRow} {users : List UserRow}
  {sessions : List WebSession} {p p' : SetupPool} {es : List (Event SetupPool ℕ)} {i : ℕ}

lemma setupAtOnce_eq (tables : Tables) : setupAtOnce service input tables = (do
    require (tables.user = none) setupCompletedError
    let row ← newUser service input
    .ok { tables with user := some row.user }) := by
  simp only [setupAtOnce, setupAdmin, newUser, bind_assoc, ok_bind]

lemma newUser_ok (h : newUser service input = .ok row) : row.singletonKey = 1 ∧
    3 ≤ row.user.username.length ∧ row.user.username.length ≤ 64 := by
  obtain ⟨_, _, h⟩ := bind_ok h
  obtain ⟨_, _, h⟩ := bind_ok h
  obtain ⟨username, husername, h⟩ := bind_ok h
  obtain ⟨_, _, h⟩ := bind_ok h
  cases h
  have hpattern : usernamePattern username = true := by
    have hname := found_ok.mp husername
    simp only [normalizeLoginUsername] at hname
    split at hname
    · rename_i hmatch
      cases hname
      exact hmatch
    · cases hname
  simp only [usernamePattern, Bool.and_eq_true, decide_eq_true_eq] at hpattern
  exact ⟨rfl, hpattern.1.1, hpattern.1.2⟩

structure Administered (service : WebAuthService) (p : SetupPool) : Prop where
  keys : ∀ row ∈ p.shared, row.singletonKey = 1
  single : p.shared.length ≤ 1
  count : p.calls.countP SetupCall.succeeded = p.shared.length
  checked : ∀ call ∈ p.calls, ∀ row, call.stage = .checked row → newUser service call.input = .ok row
  winner : ∀ call ∈ p.calls, ∀ user, call.stage = .finished (.ok user) →
    p.shared.map (fun row => webUser row.user) = [user]

lemma opening_administered (inputs : List SetupInput) : Administered service (opening inputs) := by
  have hbegun : ∀ call ∈ (opening inputs).calls, call.stage = .begun := by
    intro call hcall
    obtain ⟨input, _, rfl⟩ := List.mem_map.mp hcall
    rfl
  refine ⟨nofun, Nat.zero_le 1, ?_, ?_, ?_⟩
  · show (opening inputs).calls.countP SetupCall.succeeded = 0
    rw [List.countP_eq_zero]
    intro call hcall
    simp [SetupCall.succeeded, hbegun call hcall]
  · intro call hcall row hstage
    rw [hbegun call hcall] at hstage
    cases hstage
  · intro call hcall user hstage
    rw [hbegun call hcall] at hstage
    cases hstage

lemma insert_first (h : newUser service input = .ok row) : insertUser [] row = .ok [row] := by
  rw [insertUser, require_of (newUser_ok h), ok_bind, require_of (by simp)]
  rfl

lemma insert_second (hkeys : ∀ other ∈ users, other.singletonKey = 1) (husers : users ≠ [])
    (h : newUser service input = .ok row) : insertUser users row = .error .integrityError := by
  obtain ⟨other, hother⟩ := List.exists_mem_of_ne_nil users husers
  have hkey : ¬ ∀ other ∈ users, other.user.id ≠ row.user.id ∧
      other.singletonKey ≠ row.singletonKey ∧ other.user.username ≠ row.user.username := by
    intro hall
    exact (hall other hother).2.1 ((hkeys other hother).trans (newUser_ok h).1.symm)
  rw [insertUser, require_of (newUser_ok h), ok_bind, require_of_not hkey]
  rfl

inductive Moved (service : WebAuthService) (call : SetupCall) (users : List UserRow) :
    List UserRow × SetupCall → Prop
  | taken (husers : users ≠ []) (hstage : ∀ outcome, call.stage ≠ .finished outcome) :
    Moved service call users (users, { call with stage := .finished (.error setupCompletedError) })
  | refused {e : AuthExn} (hstage : call.stage = .begun) (husers : users = [])
    (h : newUser service call.input = .error e) :
    Moved service call users (users, { call with stage := .finished (.error e) })
  | looked {row : UserRow} (hstage : call.stage = .begun) (husers : users = [])
    (h : newUser service call.input = .ok row) :
    Moved service call users (users, { call with stage := .checked row })
  | added {row : UserRow} (hstage : call.stage = .checked row) (husers : users = [])
    (h : newUser service call.input = .ok row) :
    Moved service call users ([row], { call with stage := .finished (.ok (webUser row.user)) })

lemma advance_moved {call : SetupCall} (hready : call.ready) (hkeys : ∀ row ∈ users, row.singletonKey = 1)
    (hchecked : ∀ row, call.stage = .checked row → newUser service call.input = .ok row) :
    Moved service call users (call.advance service users) := by
  unfold SetupCall.advance
  split
  · rename_i hstage
    have hopen : ∀ outcome, call.stage ≠ .finished outcome := by
      intro outcome h
      rw [hstage] at h
      cases h
    split
    · rename_i husers
      exact .taken husers hopen
    · rename_i husers
      have hnone := not_not.mp husers
      split
      · rename_i e he
        exact .refused hstage hnone he
      · rename_i row hrow
        exact .looked hstage hnone hrow
  · rename_i row hstage
    have hrow := hchecked row hstage
    by_cases husers : users = []
    · subst husers
      rw [insert_first hrow]
      exact .added hstage rfl hrow
    · rw [insert_second hkeys husers hrow]
      refine .taken husers ?_
      intro outcome h
      rw [hstage] at h
      cases h
  · rename_i outcome hstage
    rw [SetupCall.ready, hstage] at hready
    cases hready

lemma not_succeeded {call : SetupCall} (hready : call.ready) : call.succeeded = false := by
  unfold SetupCall.ready at hready
  split at hready
  · cases hready
  · rename_i hopen
    unfold SetupCall.succeeded
    split
    · rename_i user hstage
      exact absurd hstage (hopen _)
    · rfl

lemma Administered.replaced (h : Administered service p) {call : SetupCall}
    (hi : p.calls[i]? = some call) (hready : call.ready) {stage : Stage}
    (hchecked : ∀ row, stage = .checked row → newUser service call.input = .ok row)
    (hlost : ∀ user, stage ≠ .finished (.ok user)) :
    Administered service ⟨p.shared, p.calls.set i { call with stage := stage }⟩ := by
  have hfailed : SetupCall.succeeded { call with stage := stage } = false := by
    unfold SetupCall.succeeded
    split
    · rename_i user hstage
      exact absurd hstage (hlost user)
    · rfl
  refine ⟨h.keys, h.single, ?_, forall_set h.checked hchecked,
    forall_set h.winner (fun user hstage => absurd hstage (hlost user))⟩
  have hcount := countP_set (p := SetupCall.succeeded) (a := { call with stage := stage }) hi
  rw [not_succeeded hready, hfailed] at hcount
  exact hcount.trans h.count

lemma Administered.added (h : Administered service p) (husers : p.shared = []) {call : SetupCall}
    (hi : p.calls[i]? = some call) (hready : call.ready) (hrow : newUser service call.input = .ok row) :
    Administered service
      ⟨[row], p.calls.set i { call with stage := .finished (.ok (webUser row.user)) }⟩ := by
  refine ⟨List.forall_mem_singleton.mpr (newUser_ok hrow).1, Nat.le_refl 1, ?_,
    forall_set h.checked nofun, forall_set ?_ ?_⟩
  · have hcount := countP_set (p := SetupCall.succeeded)
      (a := { call with stage := .finished (.ok (webUser row.user)) }) hi
    rw [not_succeeded hready, h.count, husers] at hcount
    exact hcount
  · intro other hother user hstage
    have hnone := h.winner other hother user hstage
    rw [husers] at hnone
    cases hnone
  · rintro _ ⟨⟩
    rfl

lemma step_administered (h : Administered service p)
    (hstep : PoolStep (fun _ call => call.ready) (SetupCall.advance service) p i p') :
    Administered service p' := by
  obtain ⟨call, hi, hready, rfl⟩ := hstep.cases
  have hmem := List.mem_of_getElem? hi
  have hmoved := advance_moved hready h.keys (h.checked call hmem)
  revert hmoved
  generalize call.advance service p.shared = next
  rintro (_ | _ | ⟨_, _, hrow⟩ | ⟨_, husers, hrow⟩)
  · exact h.replaced hi hready nofun nofun
  · exact h.replaced hi hready nofun nofun
  · refine h.replaced hi hready ?_ nofun
    rintro _ ⟨⟩
    exact hrow
  · exact h.added husers hi hready hrow

lemma run_administered {inputs : List SetupInput} (h : SetupRun service (opening inputs) es p) :
    Administered service p :=
  h.keeps (Administered service) (fun _ _ _ => step_administered) (opening_administered inputs)

def AtOnce (service : WebAuthService) (input : SetupInput) (before after : List UserRow)
    (outcome : Except AuthExn WebUser) : Prop :=
  ∀ sessions, match outcome with
    | .ok user => setupAtOnce service input (tablesOf before sessions) = .ok (tablesOf after sessions) ∧
        after.map (fun row => webUser row.user) = [user]
    | .error e => setupAtOnce service input (tablesOf before sessions) = .error e ∧ after = before

lemma atOnce_of_moved {call : SetupCall} {next : List UserRow × SetupCall}
    (h : Moved service call users next) {outcome : Except AuthExn WebUser}
    (houtcome : next.2.stage = .finished outcome) :
    AtOnce service call.input users next.1 outcome := by
  intro sessions
  have hnone : users = [] → (tablesOf users sessions).user = none := by
    rintro rfl
    rfl
  cases h with
  | taken husers _ =>
    cases houtcome
    have hsome : ¬ (tablesOf users sessions).user = none := by
      cases users with
      | nil => exact absurd rfl husers
      | cons row users => exact Option.some_ne_none row.user
    refine ⟨?_, rfl⟩
    rw [setupAtOnce_eq, require_of_not hsome]
    rfl
  | refused _ husers he =>
    cases houtcome
    refine ⟨?_, rfl⟩
    rw [setupAtOnce_eq, require_of (hnone husers), he]
    rfl
  | looked _ _ _ => cases houtcome
  | added _ husers hrow =>
    cases houtcome
    refine ⟨?_, rfl⟩
    rw [setupAtOnce_eq, require_of (hnone husers), hrow]
    rfl

theorem setup_linearizable {inputs : List SetupInput} (hrun : SetupRun service (opening inputs) es p) :
    p.shared.length ≤ 1 ∧ p.calls.countP SetupCall.succeeded = p.shared.length ∧
      (∀ e ∈ es, e.before.shared <+: e.after.shared) ∧
      ∀ i call outcome, p.calls[i]? = some call → call.stage = .finished outcome →
        ∃ e ∈ es, e.label = i ∧
          AtOnce service call.input e.before.shared e.after.shared outcome := by
  have h := run_administered hrun
  have hbefore : ∀ e ∈ es, Administered service e.before := fun e he =>
    hrun.event_keeps (Administered service) (fun _ _ _ => step_administered)
      (opening_administered inputs) he
  have hmoved : ∀ e ∈ es, ∃ call, e.before.calls[e.label]? = some call ∧
      Moved service call e.before.shared (call.advance service e.before.shared) ∧
      e.after.shared = (call.advance service e.before.shared).1 := by
    intro e he
    obtain ⟨call, hcall, hready, hafter⟩ := (hrun.event_step he).cases
    exact ⟨call, hcall, advance_moved hready (hbefore e he).keys
      ((hbefore e he).checked call (List.mem_of_getElem? hcall)), congrArg Pool.shared hafter⟩
  refine ⟨h.single, h.count, ?_, ?_⟩
  · intro e he
    obtain ⟨call, _, hmove, hafter⟩ := hmoved e he
    rw [hafter]
    revert hmove
    generalize call.advance service e.before.shared = next
    rintro (_ | _ | _ | ⟨_, husers, _⟩)
    · exact List.prefix_rfl
    · exact List.prefix_rfl
    · exact List.prefix_rfl
    · rw [husers]
      exact List.nil_prefix
  · intro i call outcome hi hfinished
    rcases settled_at hrun hi with hbegun | ⟨e, he, hlabel, earlier, hearlier, hadvanced⟩
    · obtain ⟨input, _, rfl⟩ := List.mem_map.mp (List.mem_of_getElem? hbegun)
      cases hfinished
    · obtain ⟨_, hcall, hmove, _⟩ := hmoved e he
      rw [hlabel, hearlier] at hcall
      cases hcall
      rw [hadvanced] at hmove
      have hinput : earlier.input = call.input := by
        have hsame : (earlier.advance service e.before.shared).2.input = earlier.input := by
          unfold SetupCall.advance
          split
          · split
            · rfl
            · split <;> rfl
          · split <;> rfl
          · rfl
        rw [← hsame, hadvanced]
      refine ⟨e, he, hlabel, ?_⟩
      have hatOnce := atOnce_of_moved hmove hfinished
      rwa [hinput] at hatOnce

end Race

lemma attempts_pos : 1 ≤ 5 := by decide

def racedService : WebAuthService := sampleService (sampleLimiter 5 attempts_pos)

def setupInput (username : String) (id : UserId) : SetupInput :=
  ⟨racedService.setupToken, username.toList, "correct horse battery staple".toList,
    "$test-hash$".toList, id, 0⟩

def raced : SetupPool :=
  [0, 1, 1, 0].foldl (Pool.perform (SetupCall.advance racedService))
    (opening [setupInput "admin" 1, setupInput "root" 2])

theorem setup_linearizable_raced :
    ∃ es, SetupRun racedService (opening [setupInput "admin" 1, setupInput "root" 2]) es raced ∧
      raced.shared.map (·.user.id) = [2] ∧
      ∃ call ∈ raced.calls[0]?, ∃ e ∈ es, e.label = 0 ∧
        AtOnce racedService call.input e.before.shared e.after.shared (.error setupCompletedError) := by
  have hrun : SetupRun racedService (opening [setupInput "admin" 1, setupInput "root" 2]) _ raced :=
    poolRun_trail [0, 1, 1, 0] (by decide +kernel)
  have hlost : ∃ call, raced.calls[0]? = some call ∧
      call.stage = .finished (.error setupCompletedError) := ⟨_, rfl, rfl⟩
  obtain ⟨call, hcall, hstage⟩ := hlost
  exact ⟨_, hrun, by decide +kernel, call, hcall,
    (setup_linearizable hrun).2.2.2 0 call _ hcall hstage⟩

end AudioServer.WebAuth.SetupRace
