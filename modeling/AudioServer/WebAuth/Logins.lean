import AudioServer.Foundations.Pools
import AudioServer.Foundations.Runs
import AudioServer.WebAuth.Service

/-! Logins and password resets in progress beside everything else the browser asks for. The lock is
the one on the row of the user. -/

namespace AudioServer.WebAuth.Logins

open AudioServer.Foundations.Pools AudioServer.Foundations.Runs AudioServer.Foundations.Strings
open AudioServer.Db.Models AudioServer.WebAuth.Limiter AudioServer.WebAuth.Service

inductive LoginPhase
  | arrived
  | checking (reading : ℚ)
  | allowed
  | locked (loginAt : Instant) (user : Option User)
  | rejected
  | recording (reading : ℚ)
  | committed (sessionToken csrfToken : Text) (expiresAt : Instant)
  | returned (sessionToken csrfToken : Text) (expiresAt : Instant)
  | raised (exn : AuthExn)
deriving DecidableEq

structure LoginCall where
  username : Text
  password : Text
  rateLimitKey : Text
  phase : LoginPhase
deriving DecidableEq

inductive ResetPhase
  | hashed (normalizedUsername : Text)
  | locked (user : User)
  | committed
  | raised (exn : AuthExn)
deriving DecidableEq

structure ResetCall where
  newPassword : Text
  passwordHash : Text
  changedAt : Instant
  phase : ResetPhase
deriving DecidableEq

inductive Holder
  | login (i : ℕ)
  | reset (j : ℕ)
deriving DecidableEq

/-- `clock` is `time.monotonic()`. -/
structure Web where
  tables : Tables
  failures : Failures ℚ
  clock : ℚ
  lock : Option Holder
  logins : List LoginCall
  resets : List ResetCall
deriving DecidableEq

def Web.opened (clock : ℚ) : Web := ⟨⟨none, []⟩, [], clock, none, [], []⟩

/-- What a login draws while it runs: the wall clock, two tokens, a row id and a salted hash. -/
structure LoginInput where
  now : Instant
  sessionToken : Text
  csrfToken : Text
  sessionId : SessionId
  rehash : Text

inductive WebAct
  | tick (clock : ℚ)
  | setup (suppliedSetupToken username password passwordHash : Text) (id : UserId) (now : Instant)
  | setActive (isActive : Bool)
  | beginLogin (username password rateLimitKey : Text)
  | stepLogin (i : ℕ) (input : LoginInput)
  | abortLogin (i : ℕ)
  | beginReset (username newPassword passwordHash : Text) (changedAt : Instant)
  | stepReset (j : ℕ)
  | abortReset (j : ℕ)
  | resolve (sessionToken : Text) (now : Instant) (touched : Bool)
  | logout (sessionToken csrfToken : Text) (now : Instant)
  | requireMutation (sessionToken csrfToken : Text) (now : Instant)

def Web.at (w : Web) (i : ℕ) (call : LoginCall) (phase : LoginPhase) : Web :=
  { w with logins := w.logins.set i { call with phase := phase } }

def Web.resetAt (w : Web) (j : ℕ) (call : ResetCall) (phase : ResetPhase) : Web :=
  { w with resets := w.resets.set j { call with phase := phase } }

def Web.withFailures (w : Web) (failures : Failures ℚ) : Web := { w with failures := failures }

def Web.withTables (w : Web) (tables : Tables) : Web := { w with tables := tables }

def Web.released (w : Web) (holder : Holder) : Web :=
  { w with lock := if w.lock = some holder then none else w.lock }

def settledTables (tables : Tables) : Except AuthExn Tables → Tables
  | .ok tables => tables
  | .error _ => tables

variable (service : WebAuthService)

/-- One step of `login`. A `SELECT ... FOR UPDATE` of a row that is locked waits. -/
def advanceLogin (w : Web) (i : ℕ) (call : LoginCall) (input : LoginInput) : Web :=
  match call.phase with
  | .arrived => w.at i call (.checking w.clock)
  | .checking reading =>
    let (refusal, failures) := service.limiter.ensureAllowed call.rateLimitKey reading w.failures
    (w.withFailures failures).at i call (refusal.elim .allowed (fun e => .raised (.webAuth e)))
  | .allowed =>
    match WebAuthService.selectUser w.tables (service.normalizeLoginUsername call.username) with
    | none => w.at i call (.locked input.now none)
    | some user =>
      if w.lock = none then
        { w with lock := some (.login i) }.at i call (.locked input.now (some user))
      else w
  | .locked loginAt user =>
    match service.acceptedUser call.password user with
    | none => w.at i call .rejected
    | some user =>
      match service.grant user input.rehash loginAt input.sessionToken input.csrfToken
          input.sessionId w.tables with
      | .ok tables => ((w.withTables tables).released (.login i)).at i call
          (.committed input.sessionToken input.csrfToken (loginAt + service.sessionLifetime))
      | .error e => (w.released (.login i)).at i call (.raised e)
  | .rejected => w.at i call (.recording w.clock)
  | .recording reading =>
    let failures := service.limiter.recordFailure call.rateLimitKey reading w.failures
    ((w.withFailures failures).released (.login i)).at i call (.raised invalidCredentialsError)
  | .committed sessionToken csrfToken expiresAt =>
    (w.withFailures (recordSuccess call.rateLimitKey w.failures)).at i call
      (.returned sessionToken csrfToken expiresAt)
  | .returned .. => w
  | .raised _ => w

def advanceReset (w : Web) (j : ℕ) (call : ResetCall) : Web :=
  match call.phase with
  | .hashed normalizedUsername =>
    match WebAuthService.selectUser w.tables (some normalizedUsername) with
    | none => w.resetAt j call (.raised userNotFound)
    | some user =>
      if w.lock = none then { w with lock := some (.reset j) }.resetAt j call (.locked user)
      else w
  | .locked user =>
    let tables := WebAuthService.replacePassword user call.passwordHash call.changedAt w.tables
    ((w.withTables tables).released (.reset j)).resetAt j call .committed
  | .committed => w
  | .raised _ => w

def startReset (username newPassword passwordHash : Text) (changedAt : Instant) : ResetCall :=
  ⟨newPassword, passwordHash, changedAt,
    match (do
      let normalizedUsername ← service.normalizeUsername username
      WebAuthService.validatePassword newPassword
      .ok normalizedUsername : Except AuthExn Text) with
    | .ok normalizedUsername => .hashed normalizedUsername
    | .error e => .raised e⟩

/-- The database can fail a login until it has verified the password. -/
def abortLogin (w : Web) (i : ℕ) (call : LoginCall) : Web :=
  match call.phase with
  | .allowed | .locked .. => (w.released (.login i)).at i call (.raised .database)
  | _ => w

def abortReset (w : Web) (j : ℕ) (call : ResetCall) : Web :=
  match call.phase with
  | .hashed _ | .locked _ => (w.released (.reset j)).resetAt j call (.raised .database)
  | _ => w

def perform (w : Web) : WebAct → Web
  | .tick clock => { w with clock := clock }
  | .setup suppliedSetupToken username password passwordHash id now =>
    let tables := service.setupAdmin suppliedSetupToken username password passwordHash id now w.tables
    { w with tables := settledTables w.tables tables }
  | .setActive isActive =>
    { w with tables.user := w.tables.user.map (fun user => { user with isActive := isActive }) }
  | .beginLogin username password rateLimitKey =>
    { w with logins := w.logins ++ [⟨username, password, rateLimitKey, .arrived⟩] }
  | .stepLogin i input => (w.logins[i]?).elim w (fun call => advanceLogin service w i call input)
  | .abortLogin i => (w.logins[i]?).elim w (abortLogin w i)
  | .beginReset username newPassword passwordHash changedAt =>
    { w with resets := w.resets ++ [startReset service username newPassword passwordHash changedAt] }
  | .stepReset j => (w.resets[j]?).elim w (advanceReset w j)
  | .abortReset j => (w.resets[j]?).elim w (abortReset w j)
  | .resolve sessionToken now touched =>
    { w with tables := (service.resolveSession sessionToken now touched w.tables).2 }
  | .logout sessionToken csrfToken now =>
    let tables := service.logout sessionToken csrfToken now w.tables
    { w with tables := settledTables w.tables tables }
  | .requireMutation sessionToken csrfToken now =>
    let answer := service.requireMutationSession sessionToken csrfToken now w.tables
    { w with tables := settledTables w.tables (answer.map (·.2)) }

/-- The clock does not go back, `token_urlsafe` returns plausible tokens, and whoever switches the
account off or on waits for the lock of its row. -/
def Allowed (w : Web) : WebAct → Prop
  | .tick clock => w.clock ≤ clock
  | .setActive _ => w.lock = none
  | .stepLogin _ input => PlausibleToken input.sessionToken ∧ PlausibleToken input.csrfToken
  | _ => True

instance (w : Web) : (act : WebAct) → Decidable (Allowed w act)
  | .tick _ => inferInstanceAs (Decidable (_ ≤ _))
  | .setActive _ => inferInstanceAs (Decidable (_ = _))
  | .stepLogin .. => inferInstanceAs (Decidable (_ ∧ _))
  | .setup .. | .beginLogin .. | .abortLogin _ | .beginReset .. | .stepReset _ => isTrue trivial
  | .abortReset _ | .resolve .. | .logout .. | .requireMutation .. => isTrue trivial

def WebStep (w : Web) (act : WebAct) (w' : Web) : Prop :=
  Allowed w act ∧ w' = perform service w act

abbrev WebRun (w : Web) (es : List (Event Web WebAct)) (w' : Web) : Prop :=
  Run (WebStep service) w es w'

section Steps

variable {service}

inductive Advanced (service : WebAuthService) (w : Web) (i : ℕ) (call : LoginCall)
    (input : LoginInput) : Web → Prop
  | waits (h : ∀ loginAt user, call.phase ≠ .locked loginAt user) : Advanced service w i call input w
  | timedCheck (h : call.phase = .arrived) :
      Advanced service w i call input (w.at i call (.checking w.clock))
  | limited {reading : ℚ} {e : WebAuthError} (h : call.phase = .checking reading) :
      Advanced service w i call input
        ((w.withFailures (service.limiter.ensureAllowed call.rateLimitKey reading w.failures).2).at i
          call (.raised (.webAuth e)))
  | passed {reading : ℚ} (h : call.phase = .checking reading)
      (hnone : (service.limiter.ensureAllowed call.rateLimitKey reading w.failures).1 = none) :
      Advanced service w i call input
        ((w.withFailures (service.limiter.ensureAllowed call.rateLimitKey reading w.failures).2).at i
          call .allowed)
  | nobody (h : call.phase = .allowed) :
      Advanced service w i call input (w.at i call (.locked input.now none))
  | acquired {user : User} (h : call.phase = .allowed) (huser : w.tables.user = some user)
      (hlock : w.lock = none) :
      Advanced service w i call input
        ({ w with lock := some (.login i) }.at i call (.locked input.now (some user)))
  | rejected {loginAt : Instant} {user : Option User} (h : call.phase = .locked loginAt user) :
      Advanced service w i call input (w.at i call .rejected)
  | granted {loginAt : Instant} {user : User} {tables : Tables}
      (h : call.phase = .locked loginAt (some user))
      (haccepted : service.acceptedUser call.password (some user) = some user)
      (hgrant : service.grant user input.rehash loginAt input.sessionToken input.csrfToken
        input.sessionId w.tables = .ok tables) :
      Advanced service w i call input (((w.withTables tables).released (.login i)).at i call
        (.committed input.sessionToken input.csrfToken (loginAt + service.sessionLifetime)))
  | collided {loginAt : Instant} {user : User} {e : AuthExn}
      (h : call.phase = .locked loginAt (some user))
      (haccepted : service.acceptedUser call.password (some user) = some user) :
      Advanced service w i call input ((w.released (.login i)).at i call (.raised e))
  | timedFailure (h : call.phase = .rejected) :
      Advanced service w i call input (w.at i call (.recording w.clock))
  | recorded {reading : ℚ} (h : call.phase = .recording reading) :
      Advanced service w i call input
        (((w.withFailures (service.limiter.recordFailure call.rateLimitKey reading
          w.failures)).released (.login i)).at i call (.raised invalidCredentialsError))
  | succeeded {sessionToken csrfToken : Text} {expiresAt : Instant}
      (h : call.phase = .committed sessionToken csrfToken expiresAt) :
      Advanced service w i call input
        ((w.withFailures (recordSuccess call.rateLimitKey w.failures)).at i call
          (.returned sessionToken csrfToken expiresAt))

lemma advanced (w : Web) (i : ℕ) (call : LoginCall) (input : LoginInput) :
    Advanced service w i call input (advanceLogin service w i call input) := by
  rw [advanceLogin]
  cases hphase : call.phase with
  | arrived => exact .timedCheck hphase
  | checking reading =>
    simp only
    cases hrefused : (service.limiter.ensureAllowed call.rateLimitKey reading w.failures).1 with
    | none => exact .passed hphase hrefused
    | some e => exact .limited hphase
  | allowed =>
    simp only
    cases hselect : WebAuthService.selectUser w.tables
        (service.normalizeLoginUsername call.username) with
    | none => exact .nobody hphase
    | some user =>
      simp only
      split
      · rename_i hlock
        exact .acquired hphase (WebAuthService.selectUser_some hselect) hlock
      · exact .waits (by simp [hphase])
  | locked loginAt user =>
    simp only
    cases haccepted : service.acceptedUser call.password user with
    | none => exact .rejected hphase
    | some accepted =>
      obtain ⟨rfl, _⟩ := WebAuthService.acceptedUser_some haccepted
      simp only
      split
      · rename_i hgrant
        exact .granted hphase haccepted hgrant
      · exact .collided hphase haccepted
  | rejected => exact .timedFailure hphase
  | recording reading => exact .recorded hphase
  | committed sessionToken csrfToken expiresAt => exact .succeeded hphase
  | returned => exact .waits (by simp [hphase])
  | raised => exact .waits (by simp [hphase])

inductive Resetting (w : Web) (j : ℕ) (call : ResetCall) : Web → Prop
  | waits : Resetting w j call w
  | notFound {name : Text} (h : call.phase = .hashed name) :
      Resetting w j call (w.resetAt j call (.raised userNotFound))
  | acquired {name : Text} {user : User} (h : call.phase = .hashed name)
      (huser : w.tables.user = some user) (hlock : w.lock = none) :
      Resetting w j call ({ w with lock := some (.reset j) }.resetAt j call (.locked user))
  | replaced {user : User} (h : call.phase = .locked user) :
      Resetting w j call (((w.withTables (WebAuthService.replacePassword user call.passwordHash
        call.changedAt w.tables)).released (.reset j)).resetAt j call .committed)

lemma resetting (w : Web) (j : ℕ) (call : ResetCall) : Resetting w j call (advanceReset w j call) := by
  rw [advanceReset]
  cases hphase : call.phase with
  | hashed name =>
    simp only
    cases hselect : WebAuthService.selectUser w.tables (some name) with
    | none => exact .notFound hphase
    | some user =>
      simp only
      split
      · rename_i hlock
        exact .acquired hphase (WebAuthService.selectUser_some hselect) hlock
      · exact .waits
  | locked user => exact .replaced hphase
  | committed => exact .waits
  | raised => exact .waits

end Steps

end AudioServer.WebAuth.Logins
