import AudioServer.Db.Models
import AudioServer.Foundations.Outcomes
import AudioServer.WebAuth.Limiter

/-! The administrator's account and its browser sessions. -/

namespace AudioServer.WebAuth.Service

open AudioServer.Foundations.Outcomes AudioServer.Foundations.Strings AudioServer.Db.Models
open AudioServer.WebAuth.Limiter

abbrev UserId := ℕ
abbrev SessionId := ℕ

structure User where
  id : UserId
  username : Text
  passwordHash : Text
  isActive : Bool
  createdAt : Instant
  updatedAt : Instant
  lastLoginAt : Option Instant
deriving DecidableEq

structure WebSession where
  id : SessionId
  userId : UserId
  sessionTokenDigest : Text
  csrfTokenDigest : Text
  createdAt : Instant
  expiresAt : Instant
  lastSeenAt : Instant
  revokedAt : Option Instant
deriving DecidableEq

/-- The singleton key admits one user. -/
structure Tables where
  user : Option User
  sessions : List WebSession
deriving DecidableEq

inductive AuthExn
  | webAuth (error : WebAuthError)
  | integrityError
  | database
deriving DecidableEq

/-- `hash` draws a salt: what it returns is handed to the functions that call it. -/
structure PasswordManager where
  verify : (passwordHash password : Text) → Bool
  needsRehash : Text → Bool

structure WebAuthService where
  setupToken : Text
  sessionLifetime : Duration
  lower : Text → Text
  tokenDigest : Text → Text
  passwords : PasswordManager
  dummyPasswordHash : Text
  limiter : LoginRateLimiter ℚ

structure WebUser where
  id : UserId
  username : Text
  createdAt : Instant
  lastLoginAt : Option Instant
deriving DecidableEq

structure AuthenticatedWebSession where
  user : WebUser
  sessionId : SessionId
  expiresAt : Instant
deriving DecidableEq

def webAuthError (statusCode : ℕ) (code safeMessage : String) : AuthExn :=
  .webAuth ⟨statusCode, code, safeMessage, none⟩

def setupCompletedError : AuthExn :=
  webAuthError 409 "setup_already_completed" "Administrator setup has already been completed."

def setupUnavailable : AuthExn :=
  webAuthError 503 "setup_unavailable" "Administrator setup is not enabled."

def setupAuthorizationFailed : AuthExn :=
  webAuthError 403 "setup_authorization_failed" "Administrator setup authorization failed."

def invalidCredentialsError : AuthExn :=
  webAuthError 401 "invalid_credentials" "Username or password is invalid."

def authenticationRequiredError : AuthExn :=
  webAuthError 401 "web_authentication_required" "A valid web session is required."

def csrfValidationFailed : AuthExn :=
  webAuthError 403 "csrf_validation_failed" "CSRF validation failed."

def userNotFound : AuthExn :=
  webAuthError 404 "user_not_found" "Administrator account was not found."

def usernameInvalid : AuthExn :=
  webAuthError 422 "username_invalid"
    "Username must use 3-64 lowercase letters, numbers, dots, underscores, or hyphens."

def passwordInvalid : AuthExn :=
  webAuthError 422 "password_invalid" "Password must contain 12-128 characters."

def maxTokenTextLength : ℕ := 256

def lastSeenWriteInterval : Duration := 300000000

def usernamePattern (name : Text) : Bool :=
  3 ≤ name.length && name.length ≤ 64 && name.all (fun c =>
    ('a' ≤ c && c ≤ 'z') || ('0' ≤ c && c ≤ '9') || c = '.' || c = '_' || c = '-')

def validPassword (password : Text) : Bool := 12 ≤ password.length && password.length ≤ 128

def PlausibleToken (token : Text) : Prop := token ≠ [] ∧ token.length ≤ maxTokenTextLength

instance (token : Text) : Decidable (PlausibleToken token) := inferInstanceAs (Decidable (_ ∧ _))

def webUser (user : User) : WebUser := ⟨user.id, user.username, user.createdAt, user.lastLoginAt⟩

namespace WebAuthService

variable (service : WebAuthService)

def normalizeLoginUsername (username : Text) : Option Text :=
  let normalized := service.lower (strip username)
  if usernamePattern normalized then some normalized else none

def normalizeUsername (username : Text) : Except AuthExn Text :=
  found (service.normalizeLoginUsername username) usernameInvalid

def validatePassword (password : Text) : Except AuthExn Unit :=
  require (validPassword password) passwordInvalid

def setupAdmin (suppliedSetupToken username password passwordHash : Text) (id : UserId)
    (now : Instant) (tables : Tables) : Except AuthExn Tables := do
  require (tables.user = none) setupCompletedError
  require (service.setupToken ≠ []) setupUnavailable
  require (suppliedSetupToken.length ≤ maxTokenTextLength ∧ suppliedSetupToken = service.setupToken)
    setupAuthorizationFailed
  let normalizedUsername ← service.normalizeUsername username
  validatePassword password
  .ok { tables with user := some ⟨id, normalizedUsername, passwordHash, true, now, now, none⟩ }

def selectUser (tables : Tables) (normalizedUsername : Option Text) : Option User :=
  normalizedUsername.bind (fun name => tables.user.filter (·.username = name))

/-- The user the password was accepted for. A dummy hash is verified where there is none. -/
def acceptedUser (password : Text) (user : Option User) : Option User :=
  let passwordHash := user.elim service.dummyPasswordHash (·.passwordHash)
  let verified := service.passwords.verify passwordHash password
  user.filter (fun user => user.isActive && validPassword password && verified)

def startSession (user : User) (loginAt : Instant) (sessionToken csrfToken : Text) (id : SessionId) :
    WebSession :=
  ⟨id, user.id, service.tokenDigest sessionToken, service.tokenDigest csrfToken, loginAt,
    loginAt + service.sessionLifetime, loginAt, none⟩

def loggedIn (user : User) (rehash : Text) (loginAt : Instant) : User :=
  { user with
    passwordHash := if service.passwords.needsRehash user.passwordHash then rehash
      else user.passwordHash
    lastLoginAt := some loginAt
    updatedAt := loginAt }

def grant (user : User) (rehash : Text) (loginAt : Instant) (sessionToken csrfToken : Text)
    (id : SessionId) (tables : Tables) : Except AuthExn Tables := do
  let row := service.startSession user loginAt sessionToken csrfToken id
  require (∀ s ∈ tables.sessions, s.id ≠ row.id ∧ s.sessionTokenDigest ≠ row.sessionTokenDigest)
    .integrityError
  .ok ⟨some (service.loggedIn user rehash loginAt), tables.sessions ++ [row]⟩

def selectSession (sessionToken : Text) (now : Instant) (tables : Tables) :
    Option (WebSession × User) := do
  let session ← tables.sessions.find? (fun s =>
    s.sessionTokenDigest = service.tokenDigest sessionToken && s.revokedAt.isNone &&
      now < s.expiresAt && tables.user.any (fun u => u.id = s.userId && u.isActive))
  let user ← tables.user
  some (session, user)

def touch (session : WebSession) (now : Instant) (tables : Tables) : Tables :=
  { tables with sessions := tables.sessions.map (fun s =>
      if s.id = session.id ∧ s.lastSeenAt ≤ now - lastSeenWriteInterval then
        { s with lastSeenAt := now }
      else s) }

def authenticated (session : WebSession) (user : User) : AuthenticatedWebSession :=
  ⟨webUser user, session.id, session.expiresAt⟩

def resolveSession (sessionToken : Text) (now : Instant) (touched : Bool) (tables : Tables) :
    Option AuthenticatedWebSession × Tables :=
  if PlausibleToken sessionToken then
    match service.selectSession sessionToken now tables with
    | none => (none, tables)
    | some (session, user) =>
      (some (authenticated session user), if touched then touch session now tables else tables)
  else (none, tables)

def selectPair (sessionToken csrfToken : Text) (now : Instant) (tables : Tables) :
    Except AuthExn (WebSession × User) := do
  require (PlausibleToken sessionToken ∧ PlausibleToken csrfToken) authenticationRequiredError
  let (session, user) ← found (service.selectSession sessionToken now tables)
    authenticationRequiredError
  require (session.csrfTokenDigest = service.tokenDigest csrfToken) csrfValidationFailed
  .ok (session, user)

def logout (sessionToken csrfToken : Text) (now : Instant) (tables : Tables) :
    Except AuthExn Tables := do
  let (session, _) ← service.selectPair sessionToken csrfToken now tables
  .ok { tables with sessions := tables.sessions.map (fun s =>
      if s.id = session.id then { s with revokedAt := some now } else s) }

def requireMutationSession (sessionToken csrfToken : Text) (now : Instant) (tables : Tables) :
    Except AuthExn (AuthenticatedWebSession × Tables) := do
  let (session, user) ← service.selectPair sessionToken csrfToken now tables
  .ok (authenticated session user, touch session now tables)

def replacePassword (user : User) (passwordHash : Text) (changedAt : Instant) (tables : Tables) :
    Tables where
  user := some { user with passwordHash := passwordHash, updatedAt := changedAt }
  sessions := tables.sessions.map (fun s =>
    if s.userId = user.id ∧ s.revokedAt = none then { s with revokedAt := some changedAt } else s)

variable {service}

lemma selectUser_some {tables : Tables} {name : Option Text} {user : User}
    (h : selectUser tables name = some user) : tables.user = some user := by
  obtain ⟨normalized, _, h⟩ := Option.bind_eq_some_iff.mp h
  exact (Option.filter_eq_some_iff.mp h).1

lemma acceptedUser_some {password : Text} {found : Option User} {user : User}
    (h : service.acceptedUser password found = some user) :
    found = some user ∧ user.isActive ∧ service.passwords.verify user.passwordHash password := by
  obtain ⟨rfl, hchecked⟩ := Option.filter_eq_some_iff.mp h
  simp only [Bool.and_eq_true] at hchecked
  exact ⟨rfl, hchecked.1.1, hchecked.2⟩

lemma grant_ok {user : User} {rehash : Text} {loginAt : Instant} {sessionToken csrfToken : Text}
    {id : SessionId} {tables tables' : Tables}
    (h : service.grant user rehash loginAt sessionToken csrfToken id tables = .ok tables') :
    tables' = ⟨some (service.loggedIn user rehash loginAt),
      tables.sessions ++ [service.startSession user loginAt sessionToken csrfToken id]⟩ ∧
    ∀ s ∈ tables.sessions, s.id ≠ id ∧ s.sessionTokenDigest ≠ service.tokenDigest sessionToken := by
  obtain ⟨_, hfresh, h⟩ := bind_ok h
  cases h
  exact ⟨rfl, require_ok.mp hfresh⟩

lemma selectSession_some {sessionToken : Text} {now : Instant} {tables : Tables}
    {session : WebSession} {user : User}
    (h : service.selectSession sessionToken now tables = some (session, user)) :
    session ∈ tables.sessions ∧ session.sessionTokenDigest = service.tokenDigest sessionToken ∧
      session.revokedAt = none ∧ now < session.expiresAt ∧ tables.user = some user ∧ user.isActive := by
  obtain ⟨found, hfound, h⟩ := Option.bind_eq_some_iff.mp h
  obtain ⟨owner, howner, h⟩ := Option.bind_eq_some_iff.mp h
  cases h
  have hmatch := List.find?_some hfound
  simp only [Bool.and_eq_true, decide_eq_true_eq, Option.isNone_iff_eq_none, howner,
    Option.any_some] at hmatch
  obtain ⟨⟨⟨hdigest, hopen⟩, htime⟩, _, hactive⟩ := hmatch
  exact ⟨List.mem_of_find?_eq_some hfound, hdigest, hopen, htime, howner, hactive⟩

lemma selectPair_ok {sessionToken csrfToken : Text} {now : Instant} {tables : Tables}
    {session : WebSession} {user : User}
    (h : service.selectPair sessionToken csrfToken now tables = .ok (session, user)) :
    PlausibleToken sessionToken ∧ PlausibleToken csrfToken ∧
      service.selectSession sessionToken now tables = some (session, user) ∧
      session.csrfTokenDigest = service.tokenDigest csrfToken := by
  obtain ⟨_, htokens, h⟩ := bind_ok h
  obtain ⟨⟨found, owner⟩, hfound, h⟩ := bind_ok h
  obtain ⟨_, hcsrf, h⟩ := bind_ok h
  cases h
  have htokens := require_ok.mp htokens
  exact ⟨htokens.1, htokens.2, found_ok.mp hfound, require_ok.mp hcsrf⟩

lemma setupAdmin_ok {suppliedSetupToken username password passwordHash : Text} {id : UserId}
    {now : Instant} {tables tables' : Tables}
    (h : service.setupAdmin suppliedSetupToken username password passwordHash id now tables =
      .ok tables') :
    tables.user = none ∧ tables'.sessions = tables.sessions := by
  obtain ⟨_, hnone, h⟩ := bind_ok h
  obtain ⟨_, _, h⟩ := bind_ok h
  obtain ⟨_, _, h⟩ := bind_ok h
  obtain ⟨_, _, h⟩ := bind_ok h
  obtain ⟨_, _, h⟩ := bind_ok h
  cases h
  exact ⟨require_ok.mp hnone, rfl⟩

lemma logout_ok {sessionToken csrfToken : Text} {now : Instant} {tables tables' : Tables}
    (h : service.logout sessionToken csrfToken now tables = .ok tables') :
    ∃ session user, service.selectSession sessionToken now tables = some (session, user) ∧
      tables' = { tables with sessions := tables.sessions.map (fun s =>
        if s.id = session.id then { s with revokedAt := some now } else s) } := by
  obtain ⟨⟨session, user⟩, hpair, h⟩ := bind_ok h
  cases h
  exact ⟨session, user, (selectPair_ok hpair).2.2.1, rfl⟩

def view (s : WebSession) : WebSession := { s with lastSeenAt := 0 }

lemma touch_view (session : WebSession) (now : Instant) (tables : Tables) :
    (touch session now tables).sessions.map view = tables.sessions.map view := by
  rw [touch, List.map_map]
  apply List.map_congr_left
  intro s _
  simp only [Function.comp_apply]
  split <;> rfl

lemma resolveSession_tables (service : WebAuthService) (sessionToken : Text) (now : Instant)
    (touched : Bool) (tables : Tables) :
    (service.resolveSession sessionToken now touched tables).2.user = tables.user ∧
      (service.resolveSession sessionToken now touched tables).2.sessions.map view =
        tables.sessions.map view := by
  rw [resolveSession]
  split
  · split
    · exact ⟨rfl, rfl⟩
    · cases touched
      · exact ⟨rfl, rfl⟩
      · exact ⟨rfl, touch_view ..⟩
  · exact ⟨rfl, rfl⟩

lemma requireMutationSession_ok {sessionToken csrfToken : Text} {now : Instant} {tables : Tables}
    {answer : AuthenticatedWebSession × Tables}
    (h : service.requireMutationSession sessionToken csrfToken now tables = .ok answer) :
    ∃ session user, service.selectPair sessionToken csrfToken now tables = .ok (session, user) ∧
      answer = (authenticated session user, touch session now tables) := by
  obtain ⟨⟨session, user⟩, hpair, h⟩ := bind_ok h
  cases h
  exact ⟨session, user, hpair, rfl⟩

end WebAuthService

end AudioServer.WebAuth.Service
