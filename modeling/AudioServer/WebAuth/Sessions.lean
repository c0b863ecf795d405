import AudioServer.Foundations.Histories
import AudioServer.WebAuth.Logins
import Mathlib.Data.List.Nodup

/-! When a pair of tokens opens a session: it was issued, and has neither run out nor been revoked. -/

namespace AudioServer.WebAuth.Sessions

open AudioServer.Foundations.Outcomes AudioServer.Foundations.Pools AudioServer.Foundations.Runs
open AudioServer.Foundations.Strings AudioServer.Foundations.Histories AudioServer.Db.Models
open AudioServer.WebAuth.Service AudioServer.WebAuth.Logins

def Issues (sessionToken csrfToken : Text) (expiresAt : Instant) (e : Event Web WebAct) : Prop :=
  ∃ i input old new loginAt user, e.label = .stepLogin i input ∧ e.before.logins[i]? = some old ∧
    old.phase = .locked loginAt user ∧ e.after.logins[i]? = some new ∧
    new.phase = .committed sessionToken csrfToken expiresAt

def LogsOut (service : WebAuthService) (sessionToken : Text) (e : Event Web WebAct) : Prop :=
  ∃ csrfToken now, e.label = .logout sessionToken csrfToken now ∧
    (service.logout sessionToken csrfToken now e.before.tables).isOk

def Resets (e : Event Web WebAct) : Prop :=
  ∃ j call user, e.label = .stepReset j ∧ e.before.resets[j]? = some call ∧ call.phase = .locked user

def Open (service : WebAuthService) (sessionToken csrfToken : Text) (expiresAt : Instant)
    (es : List (Event Web WebAct)) : Prop :=
  Since (Issues sessionToken csrfToken expiresAt)
    (fun e => LogsOut service sessionToken e ∨ Resets e) es

def PasswordInForce (service : WebAuthService) (e : Event Web WebAct) : Prop :=
  ∃ i input call user, e.label = .stepLogin i input ∧ e.before.logins[i]? = some call ∧
    e.before.tables.user = some user ∧ service.passwords.verify user.passwordHash call.password

section Locks

def Locked (w : Web) : Holder → User → Prop
  | .login i, user => ∃ call loginAt, w.logins[i]? = some call ∧
    call.phase = .locked loginAt (some user)
  | .reset j, user => ∃ call, w.resets[j]? = some call ∧ call.phase = .locked user

/-- Who works on the row of the user holds its lock and sees the row as it is stored. -/
def LockOk (w : Web) : Prop :=
  ∀ holder user, Locked w holder user → w.lock = some holder ∧ w.tables.user = some user

variable {service : WebAuthService} {w w' : Web}

lemma LockOk.opened (clock : ℚ) : LockOk (.opened clock) := by
  intro holder user h
  cases holder with
  | login i =>
    obtain ⟨_, _, hcall, _⟩ := h
    cases hcall
  | reset j =>
    obtain ⟨_, hcall, _⟩ := h
    cases hcall

lemma LockOk.step (mover : Holder) (h : LockOk w)
    (hothers : ∀ holder user, holder ≠ mover → Locked w' holder user → Locked w holder user)
    (hmover : ∀ user, Locked w' mover user → w'.lock = some mover ∧ w'.tables.user = some user)
    (hlock : w'.lock = w.lock ∨ w.lock = none ∨ w.lock = some mover)
    (huser : w'.tables.user = w.tables.user ∨ w.lock = some mover) : LockOk w' := by
  intro holder user hlocked
  by_cases he : holder = mover
  · subst he
    exact hmover user hlocked
  · obtain ⟨hheld, hsees⟩ := h holder user (hothers holder user he hlocked)
    have hnot : w.lock ≠ some mover := by
      rw [hheld]
      simpa using he
    have hsome : w.lock ≠ none := by simp [hheld]
    rcases hlock with hlock | hlock | hlock
    · rw [hlock, huser.resolve_right hnot]
      exact ⟨hheld, hsees⟩
    · exact absurd hlock hsome
    · exact absurd hlock hnot

lemma LockOk.frame (h : LockOk w) (hsame : ∀ holder user, Locked w' holder user → Locked w holder user)
    (hlock : w'.lock = w.lock)
    (huser : w.lock ≠ none → w.tables.user ≠ none → w'.tables.user = w.tables.user) : LockOk w' := by
  intro holder user hlocked
  obtain ⟨hheld, hsees⟩ := h holder user (hsame holder user hlocked)
  rw [hlock, huser (by simp [hheld]) (by simp [hsees])]
  exact ⟨hheld, hsees⟩

lemma released_lock (w : Web) (holder : Holder) :
    (w.released holder).lock = w.lock ∨ w.lock = none ∨ w.lock = some holder := by
  by_cases h : w.lock = some holder
  · exact .inr (.inr h)
  · exact .inl (if_neg h)

lemma locked_of_set {i : ℕ} {call : LoginCall} (hlogins : w'.logins = w.logins.set i call)
    (hresets : w'.resets = w.resets) {holder : Holder} {user : User} (hne : holder ≠ .login i)
    (h : Locked w' holder user) : Locked w holder user := by
  cases holder with
  | login k =>
    obtain ⟨other, loginAt, hk, hlocked⟩ := h
    rw [hlogins, set_other (by simpa using hne)] at hk
    exact ⟨other, loginAt, hk, hlocked⟩
  | reset j =>
    obtain ⟨other, hj, hlocked⟩ := h
    rw [hresets] at hj
    exact ⟨other, hj, hlocked⟩

lemma locked_of_resetSet {j : ℕ} {call : ResetCall} (hlogins : w'.logins = w.logins)
    (hresets : w'.resets = w.resets.set j call) {holder : Holder} {user : User}
    (hne : holder ≠ .reset j) (h : Locked w' holder user) : Locked w holder user := by
  cases holder with
  | login i =>
    obtain ⟨other, loginAt, hi, hlocked⟩ := h
    rw [hlogins] at hi
    exact ⟨other, loginAt, hi, hlocked⟩
  | reset k =>
    obtain ⟨other, hk, hlocked⟩ := h
    rw [hresets, set_other (by simpa using hne)] at hk
    exact ⟨other, hk, hlocked⟩

lemma LockOk.moveLogin {i : ℕ} {old new : LoginCall} (h : LockOk w) (hi : w.logins[i]? = some old)
    (hlogins : w'.logins = w.logins.set i new) (hresets : w'.resets = w.resets)
    (hphase : ∀ loginAt user, new.phase = .locked loginAt (some user) →
      w'.lock = some (.login i) ∧ w'.tables.user = some user)
    (hlock : w'.lock = w.lock ∨ w.lock = none ∨ w.lock = some (.login i))
    (huser : w'.tables.user = w.tables.user ∨ w.lock = some (.login i)) : LockOk w' := by
  apply h.step (.login i) (fun holder user hne => locked_of_set hlogins hresets hne) ?_ hlock huser
  rintro user ⟨call, loginAt, hcall, hlocked⟩
  rw [hlogins, set_self hi] at hcall
  cases hcall
  exact hphase loginAt user hlocked

lemma LockOk.moveReset {j : ℕ} {old new : ResetCall} (h : LockOk w) (hj : w.resets[j]? = some old)
    (hlogins : w'.logins = w.logins) (hresets : w'.resets = w.resets.set j new)
    (hphase : ∀ user, new.phase = .locked user →
      w'.lock = some (.reset j) ∧ w'.tables.user = some user)
    (hlock : w'.lock = w.lock ∨ w.lock = none ∨ w.lock = some (.reset j))
    (huser : w'.tables.user = w.tables.user ∨ w.lock = some (.reset j)) : LockOk w' := by
  apply h.step (.reset j) (fun holder user hne => locked_of_resetSet hlogins hresets hne) ?_ hlock huser
  rintro user ⟨call, hcall, hlocked⟩
  rw [hresets, set_self hj] at hcall
  cases hcall
  exact hphase user hlocked

lemma stepLogin_locks {i : ℕ} {call : LoginCall} {input : LoginInput} (h : LockOk w)
    (hi : w.logins[i]? = some call) : LockOk (advanceLogin service w i call input) := by
  have hadv : Advanced service w i call input (advanceLogin service w i call input) :=
    advanced w i call input
  generalize advanceLogin service w i call input = w' at hadv
  cases hadv with
  | waits => exact h
  | acquired _ huser hlock =>
    refine h.moveLogin hi rfl rfl ?_ (.inr (.inl hlock)) (.inl rfl)
    intro loginAt other hlocked
    cases hlocked
    exact ⟨rfl, huser⟩
  | granted hphase =>
    obtain ⟨hheld, _⟩ := h (.login i) _ ⟨call, _, hi, hphase⟩
    exact h.moveLogin hi rfl rfl (by simp) (.inr (.inr hheld)) (.inr hheld)
  | collided => exact h.moveLogin hi rfl rfl (by simp) (released_lock w _) (.inl rfl)
  | recorded => exact h.moveLogin hi rfl rfl (by simp) (released_lock w _) (.inl rfl)
  | _ => exact h.moveLogin hi rfl rfl (by simp) (.inl rfl) (.inl rfl)

lemma abortLogin_locks {i : ℕ} {call : LoginCall} (h : LockOk w) (hi : w.logins[i]? = some call) :
    LockOk (abortLogin w i call) := by
  unfold abortLogin
  split
  · exact h.moveLogin hi rfl rfl (by simp) (released_lock w _) (.inl rfl)
  · exact h.moveLogin hi rfl rfl (by simp) (released_lock w _) (.inl rfl)
  · exact h

lemma stepReset_locks {j : ℕ} {call : ResetCall} (h : LockOk w) (hj : w.resets[j]? = some call) :
    LockOk (advanceReset w j call) := by
  have hstep : Resetting w j call (advanceReset w j call) := resetting w j call
  generalize advanceReset w j call = w' at hstep
  cases hstep with
  | waits => exact h
  | notFound => exact h.moveReset hj rfl rfl (by simp) (.inl rfl) (.inl rfl)
  | acquired _ huser hlock =>
    refine h.moveReset hj rfl rfl ?_ (.inr (.inl hlock)) (.inl rfl)
    intro other hlocked
    cases hlocked
    exact ⟨rfl, huser⟩
  | replaced hphase =>
    obtain ⟨hheld, _⟩ := h (.reset j) _ ⟨call, hj, hphase⟩
    exact h.moveReset hj rfl rfl (by simp) (.inr (.inr hheld)) (.inr hheld)

lemma abortReset_locks {j : ℕ} {call : ResetCall} (h : LockOk w) (hj : w.resets[j]? = some call) :
    LockOk (abortReset w j call) := by
  unfold abortReset
  split
  · exact h.moveReset hj rfl rfl (by simp) (released_lock w _) (.inl rfl)
  · exact h.moveReset hj rfl rfl (by simp) (released_lock w _) (.inl rfl)
  · exact h

lemma locked_snoc {call : LoginCall} {holder : Holder} {user : User} (h : Locked w' holder user)
    (hlogins : w'.logins = w.logins ++ [call]) (hresets : w'.resets = w.resets)
    (hphase : ∀ loginAt user, call.phase ≠ .locked loginAt (some user)) : Locked w holder user := by
  cases holder with
  | login i =>
    obtain ⟨other, loginAt, hi, hlocked⟩ := h
    rw [hlogins] at hi
    rcases snoc_some hi with hold | ⟨_, rfl⟩
    · exact ⟨other, loginAt, hold, hlocked⟩
    · exact absurd hlocked (hphase loginAt user)
  | reset j =>
    obtain ⟨other, hj, hlocked⟩ := h
    rw [hresets] at hj
    exact ⟨other, hj, hlocked⟩

lemma locked_resetSnoc {call : ResetCall} {holder : Holder} {user : User} (h : Locked w' holder user)
    (hlogins : w'.logins = w.logins) (hresets : w'.resets = w.resets ++ [call])
    (hphase : ∀ user, call.phase ≠ .locked user) : Locked w holder user := by
  cases holder with
  | login i =>
    obtain ⟨other, loginAt, hi, hlocked⟩ := h
    rw [hlogins] at hi
    exact ⟨other, loginAt, hi, hlocked⟩
  | reset j =>
    obtain ⟨other, hj, hlocked⟩ := h
    rw [hresets] at hj
    rcases snoc_some hj with hold | ⟨_, rfl⟩
    · exact ⟨other, hold, hlocked⟩
    · exact absurd hlocked (hphase user)

lemma settledTables_cases (tables : Tables) (x : Except AuthExn Tables) :
    (∃ tables', x = .ok tables' ∧ settledTables tables x = tables') ∨
      (¬ x.isOk ∧ settledTables tables x = tables) := by
  cases x with
  | ok tables' => exact .inl ⟨tables', rfl, rfl⟩
  | error e => exact .inr ⟨nofun, rfl⟩

lemma startReset_phase (service : WebAuthService) (username newPassword passwordHash : Text)
    (changedAt : Instant) (user : User) :
    (startReset service username newPassword passwordHash changedAt).phase ≠ .locked user := by
  rw [startReset]
  dsimp only
  split
  · exact nofun
  · exact nofun

lemma setup_user {suppliedSetupToken username password passwordHash : Text} {id : UserId}
    {now : Instant} (tables : Tables) (huser : tables.user ≠ none) :
    settledTables tables
      (service.setupAdmin suppliedSetupToken username password passwordHash id now tables) = tables := by
  rcases settledTables_cases tables (service.setupAdmin suppliedSetupToken username password
    passwordHash id now tables) with ⟨tables', hok, _⟩ | ⟨_, hs⟩
  · exact absurd (WebAuthService.setupAdmin_ok hok).1 huser
  · exact hs

lemma logout_user {sessionToken csrfToken : Text} {now : Instant} (tables : Tables) :
    (settledTables tables (service.logout sessionToken csrfToken now tables)).user = tables.user := by
  rcases settledTables_cases tables (service.logout sessionToken csrfToken now tables) with
    ⟨tables', hok, hs⟩ | ⟨_, hs⟩
  · obtain ⟨session, user, _, rfl⟩ := WebAuthService.logout_ok hok
    rw [hs]
  · rw [hs]

lemma requireMutation_tables (service : WebAuthService) (sessionToken csrfToken : Text)
    (now : Instant) (tables : Tables) :
    let after := settledTables tables
      ((service.requireMutationSession sessionToken csrfToken now tables).map (·.2))
    after.user = tables.user ∧
      after.sessions.map WebAuthService.view = tables.sessions.map WebAuthService.view := by
  cases h : service.requireMutationSession sessionToken csrfToken now tables with
  | error e => exact ⟨rfl, rfl⟩
  | ok answer =>
    obtain ⟨session, user, _, rfl⟩ := WebAuthService.requireMutationSession_ok h
    exact ⟨rfl, WebAuthService.touch_view ..⟩

lemma perform_locks {act : WebAct} (h : LockOk w) (hallowed : Allowed w act) :
    LockOk (perform service w act) := by
  have hsame (holder : Holder) (user : User) (hlocked : Locked w holder user) :
      Locked w holder user := hlocked
  cases act with
  | tick clock => exact h.frame hsame rfl (fun _ _ => rfl)
  | setup suppliedSetupToken username password passwordHash id now =>
    exact h.frame hsame rfl (fun _ huser => congrArg (·.user) (setup_user w.tables huser))
  | setActive isActive => exact h.frame hsame rfl (fun hlock => absurd hallowed hlock)
  | beginLogin username password key =>
    refine h.frame ?_ rfl (fun _ _ => rfl)
    intro holder user hlocked
    exact locked_snoc hlocked rfl rfl (by simp)
  | stepLogin i input =>
    cases hi : w.logins[i]? with
    | none => simpa only [perform, hi, Option.elim_none] using h
    | some call => simpa only [perform, hi, Option.elim_some] using stepLogin_locks h hi
  | abortLogin i =>
    cases hi : w.logins[i]? with
    | none => simpa only [perform, hi, Option.elim_none] using h
    | some call => simpa only [perform, hi, Option.elim_some] using abortLogin_locks h hi
  | beginReset username newPassword passwordHash changedAt =>
    refine h.frame ?_ rfl (fun _ _ => rfl)
    intro holder user hlocked
    exact locked_resetSnoc hlocked rfl rfl (startReset_phase service _ _ _ _)
  | stepReset j =>
    cases hj : w.resets[j]? with
    | none => simpa only [perform, hj, Option.elim_none] using h
    | some call => simpa only [perform, hj, Option.elim_some] using stepReset_locks h hj
  | abortReset j =>
    cases hj : w.resets[j]? with
    | none => simpa only [perform, hj, Option.elim_none] using h
    | some call => simpa only [perform, hj, Option.elim_some] using abortReset_locks h hj
  | resolve sessionToken now touched =>
    exact h.frame hsame rfl (fun _ _ => (WebAuthService.resolveSession_tables ..).1)
  | logout sessionToken csrfToken now => exact h.frame hsame rfl (fun _ _ => logout_user w.tables)
  | requireMutation sessionToken csrfToken now =>
    exact h.frame hsame rfl (fun _ _ => (requireMutation_tables ..).1)

end Locks

section Changes

variable {service : WebAuthService} {w : Web}

def Quiet (t t' : Tables) : Prop :=
  t'.sessions.map WebAuthService.view = t.sessions.map WebAuthService.view ∧
    ∀ u, t.user = some u → ∃ u', t'.user = some u' ∧ u'.id = u.id

lemma Quiet.refl (t : Tables) : Quiet t t := ⟨rfl, fun u hu => ⟨u, hu, rfl⟩⟩

lemma Quiet.of_user {t t' : Tables}
    (hrows : t'.sessions.map WebAuthService.view = t.sessions.map WebAuthService.view)
    (huser : t'.user = t.user) : Quiet t t' := by
  refine ⟨hrows, ?_⟩
  intro u hu
  exact ⟨u, huser.trans hu, rfl⟩

inductive Change (service : WebAuthService) (e : Event Web WebAct) : Prop
  | quiet (htables : Quiet e.before.tables e.after.tables) (hissues : ∀ s c x, ¬ Issues s c x e)
      (hcloses : ∀ s, ¬ (LogsOut service s e ∨ Resets e))
  | issued {user user' : User} {loginAt : Instant} {input : LoginInput}
      (huser : e.before.tables.user = some user) (huser' : e.after.tables.user = some user')
      (hid : user'.id = user.id)
      (hrows : e.after.tables.sessions = e.before.tables.sessions ++
        [service.startSession user loginAt input.sessionToken input.csrfToken input.sessionId])
      (hfresh : ∀ s ∈ e.before.tables.sessions, s.id ≠ input.sessionId ∧
        s.sessionTokenDigest ≠ service.tokenDigest input.sessionToken)
      (htokens : PlausibleToken input.sessionToken ∧ PlausibleToken input.csrfToken)
      (hissues : ∀ s c x, Issues s c x e ↔
        s = input.sessionToken ∧ c = input.csrfToken ∧ x = loginAt + service.sessionLifetime)
      (hcloses : ∀ s, ¬ (LogsOut service s e ∨ Resets e))
  | loggedOut {sessionToken : Text} {session : WebSession} {now : Instant}
      (huser : e.after.tables.user = e.before.tables.user)
      (hmem : session ∈ e.before.tables.sessions)
      (hdigest : session.sessionTokenDigest = service.tokenDigest sessionToken)
      (hrows : e.after.tables.sessions = e.before.tables.sessions.map (fun s =>
        if s.id = session.id then { s with revokedAt := some now } else s))
      (hissues : ∀ s c x, ¬ Issues s c x e)
      (hcloses : ∀ s, (LogsOut service s e ∨ Resets e) ↔ s = sessionToken)
  | reset {user user' : User} {now : Instant} (huser : e.before.tables.user = some user)
      (huser' : e.after.tables.user = some user') (hid : user'.id = user.id)
      (hrows : e.after.tables.sessions = e.before.tables.sessions.map (fun s =>
        if s.userId = user.id ∧ s.revokedAt = none then { s with revokedAt := some now } else s))
      (hissues : ∀ s c x, ¬ Issues s c x e) (hcloses : ∀ s, LogsOut service s e ∨ Resets e)

variable {act : WebAct} {w' : Web}

lemma not_issues (hact : ∀ i input, act ≠ .stepLogin i input) (s c : Text) (x : Instant) :
    ¬ Issues s c x ⟨w, act, w'⟩ := by
  rintro ⟨i, input, _, _, _, _, hlabel, _⟩
  exact hact i input hlabel

lemma not_closes (hlogout : ∀ s c now, act ≠ .logout s c now) (hreset : ∀ j, act ≠ .stepReset j)
    (s : Text) : ¬ (LogsOut service s ⟨w, act, w'⟩ ∨ Resets ⟨w, act, w'⟩) := by
  rintro (⟨c, now, hlabel, _⟩ | ⟨j, _, _, hlabel, _⟩)
  · exact hlogout s c now hlabel
  · exact hreset j hlabel

lemma Change.of_quiet (htables : Quiet w.tables w'.tables)
    (hlogin : ∀ i input, act ≠ .stepLogin i input) (hlogout : ∀ s c now, act ≠ .logout s c now)
    (hreset : ∀ j, act ≠ .stepReset j) : Change service ⟨w, act, w'⟩ :=
  .quiet htables (not_issues hlogin) (not_closes hlogout hreset)

lemma Change.of_login {i : ℕ} {call new : LoginCall} {input : LoginInput}
    (htables : w'.tables = w.tables) (hi : w.logins[i]? = some call)
    (hafter : w'.logins[i]? = some new)
    (hphase : ∀ s c x, new.phase = .committed s c x → call.phase = .committed s c x) :
    Change service ⟨w, .stepLogin i input, w'⟩ := by
  refine .quiet (htables ▸ Quiet.refl _) ?_ (not_closes (by simp) (by simp))
  rintro s c x ⟨k, _, old, new', loginAt, user, hlabel, hold, hlocked, hnew, hcommitted⟩
  cases hlabel
  cases hafter.symm.trans hnew
  cases hi.symm.trans hold
  have hsame := hphase s c x hcommitted
  rw [hlocked] at hsame
  cases hsame

lemma stepLogin_change {i : ℕ} {call : LoginCall} {input : LoginInput} (h : LockOk w)
    (hi : w.logins[i]? = some call)
    (htokens : PlausibleToken input.sessionToken ∧ PlausibleToken input.csrfToken) :
    Change service ⟨w, .stepLogin i input, advanceLogin service w i call input⟩ := by
  have hadv : Advanced service w i call input (advanceLogin service w i call input) :=
    advanced w i call input
  generalize advanceLogin service w i call input = w' at hadv
  cases hadv with
  | waits => exact .of_login rfl hi hi (fun _ _ _ h => h)
  | @granted loginAt user tables hphase _ hgrant =>
    obtain ⟨rfl, hfresh⟩ := WebAuthService.grant_ok hgrant
    obtain ⟨_, huser⟩ := h (.login i) user ⟨call, loginAt, hi, hphase⟩
    refine .issued huser rfl rfl rfl hfresh htokens ?_ (not_closes (by simp) (by simp))
    intro s c x
    constructor
    · rintro ⟨k, _, old, new, _, _, hlabel, _, _, hnew, hcommitted⟩
      cases hlabel
      cases (set_self hi).symm.trans hnew
      cases hcommitted
      exact ⟨rfl, rfl, rfl⟩
    · rintro ⟨rfl, rfl, rfl⟩
      exact ⟨i, input, call, _, loginAt, some user, rfl, hi, hphase, set_self hi, rfl⟩
  | _ => exact .of_login rfl hi (set_self hi) (by simp)

lemma logout_change {sessionToken csrfToken : Text} {now : Instant} :
    Change service ⟨w, .logout sessionToken csrfToken now,
      perform service w (.logout sessionToken csrfToken now)⟩ := by
  have hissues (w' : Web) : ∀ s c x, ¬ Issues s c x ⟨w, .logout sessionToken csrfToken now, w'⟩ :=
    not_issues (by simp)
  rcases settledTables_cases w.tables (service.logout sessionToken csrfToken now w.tables) with
    ⟨tables, hok, hs⟩ | ⟨hno, hs⟩
  · obtain ⟨session, user, hselect, rfl⟩ := WebAuthService.logout_ok hok
    obtain ⟨hmem, hdigest, _⟩ := WebAuthService.selectSession_some hselect
    refine .loggedOut (logout_user w.tables) hmem hdigest (congrArg (·.sessions) hs) (hissues _) ?_
    intro s
    constructor
    · rintro (⟨_, _, hlabel, _⟩ | ⟨_, _, _, hlabel, _⟩)
      · cases hlabel
        rfl
      · cases hlabel
    · rintro rfl
      exact .inl ⟨csrfToken, now, rfl, by rw [hok]; rfl⟩
  · have htables : (perform service w (.logout sessionToken csrfToken now)).tables = w.tables := hs
    refine .quiet (htables ▸ Quiet.refl w.tables) (hissues _) ?_
    rintro s (⟨_, _, hlabel, hok⟩ | ⟨_, _, _, hlabel, _⟩)
    · cases hlabel
      exact hno hok
    · cases hlabel

lemma stepReset_change {j : ℕ} {call : ResetCall} (h : LockOk w) (hj : w.resets[j]? = some call) :
    Change service ⟨w, .stepReset j, advanceReset w j call⟩ := by
  have hissues (w' : Web) : ∀ s c x, ¬ Issues s c x ⟨w, .stepReset j, w'⟩ := not_issues (by simp)
  have hquiet (w' : Web) (htables : w'.tables = w.tables) (hphase : ∀ user, call.phase ≠ .locked user) :
      Change service ⟨w, .stepReset j, w'⟩ := by
    refine .quiet (htables ▸ Quiet.refl w.tables) (hissues w') ?_
    rintro s (⟨_, _, hlabel, _⟩ | ⟨k, other, user, hlabel, hk, hlocked⟩)
    · cases hlabel
    · cases hlabel
      cases hj.symm.trans hk
      exact hphase user hlocked
  cases hphase : call.phase with
  | hashed name =>
    have hstep : Resetting w j call (advanceReset w j call) := resetting w j call
    generalize advanceReset w j call = w' at hstep
    cases hstep with
    | replaced hlocked =>
      rw [hphase] at hlocked
      cases hlocked
    | _ => exact hquiet _ rfl (by simp [hphase])
  | locked user =>
    obtain ⟨_, huser⟩ := h (.reset j) user ⟨call, hj, hphase⟩
    rw [advanceReset, hphase]
    exact .reset huser rfl rfl rfl (hissues _) (fun _ => .inr ⟨j, call, user, rfl, hj, hphase⟩)
  | committed =>
    rw [advanceReset, hphase]
    exact hquiet _ rfl (by simp [hphase])
  | raised exn =>
    rw [advanceReset, hphase]
    exact hquiet _ rfl (by simp [hphase])

lemma setup_quiet {suppliedSetupToken username password passwordHash : Text} {id : UserId}
    {now : Instant} (tables : Tables) :
    Quiet tables (settledTables tables
      (service.setupAdmin suppliedSetupToken username password passwordHash id now tables)) := by
  rcases settledTables_cases tables (service.setupAdmin suppliedSetupToken username password
    passwordHash id now tables) with ⟨tables', hok, hs⟩ | ⟨_, hs⟩
  · obtain ⟨hnone, hsessions⟩ := WebAuthService.setupAdmin_ok hok
    rw [hs]
    refine ⟨by rw [hsessions], ?_⟩
    intro u hu
    rw [hnone] at hu
    cases hu
  · rw [hs]
    exact Quiet.refl tables

lemma perform_change (h : LockOk w) (hallowed : Allowed w act) :
    Change service ⟨w, act, perform service w act⟩ := by
  cases act with
  | tick clock => exact .of_quiet (Quiet.refl _) (by simp) (by simp) (by simp)
  | setup suppliedSetupToken username password passwordHash id now =>
    exact .of_quiet (setup_quiet w.tables) (by simp) (by simp) (by simp)
  | setActive isActive =>
    refine .of_quiet ⟨rfl, ?_⟩ (by simp) (by simp) (by simp)
    intro u hu
    exact ⟨{ u with isActive := isActive }, by simp only [perform, hu, Option.map_some], rfl⟩
  | beginLogin username password key => exact .of_quiet (Quiet.refl _) (by simp) (by simp) (by simp)
  | stepLogin i input =>
    cases hi : w.logins[i]? with
    | none =>
      simp only [perform, hi, Option.elim_none]
      refine .quiet (Quiet.refl _) ?_ (not_closes (by simp) (by simp))
      rintro s c x ⟨k, _, old, _, _, _, hlabel, hold, _⟩
      cases hlabel
      rw [hi] at hold
      cases hold
    | some call =>
      simp only [perform, hi, Option.elim_some]
      exact stepLogin_change h hi hallowed
  | abortLogin i =>
    refine .of_quiet ?_ (by simp) (by simp) (by simp)
    cases hi : w.logins[i]? with
    | none =>
      simp only [perform, hi, Option.elim_none]
      exact Quiet.refl _
    | some call =>
      simp only [perform, hi, Option.elim_some, abortLogin]
      split <;> exact Quiet.refl _
  | beginReset username newPassword passwordHash changedAt =>
    exact .of_quiet (Quiet.refl _) (by simp) (by simp) (by simp)
  | stepReset j =>
    cases hj : w.resets[j]? with
    | none =>
      simp only [perform, hj, Option.elim_none]
      refine .quiet (Quiet.refl _) (not_issues (by simp)) ?_
      rintro s (⟨_, _, hlabel, _⟩ | ⟨k, _, _, hlabel, hk, _⟩)
      · cases hlabel
      · cases hlabel
        rw [hj] at hk
        cases hk
    | some call =>
      simp only [perform, hj, Option.elim_some]
      exact stepReset_change h hj
  | abortReset j =>
    refine .of_quiet ?_ (by simp) (by simp) (by simp)
    cases hj : w.resets[j]? with
    | none =>
      simp only [perform, hj, Option.elim_none]
      exact Quiet.refl _
    | some call =>
      simp only [perform, hj, Option.elim_some, abortReset]
      split <;> exact Quiet.refl _
  | resolve sessionToken now touched =>
    obtain ⟨huser, hrows⟩ := WebAuthService.resolveSession_tables service sessionToken now
      touched w.tables
    exact .of_quiet (.of_user hrows huser) (by simp) (by simp) (by simp)
  | logout sessionToken csrfToken now => exact logout_change
  | requireMutation sessionToken csrfToken now =>
    obtain ⟨huser, hrows⟩ := requireMutation_tables service sessionToken csrfToken now w.tables
    exact .of_quiet (.of_user hrows huser) (by simp) (by simp) (by simp)

end Changes

section Invariant

structure Pairs (service : WebAuthService) (s c : Text) (row : WebSession) : Prop where
  session : row.sessionTokenDigest = service.tokenDigest s
  csrf : row.csrfTokenDigest = service.tokenDigest c
  tokens : PlausibleToken s ∧ PlausibleToken c

structure SessionsOk (service : WebAuthService) (es : List (Event Web WebAct)) (w : Web) : Prop where
  locks : LockOk w
  ids : (w.tables.sessions.map (·.id)).Nodup
  digests : (w.tables.sessions.map (·.sessionTokenDigest)).Nodup
  owner : ∀ r ∈ w.tables.sessions, ∃ u, w.tables.user = some u ∧ u.id = r.userId
  known : ∀ r ∈ w.tables.sessions, ∃ s c, Pairs service s c r ∧
    (r.revokedAt = none → Open service s c r.expiresAt es)
  present : ∀ s c x, Open service s c x es → ∃ r ∈ w.tables.sessions, Pairs service s c r ∧
    r.expiresAt = x ∧ r.revokedAt = none

variable {service : WebAuthService} {es : List (Event Web WebAct)} {e : Event Web WebAct}

lemma SessionsOk.opened (service : WebAuthService) (clock : ℚ) :
    SessionsOk service [] (.opened clock) := by
  refine ⟨.opened clock, List.nodup_nil, List.nodup_nil, ?_, ?_, ?_⟩
  · intro r hr
    cases hr
  · intro r hr
    cases hr
  · intro s c x h
    exact absurd h not_since_nil

lemma view_mem {rows rows' : List WebSession}
    (h : rows'.map WebAuthService.view = rows.map WebAuthService.view) {r : WebSession}
    (hr : r ∈ rows') : ∃ old ∈ rows, WebAuthService.view old = WebAuthService.view r :=
  List.mem_map.mp (h ▸ List.mem_map_of_mem hr)

lemma Pairs.of_view {s c : Text} {r r' : WebSession} (h : Pairs service s c r)
    (hv : WebAuthService.view r = WebAuthService.view r') : Pairs service s c r' := by
  have hsession : r.sessionTokenDigest = r'.sessionTokenDigest := congrArg (·.sessionTokenDigest) hv
  have hcsrf : r.csrfTokenDigest = r'.csrfTokenDigest := congrArg (·.csrfTokenDigest) hv
  exact ⟨hsession ▸ h.session, hcsrf ▸ h.csrf, h.tokens⟩

lemma map_view {α : Type} {f : WebSession → α} (hf : ∀ r, f (WebAuthService.view r) = f r)
    {rows rows' : List WebSession}
    (h : rows'.map WebAuthService.view = rows.map WebAuthService.view) :
    rows'.map f = rows.map f := by
  have hmap := congrArg (List.map f) h
  rw [List.map_map, List.map_map] at hmap
  simpa only [Function.comp_def, hf] using hmap

lemma quiet_sessions (h : SessionsOk service es e.before) (hlocks : LockOk e.after)
    (hquiet : Quiet e.before.tables e.after.tables) (hissues : ∀ s c x, ¬ Issues s c x e)
    (hcloses : ∀ s, ¬ (LogsOut service s e ∨ Resets e)) :
    SessionsOk service (es ++ [e]) e.after := by
  obtain ⟨hrows, huser⟩ := hquiet
  refine ⟨hlocks, ?_, ?_, ?_, ?_, ?_⟩
  · rw [map_view (fun _ => rfl) hrows]
    exact h.ids
  · rw [map_view (fun _ => rfl) hrows]
    exact h.digests
  · intro r hr
    obtain ⟨old, hold, hv⟩ := view_mem hrows hr
    obtain ⟨u, hu, hid⟩ := h.owner old hold
    obtain ⟨u', hu', hid'⟩ := huser u hu
    have howner : old.userId = r.userId := congrArg (·.userId) hv
    exact ⟨u', hu', hid'.trans (hid.trans howner)⟩
  · intro r hr
    obtain ⟨old, hold, hv⟩ := view_mem hrows hr
    obtain ⟨s, c, hpairs, hopen⟩ := h.known old hold
    refine ⟨s, c, hpairs.of_view hv, ?_⟩
    intro hnone
    have hrevoked : old.revokedAt = r.revokedAt := congrArg (·.revokedAt) hv
    have hexpires : old.expiresAt = r.expiresAt := congrArg (·.expiresAt) hv
    exact since_snoc.mpr (.inr ⟨hexpires ▸ hopen (hrevoked.trans hnone), hcloses s⟩)
  · intro s c x hopen
    rcases since_snoc.mp hopen with hissued | ⟨hbefore, _⟩
    · exact absurd hissued (hissues s c x)
    · obtain ⟨r, hr, hpairs, hx, hnone⟩ := h.present s c x hbefore
      obtain ⟨r', hr', hv⟩ := view_mem hrows.symm hr
      have hrevoked : r'.revokedAt = r.revokedAt := congrArg (·.revokedAt) hv
      have hexpires : r'.expiresAt = r.expiresAt := congrArg (·.expiresAt) hv
      exact ⟨r', hr', hpairs.of_view hv.symm, hexpires.trans hx, hrevoked.trans hnone⟩

lemma issued_sessions {user user' : User} {loginAt : Instant} {input : LoginInput}
    (h : SessionsOk service es e.before) (hlocks : LockOk e.after)
    (huser : e.before.tables.user = some user) (huser' : e.after.tables.user = some user')
    (hid : user'.id = user.id)
    (hrows : e.after.tables.sessions = e.before.tables.sessions ++
      [service.startSession user loginAt input.sessionToken input.csrfToken input.sessionId])
    (hfresh : ∀ s ∈ e.before.tables.sessions, s.id ≠ input.sessionId ∧
      s.sessionTokenDigest ≠ service.tokenDigest input.sessionToken)
    (htokens : PlausibleToken input.sessionToken ∧ PlausibleToken input.csrfToken)
    (hissues : ∀ s c x, Issues s c x e ↔
      s = input.sessionToken ∧ c = input.csrfToken ∧ x = loginAt + service.sessionLifetime)
    (hcloses : ∀ s, ¬ (LogsOut service s e ∨ Resets e)) :
    SessionsOk service (es ++ [e]) e.after := by
  have hnew : Pairs service input.sessionToken input.csrfToken
      (service.startSession user loginAt input.sessionToken input.csrfToken input.sessionId) :=
    ⟨rfl, rfl, htokens⟩
  refine ⟨hlocks, ?_, ?_, ?_, ?_, ?_⟩
  · rw [hrows]
    exact nodup_map_snoc h.ids (fun s hs => (hfresh s hs).1)
  · rw [hrows]
    exact nodup_map_snoc h.digests (fun s hs => (hfresh s hs).2)
  · intro r hr
    rw [hrows] at hr
    rcases List.mem_append.mp hr with hr | hr
    · obtain ⟨u, hu, howner⟩ := h.owner r hr
      cases huser.symm.trans hu
      exact ⟨user', huser', hid.trans howner⟩
    · rw [List.mem_singleton.mp hr]
      exact ⟨user', huser', hid⟩
  · intro r hr
    rw [hrows] at hr
    rcases List.mem_append.mp hr with hr | hr
    · obtain ⟨s, c, hpairs, hopen⟩ := h.known r hr
      exact ⟨s, c, hpairs, fun hnone => since_snoc.mpr (.inr ⟨hopen hnone, hcloses s⟩)⟩
    · rw [List.mem_singleton.mp hr]
      refine ⟨_, _, hnew, fun _ => since_snoc.mpr (.inl ?_)⟩
      exact (hissues _ _ _).mpr ⟨rfl, rfl, rfl⟩
  · intro s c x hopen
    rw [hrows]
    rcases since_snoc.mp hopen with hissued | ⟨hbefore, _⟩
    · obtain ⟨rfl, rfl, rfl⟩ := (hissues s c x).mp hissued
      exact ⟨_, List.mem_append_right _ (List.mem_singleton_self _), hnew, rfl, rfl⟩
    · obtain ⟨r, hr, hpairs⟩ := h.present s c x hbefore
      exact ⟨r, List.mem_append_left _ hr, hpairs⟩

lemma revoking_rows {rows : List WebSession} {p : WebSession → Prop} [DecidablePred p] {now : Instant}
    {α : Type} {f : WebSession → α} (hf : ∀ r at', f { r with revokedAt := at' } = f r) :
    (rows.map (fun r => if p r then { r with revokedAt := some now } else r)).map f = rows.map f := by
  rw [List.map_map]
  apply List.map_congr_left
  intro r _
  simp only [Function.comp_apply]
  split
  · exact hf r _
  · rfl

lemma revoking_sessions {p : WebSession → Prop} [DecidablePred p] {now : Instant}
    (h : SessionsOk service es e.before) (hlocks : LockOk e.after)
    (huser : ∀ u, e.before.tables.user = some u → ∃ u', e.after.tables.user = some u' ∧ u'.id = u.id)
    (hrows : e.after.tables.sessions = e.before.tables.sessions.map (fun r =>
      if p r then { r with revokedAt := some now } else r))
    (hissues : ∀ s c x, ¬ Issues s c x e)
    (hrevoked : ∀ r ∈ e.before.tables.sessions, r.revokedAt = none → ∀ s c, Pairs service s c r →
      (p r ↔ (LogsOut service s e ∨ Resets e))) :
    SessionsOk service (es ++ [e]) e.after := by
  refine ⟨hlocks, ?_, ?_, ?_, ?_, ?_⟩
  · rw [hrows, revoking_rows (fun _ _ => rfl)]
    exact h.ids
  · rw [hrows, revoking_rows (fun _ _ => rfl)]
    exact h.digests
  · intro r hr
    rw [hrows] at hr
    obtain ⟨old, hold, rfl⟩ := List.mem_map.mp hr
    obtain ⟨u, hu, hid⟩ := h.owner old hold
    obtain ⟨u', hu', hid'⟩ := huser u hu
    refine ⟨u', hu', hid'.trans (hid.trans ?_)⟩
    split <;> rfl
  · intro r hr
    rw [hrows] at hr
    obtain ⟨old, hold, rfl⟩ := List.mem_map.mp hr
    obtain ⟨s, c, hpairs, hopen⟩ := h.known old hold
    refine ⟨s, c, ?_, ?_⟩
    · split
      · exact ⟨hpairs.session, hpairs.csrf, hpairs.tokens⟩
      · exact hpairs
    · intro hnone
      split at hnone
      · cases hnone
      · rename_i hnot
        rw [if_neg hnot]
        refine since_snoc.mpr (.inr ⟨hopen hnone, ?_⟩)
        exact fun hcloses => hnot ((hrevoked old hold hnone s c hpairs).mpr hcloses)
  · intro s c x hopen
    rcases since_snoc.mp hopen with hissued | ⟨hbefore, hnot⟩
    · exact absurd hissued (hissues s c x)
    · obtain ⟨r, hr, hpairs, hx, hnone⟩ := h.present s c x hbefore
      have hstays : ¬ p r := fun hp => hnot ((hrevoked r hr hnone s c hpairs).mp hp)
      refine ⟨r, ?_, hpairs, hx, hnone⟩
      rw [hrows]
      exact List.mem_map.mpr ⟨r, hr, if_neg hstays⟩

lemma step_sessions (hdigest : Function.Injective service.tokenDigest) {w w' : Web} {act : WebAct}
    (h : SessionsOk service es w) (hstep : WebStep service w act w') :
    SessionsOk service (es ++ [⟨w, act, w'⟩]) w' := by
  obtain ⟨hallowed, rfl⟩ := hstep
  have hlocks : LockOk (perform service w act) := perform_locks h.locks hallowed
  have hchange : Change service ⟨w, act, perform service w act⟩ := perform_change h.locks hallowed
  cases hchange with
  | quiet hquiet hissues hcloses => exact quiet_sessions h hlocks hquiet hissues hcloses
  | issued huser huser' hid hrows hfresh htokens hissues hcloses =>
    exact issued_sessions h hlocks huser huser' hid hrows hfresh htokens hissues hcloses
  | @loggedOut sessionToken session now huser hmem hsession hrows hissues hcloses =>
    refine revoking_sessions h hlocks (fun u hu => ⟨u, huser.trans hu, rfl⟩) hrows hissues ?_
    intro r hr _ s c hpairs
    rw [hcloses s]
    constructor
    · intro hid
      have hsame : r = session := List.inj_on_of_nodup_map h.ids hr hmem hid
      exact hdigest (hpairs.session.symm.trans ((congrArg _ hsame).trans hsession))
    · rintro rfl
      exact congrArg _ (List.inj_on_of_nodup_map h.digests hr hmem (hpairs.session.trans hsession.symm))
  | @reset user user' now huser huser' hid hrows hissues hcloses =>
    refine revoking_sessions h hlocks ?_ hrows hissues ?_
    · intro u hu
      cases huser.symm.trans hu
      exact ⟨user', huser', hid⟩
    · intro r hr hnone s c _
      obtain ⟨u, hu, howner⟩ := h.owner r hr
      cases huser.symm.trans hu
      exact ⟨fun _ => hcloses s, fun _ => ⟨howner.symm, hnone⟩⟩

lemma run_sessions (hdigest : Function.Injective service.tokenDigest) {clock : ℚ} {w : Web}
    (h : WebRun service (.opened clock) es w) : SessionsOk service es w := by
  apply run_history (SessionsOk service) ?_ h (.opened service clock)
  intro es w act w' hok hstep
  exact step_sessions hdigest hok hstep

lemma issues_password {clock : ℚ} {w : Web} (h : WebRun service (.opened clock) es w) (he : e ∈ es)
    {s c : Text} {x : Instant} (hissues : Issues s c x e) : PasswordInForce service e := by
  have hlocks : LockOk e.before := by
    apply h.event_keeps LockOk ?_ (.opened clock) he
    rintro w act _ hw ⟨hallowed, rfl⟩
    exact perform_locks hw hallowed
  obtain ⟨hallowed, hafter⟩ := h.event_step he
  obtain ⟨i, input, call, new, loginAt, user, hlabel, hi, hphase, hnew, hcommitted⟩ := hissues
  rw [hlabel, perform, hi, Option.elim_some] at hafter
  have hadv : Advanced service e.before i call input (advanceLogin service e.before i call input) :=
    advanced e.before i call input
  rw [← hafter] at hadv
  generalize e.after = w' at hadv hnew
  have hnot {phase : LoginPhase} (hset : w'.logins[i]? = some { call with phase := phase })
      (hother : phase ≠ .committed s c x) : PasswordInForce service e := by
    cases hset.symm.trans hnew
    exact absurd hcommitted hother
  cases hadv with
  | waits =>
    cases hi.symm.trans hnew
    rw [hphase] at hcommitted
    cases hcommitted
  | granted hlocked haccepted _ =>
    obtain ⟨_, huser⟩ := hlocks (.login i) _ ⟨call, _, hi, hlocked⟩
    obtain ⟨_, _, hverified⟩ := WebAuthService.acceptedUser_some haccepted
    exact ⟨i, input, call, _, hlabel, hi, huser, hverified⟩
  | succeeded hother =>
    rw [hphase] at hother
    cases hother
  | _ => exact hnot (set_self hi) (by simp)

lemma pair_tokens (hdigest : Function.Injective service.tokenDigest) {s s' c c' : Text}
    {r : WebSession} (h : Pairs service s c r) (hsession : r.sessionTokenDigest = service.tokenDigest s')
    (hcsrf : r.csrfTokenDigest = service.tokenDigest c') : s = s' ∧ c = c' :=
  ⟨hdigest (h.session.symm.trans hsession), hdigest (h.csrf.symm.trans hcsrf)⟩

lemma SessionsOk.opens {w : Web} {s c : Text} {t : Instant} {answer : AuthenticatedWebSession × Tables}
    (hdigest : Function.Injective service.tokenDigest) (h : SessionsOk service es w)
    (haccepts : service.requireMutationSession s c t w.tables = .ok answer) :
    ∃ x, Open service s c x es ∧ t < x ∧ ∃ u, w.tables.user = some u ∧ u.isActive := by
  obtain ⟨session, user, hpair, _⟩ := WebAuthService.requireMutationSession_ok haccepts
  obtain ⟨_, _, hselect, hcsrf⟩ := WebAuthService.selectPair_ok hpair
  obtain ⟨hmem, hsession, hopen, htime, huser, hactive⟩ := WebAuthService.selectSession_some hselect
  obtain ⟨s', c', hpairs, hknown⟩ := h.known session hmem
  obtain ⟨rfl, rfl⟩ := pair_tokens hdigest hpairs hsession hcsrf
  exact ⟨session.expiresAt, hknown hopen, htime, user, huser, hactive⟩

lemma SessionsOk.accepts {w : Web} {s c : Text} {t x : Instant} {u : User}
    (h : SessionsOk service es w) (hopen : Open service s c x es) (htime : t < x)
    (huser : w.tables.user = some u) (hactive : u.isActive) :
    ∃ answer, service.requireMutationSession s c t w.tables = .ok answer := by
  obtain ⟨r, hr, hpairs, rfl, hnone⟩ := h.present s c x hopen
  obtain ⟨owner, howner, hid⟩ := h.owner r hr
  cases huser.symm.trans howner
  have hfind : w.tables.sessions.find? (fun row => row.sessionTokenDigest = service.tokenDigest s &&
      row.revokedAt.isNone && t < row.expiresAt &&
      w.tables.user.any (fun u => u.id = row.userId && u.isActive)) = some r := by
    apply find_unique hr
    · simp [hpairs.session, hnone, htime, huser, hid, hactive]
    · intro row hrow hmatch
      simp only [Bool.and_eq_true, decide_eq_true_eq] at hmatch
      exact List.inj_on_of_nodup_map h.digests hrow hr
        (hmatch.1.1.1.trans hpairs.session.symm)
  have hselect : service.selectSession s t w.tables = some (r, u) := by
    rw [WebAuthService.selectSession, hfind, huser]
    rfl
  have hpair : service.selectPair s c t w.tables = .ok (r, u) := by
    rw [WebAuthService.selectPair, require_of hpairs.tokens, ok_bind, hselect, found_some, ok_bind]
    dsimp only
    rw [require_of hpairs.csrf, ok_bind]
  exact ⟨_, by rw [WebAuthService.requireMutationSession, hpair, ok_bind]⟩

end Invariant

theorem browser_sessions {service : WebAuthService}
    (hdigest : Function.Injective service.tokenDigest) {clock : ℚ} {es : List (Event Web WebAct)}
    {w : Web} (hrun : WebRun service (.opened clock) es w) (s c : Text) (t : Instant) :
    ((∃ answer, service.requireMutationSession s c t w.tables = .ok answer) ↔
      ∃ x, Open service s c x es ∧ t < x ∧ ∃ u, w.tables.user = some u ∧ u.isActive) ∧
    ((∃ answer, service.requireMutationSession s c t w.tables = .ok answer) →
      ∃ x before e after, es = before ++ e :: after ∧ Issues s c x e ∧ PasswordInForce service e ∧
        ∀ f ∈ after, ¬ Resets f) := by
  have hok : SessionsOk service es w := run_sessions hdigest hrun
  refine ⟨⟨?_, ?_⟩, ?_⟩
  · rintro ⟨answer, haccepts⟩
    exact hok.opens hdigest haccepts
  · rintro ⟨x, hopen, htime, u, huser, hactive⟩
    exact hok.accepts hopen htime huser hactive
  · rintro ⟨answer, haccepts⟩
    obtain ⟨x, ⟨before, e, after, rfl, hissues, hafter⟩, _⟩ := hok.opens hdigest haccepts
    have he : e ∈ before ++ e :: after := by simp
    refine ⟨x, before, e, after, rfl, hissues, issues_password hrun he hissues, ?_⟩
    exact fun f hf hreset => hafter f hf (.inr hreset)

def sampleDigests : List (Text × Text) :=
  [("session-token".toList, "c101e911469c969171040b50d70543313cf968fdef5bacc780776f8fb399ab36".toList),
    ("csrf-token".toList, "a58806c745411a50a426fc29be96491986d7620cdbc6e0084c75f853bb7944a1".toList),
    ("correct horse battery staple".toList,
      "c4bbcb1fbec99d65bf59d85c8cb62ee2db963f0fe106f483d9afa73bd4e39a8a".toList)]

def sampleDigest (text : Text) : Text :=
  ((sampleDigests.find? (·.1 = text)).map (·.2)).getD ('x' :: text)

lemma sampleDigest_cases (text : Text) :
    (∃ entry ∈ sampleDigests, entry.1 = text ∧ sampleDigest text = entry.2) ∨
      sampleDigest text = 'x' :: text := by
  cases h : sampleDigests.find? (·.1 = text) with
  | none => exact .inr (by rw [sampleDigest, h]; rfl)
  | some entry =>
    have hkey : entry.1 = text := by simpa using List.find?_some h
    exact .inl ⟨entry, List.mem_of_find?_eq_some h, hkey, by rw [sampleDigest, h]; rfl⟩

lemma sampleDigest_injective : Function.Injective sampleDigest := by
  have hdigits : ∀ entry ∈ sampleDigests, entry.2.head? ≠ some 'x' := by decide
  have hdistinct : (sampleDigests.map (·.2)).Nodup := by decide +kernel
  intro a b h
  rcases sampleDigest_cases a with ⟨entry, hentry, rfl, ha⟩ | ha
  · rcases sampleDigest_cases b with ⟨other, hother, rfl, hb⟩ | hb
    · rw [ha, hb] at h
      rw [List.inj_on_of_nodup_map hdistinct hentry hother h]
    · rw [ha, hb] at h
      exact absurd (by rw [h]; rfl) (hdigits entry hentry)
  · rcases sampleDigest_cases b with ⟨other, hother, rfl, hb⟩ | hb
    · rw [ha, hb] at h
      exact absurd (by rw [← h]; rfl) (hdigits other hother)
    · rw [ha, hb] at h
      exact (List.cons.inj h).2

def fastPasswordManager : PasswordManager where
  verify passwordHash password := passwordHash = "$test-hash$".toList ++ sampleDigest password
  needsRehash _ := false

def sampleLimiter (maxAttempts : ℕ) (maxAttempts_pos : 1 ≤ maxAttempts) : Limiter.LoginRateLimiter ℚ :=
  ⟨maxAttempts, 300, 2048, maxAttempts_pos, by norm_num, by decide⟩

def sampleService (limiter : Limiter.LoginRateLimiter ℚ) : WebAuthService where
  setupToken := "synthetic-setup-token-that-is-at-least-32-characters".toList
  sessionLifetime := 43200000000
  lower := List.map Char.toLower
  tokenDigest := sampleDigest
  passwords := fastPasswordManager
  dummyPasswordHash := "$test-hash$".toList ++ sampleDigest []
  limiter := limiter

def testService : WebAuthService := sampleService (sampleLimiter 5 (by decide))

def loginActs : List WebAct :=
  let input : LoginInput := ⟨1000, "session-token".toList, "csrf-token".toList, 7, []⟩
  let password := "correct horse battery staple".toList
  [.setup testService.setupToken "admin".toList password
      ("$test-hash$".toList ++ sampleDigest password) 1 0,
    .beginLogin "admin".toList password "client".toList,
    .stepLogin 0 input, .stepLogin 0 input, .stepLogin 0 input, .stepLogin 0 input]

theorem browser_sessions_after_login :
    let w := loginActs.foldl (perform testService) (.opened 0)
    ∃ x, Open testService "session-token".toList "csrf-token".toList x
      (trail (perform testService) (.opened 0) loginActs) ∧ 2000 < x ∧
        ∃ u, w.tables.user = some u ∧ u.isActive := by
  intro w
  have hrun : WebRun testService (.opened 0) (trail (perform testService) (.opened 0) loginActs) w :=
    run_trail Allowed _ (by decide +kernel)
  have hsessions := browser_sessions sampleDigest_injective hrun "session-token".toList
    "csrf-token".toList 2000
  apply hsessions.1.mp
  have haccepts : (testService.requireMutationSession "session-token".toList "csrf-token".toList
      2000 w.tables).isOk := by decide +kernel
  cases h : testService.requireMutationSession "session-token".toList "csrf-token".toList 2000
      w.tables with
  | ok answer => exact ⟨answer, rfl⟩
  | error e =>
    rw [h] at haccepts
    cases haccepts

end AudioServer.WebAuth.Sessions
