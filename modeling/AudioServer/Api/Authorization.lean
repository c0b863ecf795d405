import AudioServer.Api.Endpoints
import AudioServer.WebAuth.Sessions

/-! A private request on its way to its handler: the guard first, then what the route requires, each
asked at its own moment while sessions open and close beside it. -/

namespace AudioServer.Api.Authorization

open AudioServer.Foundations.Histories AudioServer.Foundations.Pools AudioServer.Foundations.Runs
open AudioServer.Foundations.Strings AudioServer.Db.Models AudioServer.Api.Endpoints
open AudioServer.Api.Middleware AudioServer.Api.Scopes AudioServer.WebAuth.Logins
open AudioServer.WebAuth.Service AudioServer.WebAuth.Sessions

structure Credentials where
  scheme : Text
  credentials : Text

/-- The application. `HTTPBearer`, the cookies of a request and the lookup of its route are
parameters. -/
structure App where
  guard : Guard
  sessions : BrowserSessions
  bearerScheme : Scope → Option Credentials
  cookies : Scope → Text → Option Text
  routes : Scope → Option Endpoint
  guarded : guard.webAuthService = some sessions
  routes_listed : ∀ {scope e}, routes scope = some e → e ∈ endpoints

inductive Caller
  | machine
  | browser (session : AuthenticatedWebSession)

/-- `forbidden` stands for the answers of the guard itself, `typeError` for a digest compared outside
ASCII. -/
inductive Refusal
  | forbidden
  | authentication
  | webAuth (exn : AuthExn)
  | typeError

/-- What a check asks of the session service. Where no session is found, `missing` is raised. -/
inductive Question
  | resolve (sessionToken : Text) (missing : Refusal)
  | mutation (sessionToken csrfToken : Text)

inductive Plan
  | refuse (refusal : Refusal)
  | pass (caller : Option Caller)
  | ask (question : Question)

def getlist (scope : Scope) (name : String) : List Text :=
  ((scope.headers.getD []).filter (fun header => header.1 = ascii name.toList)).map
    (fun header => decodeLatin1 header.2)

def isAscii (s : Text) : Bool := s.all (fun c => c.toNat < 128)

section Dependencies

variable (app : App) (scope : Scope)

def sessionToken : Text := (app.cookies scope app.sessions.cookieName).getD []

def csrfToken : Text :=
  match getlist scope "x-csrf-token" with
  | [value] => value
  | _ => []

def bearerPrincipal : Plan :=
  match app.bearerScheme scope with
  | none => .refuse .authentication
  | some given =>
    if (getlist scope "authorization").length ≠ 1 ∨
        given.scheme.map Char.toLower ≠ "bearer".toList then .refuse .authentication
    else if authenticate app.guard given.credentials then .pass (some .machine)
    else .refuse .authentication

def mutationSession : Plan :=
  match getlist scope "origin" with
  | [origin] =>
    if ¬ (isAscii origin ∧ isAscii app.sessions.allowedOrigin) then .refuse .typeError
    else if origin ≠ app.sessions.allowedOrigin then .refuse (.webAuth (.webAuth originNotAllowed))
    else .ask (.mutation (sessionToken app scope) (csrfToken scope))
  | _ => .refuse (.webAuth (.webAuth originNotAllowed))

def requirePrincipal : Plan :=
  if (app.bearerScheme scope).isSome then bearerPrincipal app scope
  else if getlist scope "authorization" ≠ [] then .refuse .authentication
  else .ask (.resolve (sessionToken app scope) .authentication)

def requireMachinePrincipal : Plan := bearerPrincipal app scope

def requireMutationPrincipal : Plan :=
  if (app.bearerScheme scope).isSome ∨ getlist scope "authorization" ≠ [] then
    bearerPrincipal app scope
  else mutationSession app scope

def requireWebSession : Plan :=
  .ask (.resolve (sessionToken app scope) (.webAuth authenticationRequiredError))

def requireWebMutationSession : Plan := mutationSession app scope

def require : Requirement → Plan
  | .principal => requirePrincipal app scope
  | .machinePrincipal => requireMachinePrincipal app scope
  | .mutationPrincipal => requireMutationPrincipal app scope
  | .webSession => requireWebSession app scope
  | .webMutationSession => requireWebMutationSession app scope

/-- The guard as far as the application behind it: the session that a browser's upload needs. -/
def guardPlan : Plan :=
  if isWebRecordingUpload scope then
    let cookieValues := headerValues scope "cookie".toList
    if headerValues scope "origin".toList ≠ [app.sessions.allowedOrigin] then .refuse .forbidden
    else if cookieValues.length > 1 then .refuse .forbidden
    else
      let csrfToken :=
        match headerValues scope "x-csrf-token".toList with
        | [value] => value
        | _ => []
      .ask (.mutation (sessionCookie app.guard app.sessions cookieValues) csrfToken)
  else if isOpen scope then .pass none
  else if isBearerAuthenticated app.guard scope then .pass none
  else .refuse .forbidden

inductive Check
  | guard
  | requirement (requirement : Requirement)
deriving DecidableEq

def Check.returns : Check → Caller → Option Caller
  | .guard, _ => none
  | .requirement _, caller => some caller

def plan : Check → Plan
  | .guard => guardPlan app scope
  | .requirement requirement => require app scope requirement

end Dependencies

namespace Question

def act (now : Instant) : Question → WebAct
  | .resolve sessionToken _ => .resolve sessionToken now true
  | .mutation sessionToken csrfToken => .requireMutation sessionToken csrfToken now

def answer (service : WebAuthService) (now : Instant) (tables : Tables) :
    Question → Except Refusal AuthenticatedWebSession
  | .resolve sessionToken missing =>
    match (service.resolveSession sessionToken now true tables).1 with
    | none => .error missing
    | some session => .ok session
  | .mutation sessionToken csrfToken =>
    match service.requireMutationSession sessionToken csrfToken now tables with
    | .ok (session, _) => .ok session
    | .error exn => .error (.webAuth exn)

end Question

/-- A request that has found its route. `caller` is what the last dependency returned. -/
structure Passage where
  scope : Scope
  endpoint : Endpoint
  waiting : List Check
  caller : Option Caller
  refusal : Option Refusal

def checksOf (e : Endpoint) : List Check := .guard :: e.requirements.map .requirement

namespace Passage

def arrived (scope : Scope) (e : Endpoint) : Passage := ⟨scope, e, checksOf e, none, none⟩

def refused (p : Passage) (refusal : Refusal) : Passage := { p with refusal := some refusal }

def passed (p : Passage) (caller : Option Caller) : Passage :=
  { p with waiting := p.waiting.tail, caller := caller }

def Served (p : Passage) : Prop := p.waiting = [] ∧ p.refusal = none

instance (p : Passage) : Decidable p.Served := inferInstanceAs (Decidable (_ ∧ _))

end Passage

structure Server where
  web : Web
  history : List (Event Web WebAct)
  passages : List Passage

def Server.opened (clock : ℚ) : Server := ⟨.opened clock, [], []⟩

inductive ServerAct
  | web (act : WebAct)
  | arrive (scope : Scope)
  | check (i : ℕ) (now : Instant)

namespace Server

variable (app : App) (server : Server)

def advance (act : WebAct) : Server :=
  let web := WebAuth.Logins.perform app.sessions.service server.web act
  { server with web := web, history := server.history ++ [⟨server.web, act, web⟩] }

def put (i : ℕ) (p : Passage) : Server := { server with passages := server.passages.set i p }

def check (i : ℕ) (now : Instant) (p : Passage) : Server :=
  match p.waiting, p.refusal with
  | next :: _, none =>
    match plan app p.scope next with
    | .refuse refusal => server.put i (p.refused refusal)
    | .pass caller => server.put i (p.passed caller)
    | .ask question =>
      match question.answer app.sessions.service now server.web.tables with
      | .error refusal => (server.advance app (question.act now)).put i (p.refused refusal)
      | .ok session =>
        (server.advance app (question.act now)).put i (p.passed (next.returns (.browser session)))
  | _, _ => server

def next : ServerAct → Server
  | .web act => server.advance app act
  | .arrive scope =>
    match app.routes scope with
    | none => server
    | some e => { server with passages := server.passages ++ [.arrived scope e] }
  | .check i now => (server.passages[i]?).elim server (server.check app i now)

/-- The clocks and locks of the sessions bind the acts on them, as they do without requests. -/
def Allowed : ServerAct → Prop
  | .web act => WebAuth.Logins.Allowed server.web act
  | _ => True

instance : (act : ServerAct) → Decidable (server.Allowed act)
  | .web act => inferInstanceAs (Decidable (WebAuth.Logins.Allowed server.web act))
  | .arrive _ | .check .. => isTrue trivial

end Server

def ServerStep (app : App) (server : Server) (act : ServerAct) (server' : Server) : Prop :=
  server.Allowed act ∧ server' = server.next app act

abbrev ServerRun (app : App) (clock : ℚ) (es : List (Event Server ServerAct)) (server : Server) : Prop :=
  Run (ServerStep app) (.opened clock) es server

section Steps

variable {app : App} {clock : ℚ} {server server' : Server} {i : ℕ} {now : Instant} {p q : Passage}

def Grants (app : App) (server : Server) (now : Instant) (scope : Scope) (next : Check)
    (caller : Option Caller) : Prop :=
  plan app scope next = .pass caller ∨
    ∃ question session, plan app scope next = .ask question ∧
      question.answer app.sessions.service now server.web.tables = .ok session ∧
      caller = next.returns (.browser session)

def Advances (app : App) (server server' : Server) : Prop :=
  server' = server ∨ ∃ act, WebAuth.Logins.Allowed server.web act ∧ server' = server.advance app act

inductive Checked (app : App) (server : Server) (i : ℕ) (now : Instant) (p : Passage) : Server → Prop
  | idle : Checked app server i now p server
  | refused {server' : Server} (refusal : Refusal) (h : Advances app server server') :
      Checked app server i now p (server'.put i (p.refused refusal))
  | passed {server' : Server} {next : Check} {later : List Check} {caller : Option Caller}
      (hwaiting : p.waiting = next :: later) (hgrants : Grants app server now p.scope next caller)
      (h : Advances app server server') : Checked app server i now p (server'.put i (p.passed caller))

lemma asked (question : Question) : Advances app server (server.advance app (question.act now)) := by
  refine .inr ⟨_, ?_, rfl⟩
  cases question <;> trivial

lemma checked (app : App) (server : Server) (i : ℕ) (now : Instant) (p : Passage) :
    Checked app server i now p (server.check app i now p) := by
  unfold Server.check
  split
  · next next later hwaiting _ =>
    split
    · exact .refused _ (.inl rfl)
    · next hplan => exact .passed hwaiting (.inl hplan) (.inl rfl)
    · next question hplan =>
      split
      · exact .refused _ (asked question)
      · next session hanswer =>
        exact .passed hwaiting (.inr ⟨question, session, hplan, hanswer, rfl⟩) (asked question)
  · exact .idle

/-- The invariant of the server: the history is that of the sessions, and a request waits for the
last of the checks of its route. -/
structure Sound (app : App) (clock : ℚ) (server : Server) : Prop where
  history : WebRun app.sessions.service (.opened clock) server.history server.web
  passages : ∀ p ∈ server.passages, p.endpoint ∈ endpoints ∧ p.waiting <:+ checksOf p.endpoint

lemma Advances.passages (h : Advances app server server') : server'.passages = server.passages := by
  obtain rfl | ⟨act, -, rfl⟩ := h <;> rfl

lemma Advances.history (h : Advances app server server')
    (hrun : WebRun app.sessions.service (.opened clock) server.history server.web) :
    WebRun app.sessions.service (.opened clock) server'.history server'.web := by
  obtain rfl | ⟨act, hallowed, rfl⟩ := h
  · exact hrun
  · exact hrun.append (.single ⟨hallowed, rfl⟩)

lemma next_history {act : ServerAct} (hallowed : server.Allowed act)
    (hrun : WebRun app.sessions.service (.opened clock) server.history server.web) :
    WebRun app.sessions.service (.opened clock) (server.next app act).history
      (server.next app act).web := by
  cases act with
  | web act => exact Advances.history (.inr ⟨act, hallowed, rfl⟩) hrun
  | arrive scope =>
    rw [Server.next]
    split <;> exact hrun
  | check i now =>
    cases hi : server.passages[i]? with
    | none => simpa only [Server.next, hi, Option.elim_none] using hrun
    | some p =>
      have hchecked := checked app server i now p
      rw [Server.next, hi, Option.elim_some]
      generalize server.check app i now p = server' at hchecked
      cases hchecked with
      | idle => exact hrun
      | refused _ hadvances => exact hadvances.history hrun
      | passed _ _ hadvances => exact hadvances.history hrun

lemma next_passages (app : App) (server : Server) (act : ServerAct) :
    (server.next app act).passages = server.passages ∨
    (∃ scope e, e ∈ endpoints ∧
      (server.next app act).passages = server.passages ++ [.arrived scope e]) ∨
    ∃ i now p q, act = .check i now ∧ p ∈ server.passages ∧
      (server.next app act).passages = server.passages.set i q ∧
      ((∃ refusal, q = p.refused refusal) ∨ ∃ next later caller, p.waiting = next :: later ∧
        Grants app server now p.scope next caller ∧ q = p.passed caller) := by
  cases act with
  | web act => exact .inl rfl
  | arrive scope =>
    rw [Server.next]
    split
    · exact .inl rfl
    · next e he => exact .inr (.inl ⟨scope, e, app.routes_listed he, rfl⟩)
  | check i now =>
    cases hi : server.passages[i]? with
    | none => exact .inl (by rw [Server.next, hi, Option.elim_none])
    | some p =>
      have hp : p ∈ server.passages := List.mem_of_getElem? hi
      have hchecked := checked app server i now p
      rw [Server.next, hi, Option.elim_some]
      generalize server.check app i now p = server' at hchecked
      cases hchecked with
      | idle => exact .inl rfl
      | refused refusal hadvances =>
        rw [Server.put, hadvances.passages]
        exact .inr (.inr ⟨i, now, p, _, rfl, hp, rfl, .inl ⟨refusal, rfl⟩⟩)
      | passed hwaiting hgrants hadvances =>
        rw [Server.put, hadvances.passages]
        exact .inr (.inr ⟨i, now, p, _, rfl, hp, rfl, .inr ⟨_, _, _, hwaiting, hgrants, rfl⟩⟩)

lemma opened_sound (app : App) (clock : ℚ) : Sound app clock (.opened clock) :=
  ⟨.nil _, by simp [Server.opened]⟩

lemma step_sound {act : ServerAct} (h : Sound app clock server)
    (hstep : ServerStep app server act server') : Sound app clock server' := by
  obtain ⟨hallowed, rfl⟩ := hstep
  refine ⟨next_history hallowed h.history, ?_⟩
  obtain hsame | ⟨scope, e, he, harrived⟩ | ⟨i, now, p, q, -, hp, hmoved, hcase⟩ :=
    next_passages app server act
  · rw [hsame]
    exact h.passages
  · rw [harrived]
    exact forall_snoc h.passages ⟨he, List.suffix_rfl⟩
  · rw [hmoved]
    refine forall_set h.passages ?_
    obtain ⟨hlisted, hsuffix⟩ := h.passages p hp
    obtain ⟨refusal, rfl⟩ | ⟨next, later, caller, -, -, rfl⟩ := hcase
    · exact ⟨hlisted, hsuffix⟩
    · exact ⟨hlisted, (List.tail_suffix _).trans hsuffix⟩

lemma run_sound {es : List (Event Server ServerAct)} (h : ServerRun app clock es server) :
    ∀ e ∈ es, Sound app clock e.before :=
  fun _ he => h.event_keeps (Sound app clock) (fun _ _ _ => step_sound) (opened_sound app clock) he

def Entered (app : App) (es : List (Event Server ServerAct)) (q : Passage) : Prop :=
  ∃ e ∈ es, ∃ i now last, e.label = .check i now ∧ (checksOf q.endpoint).getLast? = some last ∧
    Grants app e.before now q.scope last q.caller

lemma passed_entered {es : List (Event Server ServerAct)} {e : Event Server ServerAct}
    {next : Check} {later : List Check} {caller : Option Caller} (h : Sound app clock e.before)
    (hlabel : e.label = .check i now) (hp : p ∈ e.before.passages) (hwaiting : p.waiting = next :: later)
    (hgrants : Grants app e.before now p.scope next caller) (hserved : (p.passed caller).Served) :
    Entered app (es ++ [e]) (p.passed caller) := by
  refine ⟨e, by simp, i, now, next, hlabel, ?_, hgrants⟩
  have hlater : later = [] := by simpa [Passage.passed, hwaiting] using hserved.1
  obtain ⟨before, hbefore⟩ := (h.passages p hp).2
  rw [Passage.passed, ← hbefore, hwaiting, hlater, List.getLast?_append_cons]
  rfl

lemma step_entered {es : List (Event Server ServerAct)} {e : Event Server ServerAct}
    (h : Sound app clock e.before) (hentered : ∀ q ∈ e.before.passages, q.Served → Entered app es q)
    (hstep : e.after = e.before.next app e.label) :
    ∀ q ∈ e.after.passages, q.Served → Entered app (es ++ [e]) q := by
  have hold : ∀ q ∈ e.before.passages, q.Served → Entered app (es ++ [e]) q := by
    intro q hq hserved
    obtain ⟨f, hf, hrest⟩ := hentered q hq hserved
    exact ⟨f, List.mem_append_left _ hf, hrest⟩
  rw [hstep]
  obtain hsame | ⟨scope, endpoint, -, harrived⟩ | ⟨i, now, p, q, hlabel, hp, hmoved, hcase⟩ :=
    next_passages app e.before e.label
  · rw [hsame]
    exact hold
  · rw [harrived]
    refine forall_snoc hold (fun hserved => ?_)
    cases hserved.1
  · rw [hmoved]
    refine forall_set hold (fun hserved => ?_)
    obtain ⟨refusal, rfl⟩ | ⟨next, later, caller, hwaiting, hgrants, rfl⟩ := hcase
    · cases hserved.2
    · exact passed_entered h hlabel hp hwaiting hgrants hserved

def Guarded (app : App) (es : List (Event Server ServerAct)) (q : Passage) : Prop :=
  ∃ e ∈ es, ∃ i now caller, e.label = .check i now ∧ Grants app e.before now q.scope .guard caller

lemma step_guarded {es : List (Event Server ServerAct)} {e : Event Server ServerAct}
    (h : ∀ q ∈ e.before.passages, .guard ∉ q.waiting → Guarded app es q)
    (hstep : e.after = e.before.next app e.label) :
    ∀ q ∈ e.after.passages, .guard ∉ q.waiting → Guarded app (es ++ [e]) q := by
  have hold : ∀ q ∈ e.before.passages, .guard ∉ q.waiting → Guarded app (es ++ [e]) q := by
    intro q hq hnone
    obtain ⟨f, hf, hrest⟩ := h q hq hnone
    exact ⟨f, List.mem_append_left _ hf, hrest⟩
  rw [hstep]
  obtain hsame | ⟨scope, endpoint, -, harrived⟩ | ⟨i, now, p, q, hlabel, hp, hmoved, hcase⟩ :=
    next_passages app e.before e.label
  · rw [hsame]
    exact hold
  · rw [harrived]
    exact forall_snoc hold (fun hnone => absurd List.mem_cons_self hnone)
  · rw [hmoved]
    refine forall_set hold (fun hnone => ?_)
    obtain ⟨refusal, rfl⟩ | ⟨next, later, caller, hwaiting, hgrants, rfl⟩ := hcase
    · exact hold p hp hnone
    · rw [Passage.passed, hwaiting] at hnone
      by_cases hnext : next = .guard
      · subst hnext
        exact ⟨e, by simp, i, now, caller, hlabel, hgrants⟩
      · refine hold p hp ?_
        rw [hwaiting, List.mem_cons, not_or]
        exact ⟨Ne.symm hnext, hnone⟩

lemma run_guarded {es : List (Event Server ServerAct)} (h : ServerRun app clock es server) :
    ∀ q ∈ server.passages, .guard ∉ q.waiting → Guarded app es q := by
  refine run_history (fun es server => ∀ q ∈ server.passages, .guard ∉ q.waiting → Guarded app es q)
    ?_ h ?_
  · exact fun es server act server' hs hstep => step_guarded (e := ⟨server, act, server'⟩) hs hstep.2
  · simp [Server.opened]

lemma run_entered {es : List (Event Server ServerAct)} (h : ServerRun app clock es server) :
    Sound app clock server ∧ ∀ q ∈ server.passages, q.Served → Entered app es q := by
  refine run_history (fun es server => Sound app clock server ∧
    ∀ q ∈ server.passages, q.Served → Entered app es q) ?_ h ⟨opened_sound app clock, ?_⟩
  · rintro es server act server' ⟨hsound, hentered⟩ hstep
    exact ⟨step_sound hsound hstep, step_entered (e := ⟨server, act, server'⟩) hsound hentered hstep.2⟩
  · simp [Server.opened]

end Steps

section Guarded

variable {app : App} {scope : Scope}

/-- The plan of the guard is what its route comes to, with the sessions it leaves behind. -/
inductive Routes (app : App) (scope : Scope) (now : Instant) (w : Web) : Plan → Prop
  | passed {limit : BodyLimit}
      (h : route app.guard scope now w.tables = (.limited limit, w.tables)) :
      Routes app scope now w (.pass none)
  | refused (h : ∀ limit, (route app.guard scope now w.tables).1 ≠ .limited limit)
      (hsame : (route app.guard scope now w.tables).2 = w.tables) :
      Routes app scope now w (.refuse .forbidden)
  | asked (question : Question)
      (h : (∃ limit, (route app.guard scope now w.tables).1 = .limited limit) ↔
        ∃ session, question.answer app.sessions.service now w.tables = .ok session)
      (htables : (route app.guard scope now w.tables).2 =
        (WebAuth.Logins.perform app.sessions.service w (question.act now)).tables) :
      Routes app scope now w (.ask question)

lemma web_refused {now : Instant} {w : Web} (hweb : isWebRecordingUpload scope = true)
    (error : WebAuth.Limiter.WebAuthError)
    (hauth : browserMutationAuthError app.guard scope now w.tables = .ok (some error, w.tables)) :
    Routes app scope now w (.refuse .forbidden) := by
  have hroute : route app.guard scope now w.tables =
      (.refused ⟨error.statusCode, error.code, error.safeMessage, []⟩, w.tables) := by
    rw [route, hweb, if_pos rfl, hauth]
  exact .refused (by simp [hroute]) (by rw [hroute])

lemma web_asked {now : Instant} {w : Web} (hweb : isWebRecordingUpload scope = true)
    (sessionToken csrfToken : Text)
    (hauth : browserMutationAuthError app.guard scope now w.tables =
      match app.sessions.service.requireMutationSession sessionToken csrfToken now w.tables with
      | .error (.webAuth error) => .ok (some error, w.tables)
      | .error error => .error error
      | .ok (_, touched) => .ok (none, touched)) :
    Routes app scope now w (.ask (.mutation sessionToken csrfToken)) := by
  have hperform : (WebAuth.Logins.perform app.sessions.service w
      (.requireMutation sessionToken csrfToken now)).tables = settledTables w.tables
        ((app.sessions.service.requireMutationSession sessionToken csrfToken now w.tables).map (·.2)) :=
    rfl
  cases hanswer : app.sessions.service.requireMutationSession sessionToken csrfToken now w.tables with
  | ok answer =>
    rw [hanswer] at hauth hperform
    have hroute : route app.guard scope now w.tables = (.limited app.guard.uploadLimit, answer.2) := by
      rw [route, hweb, if_pos rfl, hauth]
    refine .asked _ ?_ ?_
    · simp [hroute, Question.answer, hanswer]
    · rw [hroute, Question.act, hperform]
      rfl
  | error exn =>
    rw [hanswer] at hauth hperform
    have hroute : (∀ limit, (route app.guard scope now w.tables).1 ≠ .limited limit) ∧
        (route app.guard scope now w.tables).2 = w.tables := by
      rw [route, hweb, if_pos rfl, hauth]
      cases exn <;> simp
    refine .asked _ ?_ ?_
    · simp [hroute.1, Question.answer, hanswer]
    · rw [hroute.2, Question.act, hperform]
      rfl

lemma guard_routes (app : App) (scope : Scope) (now : Instant) (w : Web) :
    Routes app scope now w (guardPlan app scope) := by
  rw [guardPlan]
  cases hweb : isWebRecordingUpload scope with
  | false =>
    rw [if_neg Bool.false_ne_true]
    split
    · next hopen => exact .passed (route_open hweb hopen)
    · next hclosed =>
      have hroute : route app.guard scope now w.tables = _ :=
        route_closed hweb (by simpa using hclosed)
      split
      · next hbearer =>
        rw [if_pos hbearer] at hroute
        exact .passed hroute
      · next hbearer =>
        rw [if_neg hbearer] at hroute
        exact .refused (by simp [hroute]) (by rw [hroute])
  | true =>
    rw [if_pos rfl]
    dsimp only
    split
    · next horigin =>
      apply web_refused hweb originNotAllowed
      rw [browserMutationAuthError, app.guarded]
      exact if_pos horigin
    · next horigin =>
      split
      · next hcookies =>
        apply web_refused hweb sessionRequired
        rw [browserMutationAuthError, app.guarded]
        exact (if_neg horigin).trans (if_pos hcookies)
      · next hcookies =>
        apply web_asked hweb
        rw [browserMutationAuthError, app.guarded]
        exact (if_neg horigin).trans (if_neg hcookies)

lemma guard_forwards {server : Server} {now : Instant} {caller : Option Caller}
    (h : Grants app server now scope .guard caller) :
    ∃ limit, (route app.guard scope now server.web.tables).1 = .limited limit := by
  have hroutes := guard_routes app scope now server.web
  obtain hplan | ⟨question, session, hplan, hanswer, -⟩ := h
  · rw [show guardPlan app scope = .pass caller from hplan] at hroutes
    cases hroutes with
    | passed h => exact ⟨_, congrArg Prod.fst h⟩
  · rw [show guardPlan app scope = .ask question from hplan] at hroutes
    cases hroutes with
    | asked _ h _ => exact h.mpr ⟨session, hanswer⟩

end Guarded

section Answers

variable {service : WebAuthService} {es : List (Event Web WebAct)} {w : Web} {now : Instant}

/-- The session with these tokens is open, for the active user it names: a login with the password in
force issued it, and it has not been logged out, revoked by a reset, or run out. -/
def LiveSession (service : WebAuthService) (es : List (Event Web WebAct)) (w : Web) (now : Instant)
    (session : AuthenticatedWebSession) (sessionToken csrfToken : Text) : Prop :=
  ∃ expiresAt, Open service sessionToken csrfToken expiresAt es ∧ now < expiresAt ∧
    (∃ login ∈ es, Issues sessionToken csrfToken expiresAt login ∧ PasswordInForce service login) ∧
    ∃ user, w.tables.user = some user ∧ user.isActive ∧ session.user = webUser user

lemma live_session {clock : ℚ} {sessionToken csrfToken : Text} {expiresAt : Instant} {user : User}
    {session : AuthenticatedWebSession} (hrun : WebRun service (.opened clock) es w)
    (hopen : Open service sessionToken csrfToken expiresAt es) (htime : now < expiresAt)
    (huser : w.tables.user = some user) (hactive : user.isActive) (hsame : session.user = webUser user) :
    LiveSession service es w now session sessionToken csrfToken := by
  refine ⟨expiresAt, hopen, htime, ?_, user, huser, hactive, hsame⟩
  obtain ⟨before, login, after, rfl, hissues, -⟩ := hopen
  have hmem : login ∈ before ++ login :: after := by simp
  exact ⟨login, hmem, hissues, issues_password hrun hmem hissues⟩

lemma resolve_live (hdigest : Function.Injective service.tokenDigest) {clock : ℚ}
    (hrun : WebRun service (.opened clock) es w) {sessionToken : Text} {missing : Refusal}
    {session : AuthenticatedWebSession}
    (h : (Question.resolve sessionToken missing).answer service now w.tables = .ok session) :
    ∃ csrfToken, LiveSession service es w now session sessionToken csrfToken := by
  have hok := run_sessions hdigest hrun
  have hresolved : (service.resolveSession sessionToken now true w.tables).1 = some session := by
    rw [Question.answer] at h
    split at h
    · cases h
    · next hsome =>
      cases h
      exact hsome
  rw [WebAuthService.resolveSession] at hresolved
  split at hresolved
  · split at hresolved
    · cases hresolved
    · next row user hselect =>
      cases hresolved
      obtain ⟨hmem, hsession, hopen, htime, huser, hactive⟩ := WebAuthService.selectSession_some hselect
      obtain ⟨token, csrfToken, hpairs, hknown⟩ := hok.known row hmem
      obtain rfl : token = sessionToken := hdigest (hpairs.session.symm.trans hsession)
      exact ⟨csrfToken, live_session hrun (hknown hopen) htime huser hactive rfl⟩
  · cases hresolved

lemma mutation_live (hdigest : Function.Injective service.tokenDigest) {clock : ℚ}
    (hrun : WebRun service (.opened clock) es w) {sessionToken csrfToken : Text}
    {session : AuthenticatedWebSession}
    (h : (Question.mutation sessionToken csrfToken).answer service now w.tables = .ok session) :
    csrfToken ≠ [] ∧ LiveSession service es w now session sessionToken csrfToken := by
  have haccepts : ∃ touched,
      service.requireMutationSession sessionToken csrfToken now w.tables = .ok (session, touched) := by
    rw [Question.answer] at h
    split at h
    · next answered hok =>
      cases h
      exact ⟨_, hok⟩
    · cases h
  obtain ⟨touched, haccepts⟩ := haccepts
  obtain ⟨expiresAt, hopen, htime, -⟩ := (run_sessions hdigest hrun).opens hdigest haccepts
  obtain ⟨row, user, hpair, hanswer⟩ := WebAuthService.requireMutationSession_ok haccepts
  obtain ⟨-, htoken, hselect, -⟩ := WebAuthService.selectPair_ok hpair
  obtain ⟨-, -, -, -, huser, hactive⟩ := WebAuthService.selectSession_some hselect
  cases hanswer
  exact ⟨htoken.1, live_session hrun hopen htime huser hactive rfl⟩

end Answers

section Requirements

variable {app : App} {scope : Scope} {requirement : Requirement} {caller : Option Caller}

def acceptsMachine (requirement : Requirement) : Bool :=
  requirement ≠ .webSession && requirement ≠ .webMutationSession

def isMutation (requirement : Requirement) : Bool :=
  requirement = .mutationPrincipal || requirement = .webMutationSession

def SoleBearer (app : App) (scope : Scope) : Prop :=
  (getlist scope "authorization").length = 1 ∧ ∃ given, app.bearerScheme scope = some given ∧
    given.scheme.map Char.toLower = "bearer".toList ∧ given.credentials ≠ [] ∧
    given.credentials = app.guard.expectedToken

def NoAuthorization (app : App) (scope : Scope) : Prop :=
  app.bearerScheme scope = none ∧ getlist scope "authorization" = []

def FromOrigin (app : App) (scope : Scope) (csrfToken : Text) : Prop :=
  getlist scope "origin" = [app.sessions.allowedOrigin] ∧ getlist scope "x-csrf-token" = [csrfToken]

inductive Asks (app : App) (scope : Scope) : Requirement → Plan → Prop
  | refused {requirement : Requirement} (refusal : Refusal) : Asks app scope requirement (.refuse refusal)
  | bearer {requirement : Requirement} (haccepts : acceptsMachine requirement)
      (h : SoleBearer app scope) : Asks app scope requirement (.pass (some .machine))
  | resolve {requirement : Requirement} (hmachine : requirement ≠ .machinePrincipal)
      (hread : ¬ isMutation requirement) (missing : Refusal)
      (h : acceptsMachine requirement → NoAuthorization app scope) :
      Asks app scope requirement (.ask (.resolve (sessionToken app scope) missing))
  | mutation {requirement : Requirement} (hmachine : requirement ≠ .machinePrincipal)
      (horigin : getlist scope "origin" = [app.sessions.allowedOrigin])
      (h : acceptsMachine requirement → NoAuthorization app scope) :
      Asks app scope requirement (.ask (.mutation (sessionToken app scope) (csrfToken scope)))

lemma bearer_asks (haccepts : acceptsMachine requirement) :
    Asks app scope requirement (bearerPrincipal app scope) := by
  rw [bearerPrincipal]
  split
  · exact .refused _
  · next given hgiven =>
    split
    · exact .refused _
    · next hsole =>
      rw [not_or, not_not, not_not] at hsole
      split
      · next hauthenticated =>
        simp only [authenticate, Bool.and_eq_true, decide_eq_true_eq] at hauthenticated
        exact .bearer haccepts ⟨hsole.1, given, hgiven, hsole.2, hauthenticated⟩
      · exact .refused _

lemma mutation_asks (hmachine : requirement ≠ .machinePrincipal)
    (h : acceptsMachine requirement → NoAuthorization app scope) :
    Asks app scope requirement (mutationSession app scope) := by
  rw [mutationSession]
  split
  · next origin horigin =>
    split
    · exact .refused _
    · split
      · exact .refused _
      · next hsame =>
        rw [not_not] at hsame
        exact .mutation hmachine (hsame ▸ horigin) h
  · exact .refused _

lemma asks (app : App) (scope : Scope) (requirement : Requirement) :
    Asks app scope requirement (require app scope requirement) := by
  cases requirement with
  | principal =>
    rw [require, requirePrincipal]
    split
    · exact bearer_asks rfl
    · next hnone =>
      split
      · exact .refused _
      · next hempty =>
        rw [not_not] at hempty
        exact .resolve (by decide) (by decide) _ (fun _ => ⟨by simpa using hnone, hempty⟩)
  | machinePrincipal => exact bearer_asks rfl
  | mutationPrincipal =>
    rw [require, requireMutationPrincipal]
    split
    · exact bearer_asks rfl
    · next hnone =>
      rw [not_or, not_not] at hnone
      exact mutation_asks (by decide) (fun _ => ⟨by simpa using hnone.1, hnone.2⟩)
  | webSession => exact .resolve (by decide) (by decide) _ (fun h => absurd h (by decide))
  | webMutationSession => exact mutation_asks (by decide) (fun h => absurd h (by decide))

lemma csrf_header {token : Text} (h : csrfToken scope = token) (hne : token ≠ []) :
    getlist scope "x-csrf-token" = [token] := by
  rw [csrfToken] at h
  split at h
  · next hone => rw [hone, h]
  · exact absurd h.symm hne

/-- What a request has shown when a requirement lets it pass. -/
inductive Cleared (app : App) (server : Server) (now : Instant) (scope : Scope) :
    Requirement → Option Caller → Prop
  | machine {requirement : Requirement} (haccepts : acceptsMachine requirement)
      (h : SoleBearer app scope) : Cleared app server now scope requirement (some .machine)
  | browser {requirement : Requirement} {session : AuthenticatedWebSession} {token : Text}
      (hmachine : requirement ≠ .machinePrincipal)
      (hheaders : acceptsMachine requirement → NoAuthorization app scope)
      (hlive : LiveSession app.sessions.service server.history server.web now session
        (sessionToken app scope) token)
      (horigin : isMutation requirement → FromOrigin app scope token) :
      Cleared app server now scope requirement (some (.browser session))

lemma cleared (hdigest : Function.Injective app.sessions.service.tokenDigest) {server : Server}
    {clock : ℚ} {now : Instant} (hsound : Sound app clock server)
    (h : Grants app server now scope (.requirement requirement) caller) :
    Cleared app server now scope requirement caller := by
  have hasks := asks app scope requirement
  obtain hplan | ⟨question, session, hplan, hanswer, rfl⟩ := h
  · rw [show require app scope requirement = .pass caller from hplan] at hasks
    cases hasks with
    | bearer haccepts h => exact .machine haccepts h
  · rw [show require app scope requirement = .ask question from hplan] at hasks
    cases hasks with
    | resolve hmachine hread missing h =>
      obtain ⟨token, hlive⟩ := resolve_live hdigest hsound.history hanswer
      exact .browser hmachine h hlive (fun hmutation => absurd hmutation hread)
    | mutation hmachine horigin h =>
      obtain ⟨hne, hlive⟩ := mutation_live hdigest hsound.history hanswer
      exact .browser hmachine h hlive (fun _ => ⟨horigin, csrf_header rfl hne⟩)

end Requirements

/-- The endpoints that open a session or close one check the request themselves. -/
def signInPaths : List Text := publicWebAuthPaths ++ ["/api/v1/auth/logout".toList]

lemma requirements_table : endpoints.all (fun e =>
    signInPaths.contains e.path || e.requirements.getLast?.any (fun last =>
      (!e.isMachineOnly || last = .machinePrincipal) &&
        e.requirements.all (fun requirement => acceptsMachine requirement = acceptsMachine last) &&
        (e.method = "GET".toList || last = .machinePrincipal || isMutation last))) := by
  decide +kernel

lemma last_requirement {e : Endpoint} (he : e ∈ endpoints) (hprivate : e.path ∉ signInPaths) :
    ∃ last, (checksOf e).getLast? = some (.requirement last) ∧
      (e.isMachineOnly → last = .machinePrincipal) ∧
      (∀ requirement ∈ e.requirements, acceptsMachine requirement = acceptsMachine last) ∧
      (e.method ≠ "GET".toList → last = .machinePrincipal ∨ isMutation last) := by
  have hrow := List.all_eq_true.mp requirements_table e he
  rw [Bool.or_eq_true, List.contains_iff_mem, or_iff_right hprivate] at hrow
  obtain ⟨last, hlast, hfacts⟩ := (Option.any_eq_true _ _).mp hrow
  simp only [Bool.and_eq_true, List.all_eq_true, decide_eq_true_eq] at hfacts
  obtain ⟨⟨hmachine, haccepts⟩, hmethod⟩ := hfacts
  refine ⟨last, ?_, ?_, haccepts, ?_⟩
  · rw [checksOf, List.getLast?_cons, List.getLast?_map, hlast]
    rfl
  · intro honly
    simpa [honly] using hmachine
  · intro hchange
    rw [Bool.or_eq_true, Bool.or_eq_true, decide_eq_true_eq, decide_eq_true_eq, or_assoc] at hmethod
    exact hmethod.resolve_left hchange

section Samples

def sampleSessions : BrowserSessions :=
  ⟨testService, "https://archive.example".toList, "wave_session".toList⟩

def sampleApp : App where
  guard := { sampleGuard with webAuthService := some sampleSessions }
  sessions := sampleSessions
  bearerScheme scope := (getlist scope "authorization").head?.bind (fun value =>
    match words value with
    | [scheme, credentials] => some ⟨scheme, credentials⟩
    | _ => none)
  cookies scope name :=
    if getlist scope "cookie" = [name ++ "=session-token".toList] then some "session-token".toList
    else none
  routes scope := endpoints.find? (fun e => Receives e scope)
  guarded := rfl
  routes_listed h := List.mem_of_find?_eq_some h

def tick : Scope where
  type := "http".toList
  path := some "/api/v1/recordings/7/checked".toList
  method := some "PUT".toList
  headers := some [(ascii "origin".toList, ascii "https://archive.example".toList),
    (ascii "x-csrf-token".toList, ascii "csrf-token".toList),
    (ascii "cookie".toList, ascii "wave_session=session-token".toList)]

def tickActs : List ServerAct :=
  loginActs.map .web ++ [.arrive tick, .check 0 2000, .check 0 2000, .check 0 2000]

end Samples

end AudioServer.Api.Authorization
