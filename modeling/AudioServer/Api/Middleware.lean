import AudioServer.Api.Scopes
import AudioServer.Foundations.Runs
import AudioServer.WebAuth.Service

/-! The guard before the private API: who may pass, and how much of a body the application
is handed. The application is free: between two steps of the guard it does what it likes. -/

namespace AudioServer.Api.Middleware

open AudioServer.Foundations.Runs AudioServer.Foundations.Strings AudioServer.Db.Models
open AudioServer.Api.Scopes AudioServer.WebAuth.Limiter AudioServer.WebAuth.Service

structure BodyLimit where
  maxBytes : ℕ
  maxBytes_pos : 0 < maxBytes
  code : String
  message : String

structure ErrorResponse where
  statusCode : ℕ
  code : String
  message : String
  headers : List (String × String)

structure Received where
  type : Text
  body : Option Bytes

structure Outgoing where
  type : Text
  status : Option ℕ
  headers : List (Bytes × Bytes)
  body : Bytes

structure BrowserSessions where
  service : WebAuthService
  allowedOrigin : Text
  cookieName : Text

/-- `load` of a `SimpleCookie`, with nothing for its `CookieError`, and the messages of a
`JSONResponse` are parameters. -/
structure Guard where
  expectedToken : Text
  webAuthService : Option BrowserSessions
  uploadLimit : BodyLimit
  mutationLimit : BodyLimit
  loadCookies : Text → Option (Text → Option Text)
  jsonResponse : ErrorResponse → List Outgoing

def uploadRequestLimit (maxBytes : ℕ) (h : 0 < maxBytes) : BodyLimit :=
  ⟨maxBytes, h, "upload_request_too_large", "Upload request exceeds the configured size limit."⟩

def mutationRequestLimit (maxBytes : ℕ) (h : 0 < maxBytes) : BodyLimit :=
  ⟨maxBytes, h, "request_body_too_large", "Request body exceeds the configured size limit."⟩

def makeGuard (expectedToken : Text) (webAuthService : Option BrowserSessions)
    (maxUploadRequestBytes maxMutationRequestBytes : ℕ)
    (loadCookies : Text → Option (Text → Option Text)) (jsonResponse : ErrorResponse → List Outgoing) :
    Except Exn Guard :=
  if hupload : 0 < maxUploadRequestBytes then
    if hmutation : 0 < maxMutationRequestBytes then
      .ok ⟨expectedToken, webAuthService, uploadRequestLimit maxUploadRequestBytes hupload,
        mutationRequestLimit maxMutationRequestBytes hmutation, loadCookies, jsonResponse⟩
    else .error (.valueError "max_mutation_request_bytes must be positive")
  else .error (.valueError "max_upload_request_bytes must be positive")

def tooLarge (limit : BodyLimit) : ErrorResponse := ⟨413, limit.code, limit.message, []⟩

def bearerRequired : ErrorResponse :=
  ⟨401, "authentication_required", "A valid bearer token is required.",
    [("WWW-Authenticate", "Bearer")]⟩

def internalServerError : ErrorResponse :=
  ⟨500, "internal_server_error", "The server could not complete the request.", []⟩

def sessionRequired : WebAuthError :=
  ⟨401, "authentication_required", "A valid browser session is required.", none⟩

def originNotAllowed : WebAuthError := ⟨403, "origin_not_allowed", "Request origin is not allowed.", none⟩

inductive Routed
  | refused (response : ErrorResponse)
  | failed
  | limited (limit : BodyLimit)

section Routes

variable (guard : Guard) (scope : Scope) (now : Instant) (tables : Tables)

def authenticate (suppliedToken : Text) : Bool :=
  suppliedToken ≠ [] && suppliedToken = guard.expectedToken

def isBearerAuthenticated : Bool :=
  match headerValues scope "authorization".toList with
  | [value] =>
    match words value with
    | [scheme, token] => scheme.map Char.toLower = "bearer".toList && authenticate guard token
    | _ => false
  | _ => false

def sessionCookie (sessions : BrowserSessions) (cookieValues : List Text) : Text :=
  match cookieValues.head? with
  | none => []
  | some value =>
    match guard.loadCookies value with
    | none => []
    | some cookies => (cookies sessions.cookieName).getD []

def browserMutationAuthError : Except AuthExn (Option WebAuthError × Tables) :=
  match guard.webAuthService with
  | none => .ok (some sessionRequired, tables)
  | some sessions =>
    if headerValues scope "origin".toList ≠ [sessions.allowedOrigin] then
      .ok (some originNotAllowed, tables)
    else
      let csrfToken :=
        match headerValues scope "x-csrf-token".toList with
        | [value] => value
        | _ => []
      let cookieValues := headerValues scope "cookie".toList
      if cookieValues.length > 1 then .ok (some sessionRequired, tables)
      else
        match sessions.service.requireMutationSession (sessionCookie guard sessions cookieValues)
          csrfToken now tables with
        | .error (.webAuth error) => .ok (some error, tables)
        | .error error => .error error
        | .ok (_, touched) => .ok (none, touched)

/-- The first half of `_handle_private_request`, up to the limit it takes. -/
def route : Routed × Tables :=
  if isWebRecordingUpload scope then
    match browserMutationAuthError guard scope now tables with
    | .error _ => (.failed, tables)
    | .ok (some error, tables) =>
      (.refused ⟨error.statusCode, error.code, error.safeMessage, []⟩, tables)
    | .ok (none, tables) => (.limited guard.uploadLimit, tables)
  else if isWebAuthPath scope || isBookmarkPath scope || isBrowserRead scope ||
      isBrowserRecordingMutation scope || isBrowserDayMutation scope ||
      isBrowserSettingsMutation scope then
    (.limited guard.mutationLimit, tables)
  else if !isBearerAuthenticated guard scope then (.refused bearerRequired, tables)
  else if !isRecordingUpload scope then (.limited guard.mutationLimit, tables)
  else (.limited guard.uploadLimit, tables)

end Routes

inductive Phase
  | refused
  | serving (limit : BodyLimit)
  | ended (limit : BodyLimit)

/-- A private request. `calls` are the results of the application's calls of `receive` so far: a
message, or the error of a limit. -/
structure Exchange where
  phase : Phase
  receivedBytes : ℕ
  calls : List (Except BodyLimit Received)
  responseStarted : Bool
  sent : List Outgoing

def withCacheControl (message : Outgoing) : Outgoing :=
  if message.headers.any (fun header => lower header.1 = ascii "cache-control".toList) then message
  else { message with
    headers := message.headers ++ [(ascii "cache-control".toList, ascii "no-store".toList)] }

namespace Exchange

def trackingSend (x : Exchange) (message : Outgoing) : Exchange :=
  if message.type = "http.response.start".toList then
    { x with responseStarted := true, sent := x.sent ++ [withCacheControl message] }
  else { x with sent := x.sent ++ [message] }

/-- `limited_receive`, once the server's `receive` has returned. -/
def limitedReceive (limit : BodyLimit) (x : Exchange) (message : Received) : Exchange :=
  if message.type = "http.request".toList then
    let receivedBytes := x.receivedBytes + (message.body.getD []).length
    if receivedBytes > limit.maxBytes then
      { x with receivedBytes := receivedBytes, calls := x.calls ++ [.error limit] }
    else { x with receivedBytes := receivedBytes, calls := x.calls ++ [.ok message] }
  else { x with calls := x.calls ++ [.ok message] }

def answer (guard : Guard) (x : Exchange) (response : ErrorResponse) : Exchange :=
  if x.responseStarted then x else { x with sent := x.sent ++ guard.jsonResponse response }

end Exchange

/-- What the application does next. It ends by returning, by the error of a limit that it does not
catch, or by any other error. -/
inductive AppAct
  | receive (message : Received)
  | send (message : Outgoing)
  | returns
  | raisesTooLarge (limit : BodyLimit)
  | raises

def perform (guard : Guard) (limit : BodyLimit) (x : Exchange) : AppAct → Exchange
  | .receive message => x.limitedReceive limit message
  | .send message => x.trackingSend message
  | .returns => { x with phase := .ended limit }
  | .raisesTooLarge raised => { x with phase := .ended limit }.answer guard (tooLarge raised)
  | .raises => { x with phase := .ended limit }.answer guard internalServerError

def Acts (guard : Guard) (x : Exchange) (act : AppAct) (y : Exchange) : Prop :=
  ∃ limit, x.phase = .serving limit ∧ y = perform guard limit x act

def fresh (phase : Phase) : Exchange := ⟨phase, 0, [], false, []⟩

def refuse (guard : Guard) (response : ErrorResponse) : Exchange :=
  (guard.jsonResponse response).foldl Exchange.trackingSend (fresh .refused)

/-- `_handle_limited_request`, up to the call of the application. -/
def handleLimitedRequest (guard : Guard) (scope : Scope) (limit : BodyLimit) : Exchange :=
  match contentLength scope with
  | some declaredLength =>
    if declaredLength > limit.maxBytes then refuse guard (tooLarge limit) else fresh (.serving limit)
  | none => fresh (.serving limit)

def handlePrivateRequest (guard : Guard) (scope : Scope) (now : Instant) (tables : Tables) : Exchange :=
  match (route guard scope now tables).1 with
  | .refused response => refuse guard response
  | .failed => (fresh .refused).answer guard internalServerError
  | .limited limit => handleLimitedRequest guard scope limit

def call (guard : Guard) (scope : Scope) (now : Instant) (tables : Tables) : Option Exchange :=
  if scope.type ≠ "http".toList || !isPrivateApi scope then none
  else some (handlePrivateRequest guard scope now tables)

/-! ### What the application is handed -/

def IsBody (message : Received) : Prop := message.type = "http.request".toList

instance (message : Received) : Decidable (IsBody message) := inferInstanceAs (Decidable (_ = _))

def handed : Except BodyLimit Received → ℕ
  | .ok message => if IsBody message then (message.body.getD []).length else 0
  | .error _ => 0

def bodyBytes (calls : List (Except BodyLimit Received)) : ℕ := (calls.map handed).sum

/-- Once a call has failed, no later call returns a body message. -/
def Silenced (failed later : Except BodyLimit Received) : Prop :=
  ∀ limit message, failed = .error limit → later = .ok message → ¬ IsBody message

structure Metered (limit : BodyLimit) (x : Exchange) : Prop where
  phase : x.phase = .serving limit ∨ x.phase = .ended limit
  handed_le_received : bodyBytes x.calls ≤ x.receivedBytes
  handed_le_limit : bodyBytes x.calls ≤ limit.maxBytes
  failed_iff : (∃ failed, .error failed ∈ x.calls) ↔ limit.maxBytes < x.receivedBytes
  silenced : x.calls.Pairwise Silenced

section Meter

variable {guard : Guard} {limit : BodyLimit} {x y : Exchange} {act : AppAct}

lemma bodyBytes_snoc (calls : List (Except BodyLimit Received)) (result : Except BodyLimit Received) :
    bodyBytes (calls ++ [result]) = bodyBytes calls + handed result := by
  simp [bodyBytes]

lemma fresh_metered (limit : BodyLimit) : Metered limit (fresh (.serving limit)) where
  phase := .inl rfl
  handed_le_received := le_rfl
  handed_le_limit := Nat.zero_le _
  failed_iff := by simp [fresh]
  silenced := .nil

lemma Metered.of_same (h : Metered limit x) (hphase : y.phase = .serving limit ∨ y.phase = .ended limit)
    (hcalls : y.calls = x.calls) (hreceived : y.receivedBytes = x.receivedBytes) : Metered limit y where
  phase := hphase
  handed_le_received := by rw [hcalls, hreceived]; exact h.handed_le_received
  handed_le_limit := by rw [hcalls]; exact h.handed_le_limit
  failed_iff := by rw [hcalls, hreceived]; exact h.failed_iff
  silenced := by rw [hcalls]; exact h.silenced

lemma silenced_snoc {calls : List (Except BodyLimit Received)} {result : Except BodyLimit Received}
    (h : calls.Pairwise Silenced)
    (hnew : ∀ failed, .error failed ∈ calls → ∀ message, result = .ok message → ¬ IsBody message) :
    (calls ++ [result]).Pairwise Silenced := by
  refine List.pairwise_append.mpr ⟨h, List.pairwise_singleton _ _, ?_⟩
  intro call hcall later hlater failed message hfailed hok
  rw [List.mem_singleton.mp hlater] at hok
  exact hnew failed (hfailed ▸ hcall) message hok

def size (message : Received) : ℕ := (message.body.getD []).length

lemma limitedReceive_cases (limit : BodyLimit) (x : Exchange) (message : Received) :
    (¬ IsBody message ∧ x.limitedReceive limit message = { x with calls := x.calls ++ [.ok message] }) ∨
    (IsBody message ∧ limit.maxBytes < x.receivedBytes + size message ∧
      x.limitedReceive limit message = { x with
        receivedBytes := x.receivedBytes + size message
        calls := x.calls ++ [.error limit] }) ∨
    (IsBody message ∧ x.receivedBytes + size message ≤ limit.maxBytes ∧
      x.limitedReceive limit message = { x with
        receivedBytes := x.receivedBytes + size message
        calls := x.calls ++ [.ok message] }) := by
  unfold Exchange.limitedReceive
  by_cases hbody : IsBody message
  · by_cases hexcess : limit.maxBytes < x.receivedBytes + size message
    · exact .inr (.inl ⟨hbody, hexcess, (if_pos hbody).trans (if_pos hexcess)⟩)
    · exact .inr (.inr ⟨hbody, not_lt.mp hexcess, (if_pos hbody).trans (if_neg hexcess)⟩)
  · exact .inl ⟨hbody, if_neg hbody⟩

lemma limitedReceive_metered (h : Metered limit x) (message : Received) :
    Metered limit (x.limitedReceive limit message) := by
  have hsum := h.handed_le_received
  obtain ⟨hother, heq⟩ | ⟨-, hexcess, heq⟩ | ⟨hbody, hfits, heq⟩ := limitedReceive_cases limit x message
  · have hhanded : handed (.ok message) = 0 := if_neg hother
    rw [heq]
    refine ⟨h.phase, ?_, ?_, ?_, ?_⟩
    · simpa [bodyBytes_snoc, hhanded] using h.handed_le_received
    · simpa [bodyBytes_snoc, hhanded] using h.handed_le_limit
    · simpa using h.failed_iff
    · refine silenced_snoc h.silenced ?_
      rintro _ _ _ ⟨⟩
      exact hother
  · have hhanded : handed (.error limit) = 0 := rfl
    rw [heq]
    refine ⟨h.phase, ?_, ?_, ?_, ?_⟩
    · simp only [bodyBytes_snoc, hhanded]
      omega
    · simpa [bodyBytes_snoc, hhanded] using h.handed_le_limit
    · exact iff_of_true ⟨limit, by simp⟩ hexcess
    · exact silenced_snoc h.silenced (fun _ _ _ h => by cases h)
  · have hhanded : handed (.ok message) = size message := if_pos hbody
    have hnone : ∀ failed, .error failed ∉ x.calls := by
      intro failed hfailed
      have := h.failed_iff.mp ⟨failed, hfailed⟩
      omega
    rw [heq]
    refine ⟨h.phase, ?_, ?_, ?_, ?_⟩
    · simp only [bodyBytes_snoc, hhanded]
      omega
    · simp only [bodyBytes_snoc, hhanded]
      omega
    · refine iff_of_false ?_ (not_lt.mpr hfits)
      rintro ⟨failed, hfailed⟩
      simp [hnone] at hfailed
    · exact silenced_snoc h.silenced (fun failed hfailed => absurd hfailed (hnone failed))

lemma answer_frame (guard : Guard) (x : Exchange) (response : ErrorResponse) :
    (x.answer guard response).phase = x.phase ∧ (x.answer guard response).calls = x.calls ∧
      (x.answer guard response).receivedBytes = x.receivedBytes := by
  unfold Exchange.answer
  split <;> exact ⟨rfl, rfl, rfl⟩

lemma trackingSend_frame (x : Exchange) (message : Outgoing) :
    (x.trackingSend message).phase = x.phase ∧ (x.trackingSend message).calls = x.calls ∧
      (x.trackingSend message).receivedBytes = x.receivedBytes := by
  unfold Exchange.trackingSend
  split <;> exact ⟨rfl, rfl, rfl⟩

lemma acts_metered (h : Metered limit x) (hact : Acts guard x act y) : Metered limit y := by
  obtain ⟨served, hserved, rfl⟩ := hact
  obtain rfl : served = limit := by
    rcases h.phase with hphase | hphase <;> rw [hserved] at hphase <;> cases hphase
    rfl
  cases act with
  | receive message => exact limitedReceive_metered h message
  | send message =>
    obtain ⟨hphase, hcalls, hreceived⟩ := trackingSend_frame x message
    exact h.of_same (.inl (hphase.trans hserved)) hcalls hreceived
  | returns => exact h.of_same (.inr rfl) rfl rfl
  | raisesTooLarge raised =>
    obtain ⟨hphase, hcalls, hreceived⟩ :=
      answer_frame guard { x with phase := .ended served } (tooLarge raised)
    exact h.of_same (.inr hphase) hcalls hreceived
  | raises =>
    obtain ⟨hphase, hcalls, hreceived⟩ :=
      answer_frame guard { x with phase := .ended served } internalServerError
    exact h.of_same (.inr hphase) hcalls hreceived

lemma refused_run {trace : List (Event Exchange AppAct)} (hphase : x.phase = .refused)
    (hrun : Run (Acts guard) x trace y) : trace = [] ∧ y = x := by
  cases hrun with
  | nil => exact ⟨rfl, rfl⟩
  | cons hact _ =>
    obtain ⟨served, hserved, _⟩ := hact
    rw [hphase] at hserved
    cases hserved

lemma refuse_frame (guard : Guard) (response : ErrorResponse) :
    (refuse guard response).phase = .refused ∧ (refuse guard response).calls = [] ∧
      (refuse guard response).receivedBytes = 0 := by
  suffices h : ∀ (messages : List Outgoing) (x : Exchange),
      (messages.foldl Exchange.trackingSend x).phase = x.phase ∧
        (messages.foldl Exchange.trackingSend x).calls = x.calls ∧
        (messages.foldl Exchange.trackingSend x).receivedBytes = x.receivedBytes from
    h _ (fresh .refused)
  intro messages
  induction messages with
  | nil => exact fun x => ⟨rfl, rfl, rfl⟩
  | cons message messages ih =>
    intro x
    obtain ⟨hphase, hcalls, hreceived⟩ := trackingSend_frame x message
    obtain ⟨hphase', hcalls', hreceived'⟩ := ih (x.trackingSend message)
    exact ⟨hphase'.trans hphase, hcalls'.trans hcalls, hreceived'.trans hreceived⟩

end Meter

lemma handlePrivateRequest_limited {guard : Guard} {scope : Scope} {now : Instant} {tables : Tables}
    {limit : BodyLimit} (h : (route guard scope now tables).1 = .limited limit) :
    handlePrivateRequest guard scope now tables = handleLimitedRequest guard scope limit := by
  rw [handlePrivateRequest, h]

lemma handlePrivateRequest_refused {guard : Guard} {scope : Scope} {now : Instant} {tables : Tables}
    (h : ∀ limit, (route guard scope now tables).1 ≠ .limited limit) :
    (handlePrivateRequest guard scope now tables).phase = .refused ∧
      (handlePrivateRequest guard scope now tables).calls = [] := by
  rw [handlePrivateRequest]
  split
  · next response _ =>
    obtain ⟨hphase, hcalls, -⟩ := refuse_frame guard response
    exact ⟨hphase, hcalls⟩
  · obtain ⟨hphase, hcalls, -⟩ := answer_frame guard (fresh .refused) internalServerError
    exact ⟨hphase, hcalls⟩
  · next limit hlimit => exact absurd hlimit (h limit)

lemma handleLimitedRequest_cases (guard : Guard) (scope : Scope) (limit : BodyLimit) :
    ((∃ declared, contentLength scope = some declared ∧ limit.maxBytes < declared) ∧
      handleLimitedRequest guard scope limit = refuse guard (tooLarge limit)) ∨
    ((∀ declared, contentLength scope = some declared → declared ≤ limit.maxBytes) ∧
      handleLimitedRequest guard scope limit = fresh (.serving limit)) := by
  unfold handleLimitedRequest
  cases hlength : contentLength scope with
  | none => exact .inr ⟨fun _ h => (by cases h), rfl⟩
  | some declared =>
    by_cases hexcess : limit.maxBytes < declared
    · exact .inl ⟨⟨declared, rfl, hexcess⟩, if_pos hexcess⟩
    · refine .inr ⟨?_, if_neg hexcess⟩
      rintro _ ⟨⟩
      exact not_lt.mp hexcess

theorem request_bodies_bounded (guard : Guard) (scope : Scope) (now : Instant) (tables : Tables)
    (hprivate : scope.type = "http".toList ∧ isPrivateApi scope) :
    ∃ x₀, call guard scope now tables = some x₀ ∧ ∀ trace x, Run (Acts guard) x₀ trace x →
      (∀ limit, (route guard scope now tables).1 = .limited limit →
        bodyBytes x.calls ≤ limit.maxBytes ∧
        ((∃ failed, .error failed ∈ x.calls) ↔ limit.maxBytes < x.receivedBytes) ∧
        (∀ before failed after, x.calls = before ++ .error failed :: after →
          ∀ message, .ok message ∈ after → ¬ IsBody message) ∧
        ∀ declared, Declares scope declared → limit.maxBytes < declared →
          trace = [] ∧ x = refuse guard (tooLarge limit) ∧ x.phase = .refused ∧ x.calls = []) ∧
      ((∀ limit, (route guard scope now tables).1 ≠ .limited limit) →
        trace = [] ∧ x.phase = .refused ∧ x.calls = []) := by
  have hguarded : (scope.type ≠ "http".toList || !isPrivateApi scope) = false := by
    simp [hprivate.1, hprivate.2]
  refine ⟨handlePrivateRequest guard scope now tables, by rw [call, hguarded]; rfl, ?_⟩
  intro trace x hrun
  constructor
  · intro limit hlimit
    rw [handlePrivateRequest_limited hlimit] at hrun
    obtain ⟨⟨declared, hlength, hexcess⟩, heq⟩ | ⟨hfits, heq⟩ := handleLimitedRequest_cases guard scope limit
    · obtain ⟨hphase, hcalls, hreceived⟩ := refuse_frame guard (tooLarge limit)
      rw [heq] at hrun
      obtain ⟨htrace, rfl⟩ := refused_run hphase hrun
      rw [hcalls, hreceived]
      refine ⟨Nat.zero_le _, by simp, ?_, fun _ _ _ => ⟨htrace, rfl, hphase, rfl⟩⟩
      intro before failed after hsplit
      simp at hsplit
    · rw [heq] at hrun
      have hmetered := hrun.keeps (Metered limit) (fun _ _ _ => acts_metered) (fresh_metered limit)
      refine ⟨hmetered.handed_le_limit, hmetered.failed_iff, ?_, ?_⟩
      · intro before failed after hsplit message hmessage hbody
        have hlater := (List.pairwise_append.mp (hsplit ▸ hmetered.silenced)).2.1
        exact (List.pairwise_cons.mp hlater).1 _ hmessage failed message rfl rfl hbody
      · intro declared hlength hexcess
        exact absurd (hfits declared (contentLength_iff.mpr hlength)) (not_le.mpr hexcess)
  · intro hrefused
    obtain ⟨hphase, hcalls⟩ := handlePrivateRequest_refused hrefused
    obtain ⟨htrace, rfl⟩ := refused_run hphase hrun
    exact ⟨htrace, hphase, hcalls⟩

section Samples

def sampleGuard : Guard where
  expectedToken := "guard-token".toList
  webAuthService := none
  uploadLimit := uploadRequestLimit 100 (Nat.succ_pos 99)
  mutationLimit := mutationRequestLimit 200 (Nat.succ_pos 199)
  loadCookies := fun _ => none
  jsonResponse := fun response =>
    [⟨"http.response.start".toList, some response.statusCode, [], []⟩,
      ⟨"http.response.body".toList, none, [], ascii response.message.toList⟩]

def upload (lengthLines : List (Bytes × Bytes)) : Scope where
  type := "http".toList
  path := some "/api/v1/recordings".toList
  method := some "POST".toList
  headers := some ((ascii "Authorization".toList, ascii "Bearer guard-token".toList) :: lengthLines)

def chunk (bytes : ℕ) : Received := ⟨"http.request".toList, some (List.replicate bytes 97)⟩

def greedy : List AppAct := [.receive (chunk 60), .receive (chunk 41), .receive (chunk 10), .returns]

lemma greedy_run : ∃ trace, Run (Acts sampleGuard) (fresh (.serving sampleGuard.uploadLimit)) trace
    (greedy.foldl (perform sampleGuard sampleGuard.uploadLimit) (fresh (.serving sampleGuard.uploadLimit))) :=
  ⟨_, .cons (a := .receive (chunk 60)) ⟨_, rfl, rfl⟩ <|
    .cons (a := .receive (chunk 41)) ⟨_, rfl, rfl⟩ <|
    .cons (a := .receive (chunk 10)) ⟨_, rfl, rfl⟩ <|
    .cons (a := .returns) ⟨_, rfl, rfl⟩ (.nil _)⟩

theorem request_bodies_bounded_upload :
    (∃ x : Exchange, bodyBytes x.calls ≤ 100 ∧ x.receivedBytes = 111 ∧ ∃ failed, .error failed ∈ x.calls) ∧
      ∃ x, call sampleGuard (upload [(ascii "content-length".toList, ascii "101".toList)]) 0 ⟨none, []⟩ =
        some x ∧ x.phase = .refused := by
  constructor
  · obtain ⟨x₀, hcall, hruns⟩ := request_bodies_bounded sampleGuard (upload []) 0 ⟨none, []⟩
      ⟨rfl, by decide⟩
    have hstart : call sampleGuard (upload []) 0 ⟨none, []⟩ =
        some (fresh (.serving sampleGuard.uploadLimit)) := by rfl
    obtain rfl : fresh (.serving sampleGuard.uploadLimit) = x₀ := Option.some.inj (hstart.symm.trans hcall)
    obtain ⟨trace, hrun⟩ := greedy_run
    obtain ⟨hbytes, hfailed, -⟩ := (hruns trace _ hrun).1 sampleGuard.uploadLimit rfl
    have hreceived : (greedy.foldl (perform sampleGuard sampleGuard.uploadLimit)
        (fresh (.serving sampleGuard.uploadLimit))).receivedBytes = 111 := rfl
    exact ⟨_, hbytes, hreceived, hfailed.mpr (by rw [hreceived]; decide)⟩
  · obtain ⟨x₀, hcall, hruns⟩ := request_bodies_bounded sampleGuard
      (upload [(ascii "content-length".toList, ascii "101".toList)]) 0 ⟨none, []⟩ ⟨rfl, by decide⟩
    obtain ⟨-, -, -, hdeclared⟩ := (hruns [] x₀ (.nil x₀)).1 sampleGuard.uploadLimit rfl
    exact ⟨x₀, hcall, (hdeclared 101 (contentLength_iff.mp rfl) (by decide)).2.2.1⟩

end Samples

end AudioServer.Api.Middleware
