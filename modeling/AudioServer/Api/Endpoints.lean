import AudioServer.Api.Middleware
import AudioServer.Foundations.Segments

/-! The routes of the private API with what each requires of its caller, and the guard before them:
which requests it lets through to which route. -/

namespace AudioServer.Api.Endpoints

open AudioServer.Foundations.Segments AudioServer.Foundations.Strings AudioServer.Db.Models
open AudioServer.Api.Middleware AudioServer.Api.Scopes AudioServer.WebAuth.Service

inductive Requirement
  | principal
  | machinePrincipal
  | mutationPrincipal
  | webSession
  | webMutationSession
deriving DecidableEq

/-- `requirements` are the dependencies that ask who calls, in the order they are resolved. -/
structure Endpoint where
  method : Text
  path : Text
  requirements : List Requirement
deriving DecidableEq

def router (base : String) (dependencies : List Requirement)
    (routes : List (String × String × List Requirement)) : List Endpoint :=
  routes.map (fun (method, path, own) =>
    ⟨method.toList, base.toList ++ path.toList, dependencies ++ own⟩)

def webAuthRouter : List Endpoint := router "/api/v1/auth" []
  [("GET", "/setup-status", []), ("POST", "/setup", []), ("POST", "/login", []),
    ("GET", "/me", [.webSession]), ("POST", "/logout", [])]

def queueRouter : List Endpoint := router "/api/v1/queue" [.principal] [("GET", "", [])]

def recordingsRouter : List Endpoint := router "/api/v1/recordings" [.principal]
  [("POST", "", [.machinePrincipal]), ("GET", "", []), ("GET", "/{recording_id}", []),
    ("GET", "/{recording_id}/audio", []), ("GET", "/{recording_id}/status", []),
    ("GET", "/{recording_id}/transcript", []), ("GET", "/{recording_id}/neighbours", []),
    ("GET", "/{recording_id}/analysis", []),
    ("POST", "/{recording_id}/analysis/reprocess", [.mutationPrincipal]),
    ("PUT", "/{recording_id}/translations", [.mutationPrincipal]),
    ("POST", "/{recording_id}/translation/reprocess", [.mutationPrincipal]),
    ("PUT", "/{recording_id}/checked", [.mutationPrincipal]),
    ("PUT", "/{recording_id}/transcript", [.mutationPrincipal]),
    ("PUT", "/{recording_id}/analysis", [.mutationPrincipal]),
    ("POST", "/{recording_id}/retry", [.machinePrincipal]),
    ("POST", "/{recording_id}/reprocess", [.mutationPrincipal]),
    ("DELETE", "/{recording_id}", [.mutationPrincipal])]

def webRecordingsRouter : List Endpoint := router "/api/v1/web/recordings" [.principal]
  [("POST", "", [.mutationPrincipal])]

def activityRouter : List Endpoint := router "/api/v1/recordings" [.principal]
  [("GET", "/{recording_id}/activity", [])]

def bookmarksRouter : List Endpoint := router "/api/v1/bookmarks" []
  [("GET", "", [.webSession]), ("POST", "", [.webMutationSession]),
    ("DELETE", "/{bookmark_id}", [.webMutationSession])]

def daysRouter : List Endpoint := router "/api/v1/days" [.principal]
  [("GET", "", []), ("GET", "/{day}", []),
    ("POST", "/{day}/summary/reprocess", [.mutationPrincipal]),
    ("POST", "/{day}/analysis/reprocess", [.mutationPrincipal])]

def settingsRouter : List Endpoint := router "/api/v1/settings" [.principal]
  [("GET", "/processing", []), ("PATCH", "/processing", [.mutationPrincipal])]

/-- What `create_app` includes below `/api/v1`. -/
def endpoints : List Endpoint :=
  webAuthRouter ++ queueRouter ++ recordingsRouter ++ webRecordingsRouter ++ activityRouter ++
    bookmarksRouter ++ daysRouter ++ settingsRouter

def isParameter (template : Text) : Bool := template.head? = some '{'

/-- A segment in braces is a parameter, which takes any text without a slash. -/
def Fits (template part : Text) : Prop :=
  if isParameter template then part ≠ [] else part = template

instance (template part : Text) : Decidable (Fits template part) :=
  inferInstanceAs (Decidable (if isParameter template then part ≠ [] else part = template))

def segments (scope : Scope) : List Text := (path scope).splitOn '/'

def Receives (e : Endpoint) (scope : Scope) : Prop :=
  scope.method = some e.method ∧ List.Forall₂ Fits (e.path.splitOn '/') (segments scope)

instance (e : Endpoint) (scope : Scope) : Decidable (Receives e scope) :=
  inferInstanceAs (Decidable (_ ∧ _))

namespace Endpoint

def isUpload (e : Endpoint) : Bool :=
  e.method = "POST".toList && e.path = "/api/v1/recordings".toList

def isWebUpload (e : Endpoint) : Bool :=
  e.method = "POST".toList && e.path = "/api/v1/web/recordings".toList

def isMachineOnly (e : Endpoint) : Bool := e.requirements.contains .machinePrincipal

end Endpoint

def isOpen (scope : Scope) : Bool :=
  isWebAuthPath scope || isBookmarkPath scope || isBrowserRead scope ||
    isBrowserRecordingMutation scope || isBrowserDayMutation scope || isBrowserSettingsMutation scope

section Segments

def segmentsOf (path : String) : List Text := path.toList.splitOn '/'

def below (collection : String) (parts : List Text) : Bool :=
  (segmentsOf collection).isPrefixOf parts && parts ≠ segmentsOf collection

def openPaths : List Text :=
  publicWebAuthPaths ++ ["/api/v1/auth/me".toList, "/api/v1/auth/logout".toList]

def openTo (method : Text) (parts : List Text) : Bool :=
  openPaths.any (fun path => parts = path.splitOn '/') ||
    (parts = segmentsOf "/api/v1/bookmarks" || below "/api/v1/bookmarks" parts) ||
    ((method = "GET".toList || method = "HEAD".toList) &&
      (parts = segmentsOf "/api/v1/recordings" || below "/api/v1/recordings" parts ||
        parts = segmentsOf "/api/v1/queue" || parts = segmentsOf "/api/v1/days" ||
        below "/api/v1/days" parts || parts = segmentsOf "/api/v1/settings/processing")) ||
    (parts.take 4 = segmentsOf "/api/v1/recordings" &&
      ((method = "DELETE".toList && parts.length = 5) ||
        (method = "PUT".toList && parts.length = 6 &&
          (["transcript".toList].isSuffixOf parts || ["translations".toList].isSuffixOf parts ||
            ["analysis".toList].isSuffixOf parts || ["checked".toList].isSuffixOf parts)) ||
        (method = "POST".toList && parts.length = 6 && ["reprocess".toList].isSuffixOf parts) ||
        (method = "POST".toList && parts.length = 7 &&
          (["analysis".toList, "reprocess".toList].isSuffixOf parts ||
            ["translation".toList, "reprocess".toList].isSuffixOf parts)))) ||
    (method = "POST".toList && parts.take 4 = segmentsOf "/api/v1/days" && parts.length = 7 &&
      (["summary".toList, "reprocess".toList].isSuffixOf parts ||
        ["analysis".toList, "reprocess".toList].isSuffixOf parts)) ||
    (method = "PATCH".toList && parts = segmentsOf "/api/v1/settings/processing")

variable {scope : Scope} {method : Text}

lemma path_eq {s : Text} : path scope = s ↔ segments scope = s.splitOn '/' := splitOn_inj.symm

lemma trimmedPath_eq (h : (segments scope).getLast? ≠ some []) : trimmedPath scope = path scope :=
  rdropWhile_whole h

lemma parts_eq (h : (segments scope).getLast? ≠ some []) : parts scope = segments scope := by
  rw [parts, trimmedPath_eq h, segments]

lemma below_eq (collection : String) {slashed : String}
    (h : slashed.toList = collection.toList ++ ['/']) :
    slashed.toList.isPrefixOf (path scope) = below collection (segments scope) := by
  rw [h, Bool.eq_iff_iff, below, Bool.and_eq_true, List.isPrefixOf_iff_prefix,
    List.isPrefixOf_iff_prefix, prefix_iff, decide_eq_true_eq, Ne, eq_comm, path_eq]
  rfl

lemma isOpen_eq (hm : scope.method = some method) (h : (segments scope).getLast? ≠ some []) :
    isOpen scope = openTo method (segments scope) := by
  have hbookmarks : "/api/v1/bookmarks/".toList.isPrefixOf (path scope) = _ :=
    below_eq "/api/v1/bookmarks" rfl
  have hrecordings : "/api/v1/recordings/".toList.isPrefixOf (path scope) = _ :=
    below_eq "/api/v1/recordings" rfl
  have hdays : "/api/v1/days/".toList.isPrefixOf (path scope) = _ :=
    below_eq "/api/v1/days" rfl
  simp only [isOpen, isWebAuthPath, List.contains_eq_any_beq, Bool.beq_eq_decide_eq, isBookmarkPath,
    isBrowserRead, isBrowserRecordingMutation, isBrowserDayMutation, isBrowserSettingsMutation,
    within, endsWith, hasMethod, hm, Option.some.injEq, trimmedPath_eq h, parts_eq h, path_eq,
    hbookmarks, hrecordings, hdays]
  rfl

end Segments

section Table

variable {e : Endpoint} {scope : Scope}

def fill (argument template : Text) : Text := if isParameter template then argument else template

def Endpoint.segmentsFor (e : Endpoint) (argument : Text) : List Text :=
  (e.path.splitOn '/').map (fill argument)

lemma fits_literal {templates parts : List Text} (argument : Text)
    (h : List.Forall₂ Fits templates parts) (hnone : templates.countP isParameter = 0) :
    parts = templates.map (fill argument) := by
  induction h with
  | nil => rfl
  | @cons template part templates parts hfits _ ih =>
    by_cases hparameter : isParameter template
    · simp [hparameter] at hnone
    · rw [List.countP_cons_of_neg hparameter] at hnone
      rw [Fits, if_neg hparameter] at hfits
      rw [List.map_cons, fill, if_neg hparameter, ← ih hnone, hfits]

lemma fits_filled {templates parts : List Text} (h : List.Forall₂ Fits templates parts)
    (hone : templates.countP isParameter ≤ 1) :
    ∃ c rest, parts = templates.map (fill (c :: rest)) := by
  induction h with
  | nil => exact ⟨'x', [], rfl⟩
  | @cons template part templates parts hfits hrest ih =>
    by_cases hparameter : isParameter template
    · rw [List.countP_cons_of_pos hparameter] at hone
      rw [Fits, if_pos hparameter] at hfits
      obtain ⟨c, rest, rfl⟩ := List.exists_cons_of_ne_nil hfits
      have hliteral := fits_literal (c :: rest) hrest (by omega)
      exact ⟨c, rest, by rw [List.map_cons, fill, if_pos hparameter, ← hliteral]⟩
    · rw [List.countP_cons_of_neg hparameter] at hone
      rw [Fits, if_neg hparameter] at hfits
      obtain ⟨c, rest, hrest⟩ := ih hone
      exact ⟨c, rest, by rw [List.map_cons, fill, if_neg hparameter, ← hrest, hfits]⟩

lemma table (c : Char) (rest : Text) : endpoints.all (fun e =>
    let parts := e.segmentsFor (c :: rest)
    parts.getLast? ≠ some [] &&
      openTo e.method parts = (!e.isMachineOnly && !e.isWebUpload) &&
      (e.method = "POST".toList && parts = segmentsOf "/api/v1/recordings") = e.isUpload &&
      (e.method = "POST".toList && parts = segmentsOf "/api/v1/web/recordings") = e.isWebUpload) :=
  rfl

lemma one_parameter (he : e ∈ endpoints) : (e.path.splitOn '/').countP isParameter ≤ 1 := by
  revert e
  decide +kernel

structure Told (e : Endpoint) (scope : Scope) : Prop where
  opens : isOpen scope = (!e.isMachineOnly && !e.isWebUpload)
  upload : isRecordingUpload scope = e.isUpload
  webUpload : isWebRecordingUpload scope = e.isWebUpload

lemma told (he : e ∈ endpoints) (h : Receives e scope) : Told e scope := by
  obtain ⟨hm, hparts⟩ := h
  obtain ⟨c, rest, hparts⟩ := fits_filled hparts (one_parameter he)
  have hrow := List.all_eq_true.mp (table c rest) e he
  simp only [Bool.and_eq_true, decide_eq_true_eq, Endpoint.segmentsFor, ← hparts] at hrow
  obtain ⟨⟨⟨hlast, hopen⟩, hupload⟩, hweb⟩ := hrow
  refine ⟨?_, ?_, ?_⟩
  · rw [isOpen_eq hm hlast, hopen]
  · rw [isRecordingUpload, hasMethod, hm, trimmedPath_eq hlast]
    simp only [Option.some.injEq, path_eq]
    exact hupload
  · rw [isWebRecordingUpload, hasMethod, hm, trimmedPath_eq hlast]
    simp only [Option.some.injEq, path_eq]
    exact hweb

lemma machine_not_web (he : e ∈ endpoints) : e.isMachineOnly → e.isWebUpload = false := by
  revert e
  decide +kernel

end Table

section Routing

variable {guard : Guard} {scope : Scope} {now : Instant} {tables : Tables}

lemma route_open (hweb : isWebRecordingUpload scope = false) (hopen : isOpen scope = true) :
    route guard scope now tables = (.limited guard.mutationLimit, tables) := by
  rw [route, hweb, if_neg Bool.false_ne_true]
  exact if_pos hopen

lemma route_closed (hweb : isWebRecordingUpload scope = false) (hopen : isOpen scope = false) :
    route guard scope now tables =
      if isBearerAuthenticated guard scope then
        (.limited (if isRecordingUpload scope then guard.uploadLimit else guard.mutationLimit), tables)
      else (.refused bearerRequired, tables) := by
  rw [route, hweb, if_neg Bool.false_ne_true]
  refine (if_neg (by rw [← isOpen, hopen]; exact Bool.false_ne_true)).trans ?_
  cases isBearerAuthenticated guard scope
  · rfl
  · cases isRecordingUpload scope <;> rfl

lemma route_web (hweb : isWebRecordingUpload scope = true) (limit : BodyLimit) :
    (route guard scope now tables).1 = .limited limit ↔ limit = guard.uploadLimit ∧
      ∃ touched, browserMutationAuthError guard scope now tables = .ok (none, touched) := by
  rw [route, hweb, if_pos rfl]
  split
  · next hfailed => simp [hfailed]
  · next hrefused => simp [hrefused]
  · next touched hpassed => simp [hpassed, eq_comm]

end Routing

theorem guard_follows_endpoints (guard : Guard) (now : Instant) (tables : Tables) {e : Endpoint}
    {scope : Scope} (he : e ∈ endpoints) (h : Receives e scope) :
    (e.isMachineOnly → route guard scope now tables =
      if isBearerAuthenticated guard scope then
        (.limited (if e.isUpload then guard.uploadLimit else guard.mutationLimit), tables)
      else (.refused bearerRequired, tables)) ∧
    (e.isWebUpload → ∀ limit, (route guard scope now tables).1 = .limited limit ↔
      limit = guard.uploadLimit ∧
        ∃ touched, browserMutationAuthError guard scope now tables = .ok (none, touched)) ∧
    (¬ e.isMachineOnly → ¬ e.isWebUpload →
      route guard scope now tables = (.limited guard.mutationLimit, tables)) := by
  obtain ⟨hopens, hupload, hweb⟩ := told he h
  refine ⟨?_, ?_, ?_⟩
  · intro hmachine
    rw [machine_not_web he hmachine] at hweb
    rw [hmachine] at hopens
    rw [route_closed hweb hopens, hupload]
  · intro hisWeb limit
    exact route_web (hweb.trans hisWeb) limit
  · intro hmachine hisWeb
    simp only [hmachine, hisWeb, Bool.not_false, Bool.and_true] at hopens
    exact route_open (hweb.trans (by simpa using hisWeb)) hopens

def reprocessTranslation : Scope where
  type := "http".toList
  path := some "/api/v1/recordings/7/translation/reprocess".toList
  method := some "POST".toList
  headers := none

theorem guard_follows_endpoints_reprocess :
    route sampleGuard reprocessTranslation 0 ⟨none, []⟩ = (.limited sampleGuard.mutationLimit, ⟨none, []⟩) := by
  have he : ⟨"POST".toList, "/api/v1/recordings/{recording_id}/translation/reprocess".toList,
      [.principal, .mutationPrincipal]⟩ ∈ endpoints := by decide +kernel
  have h : Receives ⟨"POST".toList, "/api/v1/recordings/{recording_id}/translation/reprocess".toList,
      [.principal, .mutationPrincipal]⟩ reprocessTranslation := by decide +kernel
  exact (guard_follows_endpoints sampleGuard 0 ⟨none, []⟩ he h).2.2 (by decide +kernel)
    (by decide +kernel)

end AudioServer.Api.Endpoints
