import AudioServer.Foundations.Strings

/-! An HTTP scope as the server hands it over: the path, the method and the header lines. -/

namespace AudioServer.Api.Scopes

open AudioServer.Foundations.Strings

abbrev Bytes := List UInt8

def ascii (s : Text) : Bytes := s.map (fun c => UInt8.ofNat c.toNat)

structure Scope where
  type : Text
  path : Option Text
  method : Option Text
  headers : Option (List (Bytes × Bytes))

def lower (value : Bytes) : Bytes := value.map (fun b => if 65 ≤ b ∧ b ≤ 90 then b + 32 else b)

def decodeLatin1 (value : Bytes) : Text := value.map (fun b => Char.ofNat b.toNat)

def rawValues (scope : Scope) (headerName : Text) : List Bytes :=
  ((scope.headers.getD []).filter (fun header => lower header.1 = ascii headerName)).map (·.2)

def headerValues (scope : Scope) (headerName : Text) : List Text :=
  (rawValues scope headerName).map decodeLatin1

def isDigit (b : UInt8) : Bool := 48 ≤ b && b ≤ 57

def isAsciiSpace (b : UInt8) : Bool := (9 ≤ b && b ≤ 13) || b == 32

def decimal (digits : Bytes) : ℕ := digits.foldl (fun n b => 10 * n + (b.toNat - 48)) 0

/-- The digits of `int`: single underscores may stand between them, and there are at most 4300. -/
def intDigits (value : Bytes) : Option ℕ :=
  let groups := value.splitOn 95
  if groups.all (fun group => group ≠ [] && group.all isDigit) ∧ groups.flatten.length ≤ 4300 then
    some (decimal groups.flatten)
  else none

def int (value : Bytes) : Option ℤ :=
  match (value.dropWhile isAsciiSpace).rdropWhile isAsciiSpace with
  | 43 :: rest => (intDigits rest).map Int.ofNat
  | 45 :: rest => (intDigits rest).map (fun n => -Int.ofNat n)
  | stripped => (intDigits stripped).map Int.ofNat

def contentLength (scope : Scope) : Option ℕ :=
  match rawValues scope "content-length".toList with
  | [value] =>
    match int value with
    | none => none
    | some length => if 0 ≤ length then some length.toNat else none
  | _ => none

def path (scope : Scope) : Text := scope.path.getD []

def trimmedPath (scope : Scope) : Text := (path scope).rdropWhile (· == '/')

def hasMethod (scope : Scope) (method : Text) : Bool := scope.method = some method

def isPrivateApi (scope : Scope) : Bool :=
  path scope = "/api/v1".toList || "/api/v1/".toList.isPrefixOf (path scope)

def isRecordingUpload (scope : Scope) : Bool :=
  hasMethod scope "POST".toList && trimmedPath scope = "/api/v1/recordings".toList

def isWebRecordingUpload (scope : Scope) : Bool :=
  hasMethod scope "POST".toList && trimmedPath scope = "/api/v1/web/recordings".toList

def publicWebAuthPaths : List Text :=
  ["/api/v1/auth/setup-status".toList, "/api/v1/auth/setup".toList, "/api/v1/auth/login".toList]

def isWebAuthPath (scope : Scope) : Bool :=
  (publicWebAuthPaths ++ ["/api/v1/auth/me".toList, "/api/v1/auth/logout".toList]).contains (path scope)

def isBookmarkPath (scope : Scope) : Bool :=
  trimmedPath scope = "/api/v1/bookmarks".toList ||
    "/api/v1/bookmarks/".toList.isPrefixOf (trimmedPath scope)

def isBrowserRead (scope : Scope) : Bool :=
  (hasMethod scope "GET".toList || hasMethod scope "HEAD".toList) &&
    (trimmedPath scope = "/api/v1/recordings".toList ||
      "/api/v1/recordings/".toList.isPrefixOf (trimmedPath scope) ||
      trimmedPath scope = "/api/v1/queue".toList ||
      trimmedPath scope = "/api/v1/days".toList ||
      "/api/v1/days/".toList.isPrefixOf (trimmedPath scope) ||
      trimmedPath scope = "/api/v1/settings/processing".toList)

def isBrowserSettingsMutation (scope : Scope) : Bool :=
  hasMethod scope "PATCH".toList && trimmedPath scope = "/api/v1/settings/processing".toList

def parts (scope : Scope) : List Text := (trimmedPath scope).splitOn '/'

def within (scope : Scope) (collection : Text) : Bool :=
  (parts scope).take 4 = [[], "api".toList, "v1".toList, collection]

def endsWith (scope : Scope) (last : List Text) : Bool := last.isSuffixOf (parts scope)

def isBrowserDayMutation (scope : Scope) : Bool :=
  hasMethod scope "POST".toList && within scope "days".toList && (parts scope).length = 7 &&
    (endsWith scope ["summary".toList, "reprocess".toList] ||
      endsWith scope ["analysis".toList, "reprocess".toList])

def isBrowserRecordingMutation (scope : Scope) : Bool :=
  within scope "recordings".toList &&
    ((hasMethod scope "DELETE".toList && (parts scope).length = 5) ||
      (hasMethod scope "PUT".toList && (parts scope).length = 6 &&
        (endsWith scope ["transcript".toList] || endsWith scope ["translations".toList] ||
          endsWith scope ["analysis".toList] || endsWith scope ["checked".toList])) ||
      (hasMethod scope "POST".toList && (parts scope).length = 6 &&
        endsWith scope ["reprocess".toList]) ||
      (hasMethod scope "POST".toList && (parts scope).length = 7 &&
        (endsWith scope ["analysis".toList, "reprocess".toList] ||
          endsWith scope ["translation".toList, "reprocess".toList])))

section ContentLength

def Declares (scope : Scope) (length : ℕ) : Prop :=
  ∃ value, rawValues scope "content-length".toList = [value] ∧ int value = some (length : ℤ)

lemma contentLength_iff {scope : Scope} {length : ℕ} :
    contentLength scope = some length ↔ Declares scope length := by
  unfold contentLength Declares
  split
  · next value hvalue =>
    rw [hvalue]
    cases hint : int value with
    | none => simp [hint]
    | some n =>
      by_cases hn : 0 ≤ n
      · simp [hint, hn]
        omega
      · simp [hint, hn]
        omega
  · next hother =>
    refine iff_of_false (fun h => by cases h) ?_
    rintro ⟨value, hvalue, -⟩
    exact hother value hvalue

end ContentLength

end AudioServer.Api.Scopes
