import AudioServer.Foundations.Strings
import Mathlib.Algebra.Group.Nat.Defs

/-! The address of a client behind trusted proxies. Parsing an address and membership in a
network are parameters. -/

namespace AudioServer.Core.ClientAddress

open AudioServer.Foundations.Strings

variable {Address Network : Type*} (ipAddress : Text → Option Address)
  (contains : Network → Address → Bool) (networks : List Network)

def isTrustedAddress (address : Address) : Bool := networks.any (contains · address)

def isTrustedHost (host : Text) : Bool :=
  match ipAddress host with
  | none => false
  | some parsed => isTrustedAddress contains networks parsed

def entries (forwardedFor : List Text) : List Text :=
  forwardedFor.flatMap (fun value => (value.splitOn ',').map strip)

/-- The loop of `resolve_client_ip` over the candidates, rightmost first. -/
def walk (peerHost : Text) : List Text → Option Text
  | [] => some peerHost
  | candidate :: rest =>
    if candidate = [] then walk peerHost rest
    else
      match ipAddress candidate with
      | none => none
      | some parsed =>
        if isTrustedAddress contains networks parsed then walk peerHost rest else some candidate

def resolveClientIp (peerHost : Option Text) (forwardedFor : List Text) : Option Text :=
  match peerHost with
  | none => none
  | some peerHost =>
    if networks.isEmpty || !isTrustedHost ipAddress contains networks peerHost then some peerHost
    else walk ipAddress contains networks peerHost (entries forwardedFor).reverse

def Decides (entry : Text) : Prop := ¬ isTrustedHost ipAddress contains networks entry

def TrustedPeer (peerHost : Option Text) : Prop :=
  ∃ host, peerHost = some host ∧ isTrustedHost ipAddress contains networks host

def entryList (forwardedFor : List Text) : List Text :=
  (((List.intercalate [','] forwardedFor).splitOn ',').map strip).filter (· ≠ [])

lemma entryList_eq (forwardedFor : List Text) :
    entryList forwardedFor = (entries forwardedFor).filter (· ≠ []) := by
  cases forwardedFor with
  | nil => decide
  | cons value rest =>
    rw [entryList, entries, splitOn_intercalate_flatMap (List.cons_ne_nil value rest), List.map_flatMap]

section Walk

variable {ipAddress contains networks} {peerHost entry : Text} {candidates later earlier : List Text}

lemma walk_empty : walk ipAddress contains networks peerHost ([] :: candidates) =
    walk ipAddress contains networks peerHost candidates := by
  rw [walk, if_pos rfl]

lemma walk_trusted (h : isTrustedHost ipAddress contains networks entry) :
    walk ipAddress contains networks peerHost (entry :: candidates) =
      walk ipAddress contains networks peerHost candidates := by
  rw [isTrustedHost] at h
  rw [walk]
  split
  · rfl
  · cases hparsed : ipAddress entry with
    | none => simp [hparsed] at h
    | some parsed =>
      rw [hparsed] at h
      exact if_pos h

lemma walk_decides (hne : entry ≠ []) (h : Decides ipAddress contains networks entry) :
    walk ipAddress contains networks peerHost (entry :: candidates) =
      (ipAddress entry).map (fun _ => entry) := by
  rw [Decides, isTrustedHost] at h
  rw [walk, if_neg hne]
  cases hparsed : ipAddress entry with
  | none => rfl
  | some parsed =>
    rw [hparsed] at h
    exact if_neg h

lemma walk_skips (h : ∀ x ∈ later, isTrustedHost ipAddress contains networks x) :
    walk ipAddress contains networks peerHost (later ++ candidates) =
      walk ipAddress contains networks peerHost candidates := by
  induction later with
  | nil => rfl
  | cons x later ih =>
    rw [List.forall_mem_cons] at h
    rw [List.cons_append, walk_trusted h.1, ih h.2]

lemma walk_filter : walk ipAddress contains networks peerHost (candidates.filter (· ≠ [])) =
    walk ipAddress contains networks peerHost candidates := by
  induction candidates with
  | nil => rfl
  | cons x candidates ih =>
    by_cases hx : x = []
    · rw [hx, walk_empty, List.filter_cons_of_neg (by simp), ih]
    · rw [List.filter_cons_of_pos (by simpa using hx), walk, walk, ih]

end Walk

lemma resolve_trusted {host : Text} (h : isTrustedHost ipAddress contains networks host)
    (forwardedFor : List Text) :
    resolveClientIp ipAddress contains networks (some host) forwardedFor =
      walk ipAddress contains networks host (entryList forwardedFor).reverse := by
  have hne : networks.isEmpty = false := by
    cases networks with
    | nil => rw [isTrustedHost] at h; split at h <;> cases h
    | cons => rfl
  rw [entryList_eq, ← List.filter_reverse, walk_filter, resolveClientIp]
  simp only [hne, h]
  rfl

lemma resolve_untrusted {peerHost : Option Text}
    (h : ¬ TrustedPeer ipAddress contains networks peerHost) (forwardedFor : List Text) :
    resolveClientIp ipAddress contains networks peerHost forwardedFor = peerHost := by
  cases peerHost with
  | none => rfl
  | some host =>
    have hhost : isTrustedHost ipAddress contains networks host = false :=
      Bool.eq_false_iff.mpr (fun htrusted => h ⟨host, rfl, htrusted⟩)
    rw [resolveClientIp, hhost, Bool.not_false, Bool.or_true, if_pos rfl]

lemma resolve_decided {host entry : Text} {before after forwardedFor : List Text}
    (h : isTrustedHost ipAddress contains networks host)
    (hsplit : entryList forwardedFor = before ++ entry :: after)
    (hentry : Decides ipAddress contains networks entry)
    (hafter : ∀ x ∈ after, ¬ Decides ipAddress contains networks x) :
    resolveClientIp ipAddress contains networks (some host) forwardedFor =
      (ipAddress entry).map (fun _ => entry) := by
  have hne : entry ≠ [] := by
    have hmem : entry ∈ entryList forwardedFor := by simp [hsplit]
    simpa using (List.mem_filter.mp hmem).2
  have hskip : ∀ x ∈ after.reverse, isTrustedHost ipAddress contains networks x :=
    fun x hx => not_not.mp (hafter x (List.mem_reverse.mp hx))
  rw [resolve_trusted ipAddress contains networks h, hsplit, List.reverse_append, List.reverse_cons,
    List.append_assoc, walk_skips hskip]
  exact walk_decides hne hentry

lemma resolve_undecided {host : Text} {forwardedFor : List Text}
    (h : isTrustedHost ipAddress contains networks host)
    (hall : ∀ x ∈ entryList forwardedFor, ¬ Decides ipAddress contains networks x) :
    resolveClientIp ipAddress contains networks (some host) forwardedFor = some host := by
  have hskip : ∀ x ∈ (entryList forwardedFor).reverse, isTrustedHost ipAddress contains networks x :=
    fun x hx => not_not.mp (hall x (List.mem_reverse.mp hx))
  rw [resolve_trusted ipAddress contains networks h,
    ← List.append_nil (entryList forwardedFor).reverse, walk_skips hskip]
  rfl

theorem client_cannot_choose_address (peerHost : Option Text) :
    (¬ TrustedPeer ipAddress contains networks peerHost → ∀ forwardedFor,
      resolveClientIp ipAddress contains networks peerHost forwardedFor = peerHost) ∧
    (TrustedPeer ipAddress contains networks peerHost → ∀ forwardedFor,
      (∀ before entry after, entryList forwardedFor = before ++ entry :: after →
        Decides ipAddress contains networks entry →
        (∀ x ∈ after, ¬ Decides ipAddress contains networks x) →
        resolveClientIp ipAddress contains networks peerHost forwardedFor =
          (ipAddress entry).map (fun _ => entry) ∧
        ∀ other before', entryList other = before' ++ entry :: after →
          resolveClientIp ipAddress contains networks peerHost other =
            resolveClientIp ipAddress contains networks peerHost forwardedFor) ∧
      ((∀ x ∈ entryList forwardedFor, ¬ Decides ipAddress contains networks x) →
        resolveClientIp ipAddress contains networks peerHost forwardedFor = peerHost) ∧
      ∀ other, entryList other = entryList forwardedFor →
        resolveClientIp ipAddress contains networks peerHost other =
          resolveClientIp ipAddress contains networks peerHost forwardedFor) := by
  refine ⟨fun h => resolve_untrusted ipAddress contains networks h, ?_⟩
  rintro ⟨host, rfl, hhost⟩ forwardedFor
  refine ⟨?_, resolve_undecided ipAddress contains networks hhost, ?_⟩
  · intro before entry after hsplit hentry hafter
    have hresult := resolve_decided ipAddress contains networks hhost hsplit hentry hafter
    refine ⟨hresult, ?_⟩
    intro other before' hother
    rw [hresult, resolve_decided ipAddress contains networks hhost hother hentry hafter]
  · intro other hsame
    rw [resolve_trusted ipAddress contains networks hhost,
      resolve_trusted ipAddress contains networks hhost, hsame]

section Samples

def octet (digits : Text) : Option ℕ :=
  if digits = [] ∨ ¬ digits.all Char.isDigit ∨ (digits.head? = some '0' ∧ digits.length ≠ 1) then none
  else
    let value := digits.foldl (fun n c => 10 * n + (c.toNat - 48)) 0
    if value ≤ 255 then some value else none

/-- `ip_address` on dotted quads. -/
def dottedQuad (host : Text) : Option ℕ :=
  match (host.splitOn '.').map octet with
  | [some a, some b, some c, some d] => some (((a * 256 + b) * 256 + c) * 256 + d)
  | _ => none

def inNetwork (network : ℕ × ℕ) (address : ℕ) : Bool :=
  address / 2 ^ (32 - network.2) == network.1 / 2 ^ (32 - network.2)

def containers : List (ℕ × ℕ) := [(172 * 2 ^ 24 + 20 * 2 ^ 16, 16)]

def proxy : Text := "172.20.0.5".toList

def client : Text := "203.0.113.7".toList

def forged : List Text := ["1.2.3.4, 203.0.113.7".toList, "172.20.0.9,, 172.20.0.4".toList]

def honest : List Text := ["203.0.113.7,172.20.0.9".toList, [], "172.20.0.4".toList]

theorem forged_hop_changes_nothing :
    resolveClientIp dottedQuad inNetwork containers (some client) forged = some client ∧
      resolveClientIp dottedQuad inNetwork containers (some proxy) forged = some client ∧
      resolveClientIp dottedQuad inNetwork containers (some proxy) honest =
        resolveClientIp dottedQuad inNetwork containers (some proxy) forged := by
  have hpeer : TrustedPeer dottedQuad inNetwork containers (some proxy) := ⟨proxy, rfl, by decide⟩
  have huntrusted : ¬ TrustedPeer dottedQuad inNetwork containers (some client) := by
    rintro ⟨host, hhost, htrusted⟩
    cases hhost
    exact absurd htrusted (by decide)
  have hdecided := ((client_cannot_choose_address dottedQuad inNetwork containers (some proxy)).2 hpeer
    forged).1 ["1.2.3.4".toList] client ["172.20.0.9".toList, "172.20.0.4".toList]
    (by decide) (by unfold Decides; decide) (by unfold Decides; decide)
  exact ⟨(client_cannot_choose_address dottedQuad inNetwork containers (some client)).1 huntrusted forged,
    hdecided.1, hdecided.2 honest [] (by decide)⟩

end Samples

end AudioServer.Core.ClientAddress
