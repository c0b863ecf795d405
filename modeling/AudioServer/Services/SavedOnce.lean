import AudioServer.Foundations.Dicts
import AudioServer.Services.Bookmarks

/-! Any number of `create` calls at once: one row for each quote, and every call that names it
returns that row. -/

namespace AudioServer.Services.SavedOnce

open AudioServer.Foundations.Strings AudioServer.Foundations.Uuids AudioServer.Foundations.Dicts
open AudioServer.Foundations.Pools AudioServer.Foundations.Runs AudioServer.Foundations.Contention
open AudioServer.Db.Models AudioServer.Services.Bookmarks

def Library.opened (db : Database) (originalFilename : RecordingId → Text)
    (requests : List CreateRequest) : Library :=
  ⟨⟨db, originalFilename, []⟩, requests.map (fun request => ⟨request, .finding⟩)⟩

abbrev CreateStep (sha256 : Text → Text) := PoolStep ready (advance sha256)

abbrev CreateRun (sha256 : Text → Text) := PoolRun ready (advance sha256)

def SameQuote (a b : CreateRequest) : Prop :=
  a.kind = b.kind ∧ a.recordingId = b.recordingId ∧ strip a.originalJa = strip b.originalJa

def Quotes (request : CreateRequest) (b : Bookmark) : Prop :=
  b.userId = request.userId ∧ b.kind = request.kind ∧
    b.recordingId = request.recordingId.map Uuid.int ∧ b.originalJa = strip request.originalJa

instance (request : CreateRequest) (b : Bookmark) : Decidable (Quotes request b) :=
  inferInstanceAs (Decidable (_ ∧ _ ∧ _ ∧ _))

def CollisionFree (sha256 : Text → Text) (requests : List CreateRequest) : Prop :=
  ∀ a ∈ requests, ∀ b ∈ requests, sha256 a.payload = sha256 b.payload → a.payload = b.payload

instance (sha256 : Text → Text) (requests : List CreateRequest) :
    Decidable (CollisionFree sha256 requests) :=
  inferInstanceAs (Decidable (∀ a ∈ requests, ∀ b ∈ requests, _ → _))

def key (b : Bookmark) : ℕ × Text := (b.userId, b.sourceDigest)

variable (sha256 : Text → Text) (db : Database) (requests : List CreateRequest)

structure ShelfSound (shelf : Shelf) : Prop where
  recordings : shelf.db = db
  made : ∀ b ∈ shelf.bookmarks, ∃ request ∈ requests, ∃ label, b = request.row sha256 label
  once : (shelf.bookmarks.map key).Nodup

def GoodPhase (shelf : Shelf) (request : CreateRequest) : Phase → Prop
  | .finding | .lookingUp => True
  | .adding b => (∃ label, b = request.row sha256 label) ∧
      ∀ id ∈ request.recordingId, (db.recording id.int).isSome
  | .inserted b => (∃ label, b = request.row sha256 label) ∧ ∀ c ∈ shelf.bookmarks, ¬ SameKey c b
  | .recovering _ => ∃ c ∈ shelf.bookmarks, key c = (request.userId, request.digest sha256)
  | .returned b => b ∈ shelf.bookmarks ∧ key b = (request.userId, request.digest sha256)
  | .raised exn => exn = recordingNotFound ∧
      ∃ id ∈ request.recordingId, db.recording id.int = none

def good (shelf : Shelf) (call : CreateCall) : Prop :=
  call.request ∈ requests ∧ GoodPhase sha256 db shelf call.request call.phase

def apart (a b : CreateCall) : Prop :=
  ∀ r s, a.phase = .inserted r → b.phase = .inserted s → ¬ SameKey r s

abbrev SoundLibrary := Sound (ShelfSound sha256 db requests) (good sha256 db requests) apart

variable {sha256 db requests} {shelf : Shelf} {request asked : CreateRequest} {phase other : Phase}
  {library library' : Library} {i : ℕ}

section Steps

lemma sameKey_iff {a b : Bookmark} : SameKey a b ↔ key a = key b :=
  (Prod.mk.injEq _ _ _ _).symm ▸ Iff.rfl

lemma row_key {label : Text} :
    key (request.row sha256 label) = (request.userId, request.digest sha256) := rfl

lemma found_key {b : Bookmark} (h : find sha256 request shelf = some b) :
    b ∈ shelf.bookmarks ∧ key b = (request.userId, request.digest sha256) := by
  obtain ⟨hmem, huser, hdigest⟩ := find_some h
  exact ⟨hmem, Prod.ext huser hdigest⟩

lemma refused_key {label : Text} {exn : BookmarkExn} (hrecordings : shelf.db = db)
    (hkept : ∀ id ∈ request.recordingId, (db.recording id.int).isSome)
    (h : insertBookmark shelf (request.row sha256 label) = .error exn) :
    ∃ c ∈ shelf.bookmarks, key c = (request.userId, request.digest sha256) := by
  rcases insertBookmark_error h with ⟨c, hc, hsame⟩ | ⟨id, hid, hgone⟩
  · exact ⟨c, hc, sameKey_iff.mp hsame⟩
  · obtain ⟨uuid, huuid, rfl⟩ := Option.mem_map.mp hid
    have hthere := hkept uuid huuid
    rw [← hrecordings, hgone] at hthere
    cases hthere

lemma goodPhase_advance (hshelf : ShelfSound sha256 db requests shelf)
    (h : GoodPhase sha256 db shelf request phase) :
    GoodPhase sha256 db (phase.advance sha256 request shelf).1 request
      (phase.advance sha256 request shelf).2 := by
  cases phase with
  | finding =>
    simp only [Phase.advance]
    cases hf : find sha256 request shelf with
    | some existing => exact found_key hf
    | none => trivial
  | lookingUp =>
    simp only [Phase.advance]
    cases hlabel : sourceLabel request.recordingId shelf with
    | ok label => exact ⟨⟨label, rfl⟩, hshelf.recordings ▸ sourceLabel_ok hlabel⟩
    | error exn => exact hshelf.recordings ▸ sourceLabel_error hlabel
  | adding b =>
    obtain ⟨⟨label, rfl⟩, hkept⟩ := h
    simp only [Phase.advance]
    cases hi : insertBookmark shelf (request.row sha256 label) with
    | ok u => exact ⟨⟨label, rfl⟩, (insertBookmark_ok hi).1⟩
    | error exn => exact refused_key hshelf.recordings hkept hi
  | inserted b =>
    obtain ⟨⟨label, rfl⟩, _⟩ := h
    exact ⟨List.mem_append_right _ (List.mem_singleton.mpr rfl), row_key⟩
  | recovering exn =>
    simp only [Phase.advance]
    cases hf : find sha256 request shelf with
    | some concurrent => exact found_key hf
    | none =>
      obtain ⟨c, hc, hkey⟩ := h
      exact absurd (Prod.mk.inj hkey) (find_none hf hc)
  | returned b => exact h
  | raised exn => exact h

lemma goodPhase_kept {b : Bookmark} (hother : GoodPhase sha256 db shelf asked other)
    (hapart : ∀ s, other = .inserted s → ¬ SameKey b s) :
    GoodPhase sha256 db { shelf with bookmarks := shelf.bookmarks ++ [b] } asked other := by
  cases other with
  | finding => trivial
  | lookingUp => trivial
  | adding c => exact hother
  | inserted c => exact ⟨hother.1, forall_snoc hother.2 (hapart c rfl)⟩
  | recovering exn =>
    obtain ⟨c, hc, hkey⟩ := hother
    exact ⟨c, List.mem_append_left _ hc, hkey⟩
  | returned c => exact ⟨List.mem_append_left _ hother.1, hother.2⟩
  | raised exn => exact hother

lemma inserted_advance {b : Bookmark} (h : (phase.advance sha256 request shelf).2 = .inserted b) :
    phase = .adding b := by
  cases phase with
  | adding c =>
    simp only [Phase.advance] at h
    split at h
    · cases h
    · cases h
      rfl
  | finding =>
    simp only [Phase.advance] at h
    split at h <;> cases h
  | lookingUp =>
    simp only [Phase.advance] at h
    split at h <;> cases h
  | recovering exn =>
    simp only [Phase.advance] at h
    split at h <;> cases h
  | inserted c => cases h
  | returned c => cases h
  | raised exn => cases h

lemma shelfSound_advance (hshelf : ShelfSound sha256 db requests shelf) (hasked : request ∈ requests)
    (h : GoodPhase sha256 db shelf request phase) :
    ShelfSound sha256 db requests (phase.advance sha256 request shelf).1 := by
  rcases shelf_advance sha256 request shelf phase with hsame | ⟨b, rfl, hgrown⟩
  · rw [hsame]
    exact hshelf
  · obtain ⟨⟨label, rfl⟩, hfree⟩ := h
    rw [hgrown]
    refine ⟨hshelf.recordings, forall_snoc hshelf.made ⟨request, hasked, label, rfl⟩, ?_⟩
    apply nodup_map_snoc hshelf.once
    intro c hc he
    exact hfree c hc (sameKey_iff.mpr he)

lemma apart_advance {call call' : CreateCall} (hmem : call' ∈ library.calls)
    (hready : ready library call) : apart (advance sha256 call library.shared).2 call' := by
  intro r s hr hs hsame
  have hphase : call.phase = .adding r := inserted_advance hr
  rw [ready, hphase] at hready
  exact hready call' hmem s (by rw [hs]; rfl) ⟨hsame.1.symm, hsame.2.symm⟩

lemma apart_symm {a b : CreateCall} (h : apart a b) : apart b a := by
  intro r s hr hs hsame
  exact h s r hs hr ⟨hsame.1.symm, hsame.2.symm⟩

lemma soundLibrary_step (h : SoundLibrary sha256 db requests library)
    (hstep : CreateStep sha256 library i library') : SoundLibrary sha256 db requests library' := by
  apply h.step hstep
  · intro call _ hshelf hgood _
    exact shelfSound_advance hshelf hgood.1 hgood.2
  · intro call _ hshelf hgood _
    exact ⟨hgood.1, goodPhase_advance hshelf hgood.2⟩
  · intro call _ other hother _ hgood' hready hapart _
    have hmoved : apart (advance sha256 call library.shared).2 other := apart_advance hother hready
    refine ⟨⟨hgood'.1, ?_⟩, hmoved, apart_symm hmoved⟩
    rcases shelf_advance sha256 call.request library.shared call.phase with
      hsame | ⟨b, hphase, hgrown⟩
    · rw [advance, hsame]
      exact hgood'.2
    · rw [advance, hgrown]
      exact goodPhase_kept hgood'.2 (fun s hs => hapart b s hphase hs)

lemma soundLibrary_opened (sha256 : Text → Text) (db : Database)
    (originalFilename : RecordingId → Text) (requests : List CreateRequest) :
    SoundLibrary sha256 db requests (Library.opened db originalFilename requests) := by
  constructor
  · exact ⟨rfl, fun _ hb => absurd hb List.not_mem_nil, List.nodup_nil⟩
  · intro call hcall
    obtain ⟨request, hrequest, rfl⟩ := List.mem_map.mp hcall
    exact ⟨hrequest, trivial⟩
  · intro j k a b ha _ _ r s hr
    obtain ⟨request, _, rfl⟩ := List.mem_map.mp (List.mem_of_getElem? ha)
    cases hr

def Phase.ahead : Phase → ℕ
  | .finding => 4
  | .lookingUp => 3
  | .adding _ => 2
  | .inserted _ | .recovering _ => 1
  | .returned _ | .raised _ => 0

lemma ahead_advance {call : CreateCall} (hready : ready library call) :
    Phase.ahead (advance sha256 call library.shared).2.phase < Phase.ahead call.phase := by
  rcases call with ⟨request, phase⟩
  cases phase with
  | finding =>
    simp only [advance, Phase.advance]
    split <;> simp [Phase.ahead]
  | lookingUp =>
    simp only [advance, Phase.advance]
    split <;> simp [Phase.ahead]
  | adding b =>
    simp only [advance, Phase.advance]
    split <;> simp [Phase.ahead]
  | recovering exn =>
    simp only [advance, Phase.advance]
    split <;> simp [Phase.ahead]
  | inserted b => exact Nat.zero_lt_one
  | returned b => exact hready.elim
  | raised exn => exact hready.elim

def Ended (call : CreateCall) : Prop :=
  (∃ b, call.phase = .returned b) ∨ ∃ exn, call.phase = .raised exn

lemma ready_or_ended (library : Library) : (∃ call ∈ library.calls, ready library call) ∨
    ∀ call ∈ library.calls, Ended call := by
  by_cases hopen : ∃ call ∈ library.calls, ∃ b, call.phase = .inserted b
  · obtain ⟨call, hcall, b, hphase⟩ := hopen
    refine .inl ⟨call, hcall, ?_⟩
    rw [ready, hphase]
    trivial
  · by_cases hall : ∀ call ∈ library.calls, Ended call
    · exact .inr hall
    · push Not at hopen hall
      obtain ⟨call, hcall, hgoing⟩ := hall
      refine .inl ⟨call, hcall, ?_⟩
      unfold ready
      cases hphase : call.phase with
      | adding b =>
        intro other hother row hrow
        cases hphase' : other.phase with
        | inserted c => exact absurd hphase' (hopen other hother c)
        | _ =>
          rw [hphase'] at hrow
          cases hrow
      | returned b => exact absurd (.inl ⟨b, hphase⟩) hgoing
      | raised exn => exact absurd (.inr ⟨exn, hphase⟩) hgoing
      | _ => trivial

end Steps

section Quotes

lemma digest_eq_iff (hfree : CollisionFree sha256 requests) (ha : request ∈ requests)
    (hb : asked ∈ requests) :
    request.digest sha256 = asked.digest sha256 ↔ SameQuote request asked := by
  constructor
  · intro h
    exact sourcePayload_inj (hfree request ha asked hb h)
  · rintro ⟨hkind, hid, htext⟩
    rw [CreateRequest.digest, CreateRequest.digest, sourceDigest, sourceDigest, sourcePayload,
      sourcePayload, hkind, hid, htext]

lemma uuid_map_inj {a b : Option Uuid} (h : a.map Uuid.int = b.map Uuid.int) : a = b := by
  have hinj : Function.Injective Uuid.int := by
    rintro ⟨m, hm⟩ ⟨n, hn⟩ he
    cases he
    rfl
  exact Option.map_injective hinj h

lemma quotes_row {label : Text} :
    Quotes request (asked.row sha256 label) ↔ asked.userId = request.userId ∧ SameQuote asked request := by
  constructor
  · rintro ⟨huser, hkind, hid, htext⟩
    exact ⟨huser, hkind, uuid_map_inj hid, htext⟩
  · rintro ⟨huser, hkind, hid, htext⟩
    exact ⟨huser, hkind, congrArg (Option.map Uuid.int) hid, htext⟩

lemma quotes_iff_key {b : Bookmark} (hfree : CollisionFree sha256 requests)
    (hshelf : ShelfSound sha256 db requests shelf) (hrequest : request ∈ requests)
    (hb : b ∈ shelf.bookmarks) :
    Quotes request b ↔ key b = (request.userId, request.digest sha256) := by
  obtain ⟨asked, hasked, label, rfl⟩ := hshelf.made b hb
  rw [quotes_row, row_key, Prod.mk.injEq, digest_eq_iff hfree hasked hrequest]

end Quotes

section Runs

variable {es : List (Event Library ℕ)} {originalFilename : RecordingId → Text} {call other : CreateCall}
  {b c : Bookmark}

lemma soundLibrary_run (h : CreateRun sha256 (Library.opened db originalFilename requests) es library) :
    SoundLibrary sha256 db requests library :=
  h.keeps (SoundLibrary sha256 db requests) (fun _ _ _ => soundLibrary_step)
    (soundLibrary_opened sha256 db originalFilename requests)

lemma returned_key (h : SoundLibrary sha256 db requests library) (hcall : call ∈ library.calls)
    (hphase : call.phase = .returned b) : b ∈ library.shared.bookmarks ∧
      key b = (call.request.userId, call.request.digest sha256) := by
  have hgood := (h.good call hcall).2
  rw [hphase] at hgood
  exact hgood

lemma returned_only (hfree : CollisionFree sha256 requests) (h : SoundLibrary sha256 db requests library)
    (hcall : call ∈ library.calls) (hphase : call.phase = .returned b) : Quotes call.request b ∧
      library.shared.bookmarks.filter (fun c => Quotes call.request c) = [b] := by
  obtain ⟨hmem, hkey⟩ := returned_key h hcall hphase
  have hrequest := (h.good call hcall).1
  refine ⟨(quotes_iff_key hfree h.shared hrequest hmem).mpr hkey, ?_⟩
  rw [← filter_key h.shared.once hmem]
  apply List.filter_congr
  intro c hc
  rw [decide_eq_decide, quotes_iff_key hfree h.shared hrequest hc, hkey]

lemma returned_same_iff (hfree : CollisionFree sha256 requests)
    (h : SoundLibrary sha256 db requests library) (hcall : call ∈ library.calls)
    (hother : other ∈ library.calls) (hphase : call.phase = .returned b)
    (hphase' : other.phase = .returned c) (huser : call.request.userId = other.request.userId) :
    b = c ↔ SameQuote call.request other.request := by
  obtain ⟨hmem, hkey⟩ := returned_key h hcall hphase
  obtain ⟨hmem', hkey'⟩ := returned_key h hother hphase'
  have hsame : b = c ↔ key b = key c :=
    ⟨congrArg key, List.inj_on_of_nodup_map h.shared.once hmem hmem'⟩
  rw [hsame, hkey, hkey', huser, Prod.mk.injEq, eq_self, true_and]
  exact digest_eq_iff hfree (h.good call hcall).1 (h.good other hother).1

lemma saves_end (h : CreateRun sha256 (Library.opened db originalFilename requests) es library) :
    es.length ≤ 4 * requests.length := by
  have hle := length_le (fun call : CreateCall => Phase.ahead call.phase)
    (fun _ _ _ hready => ahead_advance hready) h (n := 4) (by
      intro call hcall
      obtain ⟨request, _, rfl⟩ := List.mem_map.mp hcall
      exact Nat.le_refl 4)
  rwa [Library.opened, List.length_map] at hle

theorem quotes_saved_once (hfree : CollisionFree sha256 requests)
    (h : CreateRun sha256 (Library.opened db originalFilename requests) es library) :
    (∀ k l a b s t, sourcePayload k a s = sourcePayload l b t ↔
      k = l ∧ a = b ∧ strip s = strip t) ∧
    (∀ call ∈ library.calls, ∀ b, call.phase = .returned b →
      Quotes call.request b ∧ library.shared.bookmarks.filter (fun c => Quotes call.request c) = [b]) ∧
    (∀ call ∈ library.calls, ∀ other ∈ library.calls, ∀ b c, call.phase = .returned b →
      other.phase = .returned c → call.request.userId = other.request.userId →
      (b = c ↔ SameQuote call.request other.request)) ∧
    (∀ call ∈ library.calls, ∀ exn, call.phase = .raised exn → exn = recordingNotFound ∧
      ∃ id ∈ call.request.recordingId, db.recording id.int = none) ∧
    library.calls.map (·.request) = requests ∧ es.length ≤ 4 * requests.length ∧
    ((∀ i, ¬ library.allows ready i) → ∀ call ∈ library.calls, Ended call) := by
  have hsound := soundLibrary_run h
  refine ⟨?_, fun _ hcall _ => returned_only hfree hsound hcall,
    fun _ hcall _ hother _ _ => returned_same_iff hfree hsound hcall hother, ?_, ?_, saves_end h, ?_⟩
  · intro k l a b s t
    constructor
    · exact sourcePayload_inj
    · rintro ⟨rfl, rfl, htext⟩
      rw [sourcePayload, sourcePayload, htext]
  · intro call hcall exn hphase
    have hgood := (hsound.good call hcall).2
    rw [hphase] at hgood
    exact hgood
  · rw [map_calls (·.request) (fun _ _ => rfl) h, Library.opened, List.map_map]
    exact List.map_id requests
  · intro hblocked
    rcases ready_or_ended library with ⟨call, hcall, hready⟩ | hall
    · exact absurd hready (not_ready_of_stuck hblocked hcall)
    · exact hall

end Runs

def quoted (id : ℕ) (kind : BookmarkKind) (originalJa : Text) : CreateRequest :=
  ⟨id, 1, kind, none, originalJa, "y".toList, "n".toList, "m".toList, "A".toList, 0, none⟩

def racing : List CreateRequest :=
  [quoted 1 .expression "あ".toList, quoted 2 .expression " あ\n".toList,
    quoted 3 .highlight "あ".toList]

/-- SHA-256 on the two payloads of these requests. -/
def knownDigest (payload : Text) : Text :=
  if payload = "expression||あ".toList then
    "8b42b77a53bd892cd407f1ca1f784276e292e280b2591e53e61cfd65c271fe14".toList
  else if payload = "highlight||あ".toList then
    "f59e3d22c0a75bfe97d3dabb32761d3c44b9cf4c5015d3d8c3f8c219b0383430".toList
  else []

def racingLibrary : Library := Library.opened (.empty none) (fun _ => []) racing

def raceOrder : List ℕ := [0, 1, 0, 1, 0, 0, 1, 1, 2, 2, 2, 2]

def raced : Library := raceOrder.foldl (Pool.perform (advance knownDigest)) racingLibrary

theorem raced_saves_share_a_row :
    raced.calls.map (fun call => (find knownDigest call.request raced.shared).map (·.id)) =
      [some 1, some 1, some 3] ∧
    ∀ call ∈ raced.calls, ∀ b, call.phase = .returned b → Quotes call.request b ∧
      raced.shared.bookmarks.filter (fun c => Quotes call.request c) = [b] :=
  ⟨by decide +kernel, (quotes_saved_once (by decide +kernel)
    (poolRun_trail raceOrder (by decide +kernel))).2.1⟩

end AudioServer.Services.SavedOnce
