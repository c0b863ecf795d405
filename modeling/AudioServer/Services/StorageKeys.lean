import AudioServer.Foundations.Calendar
import AudioServer.Foundations.Numerals
import AudioServer.Foundations.Trees
import AudioServer.Foundations.Uuids
import AudioServer.Services.ObjectFiles

/-! Where the backend keeps its files below its root: the texts of the keys, the paths they resolve
to and the names of the staged and of the quarantined files. -/

namespace AudioServer.Services.StorageKeys

open AudioServer.Foundations.Outcomes AudioServer.Foundations.Strings
open AudioServer.Foundations.Calendar AudioServer.Foundations.Numerals
open AudioServer.Foundations.Trees AudioServer.Foundations.Uuids
open AudioServer.Core.Datetimes AudioServer.Db.Models AudioServer.Services.Storage
open AudioServer.Services.ObjectFiles

abbrev Place := List Text

def storageError : Exn := .other "StorageError"

/-- The first of January 1970. -/
def epochOrdinal : ℤ := 719163

/-- `f"{utc_start:%Y/%m/%d}"`. -/
def dateParts (day : Day) : List Text :=
  let date := fromordinal (day + epochOrdinal).toNat
  [padded 4 date.year, padded 2 date.month, padded 2 date.day]

lemma uuid_lt (n : ℕ) : n % 16 ^ 32 < 16 ^ 32 := Nat.mod_lt _ (by decide)

def uuidText (n : ℕ) : Text := Uuid.text ⟨n % 16 ^ 32, uuid_lt n⟩

def keyText (key : StorageKey) : Text :=
  "recordings/".toList ++ List.intercalate ['/'] (dateParts key.day) ++ '/' ::
    uuidText key.recordingId ++ "/original.".toList ++ key.extension

def workspaceText (jobId : Uuid) : Text := "work/".toList ++ jobId.text

def workText (jobId claimToken : Uuid) : Text :=
  "work/".toList ++ jobId.text ++ '/' :: claimToken.text

/-- `PurePosixPath(key).parts` of a path that is not absolute. -/
def parts (key : Text) : Place := (key.splitOn '/').filter (fun part => part ≠ [] ∧ part ≠ ['.'])

/-- `_resolve_key`, in a tree without symbolic links. -/
def resolveKey (key : Text) : Except Exn Place := do
  require (key.head? ≠ some '/' ∧ ¬ (parts key).contains ['.', '.']) storageError
  .ok (parts key)

def stagingRoot : Place := ["staging".toList]

def deletionRoot : Place := ["staging".toList, "deletions".toList]

def recordingsRoot : Place := ["recordings".toList]

def workRoot : Place := ["work".toList]

/-- The random part of a name of `tempfile.mkstemp`. -/
structure Mkstemp where
  characters : ℕ → Text
  injective : Function.Injective characters

section Places

variable (mkstemp : Mkstemp)

def stagedPlace (name : ℕ) : Place :=
  ["staging".toList, "upload-".toList ++ mkstemp.characters name ++ ".part".toList]

def quarantinePlace (name : ℕ) : Place := deletionRoot ++ [uuidText name ++ ".delete".toList]

def originalPlace (key : StorageKey) : Place :=
  recordingsRoot ++ dateParts key.day ++
    [uuidText key.recordingId, "original.".toList ++ key.extension]

def KeyNamed (key : StorageKey) : Prop :=
  IsDate key.day ∧ key.recordingId < 16 ^ 32 ∧ key.extension.all Char.isAlphanum

def Named : ObjectFiles.Path → Prop
  | .original key => KeyNamed key
  | .staged _ => True
  | .quarantine name => name < 16 ^ 32

instance (key : StorageKey) : Decidable (KeyNamed key) := inferInstanceAs (Decidable (_ ∧ _ ∧ _))

instance : (path : ObjectFiles.Path) → Decidable (Named path)
  | .original key => inferInstanceAs (Decidable (KeyNamed key))
  | .staged _ => .isTrue trivial
  | .quarantine name => inferInstanceAs (Decidable (name < 16 ^ 32))

def placeOf : ObjectFiles.Path → Place
  | .original key => originalPlace key
  | .staged name => stagedPlace mkstemp name
  | .quarantine name => quarantinePlace name

def InWorkspace (place : Place) : Prop :=
  ∃ jobId claimToken : Uuid, ∃ part rest,
    place = workRoot ++ jobId.text :: claimToken.text :: part :: rest

end Places

section Texts

lemma uuidText_inj {m n : ℕ} (hm : m < 16 ^ 32) (hn : n < 16 ^ 32) (h : uuidText m = uuidText n) :
    m = n := by
  have hsame : m % 16 ^ 32 = n % 16 ^ 32 := congrArg Uuid.int (text_inj h)
  rwa [Nat.mod_eq_of_lt hm, Nat.mod_eq_of_lt hn] at hsame

lemma uuid_character {id : Uuid} {c : Char} (h : c ∈ id.text) : c ∈ "0123456789abcdef-".toList := by
  have hhex : ∀ digits n, c ∈ hex digits n → c ∈ "0123456789abcdef-".toList := by
    intro digits n hc
    exact List.mem_append_left ['-'] (hex_graphic digits n c hc)
  simp only [Uuid.text, List.mem_append, List.mem_cons] at h
  rcases h with ((((h | rfl | h) | rfl | h) | rfl | h) | rfl | h)
  · exact hhex _ _ h
  · decide
  · exact hhex _ _ h
  · decide
  · exact hhex _ _ h
  · decide
  · exact hhex _ _ h
  · decide
  · exact hhex _ _ h

lemma ordinal_of_date {day : ℤ} (h : IsDate day) :
    1 ≤ (day + epochOrdinal).toNat ∧ ((day + epochOrdinal).toNat : ℤ) = day + epochOrdinal := by
  have hmin : (-719162 : ℤ) ≤ day := h.1
  simp only [epochOrdinal]
  omega

lemma dateParts_inj {a b : Day} (ha : IsDate a) (hb : IsDate b) (h : dateParts a = dateParts b) :
    a = b := by
  obtain ⟨hyear, hrest⟩ := List.cons.inj h
  obtain ⟨hmonth, hrest⟩ := List.cons.inj hrest
  have hdate : fromordinal (a + epochOrdinal).toNat = fromordinal (b + epochOrdinal).toNat :=
    Date.ext (padded_injective 4 hyear) (padded_injective 2 hmonth)
      (padded_injective 2 (List.singleton_inj.mp hrest))
  obtain ⟨hafirst, hacast⟩ := ordinal_of_date ha
  obtain ⟨hbfirst, hbcast⟩ := ordinal_of_date hb
  have hordinal := congrArg Int.ofNat (fromordinal_inj hafirst hbfirst hdate)
  exact add_right_cancel (hacast.symm.trans (hordinal.trans hbcast))

structure Part (part : Text) : Prop where
  whole : '/' ∉ part
  nonempty : part ≠ []
  here : part ≠ ['.']
  up : part ≠ ['.', '.']

lemma resolveKey_parts {key : Text} {place : Place} (hne : place ≠ [])
    (hplace : ∀ part ∈ place, Part part) (hkey : key = List.intercalate ['/'] place) :
    resolveKey key = .ok place := by
  have hparts : parts key = place := by
    rw [parts, hkey, List.splitOn_intercalate '/' (fun part hpart => (hplace part hpart).whole) hne]
    apply List.filter_eq_self.mpr
    intro part hpart
    simp [(hplace part hpart).nonempty, (hplace part hpart).here]
  have hhead : key.head? ≠ some '/' := by
    obtain ⟨first, rest, rfl⟩ := List.exists_cons_of_ne_nil hne
    have hfirst := hplace first List.mem_cons_self
    obtain ⟨c, text, rfl⟩ := List.exists_cons_of_ne_nil hfirst.nonempty
    have hc : c ≠ '/' := fun h => hfirst.whole (h ▸ List.mem_cons_self)
    rw [hkey]
    cases rest with
    | nil => simpa using hc
    | cons next rest => simpa [List.intercalate_cons_cons] using hc
  have hup : ¬ (parts key).contains ['.', '.'] := by
    rw [hparts]
    exact fun h => (hplace _ (List.contains_iff_mem.mp h)).up rfl
  rw [resolveKey, require_of ⟨hhead, hup⟩, hparts]
  rfl

lemma part_of {part : Text} (hwhole : '/' ∉ part) {c : Char} (hc : c ∈ part) (hdot : c ≠ '.') :
    Part part := by
  refine ⟨hwhole, List.ne_nil_of_mem hc, ?_, ?_⟩
  · rintro rfl
    exact hdot (List.mem_singleton.mp hc)
  · rintro rfl
    simp [hdot] at hc

lemma part_padded (width n : ℕ) : Part (padded width n) := by
  obtain ⟨c, rest, hparts⟩ := List.exists_cons_of_ne_nil (padded_ne_nil width n)
  have hdigit : ∀ {c}, c ∈ padded width n → c.isDigit := padded_digit
  have hc : c ∈ padded width n := by
    rw [hparts]
    exact List.mem_cons_self
  refine part_of (fun hslash => ?_) hc ?_
  · cases hdigit hslash
  · rintro rfl
    cases hdigit hc

lemma part_uuid (id : Uuid) : Part id.text := by
  obtain ⟨c, rest, htext⟩ := List.exists_cons_of_ne_nil (text_ne_nil id)
  have hc : c ∈ id.text := by
    rw [htext]
    exact List.mem_cons_self
  refine part_of (fun hslash => ?_) hc ?_
  · exact absurd (uuid_character hslash) (by decide)
  · rintro rfl
    exact absurd (uuid_character hc) (by decide)

lemma part_original {extension : Text} (h : extension.all Char.isAlphanum) :
    Part ("original.".toList ++ extension) := by
  refine part_of (fun hslash => ?_) (c := 'o') (List.mem_append_left _ (by decide)) (by decide)
  rcases List.mem_append.mp hslash with hname | hextension
  · revert hname
    decide
  · exact absurd (List.all_eq_true.mp h _ hextension) (by decide)

lemma part_date {day : Day} {part : Text} (h : part ∈ dateParts day) : Part part := by
  simp only [dateParts, List.mem_cons, List.not_mem_nil, or_false] at h
  rcases h with rfl | rfl | rfl
  · exact part_padded _ _
  · exact part_padded _ _
  · exact part_padded _ _

lemma joined_key (year month day id extension : Text) :
    "recordings/".toList ++ List.intercalate ['/'] [year, month, day] ++ '/' :: id ++
        "/original.".toList ++ extension =
      List.intercalate ['/']
        ["recordings".toList, year, month, day, id, "original.".toList ++ extension] := by
  have hroot : "recordings/".toList = "recordings".toList ++ ['/'] := rfl
  have hname : "/original.".toList = '/' :: "original.".toList := rfl
  simp only [hroot, hname, List.intercalate_cons_cons, List.intercalate_singleton, List.append_assoc,
    List.cons_append, List.nil_append]

lemma resolve_original {key : StorageKey} (h : KeyNamed key) :
    resolveKey (keyText key) = .ok (originalPlace key) := by
  apply resolveKey_parts
  · exact List.cons_ne_nil _ _
  · intro part hpart
    simp only [originalPlace, recordingsRoot, List.mem_append, List.mem_cons, List.not_mem_nil,
      or_false] at hpart
    rcases hpart with (rfl | hdate) | rfl | rfl
    · exact part_of (by decide) (c := 'r') (by decide) (by decide)
    · exact part_date hdate
    · exact part_uuid _
    · exact part_original h.2.2
  · exact joined_key _ _ _ _ _

lemma joined_workspace (id : Text) :
    "work/".toList ++ id = List.intercalate ['/'] ["work".toList, id] := by
  rw [List.intercalate_cons_cons, List.intercalate_singleton]
  rfl

lemma joined_work (id claim : Text) :
    "work/".toList ++ id ++ '/' :: claim = List.intercalate ['/'] ["work".toList, id, claim] := by
  rw [List.intercalate_cons_cons, List.intercalate_cons_cons, List.intercalate_singleton,
    joined_workspace, List.intercalate_cons_cons, List.intercalate_singleton]
  simp only [List.append_assoc, List.cons_append, List.nil_append]

lemma resolve_workspace (jobId : Uuid) :
    resolveKey (workspaceText jobId) = .ok (workRoot ++ [jobId.text]) := by
  apply resolveKey_parts
  · exact List.cons_ne_nil _ _
  · intro part hpart
    simp only [workRoot, List.mem_append, List.mem_cons, List.not_mem_nil, or_false] at hpart
    rcases hpart with rfl | rfl
    · exact part_of (by decide) (c := 'w') (by decide) (by decide)
    · exact part_uuid _
  · exact joined_workspace _

lemma resolve_work (jobId claimToken : Uuid) :
    resolveKey (workText jobId claimToken) = .ok (workRoot ++ [jobId.text, claimToken.text]) := by
  apply resolveKey_parts
  · exact List.cons_ne_nil _ _
  · intro part hpart
    simp only [workRoot, List.mem_append, List.mem_cons, List.not_mem_nil, or_false] at hpart
    rcases hpart with rfl | rfl | rfl
    · exact part_of (by decide) (c := 'w') (by decide) (by decide)
    · exact part_uuid _
    · exact part_uuid _
  · exact joined_work _ _

end Texts

section Layout

variable {mkstemp : Mkstemp}

lemma length_dateParts (day : Day) : (dateParts day).length = 3 := by
  simp only [dateParts, List.length_cons, List.length_nil]

lemma length_original (key : StorageKey) : (originalPlace key).length = 6 := by
  simp only [originalPlace, recordingsRoot, dateParts, List.length_append, List.length_cons,
    List.length_nil]

lemma length_quarantine (name : ℕ) : (quarantinePlace name).length = 3 := by
  simp only [quarantinePlace, deletionRoot, List.length_append, List.length_cons, List.length_nil]

lemma originalPlace_inj {a b : StorageKey} (ha : KeyNamed a) (hb : KeyNamed b)
    (h : originalPlace a = originalPlace b) : a = b := by
  rw [originalPlace, originalPlace, List.append_assoc, List.append_assoc] at h
  obtain ⟨hdate, hfile⟩ := List.append_inj (List.append_cancel_left h)
    ((length_dateParts a.day).trans (length_dateParts b.day).symm)
  obtain ⟨hid, hname⟩ := List.cons.inj hfile
  have hday := dateParts_inj ha.1 hb.1 hdate
  have hid := uuidText_inj ha.2.1 hb.2.1 hid
  have hextension := List.append_cancel_left (List.singleton_inj.mp hname)
  rcases a with ⟨day, recordingId, extension⟩
  rcases b with ⟨day', recordingId', extension'⟩
  obtain rfl : day = day' := hday
  obtain rfl : recordingId = recordingId' := hid
  obtain rfl : extension = extension' := hextension
  rfl

lemma upload_not_deletions (name : ℕ) :
    "upload-".toList ++ mkstemp.characters name ++ ".part".toList ≠ "deletions".toList := by
  intro h
  exact absurd (List.cons.inj h).1 (by decide)

lemma placeOf_apart {p q : ObjectFiles.Path} (hp : Named p) (hq : Named q)
    (h : placeOf mkstemp p <+: placeOf mkstemp q) : p = q := by
  -- the three kinds have directories of their own, and the files of one kind are equally deep
  cases p with
  | original key =>
    cases q with
    | original other =>
      have hsame := h.eq_of_length ((length_original key).trans (length_original other).symm)
      rw [originalPlace_inj hp hq hsame]
    | staged name => exact absurd (List.cons_prefix_cons.mp h).1 (by decide)
    | quarantine name => exact absurd (List.cons_prefix_cons.mp h).1 (by decide)
  | staged name =>
    cases q with
    | original key => exact absurd (List.cons_prefix_cons.mp h).1 (by decide)
    | staged other =>
      have hname := (List.cons_prefix_cons.mp (List.cons_prefix_cons.mp h).2).1
      rw [mkstemp.injective (List.append_cancel_left (List.append_cancel_right hname))]
    | quarantine other =>
      have hname := (List.cons_prefix_cons.mp (List.cons_prefix_cons.mp h).2).1
      exact absurd hname (upload_not_deletions name)
  | quarantine name =>
    cases q with
    | original key => exact absurd (List.cons_prefix_cons.mp h).1 (by decide)
    | staged other =>
      have hname := (List.cons_prefix_cons.mp (List.cons_prefix_cons.mp h).2).1
      exact absurd hname.symm (upload_not_deletions other)
    | quarantine other =>
      have hsame := h.eq_of_length ((length_quarantine name).trans (length_quarantine other).symm)
      have hfile := (List.append_inj hsame rfl).2
      have hname := List.append_cancel_right (List.singleton_inj.mp hfile)
      rw [uuidText_inj hp hq hname]

lemma two_le_place (mkstemp : Mkstemp) (file : ObjectFiles.Path) : 2 ≤ (placeOf mkstemp file).length := by
  cases file with
  | original key =>
    rw [placeOf, length_original]
    decide
  | staged name => exact le_rfl
  | quarantine name =>
    rw [placeOf, length_quarantine]
    decide

lemma placeOf_root (mkstemp : Mkstemp) (p : ObjectFiles.Path) :
    ∃ root rest, placeOf mkstemp p = root :: rest ∧ root ≠ "work".toList := by
  cases p with
  | original key => exact ⟨_, _, rfl, by decide⟩
  | staged name => exact ⟨_, _, rfl, by decide⟩
  | quarantine name => exact ⟨_, _, rfl, by decide⟩

lemma workspace_apart {p : ObjectFiles.Path} {rest : Place} :
    ¬ "work".toList :: rest <+: placeOf mkstemp p := by
  obtain ⟨root, other, hplace, hroot⟩ := placeOf_root mkstemp p
  rw [hplace]
  exact fun h => hroot (List.cons_prefix_cons.mp h).1.symm

lemma place_apart {p : ObjectFiles.Path} {rest : Place} :
    ¬ placeOf mkstemp p <+: "work".toList :: rest := by
  obtain ⟨root, other, hplace, hroot⟩ := placeOf_root mkstemp p
  rw [hplace]
  exact fun h => hroot (List.cons_prefix_cons.mp h).1

def placed (mkstemp : Mkstemp) (path : ObjectFiles.Path) : Option Place :=
  if Named path then some (placeOf mkstemp path) else none

lemma placed_some {path : ObjectFiles.Path} {place : Place} :
    placed mkstemp path = some place ↔ Named path ∧ placeOf mkstemp path = place := by
  rw [placed]
  split
  · rename_i h
    simp [h]
  · rename_i h
    simp [h]

lemma placed_named {path : ObjectFiles.Path} (h : Named path) :
    placed mkstemp path = some (placeOf mkstemp path) := placed_some.mpr ⟨h, rfl⟩

lemma placed_apart {p q : ObjectFiles.Path} {a b : Place} (hp : placed mkstemp p = some a)
    (hq : placed mkstemp q = some b) (h : a <+: b) : p = q := by
  obtain ⟨hpnamed, rfl⟩ := placed_some.mp hp
  obtain ⟨hqnamed, rfl⟩ := placed_some.mp hq
  exact placeOf_apart hpnamed hqnamed h

lemma placed_clear {p : ObjectFiles.Path} {a b : Place} (hp : placed mkstemp p = some a)
    (hb : InWorkspace b) : ¬ b <+: a := by
  obtain ⟨_, rfl⟩ := placed_some.mp hp
  obtain ⟨jobId, claimToken, part, rest, rfl⟩ := hb
  exact workspace_apart

def layout (mkstemp : Mkstemp) : Layout ObjectFiles.Path Text where
  place := placed mkstemp
  room := InWorkspace
  apart := placed_apart
  clear := placed_clear

lemma originalStorageKey_named {id : RecordingId} {startedAt : Instant} {extension : MediaExtension}
    {key : StorageKey} (hid : id < 16 ^ 32)
    (h : originalStorageKey id startedAt extension = .ok key) : KeyNamed key := by
  obtain ⟨hstart, rfl⟩ := originalStorageKey_ok.mp h
  exact ⟨hstart.date, hid, (keyExtension_accepted extension).2.1⟩

end Layout

end AudioServer.Services.StorageKeys
