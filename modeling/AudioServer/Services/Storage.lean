import AudioServer.Core.Datetimes
import Mathlib.Logic.Function.Basic

/-! The original audio files of the local storage backend. A hard link publishes
a staged file under its key and never replaces one that is there. -/

namespace AudioServer.Services.Storage

open AudioServer.Foundations.Outcomes AudioServer.Foundations.Strings AudioServer.Core.Datetimes
open AudioServer.Db.Models

/-- What `_file_identity` reads off a file. -/
structure Object where
  fileSize : ℕ
  sha256 : Text
deriving DecidableEq

abbrev Objects := StorageKey → Option Object

def linkOriginal (objects : Objects) (key : StorageKey) (staged : Object) : Option Objects :=
  if (objects key).isSome then none else some (Function.update objects key (some staged))

def compareOriginal (objects : Objects) (key : StorageKey) (staged : Object) : Except Exn Unit := do
  let existing ← found (objects key) .fileNotFound
  require (existing = staged) .storageConflict

def deleteOriginal (objects : Objects) (key : StorageKey) : Objects :=
  Function.update objects key none

/-- The extensions of `_validated_media_identity`, which every probed file has one of. -/
inductive MediaExtension
  | wav | flac | m4a | aac | opus | webm | mp3
deriving DecidableEq

def MediaExtension.text : MediaExtension → Text
  | .wav => ".wav".toList
  | .flac => ".flac".toList
  | .m4a => ".m4a".toList
  | .aac => ".aac".toList
  | .opus => ".opus".toList
  | .webm => ".webm".toList
  | .mp3 => ".mp3".toList

def keyExtension (detectedExtension : MediaExtension) : Text :=
  (detectedExtension.text.map Char.toLower).dropWhile (· = '.')

def originalStorageKey (id : RecordingId) (startedAt : Instant) (detectedExtension : MediaExtension) :
    Except Exn StorageKey := do
  let utcStart ← datetime startedAt
  let extension := keyExtension detectedExtension
  require (extension ≠ [] ∧ extension.all Char.isAlphanum ∧ extension.length ≤ 8)
    (.other "StorageError")
  .ok ⟨utcStart / dayLength, id, extension⟩

lemma keyExtension_accepted (e : MediaExtension) :
    keyExtension e ≠ [] ∧ (keyExtension e).all Char.isAlphanum ∧ (keyExtension e).length ≤ 8 := by
  cases e <;> decide

lemma originalStorageKey_ok {id : RecordingId} {startedAt : Instant} {e : MediaExtension}
    {key : StorageKey} : originalStorageKey id startedAt e = .ok key ↔
      IsDatetime startedAt ∧ key = ⟨startedAt / dayLength, id, keyExtension e⟩ := by
  constructor
  · intro h
    obtain ⟨utcStart, hutc, h⟩ := bind_ok h
    obtain ⟨hrange, rfl⟩ := datetime_ok.mp hutc
    obtain ⟨_, _, h⟩ := bind_ok h
    cases h
    exact ⟨hrange, rfl⟩
  · rintro ⟨hrange, rfl⟩
    rw [originalStorageKey, datetime_ok.mpr ⟨hrange, rfl⟩]
    simp only [ok_bind, require_of (keyExtension_accepted e)]

lemma linkOriginal_some {objects objects' : Objects} {key : StorageKey} {staged : Object}
    (h : linkOriginal objects key staged = some objects') :
    objects key = none ∧ objects' = Function.update objects key (some staged) := by
  rw [linkOriginal] at h
  split at h
  · cases h
  · rename_i habsent
    cases h
    exact ⟨by simpa using habsent, rfl⟩

lemma linkOriginal_none {objects : Objects} {key : StorageKey} {staged : Object}
    (h : linkOriginal objects key staged = none) : (objects key).isSome := by
  rw [linkOriginal] at h
  split at h
  · assumption
  · cases h

lemma compareOriginal_ok {objects : Objects} {key : StorageKey} {staged : Object} {u : Unit}
    (h : compareOriginal objects key staged = .ok u) : objects key = some staged := by
  obtain ⟨existing, he, hsame⟩ := bind_ok h
  have hexisting := found_ok.mp he
  rw [require_ok.mp hsame] at hexisting
  exact hexisting

@[simp] lemma deleteOriginal_same (objects : Objects) (key : StorageKey) :
    deleteOriginal objects key key = none := by
  rw [deleteOriginal, Function.update_self]

lemma deleteOriginal_other {objects : Objects} {key other : StorageKey} (h : other ≠ key) :
    deleteOriginal objects key other = objects other := by
  rw [deleteOriginal, Function.update_of_ne h]

end AudioServer.Services.Storage
