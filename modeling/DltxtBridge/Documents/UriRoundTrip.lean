import DltxtBridge.Documents.Uri
import DltxtBridge.FsPath.Spelling

namespace DltxtBridge.Documents

open FsPath

def startsWithDrive : Bytes → Bool
  | drive :: 58 :: _ => isAlpha drive
  | _ => false

lemma startsWithDrive_append_separator (name rest : Bytes) :
    startsWithDrive (name ++ 47 :: rest) = startsWithDrive name := by
  rcases name with _ | ⟨drive, _ | ⟨ch, name⟩⟩
  · cases rest with
    | nil => rfl
    | cons ch rest => by_cases hcolon : ch = 58 <;> simp [startsWithDrive, hcolon, isAlpha]
  · rfl
  · by_cases hcolon : ch = 58 <;> simp [startsWithDrive, hcolon]

lemma startsWithDrive_intercalate (names : List Bytes) :
    startsWithDrive (List.intercalate [47] names) = names.head?.any startsWithDrive := by
  cases names with
  | nil => rfl
  | cons name names =>
    rcases eq_or_ne names [] with rfl | hne
    · rw [List.intercalate_singleton]
      rfl
    · rw [show name :: names = [name] ++ names from rfl,
        Segments.intercalate_append (List.cons_ne_nil _ _) hne, List.intercalate_singleton,
        List.append_assoc, List.singleton_append, startsWithDrive_append_separator]
      rfl

lemma dropDriveSeparator_cons (text : Bytes) :
    dropDriveSeparator (47 :: text) = if startsWithDrive text then text else 47 :: text := by
  rcases text with _ | ⟨drive, _ | ⟨ch, rest⟩⟩
  · rfl
  · rfl
  · by_cases hcolon : ch = 58 <;> simp [startsWithDrive, dropDriveSeparator, hcolon]

lemma rootDirectory_of_drive {text : Bytes} (h : startsWithDrive text = true) :
    (ofBytes text).rootDirectory ≠ true := by
  rw [ofBytes, ne_eq, decide_eq_true_iff]
  intro hhead
  obtain ⟨rest, rfl⟩ := List.head?_eq_some_iff.mp hhead
  cases rest with
  | nil => cases h
  | cons ch rest => by_cases hcolon : ch = 58 <;> simp [startsWithDrive, hcolon, isAlpha] at h

def RoundTrips (p : FsPath) : Prop :=
  filePathFromUri (fileUriFromPath p) = p ∧ ∀ text : Bytes, percentDecode (percentEncode text) = text

/-- The separator in front of a drive letter is dropped on every platform. -/
theorem roundTrips_iff (text : Bytes) (habsolute : (ofBytes text).rootDirectory = true)
    (hnormal : (ofBytes text).lexicallyNormal = ofBytes text) :
    RoundTrips (ofBytes text) ↔ ∀ name ∈ (ofBytes text).elements.head?, ¬ startsWithDrive name := by
  have hread := ofBytes_genericString_of_spelled (spelled_ofBytes text)
  have hgeneric : (ofBytes text).genericString = 47 :: List.intercalate [47] (ofBytes text).elements := by
    rw [genericString, if_pos habsolute]
    rfl
  have hdrive : (∀ name ∈ (ofBytes text).elements.head?, ¬ startsWithDrive name) ↔
      startsWithDrive (List.intercalate [47] (ofBytes text).elements) = false := by
    rw [startsWithDrive_intercalate, Option.any_eq_false]
    simp only [Bool.not_eq_true, Option.mem_def]
  rw [RoundTrips, and_iff_left percentDecode_percentEncode, filePathFromUri_fileUriFromPath, hnormal, hdrive,
    hgeneric, dropDriveSeparator_cons]
  cases hstart : startsWithDrive (List.intercalate [47] (ofBytes text).elements) with
  | false =>
    rw [if_neg (by simp), ← hgeneric, hread]
    simp
  | true =>
    rw [if_pos rfl]
    simp only [Bool.true_eq_false, iff_false]
    intro hsame
    rw [← hsame] at habsolute
    exact rootDirectory_of_drive hstart habsolute

theorem roundTrips_percent : RoundTrips (ofBytes (ascii "/w/c:/100%.txt")) :=
  (roundTrips_iff _ (by decide) (by decide)).mpr (by decide)

theorem drive_does_not_round_trip :
    ¬ ∀ text : Bytes, (ofBytes text).rootDirectory = true → (ofBytes text).lexicallyNormal = ofBytes text →
      RoundTrips (ofBytes text) := by
  intro h
  have hpath := (h (ascii "/c:/a.txt") (by decide) (by decide)).1
  revert hpath
  decide

end DltxtBridge.Documents
