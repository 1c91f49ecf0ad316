import Mathlib.Data.Multiset.AddSub
import Notifkit.Foundations.Json
import Notifkit.Foundations.Upserts

/-!
# The tables of users

A user is found by its project and the id the project gave it. What the project said of it lies in
five tables: its attributes, which are one JSON object, its segments, its preferences by topic and
by channel, and its quiet hours, which are several rows in no order.

The other tables name a user by the id of its row. Which id a row has, or will be given, is a
function of its key here; rows of users are only ever added by the statements below, so that says
nothing but that no two rows share one.
-/

namespace Notifkit.Repositories

open Upserts

/-- The id of a row. -/
structure Uuid where
  text : Text
  plain : ':' ∉ text := by decide
deriving DecidableEq

/-- Ids are told apart by their texts. -/
theorem Uuid.eq_of_text {first second : Uuid} (same : first.text = second.text) :
    first = second := by
  obtain ⟨text, plain⟩ := first
  obtain ⟨text', plain'⟩ := second
  obtain rfl : text = text' := same
  rfl

/-- An id and a text, put together with a colon. -/
def Uuid.beside (pair : Uuid × Text) : Text := pair.1.text ++ ':' :: pair.2

/-- The id ends at the first colon. -/
theorem Uuid.beside_injective : Function.Injective beside := by
  rintro ⟨⟨id, plain⟩, text⟩ ⟨⟨id', plain'⟩, text'⟩ same
  obtain ⟨rfl, rfl⟩ := first_mark plain plain' same
  rfl

/-- A window of quiet hours. -/
structure QuietWindow where
  startTime : Text
  endTime : Text
deriving DecidableEq

/-- An object with boolean values, which has each of its keys once. -/
structure Choices where
  entries : List (Text × Bool) := []
  distinct : (entries.map Prod.fst).Nodup := by first | exact List.nodup_nil | decide
deriving DecidableEq

/-- Preferences, each absent where the request leaves it out. -/
structure Preferences where
  channels : Option Choices := none
  topics : Option Choices := none
  quietHours : Option (List QuietWindow) := none
deriving DecidableEq

/-- What is known of a user under a name, absent where the JSON object has no such key. -/
abbrev Attributes := Text → Option Json

/-- The attributes an entry gives; keys that are `undefined` are left out of the JSON. -/
def givenAttributes (language timezone : Option Text) (email : Option (Option Text)) : Attributes :=
  fun name =>
    if name = "language".toList then language.map Json.str
    else if name = "timezone".toList then timezone.map Json.str
    else if name = "email".toList then email.map fun email => (email.map Json.str).getD .null
    else none

/-- The ids of the rows of users. -/
structure UserIds where
  uuid : Text → Text → Uuid
  apart : ∀ projectId userId projectId' userId', uuid projectId userId = uuid projectId' userId' →
    projectId = projectId' ∧ userId = userId'

/-- A text in strokes: as many for each character as its code, and a point after them. -/
def strokes (text : Text) : Text :=
  text.flatMap fun char => List.replicate char.toNat '|' ++ ['.']

theorem strokes_plain {mark : Char} (stroke : mark ≠ '|') (point : mark ≠ '.') (text : Text) :
    mark ∉ strokes text := by
  simp [strokes, stroke, point]

theorem strokes_injective : Function.Injective strokes := by
  intro text text' same
  induction text generalizing text' with
  | nil =>
    cases text' with
    | nil => rfl
    | cons char' rest' => simp [strokes] at same
  | cons char rest inductionHypothesis =>
    cases text' with
    | nil => simp [strokes] at same
    | cons char' rest' =>
      have cut : ∀ (char : Char) (rest : Text), strokes (char :: rest) =
          List.replicate char.toNat '|' ++ '.' :: strokes rest := by
        intro char rest
        simp [strokes]
      have bare : ∀ count : Nat, '.' ∉ List.replicate count '|' := fun _ => by simp
      rw [cut, cut] at same
      obtain ⟨codes, rests⟩ := first_mark (bare _) (bare _) same
      have code : char.toNat = char'.toNat := by simpa using congrArg List.length codes
      rw [inductionHypothesis rests, Char.toNat_inj.mp code]

/-- Ids that spell out the key of their row. -/
def spelledIds : UserIds where
  uuid projectId userId := {
    text := strokes projectId ++ '/' :: strokes userId
    plain := by simp [strokes_plain] }
  apart := by
    intro projectId userId projectId' userId' same
    obtain ⟨project, user⟩ := first_mark (strokes_plain (by decide) (by decide) _)
      (strokes_plain (by decide) (by decide) _) (congrArg Uuid.text same)
    exact ⟨strokes_injective project, strokes_injective user⟩

@[ext]
structure UserTables where
  /-- `users`, by project and external id -/
  users : Table (Text × Text) Attributes := fun _ => none
  segments : Uuid × Text → Bool := fun _ => false
  topics : Table (Uuid × Text) Bool := fun _ => none
  channels : Table (Uuid × Text) Bool := fun _ => none
  quietHours : Uuid → Multiset QuietWindow := fun _ => 0

/-- A user with a language and a timezone. -/
def storedUser : UserTables where
  users := fun key =>
    if key = ("p".toList, "u".toList) then
      some (givenAttributes (some "en".toList) (some "UTC".toList) none)
    else none

/-- `attributes || excluded.attributes`: what is given takes the place of what is stored. -/
def mergeAttributes (stored excluded : Attributes) : Attributes :=
  fun name => (excluded name).or (stored name)

/-- `ON CONFLICT DO NOTHING` for rows that are their key. -/
def insertMissing {κ : Type} [DecidableEq κ] (rows : List κ) (table : κ → Bool) : κ → Bool :=
  fun key => table key || decide (key ∈ rows)

theorem insertMissing_nil {κ : Type} [DecidableEq κ] (table : κ → Bool) :
    insertMissing [] table = table := by
  funext key
  simp [insertMissing]

end Notifkit.Repositories
