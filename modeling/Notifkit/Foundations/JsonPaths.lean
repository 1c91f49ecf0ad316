import Notifkit.Foundations.Json

/-!
# Paths into JSON data

Inside the data a path goes from an object to one of its fields and from an array to one of
its items. A loosely typed reader goes further: a value has properties that are no data, such
as a length, a character or a member of a prototype, and these lead to objects of the language
that are no JSON. What there is beyond the data is a parameter here. And a reader that asks
each value whether it counts as true before it goes on stops early at one that does not.

Where the reader comes to an expected value, the path leads to it inside the data, or it has
strayed: it has left the data and came to an equal value outside, or stopped at one.
-/

namespace Notifkit.Json

/-- The value of a member: a field of an object or an item of an array. An array's length is no
item. -/
def member : Json → Text → Option Json
  | .obj fields, key => (fields.find? fun field => field.1 = key).map Prod.snd
  | .arr items, key => if key = "length".toList then none else item items key
  | _, _ => none

/-- The value a path leads to inside the data. -/
def follow (value : Json) : List Text → Option Json
  | [] => some value
  | part :: rest => (value.member part).bind fun next => next.follow rest

mutual

/-- Equality of values as JSON: the fields of objects stand in no order. -/
def deepEq : Json → Json → Bool
  | .obj fields, .obj others => fields.length = others.length && deepEqFields fields others
  | .arr items, .arr others => deepEqItems items others
  | value, other => value.strictEq other

/-- Each field is one of the others, with an equal value. -/
def deepEqFields : List (Text × Json) → List (Text × Json) → Bool
  | [], _ => true
  | (key, value) :: rest, others =>
    (match (others.find? fun field => field.1 = key) with
      | some field => deepEq value field.2
      | none => false) && deepEqFields rest others

/-- Equality of items in their order. -/
def deepEqItems : List Json → List Json → Bool
  | [], [] => true
  | value :: rest, other :: others => deepEq value other && deepEqItems rest others
  | _, _ => false

end

/-- Values that are neither objects nor arrays are equal where they are strictly equal. -/
theorem deepEq_plain {value expected : Json} (plain : expected.isObject = false) :
    value.deepEq expected = value.strictEq expected := by
  cases expected with
  | arr | obj => cases plain
  | _ => cases value <;> rfl

/-- Nothing is strictly equal to an object or an array. -/
theorem strictEq_object {value expected : Json} (object : expected.isObject = true) :
    value.strictEq expected = false := by
  cases expected with
  | arr | obj => cases value <;> rfl
  | _ => cases object

/-- A value with members counts as true. -/
theorem truthy_of_member {value next : Json} {key : Text} (found : value.member key = some next) :
    value.truthy = true := by
  cases value with
  | arr | obj => rfl
  | _ => cases found

/-- What a reader can come to: data, or an object of the language. -/
inductive Value (Native : Type) where
  | data (value : Json)
  | native (object : Native)

/-- The strict comparison of what a reader came to with an expected JSON value. -/
def identical {Native : Type} (value : Option (Value Native)) (expected : Json) : Bool :=
  match value with
  | some (.data value) => value.strictEq expected
  | some (.native _) | none => false

/-- What the language knows beyond the data: properties of a value that are none of its members,
and its own objects. -/
structure Beyond (Native : Type) where
  ofData : Json → Text → Option (Value Native)
  ofNative : Native → Text → Option (Value Native)
  truthy : Native → Bool

namespace Beyond

variable {Native : Type} (beyond : Beyond Native)

/-- A property as the language finds it: a member of the data comes before anything beyond it. -/
def property : Value Native → Text → Option (Value Native)
  | .data value, key =>
    match value.member key with
    | some next => some (.data next)
    | none => beyond.ofData value key
  | .native object, key => beyond.ofNative object key

/-- Whether a condition takes a value for true. -/
def isTruthy : Value Native → Bool
  | .data value => value.truthy
  | .native object => beyond.truthy object

/-- One step of a reader, which stays at a value that does not count as true. -/
def advance (value : Option (Value Native)) (part : Text) : Option (Value Native) :=
  value.bind fun value => if beyond.isTruthy value then beyond.property value part else some value

/-- Where a reader comes to along a path. -/
def walk (value : Option (Value Native)) (parts : List Text) : Option (Value Native) :=
  parts.foldl beyond.advance value

/-- A reader goes astray: the path leaves the data at a value, and the reader stays there, since
it does not count as true, and finds it equal to the expected one, or goes on beyond the data
and comes to an equal one. -/
def Strays (value : Json) (parts : List Text) (expected : Json) : Prop :=
  ∃ inside part rest last, parts = inside ++ part :: rest ∧ value.follow inside = some last ∧
    last.member part = none ∧
    if last.truthy then identical (beyond.walk (beyond.ofData last part) rest) expected = true
    else last.strictEq expected = true

variable {beyond}

/-- A reader that has found nothing finds nothing. -/
theorem walk_none (parts : List Text) : beyond.walk none parts = none := by
  induction parts with
  | nil => rfl
  | cons part rest inductionHypothesis => exact inductionHypothesis

/-- A reader stays at a value that does not count as true. -/
theorem walk_stays {value : Json} (stays : value.truthy = false) (parts : List Text) :
    beyond.walk (some (.data value)) parts = some (.data value) := by
  induction parts with
  | nil => rfl
  | cons part rest inductionHypothesis =>
    have step : beyond.advance (some (.data value)) part = some (.data value) := by
      simp [advance, isTruthy, stays]
    rw [walk, List.foldl_cons, step]
    exact inductionHypothesis

/-- Inside the data a reader goes on to the member. -/
theorem walk_member {value next : Json} {part : Text} (found : value.member part = some next)
    (rest : List Text) :
    beyond.walk (some (.data value)) (part :: rest) = beyond.walk (some (.data next)) rest := by
  have step : beyond.advance (some (.data value)) part = some (.data next) := by
    simp [advance, isTruthy, truthy_of_member found, property, found]
  rw [walk, List.foldl_cons, step]
  rfl

/-- Where a value has no such member, a reader that does not stop goes on beyond the data. -/
theorem walk_leaves {value : Json} {part : Text} (truthy : value.truthy = true)
    (missing : value.member part = none) (rest : List Text) :
    beyond.walk (some (.data value)) (part :: rest) =
      beyond.walk (beyond.ofData value part) rest := by
  have step : beyond.advance (some (.data value)) part = beyond.ofData value part := by
    simp [advance, isTruthy, truthy, property, missing]
  rw [walk, List.foldl_cons, step]
  rfl

/-- What goes astray behind a member goes astray at the value it is a member of, and a path whose
first part is a member goes astray only behind it. -/
theorem strays_member {value next expected : Json} {part : Text} {rest : List Text}
    (found : value.member part = some next) :
    beyond.Strays value (part :: rest) expected ↔ beyond.Strays next rest expected := by
  constructor
  · rintro ⟨inside, first, behind, last, same, leads, missing, outside⟩
    cases inside with
    | nil =>
      obtain ⟨rfl, rfl⟩ := List.cons.inj same
      obtain rfl : value = last := Option.some.inj leads
      rw [found] at missing
      cases missing
    | cons head inside =>
      obtain ⟨rfl, rfl⟩ := List.cons.inj same
      have leads : next.follow inside = some last := by simpa [follow, found] using leads
      exact ⟨inside, first, behind, last, rfl, leads, missing, outside⟩
  · rintro ⟨inside, first, behind, last, rfl, leads, missing, outside⟩
    exact ⟨part :: inside, first, behind, last, rfl, by simpa [follow, found] using leads, missing,
      outside⟩

/-- A path whose first part is no member goes astray there. -/
theorem strays_missing {value expected : Json} {part : Text} {rest : List Text}
    (missing : value.member part = none) :
    beyond.Strays value (part :: rest) expected ↔
      if value.truthy then identical (beyond.walk (beyond.ofData value part) rest) expected = true
      else value.strictEq expected = true := by
  constructor
  · rintro ⟨inside, first, behind, last, same, leads, _, outside⟩
    cases inside with
    | nil =>
      obtain ⟨rfl, rfl⟩ := List.cons.inj same
      obtain rfl : value = last := Option.some.inj leads
      exact outside
    | cons head inside =>
      obtain ⟨rfl, rfl⟩ := List.cons.inj same
      simp [follow, missing] at leads
  · exact fun outside => ⟨[], part, rest, value, rfl, rfl, missing, outside⟩

/-- A path without parts does not leave the data. -/
theorem not_strays_nil {value expected : Json} : ¬ beyond.Strays value [] expected := by
  rintro ⟨inside, part, rest, last, same, _⟩
  simp at same

/-- A reader comes to an expected value where the path leads to it inside the data, or where it
goes astray. -/
theorem walk_identical_iff {value expected : Json} {parts : List Text} :
    identical (beyond.walk (some (.data value)) parts) expected = true ↔
      (∃ found, value.follow parts = some found ∧ found.strictEq expected = true) ∨
        beyond.Strays value parts expected := by
  induction parts generalizing value with
  | nil => simp [walk, identical, follow, not_strays_nil]
  | cons part rest inductionHypothesis =>
    cases found : value.member part with
    | some next =>
      rw [walk_member found, inductionHypothesis, strays_member found]
      simp [follow, found]
    | none =>
      rw [strays_missing found]
      cases truthy : value.truthy with
      | true => simp [walk_leaves truthy found, follow, found]
      | false => simp [walk_stays truthy, identical, follow, found]

/-- A reader that goes astray has not come to the value inside the data. -/
theorem Strays.follow {value expected : Json} {parts : List Text}
    (strays : beyond.Strays value parts expected) : value.follow parts = none := by
  induction parts generalizing value with
  | nil => exact absurd strays not_strays_nil
  | cons part rest inductionHypothesis =>
    cases found : value.member part with
    | some next =>
      have behind := inductionHypothesis ((strays_member found).mp strays)
      simp [Json.follow, found, behind]
    | none => simp [Json.follow, found]

/-- What a reader comes to outside the data is no object and no array. -/
theorem Strays.plain {value expected : Json} {parts : List Text}
    (strays : beyond.Strays value parts expected) : expected.isObject = false := by
  by_contra object
  rw [Bool.not_eq_false] at object
  obtain ⟨_, _, _, last, _, _, _, outside⟩ := strays
  split at outside
  next =>
    unfold identical at outside
    split at outside
    next => simp [strictEq_object object] at outside
    next => cases outside
    next => cases outside
  next => simp [strictEq_object object] at outside

end Beyond

end Notifkit.Json
