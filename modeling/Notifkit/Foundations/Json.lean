import Notifkit.Foundations.Text

/-!
# JSON values and how the language reads them

A value is what parsing leaves: numbers are finite and stand for themselves, texts are
character lists, and an object's keys are distinct. The operations are the ones a loosely
typed reader uses: whether a value counts as true, what a property access finds, and the
strict comparison. Members inherited from a prototype are no data and are left out.
-/

namespace Notifkit

/-- A JSON value. -/
inductive Json where
  | null
  | bool (value : Bool)
  | num (value : Rat)
  | str (text : Text)
  | arr (items : List Json)
  | obj (fields : List (Text × Json))

namespace Json

mutual

/-- Equality of values can be computed. -/
def decEq : (first second : Json) → Decidable (first = second)
  | .null, .null => .isTrue rfl
  | .bool first, .bool second => decidable_of_iff (first = second) (by simp)
  | .num first, .num second => decidable_of_iff (first = second) (by simp)
  | .str first, .str second => decidable_of_iff (first = second) (by simp)
  | .arr first, .arr second =>
    have := decEqItems first second
    decidable_of_iff (first = second) (by simp)
  | .obj first, .obj second =>
    have := decEqFields first second
    decidable_of_iff (first = second) (by simp)
  | .null, .bool _ | .null, .num _ | .null, .str _ | .null, .arr _ | .null, .obj _
  | .bool _, .null | .bool _, .num _ | .bool _, .str _ | .bool _, .arr _ | .bool _, .obj _
  | .num _, .null | .num _, .bool _ | .num _, .str _ | .num _, .arr _ | .num _, .obj _
  | .str _, .null | .str _, .bool _ | .str _, .num _ | .str _, .arr _ | .str _, .obj _
  | .arr _, .null | .arr _, .bool _ | .arr _, .num _ | .arr _, .str _ | .arr _, .obj _
  | .obj _, .null | .obj _, .bool _ | .obj _, .num _ | .obj _, .str _ | .obj _, .arr _ =>
    .isFalse nofun

/-- Equality of the items of lists. -/
def decEqItems : (first second : List Json) → Decidable (first = second)
  | [], [] => .isTrue rfl
  | head :: rest, head' :: rest' =>
    have := decEq head head'
    have := decEqItems rest rest'
    decidable_of_iff (head = head' ∧ rest = rest') (by simp)
  | [], _ :: _ | _ :: _, [] => .isFalse nofun

/-- Equality of the fields of objects. -/
def decEqFields : (first second : List (Text × Json)) → Decidable (first = second)
  | [], [] => .isTrue rfl
  | (key, value) :: rest, (key', value') :: rest' =>
    have := decEq value value'
    have := decEqFields rest rest'
    decidable_of_iff (key = key' ∧ value = value' ∧ rest = rest') (by simp [and_assoc])
  | [], _ :: _ | _ :: _, [] => .isFalse nofun

end

instance : DecidableEq Json := decEq

/-- An object without fields. -/
def empty : Json := .obj []

/-- The value is `null`. -/
def isNull : Json → Bool
  | .null => true
  | _ => false

/-- `typeof value === "object"` and not null: an object or an array. -/
def isObject : Json → Bool
  | .arr _ | .obj _ => true
  | _ => false

/-- Whether a condition takes the value for true. -/
def truthy : Json → Bool
  | .null => false
  | .bool value => value
  | .num value => value ≠ 0
  | .str text => !text.isEmpty
  | .arr _ | .obj _ => true

/-- The item whose position reads as the key. -/
def item (items : List Json) (key : Text) : Option Json :=
  (List.range items.length).findSome? fun position =>
    if (toString position).toList = key then items[position]? else none

/-- The value of a property, absent where it is `undefined`. -/
def property : Json → Text → Option Json
  | .obj fields, key => (fields.find? fun field => field.1 = key).map Prod.snd
  | .arr items, key => if key = "length".toList then some (.num items.length) else item items key
  | .str text, key =>
    if key = "length".toList then some (.num text.length)
    else item (text.map fun char => .str [char]) key
  | _, _ => none

/-- `Object.entries`: the own properties with their values. -/
def entries : Json → List (Text × Json)
  | .obj fields => fields
  | .arr items => items.mapIdx fun position value => ((toString position).toList, value)
  | _ => []

/-- The strict comparison `===`. Arrays and objects are compared by identity, and two values
parsed apart are never identical. -/
def strictEq : Json → Json → Bool
  | .null, .null => true
  | .bool first, .bool second => first = second
  | .num first, .num second => first = second
  | .str first, .str second => first = second
  | _, _ => false

/-- Only `null` is null. -/
theorem isNull_iff {value : Json} : value.isNull = true ↔ value = .null := by
  cases value <;> simp [isNull]

end Json

end Notifkit
