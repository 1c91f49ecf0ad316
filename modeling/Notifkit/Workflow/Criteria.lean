import Notifkit.Foundations.JsonPaths
import Notifkit.Workflow.Events

/-!
# Events and the criteria of a waiter

A waiter names values its event must have, under dotted paths. The event worker walks each
path through the event's data and compares what it comes to by identity. So an object or an
array as an expected value is never met. And the walk does not end where the data does: it
stops at a value that does not count as true and compares that one, and it goes on to lengths,
characters and inherited members.

A pair of the criteria is decided otherwise than by the data alone in just these two ways. The
whole criteria are, unless another pair fails both by the data and by the walk, or the two ways
are both taken and each makes the criteria fail on its side.
-/

namespace Notifkit.Workflow

open Json

variable {Native : Type} {beyond : Beyond Native}

/-- What the event worker compares with the expected value of a key, given what the language
knows beyond the data. -/
def dataValueIn (beyond : Beyond Native) (data : Json) (key : Text) : Option (Value Native) :=
  if '.' ∈ key then beyond.walk (some (.data data)) (key.splitOn '.')
  else beyond.property (.data data) key

/-- The data meets the criteria. -/
def meetsIn (beyond : Beyond Native) (criteria data : Json) : Bool :=
  !criteria.isObject || criteria.entries.all fun (key, expected) =>
    identical (dataValueIn beyond data key) expected

/-- The pair holds of the data: the dotted path leads to a value equal to the expected one. -/
def PairHolds (data : Json) (pair : Text × Json) : Prop :=
  ∃ found, data.follow (pair.1.splitOn '.') = some found ∧ found.deepEq pair.2 = true

/-- The pair holds, and what it expects is an object or an array. -/
def PairComposite (data : Json) (pair : Text × Json) : Prop :=
  pair.2.isObject = true ∧ PairHolds data pair

/-- The walk of the pair leaves the data and comes to a value identical to the expected one. -/
def PairStrays (beyond : Beyond Native) (data : Json) (pair : Text × Json) : Prop :=
  beyond.Strays data (pair.1.splitOn '.') pair.2

/-- The data of an event counts as true. -/
theorem Event.data_truthy (event : Event) : event.data.truthy = true := by
  unfold Event.data
  split
  next object =>
    cases payload : event.payload with
    | arr | obj => rfl
    | _ => simp [payload, isObject] at object
  next => rfl

/-- A key without dots is a path of one part. -/
theorem dataValueIn_eq_walk {data : Json} (truthy : data.truthy = true) (key : Text) :
    dataValueIn beyond data key = beyond.walk (some (.data data)) (key.splitOn '.') := by
  unfold dataValueIn
  split
  next => rfl
  next plain =>
    rw [List.splitOn_eq_singleton plain]
    simp [Beyond.walk, Beyond.advance, Beyond.isTruthy, truthy]

/-- The worker takes a pair for met where its plain value is found by the data, or its walk
strays. -/
theorem identical_iff {data : Json} (truthy : data.truthy = true) (pair : Text × Json) :
    identical (dataValueIn beyond data pair.1) pair.2 = true ↔
      (PairHolds data pair ∧ pair.2.isObject = false) ∨ PairStrays beyond data pair := by
  rw [dataValueIn_eq_walk truthy, Beyond.walk_identical_iff]
  refine or_congr_left ?_
  cases object : pair.2.isObject with
  | true => simp [strictEq_object object]
  | false => simp [PairHolds, deepEq_plain object]

/-- A pair whose walk strays does not hold of the data. -/
theorem PairStrays.not_holds {data : Json} {pair : Text × Json}
    (strays : PairStrays beyond data pair) : ¬ PairHolds data pair := by
  rintro ⟨found, leads, _⟩
  have left := Beyond.Strays.follow strays
  rw [leads] at left
  cases left

/-- The event worker matches an event as the pairs of the criteria ask, exactly where some pair
fails by the data and by the walk, or a pair that expects an object or an array holds just in
case the walk of a pair strays. -/
theorem criteria_match_iff (beyond : Beyond Native) (criteria : List (Text × Json))
    (event : Event) :
    (meetsIn beyond (.obj criteria) event.data = true ↔
        ∀ pair ∈ criteria, PairHolds event.data pair) ↔
      (∃ pair ∈ criteria, ¬ PairHolds event.data pair ∧ ¬ PairStrays beyond event.data pair) ∨
        ((∃ pair ∈ criteria, PairComposite event.data pair) ↔
          ∃ pair ∈ criteria, PairStrays beyond event.data pair) := by
  have meets : meetsIn beyond (.obj criteria) event.data = true ↔ ∀ pair ∈ criteria,
      (PairHolds event.data pair ∧ pair.2.isObject = false) ∨
        PairStrays beyond event.data pair := by
    simp only [meetsIn, isObject, entries, Bool.not_true, Bool.false_or, List.all_eq_true]
    exact forall₂_congr fun pair _ => identical_iff event.data_truthy pair
  rw [meets]
  by_cases missed : ∃ pair ∈ criteria,
      ¬ PairHolds event.data pair ∧ ¬ PairStrays beyond event.data pair
  · obtain ⟨pair, member, fails, stays⟩ := missed
    refine iff_of_true (iff_of_false ?_ fun all => fails (all pair member))
      (.inl ⟨pair, member, fails, stays⟩)
    intro all
    exact (all pair member).elim (fun plain => fails plain.1) stays
  -- every pair holds or strays, so each side fails only where the other one has its own way
  have either : ∀ pair ∈ criteria,
      PairHolds event.data pair ∨ PairStrays beyond event.data pair := by
    intro pair member
    by_contra neither
    exact missed ⟨pair, member, not_or.mp neither⟩
  have worker : (∀ pair ∈ criteria, (PairHolds event.data pair ∧ pair.2.isObject = false) ∨
      PairStrays beyond event.data pair) ↔ ¬ ∃ pair ∈ criteria, PairComposite event.data pair := by
    constructor
    · rintro all ⟨pair, member, object, holds⟩
      rcases all pair member with ⟨_, plain⟩ | strays
      · simp [plain] at object
      · exact strays.not_holds holds
    · intro none pair member
      refine (either pair member).imp_left fun holds => ⟨holds, ?_⟩
      exact Bool.eq_false_iff.mpr fun object => none ⟨pair, member, object, holds⟩
  have data : (∀ pair ∈ criteria, PairHolds event.data pair) ↔
      ¬ ∃ pair ∈ criteria, PairStrays beyond event.data pair := by
    constructor
    · rintro all ⟨pair, member, strays⟩
      exact strays.not_holds (all pair member)
    · intro none pair member
      exact (either pair member).resolve_right fun strays => none ⟨pair, member, strays⟩
  rw [worker, data, not_iff_not, or_iff_right missed]

/-- Where lengths and characters are all there is beyond the data. -/
def lengthsOnly : Beyond Empty where
  ofData value key := (value.property key).map .data
  ofNative object := nomatch object
  truthy object := nomatch object

/-- A member is the property of its name. -/
theorem property_of_member {value found : Json} {key : Text}
    (member : value.member key = some found) : value.property key = some found := by
  cases value with
  | obj fields => exact member
  | arr items =>
    simp only [Json.member] at member
    split at member
    next => cases member
    next other =>
      simp only [Json.property, if_neg other]
      exact member
  | _ => cases member

/-- There the language finds the properties of the data. -/
theorem lengthsOnly_property (value : Json) (key : Text) :
    lengthsOnly.property (.data value) key = (value.property key).map .data := by
  cases found : value.member key with
  | some next => simp [Beyond.property, found, property_of_member found]
  | none => simp [Beyond.property, found, lengthsOnly]

/-- There the walk is the one the event tasks make. -/
theorem dataValueIn_lengthsOnly (data : Json) (key : Text) :
    dataValueIn lengthsOnly data key = (dataValue data key).map .data := by
  have walk : ∀ (parts : List Text) (value : Option Json),
      lengthsOnly.walk (value.map .data) parts = (parts.foldl (fun value part =>
        value.bind fun value => if value.truthy then value.property part else some value)
          value).map .data := by
    intro parts
    induction parts with
    | nil => exact fun _ => rfl
    | cons part rest inductionHypothesis =>
      intro value
      have step : lengthsOnly.advance (value.map .data) part = (value.bind fun value =>
          if value.truthy then value.property part else some value).map .data := by
        cases value with
        | none => rfl
        | some value =>
          simp only [Beyond.advance, Option.map_some, Option.bind_some, Beyond.isTruthy,
            lengthsOnly_property]
          split <;> rfl
      rw [Beyond.walk, List.foldl_cons, step, List.foldl_cons]
      exact inductionHypothesis _
  unfold dataValueIn dataValue
  split
  next => exact walk _ (some data)
  next => exact lengthsOnly_property data key

/-- There the event worker matches as the event tasks do. -/
theorem meetsIn_lengthsOnly (criteria data : Json) :
    meetsIn lengthsOnly criteria data = meets criteria data := by
  have pair : ∀ key expected, identical (dataValueIn lengthsOnly data key) expected =
      (dataValue data key).any fun value => value.strictEq expected := by
    intro key expected
    rw [dataValueIn_lengthsOnly]
    cases dataValue data key <;> rfl
  simp only [meetsIn, meets, pair]

/-- An event whose order is the expected one does not match, for the order is an object. -/
theorem object_criteria_unmet :
    ¬ ∀ (Native : Type) (beyond : Beyond Native) (criteria : List (Text × Json)) (event : Event),
      meetsIn beyond (.obj criteria) event.data = true ↔
        ∀ pair ∈ criteria, PairHolds event.data pair := by
  intro claimed
  let order : Json := .obj [("order".toList, .obj [("id".toList, .num 7)])]
  have unmet := (claimed Empty lengthsOnly [("order".toList, .obj [("id".toList, .num 7)])]
    ⟨0, "paid".toList, order⟩).mpr
  refine absurd (unmet ?_) (by decide +kernel)
  intro pair member
  obtain rfl := List.mem_singleton.mp member
  exact ⟨.obj [("id".toList, .num 7)], rfl, by decide +kernel⟩

end Notifkit.Workflow
