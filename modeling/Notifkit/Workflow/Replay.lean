import Notifkit.Workflow.Stores
import Mathlib.Data.List.Forall2

/-!
# Handlers and their replay

A handler awaits its steps one after another; what it does next is a function of the
results it has seen. On every resume it runs from its start, and each step that has a
row is answered from the row: a `notify` or a `run` with the recorded output, a `wait`
with nothing once its time has come, a `waitForEvent` once its output is filled in. A
row that gives no answer suspends the handler.

The order on rows says what the others may do to them meanwhile: fill in an empty
`waitForEvent`. The answers given so far do not change by it, nor as time goes on.
-/

namespace Notifkit.Workflow

/-- A duration text, by the milliseconds it stands for; absent where it is refused. -/
structure Duration where
  ms : Option Nat
deriving DecidableEq

/-- The options of a `waitForEvent` call, `match` being the criteria. -/
structure WaitOptions where
  timeout : Option Duration := none
  criteria : Option Json := none
deriving DecidableEq

/-- The timeout in milliseconds, a day where none is named. -/
def WaitOptions.timeoutMs (options : WaitOptions) : Option Nat :=
  (options.timeout.getD ⟨some 86_400_000⟩).ms

/-- The criteria, empty where none are named. -/
def WaitOptions.matchCriteria (options : WaitOptions) : Json := options.criteria.getD .empty

/-- A step a handler awaits. -/
inductive StepCall where
  | notify
  | wait (duration : Duration)
  | waitForEvent (eventName : Text) (options : WaitOptions)
  | run

/-- The action a step is recorded under. -/
def StepCall.action : StepCall → StepAction
  | .notify => .notify
  | .wait _ => .wait
  | .waitForEvent _ _ => .waitForEvent
  | .run => .run

/-- What a handler does next. -/
inductive Call where
  | step (call : StepCall)
  | returns
  | throws

/-- What the trigger of an instance fixes: its project, and the handler found under its
name, applied to its input. -/
structure Trigger where
  projectId : Nat
  handler : List Json → Call

/-- What the step proxy makes of a recorded output; absent where it suspends the handler.
Only `wait` steps record a `scheduledAt`, and they record a number. -/
def recollect (now : Nat) (action : StepAction) (output : Json) : Option Json :=
  match action with
  | .notify | .run => some output
  | .wait =>
    match output.property "scheduledAt".toList with
    | some (.num wakeAt) => if (now : Rat) < wakeAt then none else some .null
    | _ => some .null
  | .waitForEvent =>
    if output.isNull then none
    else match output.property "timedOut".toList with
      | some (.bool true) => some .null
      | _ => some output

/-- The answer a replay gets from a row. -/
def StepRow.answer (now : Nat) (row : StepRow) : Option Json := recollect now row.action row.output

/-- The answers of consecutive rows; absent where one of them suspends the handler. -/
def answers (now : Nat) : List StepRow → Option (List Json)
  | [] => some []
  | row :: rest => (row.answer now).bind fun value =>
      (answers now rest).map fun results => value :: results

/-- A `wait` row answers once its time has come. -/
theorem recall_scheduledAt {now resumeAt : Nat} :
    recollect now .wait (scheduledAt resumeAt) = if now < resumeAt then none else some .null := by
  have found : (scheduledAt resumeAt).property "scheduledAt".toList = some (.num resumeAt) := by
    simp [scheduledAt, Json.property]
  simp only [recollect, found, Rat.natCast_lt_natCast]

/-- Consecutive rows answer with one result each. -/
theorem answers_length {now : Nat} {rows : List StepRow} {results : List Json}
    (answered : answers now rows = some results) : results.length = rows.length := by
  induction rows generalizing results with
  | nil =>
    obtain rfl := Option.some.inj answered
    rfl
  | cons row rest inductionHypothesis =>
    obtain ⟨value, _, answered⟩ := Option.bind_eq_some_iff.mp answered
    obtain ⟨later, answeredRest, rfl⟩ := Option.map_eq_some_iff.mp answered
    simp only [List.length_cons, inductionHypothesis answeredRest]

/-- One row more is one answer more. -/
theorem answers_append {now : Nat} {rows : List StepRow} {row : StepRow} {results : List Json}
    {value : Json} (answered : answers now rows = some results) (last : row.answer now = some value) :
    answers now (rows ++ [row]) = some (results ++ [value]) := by
  induction rows generalizing results with
  | nil =>
    obtain rfl := Option.some.inj answered
    simp [answers, last]
  | cons head rest inductionHypothesis =>
    obtain ⟨first, answeredHead, answered⟩ := Option.bind_eq_some_iff.mp answered
    obtain ⟨later, answeredRest, rfl⟩ := Option.map_eq_some_iff.mp answered
    have more := inductionHypothesis answeredRest
    simp [answers, answeredHead, more]

/-- Where consecutive rows answer, each of them does. -/
theorem answer_of_answers {now : Nat} {rows : List StepRow} {results : List Json} {row : StepRow}
    (answered : answers now rows = some results) (member : row ∈ rows) :
    ∃ value, row.answer now = some value := by
  induction rows generalizing results with
  | nil => cases member
  | cons head rest inductionHypothesis =>
    obtain ⟨first, answeredHead, answered⟩ := Option.bind_eq_some_iff.mp answered
    obtain ⟨later, answeredRest, rfl⟩ := Option.map_eq_some_iff.mp answered
    rcases List.mem_cons.mp member with rfl | member
    · exact ⟨first, answeredHead⟩
    · exact inductionHypothesis answeredRest member

/-- A later version of a row: the same, or an empty `waitForEvent` that was filled in. -/
def StepRow.Extends (old new : StepRow) : Prop :=
  new = old ∨ old.action = .waitForEvent ∧ old.output = .null ∧
    new = { old with output := new.output }

theorem StepRow.Extends.refl (row : StepRow) : row.Extends row := .inl rfl

theorem StepRow.Extends.trans {first second third : StepRow} (one : first.Extends second)
    (two : second.Extends third) : first.Extends third := by
  rcases one with rfl | ⟨action, empty, same⟩
  · exact two
  · rcases two with rfl | ⟨_, _, later⟩
    · exact .inr ⟨action, empty, same⟩
    · exact .inr ⟨action, empty, by rw [later, same]⟩

theorem StepRow.Extends.stepIndex {old new : StepRow} (extended : old.Extends new) :
    new.stepIndex = old.stepIndex := by
  rcases extended with rfl | ⟨_, _, same⟩
  · rfl
  · rw [same]

theorem StepRow.Extends.action {old new : StepRow} (extended : old.Extends new) :
    new.action = old.action := by
  rcases extended with rfl | ⟨_, _, same⟩
  · rfl
  · rw [same]

/-- A row with an output is its own only later version. -/
theorem StepRow.Extends.filled {old new : StepRow} (extended : old.Extends new)
    (filled : old.output ≠ .null) : new = old := by
  rcases extended with same | ⟨_, empty, _⟩
  · exact same
  · exact absurd empty filled

/-- What the proxy makes of an output once, it makes of it ever after. -/
theorem recall_later {now later : Nat} {action : StepAction} {output value : Json}
    (passed : now ≤ later) (recalled : recollect now action output = some value) :
    recollect later action output = some value := by
  cases action with
  | notify => exact recalled
  | run => exact recalled
  | waitForEvent => exact recalled
  | wait =>
    simp only [recollect] at recalled ⊢
    split at recalled
    next wakeAt found =>
      obtain ⟨due, same⟩ := Option.ite_none_left_eq_some.mp recalled
      have stillDue : ¬ (later : Rat) < wakeAt :=
        Rat.not_lt.mpr (Rat.le_trans (Rat.not_lt.mp due) (Rat.natCast_le_natCast.mpr passed))
      rw [if_neg stillDue, same]
    next => exact recalled

/-- An answer given once is given ever after. -/
theorem StepRow.Extends.answer {old new : StepRow} {now later : Nat} {value : Json}
    (extended : old.Extends new) (passed : now ≤ later) (answered : old.answer now = some value) :
    new.answer later = some value := by
  rcases extended with rfl | ⟨action, empty, _⟩
  · exact recall_later passed answered
  · unfold StepRow.answer at answered
    rw [action, empty] at answered
    cases answered

/-- Later versions of consecutive rows. -/
abbrev Extended (old new : List StepRow) : Prop := List.Forall₂ StepRow.Extends old new

theorem Extended.refl (rows : List StepRow) : Extended rows rows :=
  List.forall₂_same.mpr fun row _ => .refl row

theorem Extended.trans {first second third : List StepRow} (one : Extended first second)
    (two : Extended second third) : Extended first third := by
  induction one generalizing third with
  | nil => exact two
  | cons head _ inductionHypothesis =>
    cases two with
    | cons next rest => exact .cons (head.trans next) (inductionHypothesis rest)

/-- Each row has its later version in the same place. -/
theorem Extended.row {old new : List StepRow} {position : Nat} {row : StepRow}
    (extended : Extended old new) (present : old[position]? = some row) :
    ∃ later, new[position]? = some later ∧ row.Extends later := by
  induction extended generalizing position with
  | nil => cases present
  | cons head _ inductionHypothesis =>
    cases position with
    | zero =>
      obtain rfl := Option.some.inj present
      exact ⟨_, rfl, head⟩
    | succ position => exact inductionHypothesis present

/-- Each row is the later version of one in the same place. -/
theorem Extended.rowBefore {old new : List StepRow} {position : Nat} {later : StepRow}
    (extended : Extended old new) (present : new[position]? = some later) :
    ∃ row, old[position]? = some row ∧ row.Extends later := by
  have inside : position < old.length := by
    rw [extended.length_eq]
    exact (List.getElem?_eq_some_iff.mp present).1
  obtain ⟨other, found, extends'⟩ := extended.row (List.getElem?_eq_getElem inside)
  obtain rfl : other = later := Option.some.inj (found.symm.trans present)
  exact ⟨_, List.getElem?_eq_getElem inside, extends'⟩

/-- Answers given once are given ever after. -/
theorem answers_extended {old new : List StepRow} {now later : Nat} {results : List Json}
    (extended : Extended old new) (passed : now ≤ later)
    (answered : answers now old = some results) : answers later new = some results := by
  induction extended generalizing results with
  | nil => exact answered
  | cons head _ inductionHypothesis =>
    obtain ⟨first, answeredHead, answered⟩ := Option.bind_eq_some_iff.mp answered
    obtain ⟨rest, answeredRest, rfl⟩ := Option.map_eq_some_iff.mp answered
    simp [answers, head.answer passed answeredHead, inductionHypothesis answeredRest]

/-- Filling in the empty `waitForEvent` rows under an index makes a later version of the
rows, and so does writing an output that is there already. -/
theorem Extended.fill {rows : List StepRow} {stepIndex : StepIndex} {output : Json}
    (open' : ∀ row ∈ rows, row.stepIndex = stepIndex →
      row.action = .waitForEvent ∧ row.output = .null ∨ row.output = output) :
    Extended rows (rows.map fun row =>
      if row.stepIndex = stepIndex then { row with output := output } else row) := by
  rw [Extended, List.forall₂_map_right_iff]
  refine List.forall₂_same.mpr fun row member => ?_
  split
  next same =>
    rcases open' row member same with ⟨action, empty⟩ | written
    · exact .inr ⟨action, empty, rfl⟩
    · exact .inl (by rw [← written])
  next => exact .refl row

end Notifkit.Workflow
