import Mathlib.Init

/-!
# What a successful sequence of checks establishes

A chain of checks either ends in an error or yields a value. The rules here turn
the success of such a chain into the facts its links established.
-/

namespace Notifkit.Outcome

universe u v w
variable {ε : Type u} {α : Type v} {β : Type v}

/-- A sequence succeeds exactly when each of its steps does. -/
theorem bind_ok {first : Except ε α} {next : α → Except ε β} {result : β} :
    (first >>= next) = .ok result ↔ ∃ value, first = .ok value ∧ next value = .ok result := by
  cases first <;> simp [bind, Except.bind]

/-- A returned value is the result. -/
theorem pure_ok {value result : α} : (pure value : Except ε α) = .ok result ↔ value = result := by
  simp [pure, Except.pure]

/-- A branch that refuses when its test holds succeeds only where the test fails. -/
theorem refuse_ok {test : Prop} [Decidable test] {reason : ε} {otherwise : Except ε α}
    {result : α} :
    (if test then .error reason else otherwise) = .ok result ↔ ¬ test ∧ otherwise = .ok result := by
  by_cases holds : test <;> simp [holds]

/-- A branch that refuses unless its test holds succeeds only where the test holds. -/
theorem demand_ok {test : Prop} [Decidable test] {reason : ε} {otherwise : Except ε α}
    {result : α} :
    (if test then otherwise else .error reason) = .ok result ↔ test ∧ otherwise = .ok result := by
  by_cases holds : test <;> simp [holds]

end Notifkit.Outcome
