import Mathlib.Init

/-!
# Runs of a transition function under a condition on their steps

A system is given by a partial step function: an action that is not enabled in
a state has no successor. `Reaches` collects the states a run can arrive at when
every one of its steps meets a condition on the state it leaves and the action
it takes. With the trivial condition these are the reachable states; with a
stronger one they are the states of the runs an assumption leaves over.

The rules below are the inductions every safety argument needs. They fix no
state, no action and no property; a finite run written out as a list of actions
is turned into a derivation by evaluation.
-/

namespace Notifkit.Runs

universe u v
variable {σ : Type u} {α : Type v}

/-- Perform actions in order. The result is absent as soon as one of them is not
enabled in the state it meets. -/
def perform (step : σ → α → Option σ) : σ → List α → Option σ
  | state, [] => some state
  | state, action :: rest => (step state action).bind fun next => perform step next rest

/-- Actions one after another come to what their parts come to. -/
theorem perform_append {step : σ → α → Option σ} {start : σ} (first second : List α) :
    perform step start (first ++ second) =
      (perform step start first).bind fun middle => perform step middle second := by
  induction first generalizing start with
  | nil => rfl
  | cons action rest inductionHypothesis =>
    simp only [List.cons_append, perform]
    cases step start action with
    | none => rfl
    | some next => exact inductionHypothesis

/-- The states a run from `start` arrives at when each of its steps meets the
condition `allowed`, read in the state the step leaves. -/
inductive Reaches (step : σ → α → Option σ) (allowed : σ → α → Prop) (start : σ) : σ → Prop where
  | here : Reaches step allowed start start
  | next {state after : σ} {action : α} (before : Reaches step allowed start state)
      (admitted : allowed state action) (taken : step state action = some after) :
      Reaches step allowed start after

/-- No condition on the steps: every run. -/
def anyStep (_ : σ) (_ : α) : Prop := True

namespace Reaches

variable {step : σ → α → Option σ} {allowed : σ → α → Prop} {start state final : σ}

/-- A property of the first state that every admitted step keeps holds in every
state reached. -/
theorem invariant {holds : σ → Prop} (run : Reaches step allowed start state)
    (initial : holds start)
    (kept : ∀ before action after, holds before → allowed before action →
      step before action = some after → holds after) : holds state := by
  induction run with
  | here => exact initial
  | next before admitted taken inductionHypothesis =>
    exact kept _ _ _ inductionHypothesis admitted taken

/-- The same induction when keeping the property needs facts already known of
every reached state. -/
theorem invariant_given {known holds : σ → Prop} (run : Reaches step allowed start state)
    (established : ∀ reached, Reaches step allowed start reached → known reached)
    (initial : holds start)
    (kept : ∀ before action after, known before → holds before → allowed before action →
      step before action = some after → holds after) : holds state := by
  induction run with
  | here => exact initial
  | next before admitted taken inductionHypothesis =>
    exact kept _ _ _ (established _ before) inductionHypothesis admitted taken

/-- Runs compose. -/
theorem trans {middle : σ} (first : Reaches step allowed start middle)
    (second : Reaches step allowed middle final) : Reaches step allowed start final := by
  induction second with
  | here => exact first
  | next _ admitted taken inductionHypothesis => exact inductionHypothesis.next admitted taken

/-- A run whose steps meet a condition also meets every weaker one. -/
theorem weaken {weaker : σ → α → Prop} (run : Reaches step allowed start state)
    (implied : ∀ before action, allowed before action → weaker before action) :
    Reaches step weaker start state := by
  induction run with
  | here => exact .here
  | next _ admitted taken inductionHypothesis =>
    exact inductionHypothesis.next (implied _ _ admitted) taken

end Reaches

/-- A written-out run whose actions all meet the condition where they are taken. -/
def AllowedAlong (step : σ → α → Option σ) (allowed : σ → α → Prop) : σ → List α → Prop
  | _, [] => True
  | state, action :: rest => allowed state action ∧
      match step state action with
      | some next => AllowedAlong step allowed next rest
      | none => True

/-- Whether a written-out run meets a decidable condition can be computed. -/
def decideAllowedAlong (step : σ → α → Option σ) (allowed : σ → α → Prop)
    [∀ state action, Decidable (allowed state action)] (state : σ) (actions : List α) :
    Decidable (AllowedAlong step allowed state actions) :=
  match actions with
  | [] => .isTrue trivial
  | action :: rest =>
    have : Decidable (match step state action with
        | some next => AllowedAlong step allowed next rest
        | none => True) :=
      match step state action with
      | some next => decideAllowedAlong step allowed next rest
      | none => .isTrue trivial
    instDecidableAnd

instance (step : σ → α → Option σ) (allowed : σ → α → Prop)
    [∀ state action, Decidable (allowed state action)] (state : σ) (actions : List α) :
    Decidable (AllowedAlong step allowed state actions) :=
  decideAllowedAlong step allowed state actions

/-- A written-out run reaches the state that performing it computes. -/
theorem reaches_of_perform {step : σ → α → Option σ} {allowed : σ → α → Prop}
    {start final : σ} (actions : List α) (along : AllowedAlong step allowed start actions)
    (performed : perform step start actions = some final) : Reaches step allowed start final := by
  induction actions generalizing start with
  | nil =>
    have same : start = final := Option.some.inj performed
    exact same ▸ .here
  | cons action rest inductionHypothesis =>
    obtain ⟨admitted, remaining⟩ := along
    cases taken : step start action with
    | none => simp [perform, taken] at performed
    | some next =>
      have performedRest : perform step next rest = some final := by
        simpa only [perform, taken, Option.bind_some] using performed
      simp only [taken] at remaining
      exact (Reaches.here.next admitted taken).trans (inductionHypothesis remaining performedRest)

/-- The same, where the state reached is too large to be written out. -/
theorem reaches_performed {step : σ → α → Option σ} {allowed : σ → α → Prop}
    {start fallback : σ} (actions : List α) (along : AllowedAlong step allowed start actions)
    (performed : (perform step start actions).isSome = true) :
    Reaches step allowed start ((perform step start actions).getD fallback) := by
  obtain ⟨final, reached⟩ := Option.isSome_iff_exists.mp performed
  rw [reached]
  exact reaches_of_perform actions along reached

/-- Performing actions of a kind is a run whose steps are of that kind. -/
theorem reaches_kind {step : σ → α → Option σ} {kind : α → Prop} {start final : σ}
    (actions : List α) (all : ∀ action ∈ actions, kind action)
    (performed : perform step start actions = some final) :
    Reaches step (fun _ action => kind action) start final := by
  induction actions generalizing start with
  | nil =>
    have same : start = final := Option.some.inj performed
    exact same ▸ .here
  | cons action rest inductionHypothesis =>
    cases taken : step start action with
    | none => simp [perform, taken] at performed
    | some next =>
      have performedRest : perform step next rest = some final := by
        simpa only [perform, taken, Option.bind_some] using performed
      have others := inductionHypothesis
        (fun other member => all other (List.mem_cons_of_mem _ member)) performedRest
      exact (Reaches.here.next (all action List.mem_cons_self) taken).trans others

/-- With no condition on the steps, performing is enough. -/
theorem reaches_any {step : σ → α → Option σ} {start final : σ} (actions : List α)
    (performed : perform step start actions = some final) :
    Reaches step anyStep start final := by
  have every : ∀ action ∈ actions, (fun _ : α => True) action := fun _ _ => trivial
  exact reaches_kind actions every performed

/-- The same, where the state reached is too large to be written out. -/
theorem reaches_any_performed {step : σ → α → Option σ} {start fallback : σ} (actions : List α)
    (performed : (perform step start actions).isSome = true) :
    Reaches step anyStep start ((perform step start actions).getD fallback) := by
  obtain ⟨final, reached⟩ := Option.isSome_iff_exists.mp performed
  rw [reached]
  exact reaches_any actions reached

/-- Steps of a kind that always lead towards fewer are as many as the first state allows, and no
more. -/
theorem perform_bounded {step : σ → α → Option σ} {kind : α → Prop} (measure : σ → Nat)
    (fewer : ∀ state action next, kind action → step state action = some next →
      measure next < measure state) {start final : σ} (actions : List α)
    (all : ∀ action ∈ actions, kind action) (performed : perform step start actions = some final) :
    actions.length + measure final ≤ measure start := by
  induction actions generalizing start with
  | nil =>
    have same : start = final := Option.some.inj performed
    simp [same]
  | cons action rest inductionHypothesis =>
    cases taken : step start action with
    | none => simp [perform, taken] at performed
    | some next =>
      have performedRest : perform step next rest = some final := by
        simpa only [perform, taken, Option.bind_some] using performed
      have first := fewer start action next (all action List.mem_cons_self) taken
      have others := inductionHypothesis
        (fun other member => all other (List.mem_cons_of_mem _ member)) performedRest
      rw [List.length_cons]
      omega

/-- Where every state of a kind that steps keep has a step towards fewer unless it is final, a final
one can be reached. -/
theorem reaches_final_given {step : σ → α → Option σ} {good final : σ → Prop} (measure : σ → Nat)
    (kept : ∀ state action next, good state → step state action = some next → good next)
    (progress : ∀ state, good state → ¬ final state →
      ∃ action next, step state action = some next ∧ measure next < measure state)
    (state : σ) (start : good state) :
    ∃ later, Reaches step anyStep state later ∧ good later ∧ final later := by
  induction size : measure state using Nat.strongRecOn generalizing state with
  | ind size inductionHypothesis =>
    by_cases done : final state
    · exact ⟨state, .here, start, done⟩
    · obtain ⟨action, next, taken, fewer⟩ := progress state start done
      obtain ⟨later, run, isGood, isFinal⟩ :=
        inductionHypothesis _ (by omega) next (kept _ _ _ start taken) rfl
      exact ⟨later, (Reaches.here.next trivial taken).trans run, isGood, isFinal⟩

/-- The same for all states. -/
theorem reaches_final {step : σ → α → Option σ} {final : σ → Prop} (measure : σ → Nat)
    (progress : ∀ state, ¬ final state →
      ∃ action next, step state action = some next ∧ measure next < measure state) (state : σ) :
    ∃ later, Reaches step anyStep state later ∧ final later := by
  obtain ⟨later, run, _, isFinal⟩ := reaches_final_given measure (fun _ _ _ _ _ => trivial)
    (fun state _ => progress state) state trivial
  exact ⟨later, run, isFinal⟩

end Notifkit.Runs
