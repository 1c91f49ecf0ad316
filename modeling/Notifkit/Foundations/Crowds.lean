import Notifkit.Foundations.Tables

/-!
# Actors over shared state

Any number of actors take turns on one shared state; an actor is known by its position
and never leaves. A move of an actor changes the shared state and the actor itself.

An invariant of such a crowd has a part about the shared state and a part about each
actor: what that actor knows of the shared state at the point it stands at. A position
nobody has taken yet has knowledge too, so a fact in the shared state that names an
actor can be traced back to it. A move keeps the invariant if it keeps the shared part,
re-establishes the mover's part and does not interfere with the others'.
-/

namespace Notifkit

open Tables

universe u v w

/-- A shared state and the actors over it. -/
structure Crowd (σ : Type u) (α : Type v) where
  shared : σ
  actors : List α

namespace Crowd

variable {σ : Type u} {α : Type v} {χ : Type w}

/-- One actor moves. -/
def act (move : Nat → σ → α → χ → Option (σ × α)) (crowd : Crowd σ α) (index : Nat) (choice : χ) :
    Option (Crowd σ α) :=
  (crowd.actors[index]?).bind fun actor =>
    (move index crowd.shared actor choice).bind fun moved =>
      some ⟨moved.1, crowd.actors.set index moved.2⟩

/-- An actor joins at the next free position. -/
def join (crowd : Crowd σ α) (actor : α) : Crowd σ α :=
  { crowd with actors := crowd.actors ++ [actor] }

theorem act_eq_some {move : Nat → σ → α → χ → Option (σ × α)} {crowd after : Crowd σ α}
    {index : Nat} {choice : χ} (taken : crowd.act move index choice = some after) :
    ∃ actor shared later, crowd.actors[index]? = some actor ∧
      move index crowd.shared actor choice = some (shared, later) ∧
      after = ⟨shared, crowd.actors.set index later⟩ := by
  obtain ⟨actor, present, taken⟩ := Option.bind_eq_some_iff.mp taken
  obtain ⟨⟨shared, later⟩, moved, same⟩ := Option.bind_eq_some_iff.mp taken
  exact ⟨actor, shared, later, present, moved, (Option.some.inj same).symm⟩

/-- The newcomer moves. -/
theorem act_join {move : Nat → σ → α → χ → Option (σ × α)} {crowd : Crowd σ α} {actor later : α}
    {shared : σ} {choice : χ}
    (moved : move crowd.actors.length crowd.shared actor choice = some (shared, later)) :
    (crowd.join actor).act move crowd.actors.length choice =
      some ({ crowd with shared := shared }.join later) := by
  simp [act, join, moved]

/-- An invariant of the shared state together with what each actor knows of it. -/
structure Holds (invariant : σ → Prop) (knows : Nat → Option α → σ → Prop)
    (crowd : Crowd σ α) : Prop where
  shared : invariant crowd.shared
  actor : ∀ index : Nat, knows index crowd.actors[index]? crowd.shared

namespace Holds

variable {invariant : σ → Prop} {knows : Nat → Option α → σ → Prop} {crowd : Crowd σ α}
  {index : Nat} {actor later : α} {shared : σ}

/-- A move that keeps the shared part, gives the mover its knowledge and takes nobody
else's. -/
theorem act (holds : Holds invariant knows crowd) (present : crowd.actors[index]? = some actor)
    (kept : invariant shared) (mine : knows index (some later) shared)
    (others : ∀ other : Nat, other ≠ index → knows other crowd.actors[other]? crowd.shared →
      knows other crowd.actors[other]? shared) :
    Holds invariant knows ⟨shared, crowd.actors.set index later⟩ := by
  refine ⟨kept, fun other => ?_⟩
  obtain ⟨inside, _⟩ := List.getElem?_eq_some_iff.mp present
  by_cases same : other = index
  · subst same
    rw [List.getElem?_set_self inside]
    exact mine
  · rw [List.getElem?_set_ne (Ne.symm same)]
    exact others other same (holds.actor other)

/-- A change of the shared state alone that interferes with nobody. -/
theorem change (holds : Holds invariant knows crowd) (kept : invariant shared)
    (others : ∀ other : Nat, knows other crowd.actors[other]? crowd.shared →
      knows other crowd.actors[other]? shared) :
    Holds invariant knows { crowd with shared := shared } :=
  ⟨kept, fun other => others other (holds.actor other)⟩

/-- A newcomer that knows what it needs. -/
theorem join (holds : Holds invariant knows crowd)
    (mine : knows crowd.actors.length none crowd.shared →
      knows crowd.actors.length (some actor) crowd.shared) :
    Holds invariant knows (crowd.join actor) := by
  refine ⟨holds.shared, fun other => ?_⟩
  have known := holds.actor other
  cases found : (crowd.join actor).actors[other]? with
  | none =>
    have outside : crowd.actors[other]? = none := by
      have bound := List.getElem?_eq_none_iff.mp found
      simp only [Crowd.join, List.length_append, List.length_singleton] at bound
      exact List.getElem?_eq_none_iff.mpr (by omega)
    exact outside ▸ known
  | some someone =>
    rcases row_append.mp found with old | ⟨rfl, rfl⟩
    · exact old ▸ known
    · rw [List.getElem?_eq_none_iff.mpr (Nat.le_refl _)] at known
      exact mine known

end Holds

end Crowd

end Notifkit
