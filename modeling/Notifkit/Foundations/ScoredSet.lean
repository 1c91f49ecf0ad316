import Mathlib.Init

/-!
# A set whose members carry a score

Adding a member that is there already replaces its score; so a member stands for the
last of its additions only, and removing it removes whatever was added last.
-/

namespace Notifkit

universe u

/-- The score of each member, absent for a value that is no member. -/
structure ScoredSet (κ : Type u) where
  score : κ → Option Nat

namespace ScoredSet

variable {κ : Type u} [DecidableEq κ]

/-- A set without members. -/
def empty : ScoredSet κ := ⟨fun _ => none⟩

/-- Add a member, or change its score. -/
def zadd (set : ScoredSet κ) (score : Nat) (member : κ) : ScoredSet κ :=
  ⟨fun other => if other = member then some score else set.score other⟩

/-- Remove a member. -/
def zrem (set : ScoredSet κ) (member : κ) : ScoredSet κ :=
  ⟨fun other => if other = member then none else set.score other⟩

/-- Give each of some members the same score. -/
def rescore (set : ScoredSet κ) (members : List κ) (score : Nat) : ScoredSet κ :=
  ⟨fun other => if other ∈ members then some score else set.score other⟩

omit [DecidableEq κ] in
@[simp] theorem empty_score (member : κ) : (empty : ScoredSet κ).score member = none := rfl

@[simp] theorem zadd_score (set : ScoredSet κ) (score : Nat) (member other : κ) :
    (set.zadd score member).score other =
      if other = member then some score else set.score other := rfl

@[simp] theorem zrem_score (set : ScoredSet κ) (member other : κ) :
    (set.zrem member).score other = if other = member then none else set.score other := rfl

@[simp] theorem rescore_score (set : ScoredSet κ) (members : List κ) (score : Nat) (other : κ) :
    (set.rescore members score).score other =
      if other ∈ members then some score else set.score other := rfl

end ScoredSet

end Notifkit
