import Mathlib.Data.List.Infix
import Notifkit.Foundations.Text

/-!
# Patterns of LIKE

In a pattern a percent sign stands for any characters and an underscore for one; a backslash takes
the character behind it as it is. A term with its special characters escaped matches itself only,
so between two percent signs it is found wherever a text has it.
-/

namespace Notifkit

/-- `text LIKE pattern` -/
def like : Text → Text → Bool
  | [], text => text.isEmpty
  | '%' :: rest, text => text.tails.any (like rest)
  | '_' :: rest, _ :: text => like rest text
  | '\\' :: own :: rest, char :: text => own = char && like rest text
  | own :: rest, char :: text => own = char && like rest text
  | _ :: _, [] => false

/-- A term with its wildcards escaped. -/
def escaped (term : Text) : Text :=
  term.flatMap fun char =>
    if char = '\\' ∨ char = '%' ∨ char = '_' then ['\\', char] else [char]

/-- `contains` -/
def contains (term : Text) : Text := '%' :: escaped term ++ ['%']

/-- Anything matches a percent sign at the end. -/
theorem like_percent (text : Text) : like ['%'] text = true := by
  have nothing : ([] : Text) ∈ text.tails := (List.mem_tails _ _).mpr List.nil_suffix
  exact List.any_eq_true.mpr ⟨[], nothing, rfl⟩

/-- An escaped term takes exactly its own characters. -/
theorem like_escaped (term text : Text) :
    like (escaped term ++ ['%']) text = true ↔ term <+: text := by
  induction term generalizing text with
  | nil =>
    constructor
    · intro _
      exact List.nil_prefix
    · intro _
      exact like_percent text
  | cons own rest inductionHypothesis =>
    have step : like (escaped (own :: rest) ++ ['%']) text =
        match text with
        | [] => false
        | char :: behind => own = char && like (escaped rest ++ ['%']) behind := by
      unfold escaped
      rw [List.flatMap_cons]
      split
      next special => cases text <;> simp [like]
      next plain =>
        simp only [not_or] at plain
        cases text <;> simp [like, plain]
    rw [step]
    cases text with
    | nil => simp
    | cons char behind =>
      rw [Bool.and_eq_true, decide_eq_true_eq, inductionHypothesis, List.cons_prefix_cons]

/-- A text is found exactly where it has the term. -/
theorem like_contains {term text : Text} : like (contains term) text = true ↔ term <:+: text := by
  have whole : like (contains term) text = text.tails.any (like (escaped term ++ ['%'])) := rfl
  rw [whole, List.any_eq_true, List.infix_iff_prefix_suffix]
  constructor
  · rintro ⟨behind, member, found⟩
    exact ⟨behind, (like_escaped term behind).mp found, (List.mem_tails _ _).mp member⟩
  · rintro ⟨behind, found, part⟩
    exact ⟨behind, (List.mem_tails _ _).mpr part, (like_escaped term behind).mpr found⟩

end Notifkit
