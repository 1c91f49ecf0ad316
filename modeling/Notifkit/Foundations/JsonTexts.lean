import Notifkit.Foundations.Json

/-!
# JSON as text

Writing a value as text and reading a text belong to the language. What is used of them is stated
for a value at a time: its text is read as the value. The empty text is none.
-/

namespace Notifkit

/-- `JSON.stringify` and `JSON.parse`, which throws where it has no value. -/
structure JsonText where
  stringify : Json → Text
  parse : Text → Option Json

namespace JsonText

/-- The value's text is read as the value. -/
def Reads (texts : JsonText) (value : Json) : Prop :=
  texts.parse (texts.stringify value) = some value

variable {texts : JsonText} {value : Json}

/-- A text that is read has characters. -/
theorem Reads.letters (reads : texts.Reads value) (nothing : texts.parse [] = none) :
    texts.stringify value ≠ [] := by
  intro none
  rw [Reads, none, nothing] at reads
  cases reads

/-- A language that knows one value and its text. -/
def one (value : Json) (text : Text) : JsonText where
  stringify _ := text
  parse given := if given = text then some value else none

theorem one_reads (value : Json) (text : Text) : (one value text).Reads value := if_pos rfl

theorem one_nothing {text : Text} (letters : text ≠ []) : (one value text).parse [] = none :=
  if_neg letters.symm

end JsonText

end Notifkit
