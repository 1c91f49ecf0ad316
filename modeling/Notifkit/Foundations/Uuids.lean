import Mathlib.Algebra.Group.Nat.Defs
import Notifkit.Foundations.Text

/-!
# Ids of a hundred and twenty-eight bits

An id is written byte by byte in hexadecimal digits, with hyphens behind the fourth, sixth, eighth
and tenth byte. Reading takes digits of either case, a hyphen behind every second byte or none, and
braces around the whole.

What is written is read back.
-/

namespace Notifkit

/-- An id, ordered by its bytes. -/
abbrev Uuid := Fin (2 ^ 128)

namespace Uuid

/-- A hexadecimal digit. -/
def hexDigit (value : Nat) : Char := "0123456789abcdef".toList.getD value '0'

/-- The last bytes of a number, each as two digits. -/
def bytesText : Nat → Nat → Text
  | 0, _ => []
  | count + 1, number =>
    let byte := number / 256 ^ count % 256
    let rest := bytesText count number
    hexDigit (byte / 16) :: hexDigit (byte % 16) ::
      if count ∈ [12, 10, 8, 6] then '-' :: rest else rest

/-- How an id is written. -/
def text (id : Uuid) : Text := bytesText 16 id.val

/-- A hyphen that may stand before the remaining bytes. -/
def skipHyphen (count : Nat) : Text → Text
  | '-' :: rest => if count % 2 = 0 ∧ 0 < count then rest else '-' :: rest
  | rest => rest

/-- Read so many bytes behind a number. -/
def readBytes : Nat → Nat → Text → Option (Nat × Text)
  | 0, number, rest => some (number, rest)
  | count + 1, number, high :: low :: rest => do
    let high ← Text.hexValue high
    let low ← Text.hexValue low
    readBytes count (number * 256 + (high * 16 + low)) (skipHyphen count rest)
  | _ + 1, _, _ => none

/-- What has to stand behind the bytes, and the bytes. -/
def opened : Text → Text × Text
  | '\x7b' :: inner => (['\x7d'], inner)
  | inner => ([], inner)

/-- The id with a number's bytes. -/
def ofNumber (number : Nat) : Option Uuid :=
  if small : number < 2 ^ 128 then some ⟨number, small⟩ else none

/-- The id a text stands for. -/
def read (text : Text) : Option Uuid :=
  match readBytes 16 0 (opened text).2 with
  | some (number, rest) => if rest = (opened text).1 then ofNumber number else none
  | none => none

theorem hexValue_hexDigit {value : Nat} (small : value < 16) :
    Text.hexValue (hexDigit value) = some value := by
  have all : ∀ value < 16, Text.hexValue (hexDigit value) = some value := by decide
  exact all value small

/-- A digit is neither a hyphen nor a brace. -/
theorem hexDigit_plain {value : Nat} (small : value < 16) :
    hexDigit value ≠ '-' ∧ hexDigit value ≠ '\x7b' := by
  have all : ∀ value < 16, hexDigit value ≠ '-' ∧ hexDigit value ≠ '\x7b' := by decide
  exact all value small

/-- What is written has no hyphen in front. -/
theorem skipHyphen_bytesText (count count' number : Nat) :
    skipHyphen count' (bytesText count number) = bytesText count number := by
  cases count with
  | zero => rfl
  | succ count =>
    have plain : hexDigit (number / 256 ^ count % 256 / 16) ≠ '-' :=
      (hexDigit_plain (by omega)).1
    rw [bytesText]
    unfold skipHyphen
    split
    next same => exact absurd (List.cons.inj same).1 plain
    next => rfl

/-- Written bytes are read back behind any number. -/
theorem readBytes_bytesText (count number before : Nat) :
    readBytes count before (bytesText count number) =
      some (before * 256 ^ count + number % 256 ^ count, []) := by
  induction count generalizing before with
  | zero => rw [Nat.pow_zero, Nat.mod_one, Nat.mul_one, Nat.add_zero]; rfl
  | succ count inductionHypothesis =>
    have hyphen : skipHyphen count (if count ∈ [12, 10, 8, 6] then
        '-' :: bytesText count number else bytesText count number) = bytesText count number := by
      split
      next listed =>
        have even : count % 2 = 0 ∧ 0 < count := by
          have all : ∀ count ∈ [12, 10, 8, 6], count % 2 = 0 ∧ 0 < count := by decide
          exact all count listed
        exact if_pos even
      next => exact skipHyphen_bytesText count count number
    have high : number / 256 ^ count % 256 / 16 < 16 := by omega
    have low : number / 256 ^ count % 256 % 16 < 16 := Nat.mod_lt _ (by decide)
    have whole : number % 256 ^ (count + 1) =
        number % 256 ^ count + 256 ^ count * (number / 256 ^ count % 256) := by
      rw [Nat.pow_succ, Nat.mod_mul]
    rw [bytesText, readBytes, hexValue_hexDigit high, hexValue_hexDigit low]
    simp only [Option.bind_eq_bind, Option.bind_some, hyphen, inductionHypothesis]
    rw [whole, Nat.mul_comm _ 16, Nat.div_add_mod, Nat.add_mul, Nat.pow_succ,
      Nat.mul_assoc, Nat.mul_comm 256, Nat.mul_comm (256 ^ count) (number / _ % _),
      Nat.add_comm (number % _), ← Nat.add_assoc]

/-- An id is read back as it was written. -/
theorem read_text (id : Uuid) : read id.text = some id := by
  have bytes := readBytes_bytesText 16 id.val 0
  have small : id.val % 256 ^ 16 = id.val := Nat.mod_eq_of_lt id.isLt
  rw [Nat.zero_mul, Nat.zero_add, small] at bytes
  have plain : opened id.text = ([], id.text) := by
    have first : hexDigit (id.val / 256 ^ 15 % 256 / 16) ≠ '\x7b' :=
      (hexDigit_plain (by omega)).2
    rw [text, bytesText]
    unfold opened
    split
    next same => exact absurd (List.cons.inj same).1 first
    next => rfl
  unfold read
  rw [plain]
  dsimp only
  rw [text, bytes]
  dsimp only
  rw [if_pos rfl]
  exact dif_pos id.isLt

/-- `/^[0-9a-f]{8}-[0-9a-f]{4}-[0-9a-f]{4}-[0-9a-f]{4}-[0-9a-f]{12}$/i` -/
def isUuid (text : Text) : Bool :=
  text.length = 36 && text.zipIdx.all fun (char, place) =>
    if place ∈ [8, 13, 18, 23] then char = '-' else (Text.hexValue char).isSome

/-- Ids are written in thirty-six digits and hyphens, each in its place. -/
theorem isUuid_text (id : Uuid) : isUuid id.text = true := by
  have hex : ∀ value < 16, (Text.hexValue (hexDigit value)).isSome = true := by decide
  have high : ∀ number, (Text.hexValue (hexDigit (number % 256 / 16))).isSome = true :=
    fun number => hex _ (by omega)
  have low : ∀ number, (Text.hexValue (hexDigit (number % 16))).isSome = true :=
    fun number => hex _ (by omega)
  simp [isUuid, text, bytesText, high, low]

/-- Such a text has only digits and hyphens. -/
theorem hex_of_isUuid {text : Text} (form : isUuid text = true) :
    text.length = 36 ∧ ∀ char ∈ text, (Text.hexValue char).isSome = true ∨ char = '-' := by
  rw [isUuid, Bool.and_eq_true, decide_eq_true_eq, List.all_eq_true] at form
  refine ⟨form.1, fun char member => ?_⟩
  obtain ⟨place, inside, rfl⟩ := List.mem_iff_getElem.mp member
  have own := form.2 (text[place], place) (List.mk_mem_zipIdx_iff_getElem?.mpr
    (List.getElem?_eq_getElem inside))
  dsimp only at own
  split at own
  next => exact .inr (of_decide_eq_true own)
  next => exact .inl own

end Uuid

end Notifkit
