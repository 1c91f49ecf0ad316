import Mathlib.Data.List.DropRight

/-!
# Text as the services see it

A text is a list of characters. The operations are the string functions of the
language the services are written in, as far as the request path uses them:
prefix tests, trimming, splitting at a separator, and percent-decoding of a path
segment. Nothing here refers to a route or a header.
-/

namespace Notifkit

/-- A text, character by character. -/
abbrev Text := List Char

/-- Texts that compare equal are equal. -/
instance : LawfulBEq Text := inferInstance

namespace Text

/-- The text begins with `opening`. -/
def startsWith (text opening : Text) : Bool := opening.isPrefixOf text

/-- White space and line ends, as trimming counts them. -/
def isWhitespace (c : Char) : Bool :=
  c.val ∈ [0x9, 0xA, 0xB, 0xC, 0xD, 0x20, 0xA0, 0x1680, 0x2028, 0x2029, 0x202F, 0x205F,
    0x3000, 0xFEFF] || (0x2000 ≤ c.val && c.val ≤ 0x200A)

/-- Drop white space at both ends. -/
def trim (text : Text) : Text :=
  ((text.dropWhile isWhitespace).reverse.dropWhile isWhitespace).reverse

/-- What is trimmed has no white space at its ends. -/
theorem trim_trim (text : Text) : text.trim.trim = text.trim := by
  have front : text.trim.dropWhile isWhitespace = text.trim := by
    have begins : text.trim <+: text.dropWhile isWhitespace := List.rdropWhile_prefix _ _
    have first := List.head?_dropWhile_not isWhitespace text
    cases rest : text.dropWhile isWhitespace with
    | nil =>
      rw [rest, List.prefix_nil] at begins
      rw [begins, List.dropWhile_nil]
    | cons c tail =>
      rw [rest, List.prefix_cons_iff] at begins
      rw [rest] at first
      rcases begins with empty | ⟨inner, same, _⟩
      · rw [empty, List.dropWhile_nil]
      · rw [same, List.dropWhile_cons_of_neg (by simpa using first)]
  calc text.trim.trim = (text.trim.dropWhile isWhitespace).rdropWhile isWhitespace := rfl
    _ = (text.dropWhile isWhitespace |>.rdropWhile isWhitespace).rdropWhile isWhitespace := by
      rw [front]; rfl
    _ = text.trim := List.rdropWhile_idempotent _ _

/-- Lower-case the ASCII letters. -/
def toLowerCase (text : Text) : Text := text.map Char.toLower

/-- The value of a hexadecimal digit. -/
def hexValue (c : Char) : Option Nat :=
  if '0' ≤ c ∧ c ≤ '9' then some (c.toNat - '0'.toNat)
  else if 'a' ≤ c ∧ c ≤ 'f' then some (c.toNat - 'a'.toNat + 10)
  else if 'A' ≤ c ∧ c ≤ 'F' then some (c.toNat - 'A'.toNat + 10)
  else none

/-- Read one `%XX` octet off the front. -/
def percentOctet : Text → Option (Nat × Text)
  | '%' :: high :: low :: rest => do
    let h ← hexValue high
    let l ← hexValue low
    pure (16 * h + l, rest)
  | _ => none

/-- Read `count` continuation octets, each `%XX` of the form 10xxxxxx, into the
value collected so far. -/
def continuation : Nat → Nat → Text → Option (Nat × Text)
  | 0, value, rest => some (value, rest)
  | count + 1, value, rest => do
    let (octet, after) ← percentOctet rest
    if octet / 64 = 2 then continuation count (64 * value + octet % 64) after else none

/-- Decode one escaped character. The leading octet fixes how many continuation
octets follow; overlong forms, surrogates and values past U+10FFFF are refused. -/
def escapedChar (text : Text) : Option (Char × Text) := do
  let (lead, rest) ← percentOctet text
  if lead < 0x80 then
    pure (Char.ofNat lead, rest)
  else
    let (extra, bits, least) ←
      if lead / 32 = 6 then some (1, lead % 32, 0x80)
      else if lead / 16 = 14 then some (2, lead % 16, 0x800)
      else if lead / 8 = 30 then some (3, lead % 8, 0x10000)
      else none
    let (value, after) ← continuation extra bits rest
    if least ≤ value ∧ value.isValidChar then pure (Char.ofNat value, after) else none

/-- Decode with fuel for each character still to be read. -/
def decodeFrom : Nat → Text → Option Text
  | _, [] => some []
  | 0, _ :: _ => none
  | fuel + 1, c :: rest =>
    if c = '%' then do
      let (decoded, after) ← escapedChar (c :: rest)
      (decodeFrom fuel after).map (decoded :: ·)
    else (decodeFrom fuel rest).map (c :: ·)

/-- Percent-decoding of a path segment; absent where decoding throws. Each step
consumes at least one character, so the length is fuel enough. -/
def decodeURIComponent (text : Text) : Option Text := decodeFrom text.length text

example : decodeURIComponent "a%2Fb%C3%A9".toList = some "a/bé".toList := by decide

end Text

/-- What stands before the first mark, and what stands after it. -/
theorem first_mark {mark : Char} {before before' after after' : Text} (plain : mark ∉ before)
    (plain' : mark ∉ before') (same : before ++ mark :: after = before' ++ mark :: after') :
    before = before' ∧ after = after' := by
  induction before generalizing before' with
  | nil =>
    cases before' with
    | nil => exact ⟨rfl, List.tail_eq_of_cons_eq same⟩
    | cons char rest =>
      obtain rfl := List.head_eq_of_cons_eq same
      exact absurd List.mem_cons_self plain'
  | cons char rest inductionHypothesis =>
    cases before' with
    | nil =>
      obtain rfl := List.head_eq_of_cons_eq same
      exact absurd List.mem_cons_self plain
    | cons char' rest' =>
      obtain rfl := List.head_eq_of_cons_eq same
      obtain ⟨rfl, rfl⟩ := inductionHypothesis (fun listed => plain (List.mem_cons_of_mem _ listed))
        (fun listed => plain' (List.mem_cons_of_mem _ listed)) (List.tail_eq_of_cons_eq same)
      exact ⟨rfl, rfl⟩

/-- What stands before the last mark, and what stands after it. -/
theorem last_mark {mark : Char} {before before' after after' : Text} (plain : mark ∉ after)
    (plain' : mark ∉ after') (same : before ++ mark :: after = before' ++ mark :: after') :
    before = before' ∧ after = after' := by
  have turned := congrArg List.reverse same
  rw [List.reverse_append, List.reverse_append, List.reverse_cons, List.reverse_cons,
    List.append_assoc, List.append_assoc, List.singleton_append, List.singleton_append] at turned
  obtain ⟨ends, begins⟩ := first_mark (fun listed => plain (List.mem_reverse.mp listed))
    (fun listed => plain' (List.mem_reverse.mp listed)) turned
  exact ⟨List.reverse_inj.mp begins, List.reverse_inj.mp ends⟩

/-- Numbers are told apart by how they are written. -/
theorem toDigits_inj {first second : Nat}
    (same : Nat.toDigits 10 first = Nat.toDigits 10 second) : first = second := by
  have read := congrArg (Nat.ofDigitChars 10 · 0) same
  rwa [Nat.ofDigitChars_toDigits (by decide) (by decide),
    Nat.ofDigitChars_toDigits (by decide) (by decide)] at read

/-- A number is written without a hyphen. -/
theorem hyphen_notMem_toDigits (number : Nat) : '-' ∉ Nat.toDigits 10 number := by
  intro member
  have digit := Nat.isDigit_of_mem_toDigits (by decide) (by decide) member
  cases digit

end Notifkit
