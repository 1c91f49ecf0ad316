import Notifkit.Foundations.Text

/-!
# Bytes as text

Three bytes make four characters of an alphabet of sixty-four; what is left at the end makes two or
three. Nothing is padded. Reading is lenient: characters of neither alphabet are passed over, and
bits that make no byte are dropped.

Texts become bytes by UTF-8.
-/

namespace Notifkit

/-- The bytes of a text. -/
def utf8 (text : Text) : List UInt8 := text.flatMap String.utf8EncodeChar

namespace Base64url

/-- The characters, each at its value. -/
def alphabet : Text :=
  "ABCDEFGHIJKLMNOPQRSTUVWXYZabcdefghijklmnopqrstuvwxyz0123456789-_".toList

/-- The character of a value. -/
def digit (value : Nat) : Char := alphabet.getD value 'A'

/-- `buffer.toString("base64url")` -/
def encode : List UInt8 → Text
  | [] => []
  | [a] => [digit (a.toNat / 4), digit (a.toNat % 4 * 16)]
  | [a, b] => [digit (a.toNat / 4), digit (a.toNat % 4 * 16 + b.toNat / 16),
      digit (b.toNat % 16 * 4)]
  | a :: b :: c :: rest =>
    digit (a.toNat / 4) :: digit (a.toNat % 4 * 16 + b.toNat / 16) ::
      digit (b.toNat % 16 * 4 + c.toNat / 64) :: digit (c.toNat % 64) :: encode rest

/-- The value of a character; both alphabets are read. -/
def valueOf (char : Char) : Option Nat :=
  if 'A' ≤ char ∧ char ≤ 'Z' then some (char.toNat - 'A'.toNat)
  else if 'a' ≤ char ∧ char ≤ 'z' then some (char.toNat - 'a'.toNat + 26)
  else if '0' ≤ char ∧ char ≤ '9' then some (char.toNat - '0'.toNat + 52)
  else if char = '-' ∨ char = '+' then some 62
  else if char = '_' ∨ char = '/' then some 63
  else none

/-- The bytes of some values. -/
def bytesOf : List Nat → List UInt8
  | a :: b :: c :: d :: rest =>
    .ofNat (a * 4 + b / 16) :: .ofNat (b % 16 * 16 + c / 4) :: .ofNat (c % 4 * 64 + d) ::
      bytesOf rest
  | [a, b, c] => [.ofNat (a * 4 + b / 16), .ofNat (b % 16 * 16 + c / 4)]
  | [a, b] => [.ofNat (a * 4 + b / 16)]
  | _ => []

/-- `Buffer.from(text, "base64url")` -/
def decode (text : Text) : List UInt8 := bytesOf (text.filterMap valueOf)

/-- A character is read as the value it was written for. -/
theorem valueOf_digit {value : Nat} (small : value < 64) : valueOf (digit value) = some value := by
  have all : ∀ value < 64, valueOf (digit value) = some value := by decide +kernel
  exact all value small

/-- A character that is written is one of the alphabet. -/
theorem digit_mem {value : Nat} (small : value < 64) : digit value ∈ alphabet := by
  have all : ∀ value < 64, digit value ∈ alphabet := by decide +kernel
  exact all value small

/-- A byte is put together from its parts. -/
theorem ofNat_eq {byte : UInt8} {value : Nat} (same : value = byte.toNat) :
    UInt8.ofNat value = byte := by
  rw [same, UInt8.ofNat_toNat]

/-- What was written is read. -/
theorem decode_encode (bytes : List UInt8) : decode (encode bytes) = bytes := by
  unfold decode
  induction bytes using encode.induct with
  | case1 => rfl
  | case2 a =>
    have bound := a.toNat_lt
    simp only [encode, List.filterMap_cons, List.filterMap_nil]
    rw [valueOf_digit (by omega), valueOf_digit (by omega)]
    simp only [bytesOf, List.cons.injEq, and_true]
    exact ofNat_eq (by omega)
  | case3 a b =>
    have bound := a.toNat_lt
    have bound' := b.toNat_lt
    simp only [encode, List.filterMap_cons, List.filterMap_nil]
    rw [valueOf_digit (by omega), valueOf_digit (by omega), valueOf_digit (by omega)]
    simp only [bytesOf, List.cons.injEq, and_true]
    exact ⟨ofNat_eq (by omega), ofNat_eq (by omega)⟩
  | case4 a b c rest inductionHypothesis =>
    have bound := a.toNat_lt
    have bound' := b.toNat_lt
    have bound'' := c.toNat_lt
    simp only [encode, List.filterMap_cons]
    rw [valueOf_digit (by omega), valueOf_digit (by omega), valueOf_digit (by omega),
      valueOf_digit (by omega)]
    simp only [bytesOf, List.cons.injEq]
    exact ⟨ofNat_eq (by omega), ofNat_eq (by omega), ofNat_eq (by omega), inductionHypothesis⟩

/-- Only characters of the alphabet are written. -/
theorem encode_alphabet (bytes : List UInt8) : ∀ char ∈ encode bytes, char ∈ alphabet := by
  induction bytes using encode.induct with
  | case1 => exact List.forall_mem_nil _
  | case2 a =>
    have bound := a.toNat_lt
    simp only [encode, List.forall_mem_cons]
    exact ⟨digit_mem (by omega), digit_mem (by omega), List.forall_mem_nil _⟩
  | case3 a b =>
    have bound := a.toNat_lt
    have bound' := b.toNat_lt
    simp only [encode, List.forall_mem_cons]
    exact ⟨digit_mem (by omega), digit_mem (by omega), digit_mem (by omega), List.forall_mem_nil _⟩
  | case4 a b c rest inductionHypothesis =>
    have bound := a.toNat_lt
    have bound' := b.toNat_lt
    have bound'' := c.toNat_lt
    simp only [encode, List.forall_mem_cons]
    exact ⟨digit_mem (by omega), digit_mem (by omega), digit_mem (by omega), digit_mem (by omega),
      inductionHypothesis⟩

/-- The first byte makes the first character. -/
theorem encode_cons (byte : UInt8) (bytes : List UInt8) :
    ∃ more, encode (byte :: bytes) = digit (byte.toNat / 4) :: more := by
  cases bytes with
  | nil => exact ⟨_, rfl⟩
  | cons second rest =>
    cases rest with
    | nil => exact ⟨_, rfl⟩
    | cons third rest => exact ⟨_, rfl⟩

/-- Bytes that differ are written differently. -/
theorem encode_injective : Function.Injective encode := by
  intro first second same
  rw [← decode_encode first, same, decode_encode]

/-- Only nothing is written as nothing. -/
theorem encode_eq_nil {bytes : List UInt8} : encode bytes = [] ↔ bytes = [] := by
  constructor
  · intro empty
    exact encode_injective (empty.trans rfl)
  · rintro rfl
    rfl

/-- Both alphabets are read, and padding is passed over. -/
example : encode [0xFB, 0xFF] = "-_8".toList ∧ decode "+/8=".toList = [0xFB, 0xFF] := by decide

end Base64url

end Notifkit
