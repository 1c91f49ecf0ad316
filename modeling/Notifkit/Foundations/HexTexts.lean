import Notifkit.Foundations.Text

/-!
# Octets as hexadecimal digits

Each octet is written as two digits. Reading stops before the first pair that is not one of digits, and
drops a digit that stands alone at the end.
-/

namespace Notifkit.HexTexts

abbrev Octets := List (Fin 256)

def digit (value : Nat) : Char := "0123456789abcdef".toList.getD value '0'

/-- `buffer.toString("hex")` -/
def toHex (octets : Octets) : Text :=
  octets.flatMap fun octet => [digit (octet.val / 16), digit (octet.val % 16)]

/-- `Buffer.from(text, "hex")` -/
def fromHex : Text → Octets
  | high :: low :: rest =>
    match Text.hexValue high, Text.hexValue low with
    | some high, some low => Fin.ofNat 256 (high * 16 + low) :: fromHex rest
    | _, _ => []
  | _ => []

theorem hexValue_digit {value : Nat} (small : value < 16) :
    Text.hexValue (digit value) = some value := by
  have all : ∀ value < 16, Text.hexValue (digit value) = some value := by decide
  exact all value small

/-- What is written is read back. -/
theorem fromHex_toHex (octets : Octets) : fromHex (toHex octets) = octets := by
  induction octets with
  | nil => rfl
  | cons octet rest inductionHypothesis =>
    have high : octet.val / 16 < 16 := by omega
    have low : octet.val % 16 < 16 := Nat.mod_lt _ (by decide)
    have whole : octet.val / 16 * 16 + octet.val % 16 = octet.val := Nat.div_add_mod' _ _
    have same : Fin.ofNat 256 octet.val = octet := Fin.ext (Nat.mod_eq_of_lt octet.isLt)
    calc fromHex (toHex (octet :: rest))
        = fromHex (digit (octet.val / 16) :: digit (octet.val % 16) :: toHex rest) := rfl
      _ = Fin.ofNat 256 (octet.val / 16 * 16 + octet.val % 16) :: fromHex (toHex rest) := by
        rw [fromHex, hexValue_digit high, hexValue_digit low]
      _ = octet :: rest := by rw [whole, same, inductionHypothesis]

/-- Some octets leave some text. -/
theorem toHex_ne_nil {octets : Octets} (some : octets ≠ []) : toHex octets ≠ [] := by
  cases octets with
  | nil => exact absurd rfl some
  | cons octet rest => exact List.cons_ne_nil _ _

/-- Nothing but digits is written. -/
theorem colon_notMem_toHex (octets : Octets) : ':' ∉ toHex octets := by
  have plain : ∀ value < 16, digit value ≠ ':' := by decide
  intro member
  obtain ⟨octet, _, one⟩ := List.mem_flatMap.mp member
  rcases List.mem_cons.mp one with first | last
  · exact plain _ (by omega) first.symm
  · exact plain _ (Nat.mod_lt _ (by decide)) (List.mem_singleton.mp last).symm

end Notifkit.HexTexts
