import Mathlib.Algebra.Order.Floor.Ring
import Mathlib.Data.Int.Log
import Mathlib.Data.Rat.Floor
import Mathlib.Tactic.Linarith
import Mathlib.Tactic.NormNum
import Mathlib.Tactic.Positivity

/-!
# Numbers as the services hold them

A number of the services, and of their scripts, has a significand of 53 bits. The result of an
arithmetic operation is the nearest such number to the exact result, and of two that are equally
near the one with an even significand. The exponent is not bounded here: nothing below comes near
its bounds.

What the services rely on: rounding keeps the order, and integers of up to 53 bits are exact.
-/

namespace Notifkit.Double

/-- The nearest integer; of two that are equally near, the even one. -/
def roundEven (exact : Rat) : Int :=
  let below := ⌊exact⌋
  if exact - below < 1 / 2 then below
  else if 1 / 2 < exact - below then below + 1
  else below + below % 2

/-- The value of the last place of a number. -/
def lastPlace (exact : Rat) : Rat := 2 ^ (Int.log 2 exact - 52)

/-- The nearest number with a significand of 53 bits, for an exact value that is not negative. -/
def nearest (exact : Rat) : Rat := roundEven (exact / lastPlace exact) * lastPlace exact

/-- An integer is its own nearest. -/
@[simp] theorem roundEven_intCast (value : Int) : roundEven value = value := by
  simp [roundEven]

/-- The nearest integer is the one below or the one above. -/
theorem roundEven_bounds (exact : Rat) :
    ⌊exact⌋ ≤ roundEven exact ∧ roundEven exact ≤ ⌊exact⌋ + 1 := by
  have parity : 0 ≤ ⌊exact⌋ % 2 ∧ ⌊exact⌋ % 2 < 2 :=
    ⟨Int.emod_nonneg _ (by decide), Int.emod_lt_of_pos _ (by decide)⟩
  unfold roundEven
  dsimp only
  split
  · omega
  · split <;> omega

/-- Rounding to an integer keeps the order. -/
theorem roundEven_mono {small large : Rat} (order : small ≤ large) :
    roundEven small ≤ roundEven large := by
  have floors : ⌊small⌋ ≤ ⌊large⌋ := Int.floor_mono order
  rcases floors.lt_or_eq with apart | same
  · have above := (roundEven_bounds small).2
    have below := (roundEven_bounds large).1
    omega
  · have parity : 0 ≤ ⌊large⌋ % 2 ∧ ⌊large⌋ % 2 < 2 :=
      ⟨Int.emod_nonneg _ (by decide), Int.emod_lt_of_pos _ (by decide)⟩
    unfold roundEven
    dsimp only
    rw [same]
    split_ifs with first second third fourth fifth
    all_goals first | omega | (exfalso; linarith)

theorem lastPlace_pos (exact : Rat) : 0 < lastPlace exact := zpow_pos (by norm_num) _

/-- A power of two so many places above the last. -/
theorem places_mul_lastPlace (places : Nat) (exact : Rat) :
    ((2 ^ places : Int) : Rat) * lastPlace exact = 2 ^ (Int.log 2 exact - 52 + places) := by
  rw [lastPlace, zpow_add₀ two_ne_zero, zpow_natCast, mul_comm]
  push_cast
  rfl

theorem nearest_zero : nearest 0 = 0 := by
  have zero : roundEven 0 = 0 := by exact_mod_cast roundEven_intCast 0
  simp [nearest, zero]

/-- A number that is so many last places is its own nearest. -/
theorem nearest_of_scaled {exact : Rat} (scaled : Int)
    (integral : exact / lastPlace exact = scaled) : nearest exact = exact := by
  rw [nearest, integral, roundEven_intCast, ← integral]
  exact div_mul_cancel₀ exact (lastPlace_pos exact).ne'

/-- An integer of at most 53 bits is exact. -/
theorem nearest_natCast {value : Nat} (small : value ≤ 2 ^ 53) : nearest value = value := by
  rcases Nat.eq_zero_or_pos value with rfl | positive
  · exact_mod_cast nearest_zero
  · have log : Int.log 2 (value : Rat) = Nat.log 2 value := Int.log_natCast 2 value
    have fits : Nat.log 2 value ≤ 53 := by
      calc Nat.log 2 value ≤ Nat.log 2 (2 ^ 53) := Nat.log_mono_right small
        _ = 53 := Nat.log_pow (by decide) 53
    rcases Nat.lt_or_ge (Nat.log 2 value) 53 with inside | full
    · apply nearest_of_scaled (value * 2 ^ (52 - Nat.log 2 value))
      rw [lastPlace, log]
      have shift : ((Nat.log 2 value : Int) - 52) = -((52 - Nat.log 2 value : Nat) : Int) := by omega
      rw [shift, zpow_neg, zpow_natCast, div_inv_eq_mul]
      push_cast
      rfl
    · have large : 2 ^ 53 ≤ value := by
        have least : 2 ^ Nat.log 2 value ≤ value := Nat.pow_log_le_self 2 positive.ne'
        rwa [Nat.le_antisymm fits full] at least
      obtain rfl : value = 2 ^ 53 := Nat.le_antisymm small large
      apply nearest_of_scaled (2 ^ 52)
      rw [lastPlace, log, Nat.le_antisymm fits full]
      norm_num

/-- A number lies between two powers of two. -/
theorem pow_log_le {exact : Rat} (positive : 0 < exact) : (2 : Rat) ^ Int.log 2 exact ≤ exact :=
  Int.zpow_log_le_self (by decide) positive

theorem lt_pow_log (exact : Rat) : exact < (2 : Rat) ^ (Int.log 2 exact + 1) :=
  Int.lt_zpow_succ_log_self (by decide) exact

/-- A number rounds to at least the power of two below it. -/
theorem pow_log_le_nearest {exact : Rat} (positive : 0 < exact) :
    (2 : Rat) ^ Int.log 2 exact ≤ nearest exact := by
  have place := lastPlace_pos exact
  have power : (2 : Rat) ^ Int.log 2 exact = ((2 ^ 52 : Int) : Rat) * lastPlace exact := by
    rw [places_mul_lastPlace]
    congr 1
    push_cast
    ring
  have scaled : ((2 ^ 52 : Int) : Rat) ≤ exact / lastPlace exact := by
    rw [le_div_iff₀ place, ← power]
    exact pow_log_le positive
  have rounded := roundEven_mono scaled
  rw [roundEven_intCast] at rounded
  rw [power, nearest]
  exact mul_le_mul_of_nonneg_right (by exact_mod_cast rounded) place.le

/-- A number rounds to at most the power of two above it. -/
theorem nearest_le_pow_log (exact : Rat) :
    nearest exact ≤ (2 : Rat) ^ (Int.log 2 exact + 1) := by
  have place := lastPlace_pos exact
  have power : (2 : Rat) ^ (Int.log 2 exact + 1) = ((2 ^ 53 : Int) : Rat) * lastPlace exact := by
    rw [places_mul_lastPlace]
    congr 1
    push_cast
    ring
  have scaled : exact / lastPlace exact ≤ ((2 ^ 53 : Int) : Rat) := by
    rw [div_le_iff₀ place, ← power]
    exact (lt_pow_log exact).le
  have rounded := roundEven_mono scaled
  rw [roundEven_intCast] at rounded
  rw [power, nearest]
  exact mul_le_mul_of_nonneg_right (by exact_mod_cast rounded) place.le

/-- Rounding keeps the order of numbers that are not negative. -/
theorem nearest_mono {small large : Rat} (nonneg : 0 ≤ small) (order : small ≤ large) :
    nearest small ≤ nearest large := by
  rcases nonneg.eq_or_lt with rfl | positive
  · rw [nearest_zero]
    rcases order.eq_or_lt with rfl | above
    · exact nearest_zero.ge
    · exact (zpow_pos two_pos _).le.trans (pow_log_le_nearest above)
  · have logs : Int.log 2 small ≤ Int.log 2 large := Int.log_mono_right positive order
    rcases logs.lt_or_eq with apart | same
    · calc nearest small ≤ (2 : Rat) ^ (Int.log 2 small + 1) := nearest_le_pow_log small
        _ ≤ (2 : Rat) ^ Int.log 2 large := zpow_le_zpow_right₀ (by norm_num) apart
        _ ≤ nearest large := pow_log_le_nearest (positive.trans_le order)
    · have places : lastPlace small = lastPlace large := by rw [lastPlace, lastPlace, same]
      have place := lastPlace_pos large
      rw [nearest, nearest, places]
      apply mul_le_mul_of_nonneg_right _ place.le
      exact_mod_cast roundEven_mono (div_le_div_of_nonneg_right order place.le)

/-- Rounding gives nothing negative for what is not negative. -/
theorem nearest_nonneg {exact : Rat} (nonneg : 0 ≤ exact) : 0 ≤ nearest exact := by
  have order := nearest_mono le_rfl nonneg
  rwa [nearest_zero] at order

end Notifkit.Double
