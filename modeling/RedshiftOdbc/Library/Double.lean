import Mathlib.Data.Int.Log
import Mathlib.Data.Rat.Floor
import Mathlib.Tactic.FieldSimp
import Mathlib.Tactic.Linarith
import Mathlib.Tactic.Positivity
import Mathlib.Tactic.Ring

/-!
# Rounding to a 53-bit significand

The values of type `double` that are neither tiny nor huge: a sign and a
magnitude with a significand of 53 bits.  Rounding goes to the nearest multiple
of the last place, to an even multiple when two are equally near.
-/

namespace RedshiftOdbc.Double

/-- The nearest integer, of two equally near ones the even one. -/
def nearestEven (number : ℚ) : ℤ :=
  if number - ⌊number⌋ < 1 / 2 then ⌊number⌋
  else if number - ⌊number⌋ = 1 / 2 ∧ ⌊number⌋ % 2 = 0 then ⌊number⌋
  else ⌊number⌋ + 1

def nearestMultiple (unit number : ℚ) : ℚ := nearestEven (number / unit) * unit

/-- What the last of 53 bits of a positive number stands for. -/
def lastPlace (number : ℚ) : ℚ := 2 ^ (Int.log 2 number - 52)

/-- A positive number with a significand of 53 bits, or zero. -/
def round53 (number : ℚ) : ℚ := nearestMultiple (lastPlace number) number

/-- The distance between `nearestEven` and the number. -/
theorem nearestEven_near (number : ℚ) : |(nearestEven number : ℚ) - number| ≤ 1 / 2 := by
  have low := Int.floor_le number
  have high := Int.lt_floor_add_one number
  rw [nearestEven]
  split
  · next less =>
      rw [abs_le]
      constructor <;> linarith
  · next more =>
      rw [not_lt] at more
      split
      · next tie =>
          rw [abs_le]
          constructor <;> linarith [tie.1]
      · push_cast
        rw [abs_le]
        constructor <;> linarith

/-- A number nearer than half the way to an integer is rounded to it. -/
theorem nearestEven_eq {number : ℚ} {integer : ℤ} (near : |(integer : ℚ) - number| < 1 / 2) :
    nearestEven number = integer := by
  have bound := nearestEven_near number
  rw [abs_lt] at near
  rw [abs_le] at bound
  have below : ((nearestEven number - integer : ℤ) : ℚ) < 1 := by
    push_cast
    linarith
  have above : (-1 : ℚ) < ((nearestEven number - integer : ℤ) : ℚ) := by
    push_cast
    linarith
  have less : nearestEven number - integer < 1 := by exact_mod_cast below
  have more : -1 < nearestEven number - integer := by exact_mod_cast above
  omega

@[simp]
theorem nearestEven_intCast (integer : ℤ) : nearestEven (integer : ℚ) = integer :=
  nearestEven_eq (by simp)

theorem le_nearestEven {integer : ℤ} {number : ℚ} (le : (integer : ℚ) ≤ number) :
    integer ≤ nearestEven number := by
  have near := (abs_le.mp (nearestEven_near number)).1
  have less : ((integer - 1 : ℤ) : ℚ) < nearestEven number := by
    push_cast
    linarith
  have integers := Int.cast_lt.mp less
  omega

theorem nearestEven_le {integer : ℤ} {number : ℚ} (le : number ≤ integer) :
    nearestEven number ≤ integer := by
  have near := (abs_le.mp (nearestEven_near number)).2
  have less : (nearestEven number : ℚ) < ((integer + 1 : ℤ) : ℚ) := by
    push_cast
    linarith
  have integers := Int.cast_lt.mp less
  omega

theorem nearestEven_nonneg {number : ℚ} (nonneg : 0 ≤ number) : 0 ≤ nearestEven number := by
  have floor := Int.floor_nonneg.mpr nonneg
  rw [nearestEven]
  split
  · exact floor
  · split <;> omega

theorem lastPlace_pos (number : ℚ) : 0 < lastPlace number := zpow_pos (by norm_num) _

/-- A multiple of the unit stays. -/
theorem nearestMultiple_mul {unit : ℚ} (nonzero : unit ≠ 0) (integer : ℤ) :
    nearestMultiple unit (integer * unit) = integer * unit := by
  rw [nearestMultiple, mul_div_cancel_right₀ _ nonzero, nearestEven_intCast]

/-- Rounding a quotient is rounding the dividend to a multiple of a larger unit. -/
theorem mul_nearestMultiple_div (factor unit number : ℚ) :
    factor * nearestMultiple unit (number / factor) =
      nearestMultiple (factor * unit) number := by
  rw [nearestMultiple, nearestMultiple, div_div]
  ring

@[simp]
theorem round53_zero : round53 0 = 0 := by
  have zero := nearestMultiple_mul (lastPlace_pos 0).ne' 0
  rwa [Int.cast_zero, zero_mul] at zero

theorem round53_nonneg {number : ℚ} (nonneg : 0 ≤ number) : 0 ≤ round53 number := by
  have unit := lastPlace_pos number
  have quotient := nearestEven_nonneg (div_nonneg nonneg unit.le)
  have cast : (0 : ℚ) ≤ nearestEven (number / lastPlace number) := by exact_mod_cast quotient
  exact mul_nonneg cast unit.le

/-- The last place is small against the number. -/
theorem lastPlace_le {number : ℚ} (positive : 0 < number) : lastPlace number ≤ number / 2 ^ 52 := by
  have below := Int.zpow_log_le_self (b := 2) (by decide) positive
  have split : lastPlace number = (2 : ℚ) ^ Int.log 2 number / 2 ^ 52 := by
    rw [lastPlace, zpow_sub₀ (by norm_num)]
    rfl
  rw [split]
  push_cast at below
  gcongr

/-- The absolute error of rounding. -/
theorem round53_near_lastPlace (number : ℚ) :
    |round53 number - number| ≤ lastPlace number / 2 := by
  have unit := lastPlace_pos number
  have near := nearestEven_near (number / lastPlace number)
  have difference : round53 number - number =
      (nearestEven (number / lastPlace number) - number / lastPlace number) *
        lastPlace number := by
    rw [round53, nearestMultiple, sub_mul, div_mul_cancel₀ _ unit.ne']
  calc |round53 number - number|
      = |(nearestEven (number / lastPlace number) : ℚ) - number / lastPlace number| *
          lastPlace number := by rw [difference, abs_mul, abs_of_pos unit]
    _ ≤ 1 / 2 * lastPlace number := by gcongr
    _ = lastPlace number / 2 := by ring

/-- The relative error of rounding. -/
theorem round53_near {number : ℚ} (nonneg : 0 ≤ number) :
    |round53 number - number| ≤ number / 2 ^ 53 := by
  rcases nonneg.eq_or_lt with zero | positive
  · rw [← zero]
    simp
  · have place := lastPlace_le positive
    have near := round53_near_lastPlace number
    calc |round53 number - number| ≤ lastPlace number / 2 := near
      _ ≤ number / 2 ^ 52 / 2 := by gcongr
      _ = number / 2 ^ 53 := by ring

theorem round53_le {number : ℚ} (nonneg : 0 ≤ number) : round53 number ≤ 2 * number := by
  have near := (abs_le.mp (round53_near nonneg)).2
  have small : number / 2 ^ 53 ≤ number := div_le_self nonneg (by norm_num)
  linarith

/-- A number with at most 53 significant bits. -/
def HasSignificand (number : ℚ) : Prop :=
  ∃ significand : ℕ, ∃ exponent : ℤ, significand < 2 ^ 53 ∧ number = significand * 2 ^ exponent

/-- A number with at most 53 significant bits is not changed. -/
theorem HasSignificand.round53 {number : ℚ} (representable : HasSignificand number) :
    round53 number = number := by
  obtain ⟨significand, exponent, narrow, rfl⟩ := representable
  rcases Nat.eq_zero_or_pos significand with zero | positive
  · rw [zero]
    simp
  · have some : (0 : ℚ) < significand := by exact_mod_cast positive
    have power : (0 : ℚ) < 2 ^ exponent := zpow_pos (by norm_num) _
    have number : (0 : ℚ) < significand * 2 ^ exponent := mul_pos some power
    have log_lt : Int.log 2 ((significand : ℚ) * 2 ^ exponent) < 53 + exponent := by
      rw [← Int.lt_zpow_iff_log_lt (by decide) number]
      push_cast
      rw [zpow_add₀ (by norm_num)]
      have bound : (significand : ℚ) < 2 ^ 53 := by exact_mod_cast narrow
      exact mul_lt_mul_of_pos_right bound power
    obtain ⟨rest, room⟩ := Int.eq_ofNat_of_zero_le
      (show 0 ≤ 52 + exponent - Int.log 2 ((significand : ℚ) * 2 ^ exponent) by omega)
    have multiple : (significand : ℚ) * 2 ^ exponent =
        ((significand * 2 ^ rest : ℕ) : ℤ) *
          lastPlace ((significand : ℚ) * 2 ^ exponent) := by
      have exponents : exponent =
          rest + (Int.log 2 ((significand : ℚ) * 2 ^ exponent) - 52) := by omega
      have powers : (2 : ℚ) ^ exponent =
          2 ^ rest * lastPlace ((significand : ℚ) * 2 ^ exponent) := by
        rw [lastPlace, ← zpow_natCast 2 rest, ← zpow_add₀ (by norm_num), ← exponents]
      push_cast
      rw [mul_assoc, ← powers]
    rw [Double.round53]
    nth_rewrite 2 [multiple]
    rw [nearestMultiple_mul (lastPlace_pos _).ne', ← multiple]

theorem round53_exact {significand : ℕ} (narrow : significand < 2 ^ 53) (exponent : ℕ) :
    round53 (significand * 2 ^ exponent) = significand * 2 ^ exponent :=
  HasSignificand.round53 ⟨significand, exponent, narrow, by rw [zpow_natCast]⟩

/-- A positive number is below the power of two that its last place stands for. -/
theorem lt_lastPlace (number : ℚ) : number < lastPlace number * 2 ^ 53 := by
  have above := Int.lt_zpow_succ_log_self (by decide : 1 < 2) number
  have split : ((2 : ℕ) : ℚ) ^ (Int.log 2 number + 1) = lastPlace number * 2 ^ 53 := by
    rw [lastPlace, ← zpow_natCast 2 53, ← zpow_add₀ (by norm_num)]
    congr 1
    push_cast
    ring
  rwa [split] at above

/-- On the grid of a unit up to one a whole number is not rounded to another one. -/
theorem nearestEven_multiple {unit : ℚ} (positive : 0 < unit) (fine : unit ≤ 1) (integer : ℤ) :
    nearestEven (nearestMultiple unit integer) = integer := by
  rcases fine.eq_or_lt with one | less
  · have same := @nearestMultiple_mul 1 one_ne_zero integer
    rw [mul_one] at same
    rw [one, same, nearestEven_intCast]
  · refine nearestEven_eq ?_
    have near := nearestEven_near (integer / unit)
    have difference : (integer : ℚ) - nearestMultiple unit integer =
        -((nearestEven (integer / unit) - integer / unit) * unit) := by
      rw [nearestMultiple, sub_mul, div_mul_cancel₀ _ positive.ne']
      ring
    rw [difference, abs_neg, abs_mul, abs_of_pos positive]
    calc |(nearestEven (integer / unit) : ℚ) - integer / unit| * unit
        ≤ 1 / 2 * unit := by gcongr
      _ < 1 / 2 := by linarith

/-- What is rounded has at most 53 significant bits. -/
theorem hasSignificand_round53 {number : ℚ} (nonneg : 0 ≤ number) :
    HasSignificand (round53 number) := by
  have unit := lastPlace_pos number
  have bound : number / lastPlace number ≤ ((2 ^ 53 : ℤ) : ℚ) := by
    rw [div_le_iff₀ unit]
    push_cast
    linarith [lt_lastPlace number]
  have low := nearestEven_nonneg (div_nonneg nonneg unit.le)
  have high := nearestEven_le bound
  rw [round53, nearestMultiple]
  generalize nearestEven (number / lastPlace number) = multiple at low high
  rcases high.lt_or_eq with less | equal
  · refine ⟨multiple.toNat, Int.log 2 number - 52, by omega, ?_⟩
    have same : ((multiple.toNat : ℤ) : ℚ) = multiple := by rw [Int.toNat_of_nonneg low]
    rw [lastPlace, ← same, Int.cast_natCast]
  · refine ⟨1, Int.log 2 number + 1, by decide, ?_⟩
    have exponents : Int.log 2 number + 1 = 53 + (Int.log 2 number - 52) := by ring
    rw [equal, lastPlace, exponents, zpow_add₀ (by norm_num)]
    push_cast
    norm_num

/-- A `double`, or a number that is more than half a last place below the next integer. -/
def KeepsWhole (number : ℚ) : Prop :=
  HasSignificand number ∨ number + lastPlace number / 2 < ⌊number⌋ + 1

/-- Rounding keeps the whole part. -/
theorem KeepsWhole.floor_round53 {number : ℚ} (keeps : KeepsWhole number) :
    ⌊round53 number⌋ = ⌊number⌋ := by
  rcases keeps with exact53 | below
  · rw [exact53.round53]
  · have unit := lastPlace_pos number
    have near := (abs_le.mp (round53_near_lastPlace number)).2
    have floor := Int.floor_le number
    refine Int.floor_eq_iff.mpr ⟨?_, by linarith⟩
    -- The last place divides one, so the integer below is a multiple of it.
    have small : Int.log 2 number - 52 ≤ 0 := by
      by_contra large
      have two : (2 : ℚ) ^ (1 : ℤ) ≤ lastPlace number :=
        zpow_le_zpow_right₀ (by norm_num) (by omega)
      rw [zpow_one] at two
      linarith
    obtain ⟨places, exponent⟩ := Int.eq_ofNat_of_zero_le (show 0 ≤ -(Int.log 2 number - 52) by omega)
    have inverse : lastPlace number * 2 ^ places = 1 := by
      rw [lastPlace, ← zpow_natCast, ← zpow_add₀ (by norm_num)]
      have zero : Int.log 2 number - 52 + (places : ℤ) = 0 := by
        rw [← exponent]
        ring
      rw [zero, zpow_zero]
    have multiple : ((⌊number⌋ * 2 ^ places : ℤ) : ℚ) ≤ number / lastPlace number := by
      rw [le_div_iff₀ unit]
      push_cast
      calc (⌊number⌋ : ℚ) * 2 ^ places * lastPlace number
          = ⌊number⌋ * (lastPlace number * 2 ^ places) := by ring
        _ = ⌊number⌋ := by rw [inverse, mul_one]
        _ ≤ number := floor
    have rounded : ((⌊number⌋ * 2 ^ places : ℤ) : ℚ) ≤ nearestEven (number / lastPlace number) :=
      Int.cast_le.mpr (le_nearestEven multiple)
    calc (⌊number⌋ : ℚ) = ((⌊number⌋ * 2 ^ places : ℤ) : ℚ) * lastPlace number := by
          push_cast
          rw [mul_assoc, mul_comm _ (lastPlace number), inverse, mul_one]
      _ ≤ nearestEven (number / lastPlace number) * lastPlace number := by gcongr
      _ = round53 number := rfl

/-- A natural number whose rounding has it as whole part is a `double`. -/
theorem hasSignificand_of_floor {number : ℕ} (whole : ⌊round53 (number : ℚ)⌋ = number) :
    HasSignificand number := by
  have nonneg : (0 : ℚ) ≤ number := number.cast_nonneg
  by_cases narrow : number < 2 ^ 53
  · exact ⟨number, 0, narrow, by simp⟩
  · -- From `2 ^ 53` on the last place is a whole number, and with it the rounding.
    have positive : (0 : ℚ) < number := by exact_mod_cast (by omega : 0 < number)
    have large : 0 ≤ Int.log 2 (number : ℚ) - 52 := by
      have bound : ((2 : ℕ) : ℚ) ^ (53 : ℤ) ≤ number := by
        rw [show (53 : ℤ) = ((53 : ℕ) : ℤ) from rfl, zpow_natCast]
        exact_mod_cast (by omega : 2 ^ 53 ≤ number)
      have log := (Int.zpow_le_iff_le_log (by decide) positive).mp bound
      omega
    obtain ⟨places, exponent⟩ := Int.eq_ofNat_of_zero_le large
    have integer : round53 (number : ℚ) =
        ((nearestEven ((number : ℚ) / lastPlace number) * 2 ^ places : ℤ) : ℚ) := by
      rw [round53, nearestMultiple]
      push_cast
      congr 1
      rw [lastPlace, exponent, zpow_natCast]
    have same : round53 (number : ℚ) = number := by
      rw [integer, Int.floor_intCast] at whole
      rw [integer, whole, Int.cast_natCast]
    rw [← same]
    exact hasSignificand_round53 nonneg

end RedshiftOdbc.Double
