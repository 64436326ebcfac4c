import Mathlib.Data.List.TakeWhile
import Mathlib.Data.Nat.Digits.Defs
import Mathlib.Tactic.Ring

/-!
# Decimal numbers with a fixed point

`fixedText scale number` is the text of `number / 10 ^ scale` with `scale` digits
after the point.  `sumPlaces` is the number that stands in a buffer of places,
the lowest place first, when the places need not be digits yet.
-/

namespace RedshiftOdbc.Decimal

/-- The `count` lowest digits of a number. -/
def lastDigits : Nat → Nat → List Char
  | 0, _ => []
  | count + 1, number => lastDigits count (number / 10) ++ [Nat.digitChar (number % 10)]

/-- The text of `number / 10 ^ scale`. -/
def fixedText (scale number : Nat) : List Char :=
  Nat.toDigits 10 (number / 10 ^ scale) ++
    if scale = 0 then [] else '.' :: lastDigits scale number

@[simp]
theorem lastDigits_length (count number : Nat) : (lastDigits count number).length = count := by
  induction count generalizing number with
  | zero => rfl
  | succ count ih => simp [lastDigits, ih]

/-- The digits from the highest one down. -/
theorem lastDigits_succ (count number : Nat) : lastDigits (count + 1) number =
    Nat.digitChar (number / 10 ^ count % 10) :: lastDigits count number := by
  induction count generalizing number with
  | zero => simp [lastDigits]
  | succ count ih =>
      rw [lastDigits, ih, lastDigits, Nat.div_div_eq_div_mul, ← Nat.pow_succ', List.cons_append]

/-- As many digits as a number has are its text. -/
theorem lastDigits_eq_toDigits {count number : Nat} (some_digit : 0 < count)
    (fits : number < 10 ^ count) (full : count = 1 ∨ 10 ^ (count - 1) ≤ number) :
    lastDigits count number = Nat.toDigits 10 number := by
  induction count generalizing number with
  | zero => omega
  | succ count ih =>
      cases count with
      | zero =>
          have small : number < 10 := by simpa using fits
          rw [Nat.toDigits_of_lt_base small, lastDigits, lastDigits, Nat.mod_eq_of_lt small]
          rfl
      | succ count =>
          rw [Nat.add_sub_cancel] at full
          have large : 10 ^ (count + 1) ≤ number := by omega
          have base : 10 ≤ number := by
            rw [Nat.pow_succ] at large
            have one := Nat.one_le_pow count 10 (by decide)
            omega
          rw [Nat.toDigits_of_base_le (by decide) base, lastDigits,
            ih (by omega) (Nat.div_lt_of_lt_mul (by rwa [← Nat.pow_succ'])) ?_]
          refine Or.inr ((Nat.le_div_iff_mul_le (by decide)).mpr ?_)
          rwa [Nat.add_sub_cancel, ← Nat.pow_succ]

/-! ## Reading a text back -/

theorem digitChar_inj {first second : Nat} (small : first < 10) (other : second < 10)
    (same : Nat.digitChar first = Nat.digitChar second) : first = second := by
  have numbers := congrArg Char.toNat same
  have low := Nat.toNat_digitChar_sub_48_of_lt_ten small
  have high := Nat.toNat_digitChar_sub_48_of_lt_ten other
  omega

theorem lastDigits_inj {count first second : Nat}
    (same : lastDigits count first = lastDigits count second) :
    first % 10 ^ count = second % 10 ^ count := by
  induction count generalizing first second with
  | zero => rw [Nat.pow_zero, Nat.mod_one, Nat.mod_one]
  | succ count ih =>
      obtain ⟨init, last⟩ := List.append_inj' same rfl
      have digit := digitChar_inj (Nat.mod_lt _ (by decide)) (Nat.mod_lt _ (by decide))
        (List.cons.inj last).1
      rw [Nat.pow_succ', Nat.mod_mul, Nat.mod_mul, ih init, digit]

theorem toDigits_no_point (number : Nat) : ∀ character ∈ Nat.toDigits 10 number,
    character ≠ '.' := by
  rintro character member rfl
  exact absurd (Nat.isDigit_of_mem_toDigits (by decide) (by decide) member) (by decide)

/-- A text that begins like that of a number with fewer digits stands for more. -/
theorem toDigits_prefix {number longer : Nat} {rest : List Char} (bound : longer < 10 * number)
    (same : Nat.toDigits 10 longer = Nat.toDigits 10 number ++ rest) : longer = number := by
  have value := congrArg (fun text => Nat.ofDigitChars 10 text 0) same
  simp only [Nat.ofDigitChars_append, Nat.ofDigitChars_ten_toDigits] at value
  rw [Nat.ofDigitChars_eq_ofDigitChars_zero] at value
  cases rest with
  | nil => simpa using value
  | cons character rest =>
      have one := Nat.one_le_pow rest.length 10 (by decide)
      have more := Nat.mul_le_mul_right (10 * number) one
      rw [List.length_cons, Nat.pow_succ, Nat.mul_assoc] at value
      omega

/-- Below ten times the number, no other text with the same scale begins with its text. -/
theorem fixedText_prefix {scale number other : Nat} {rest : List Char}
    (bound : other < 10 * number)
    (same : fixedText scale other = fixedText scale number ++ rest) : other = number := by
  unfold fixedText at same
  by_cases whole : scale = 0
  · subst whole
    simp only [if_pos, Nat.pow_zero, Nat.div_one, List.append_nil] at same
    exact toDigits_prefix bound same
  · rw [if_neg whole, if_neg whole, List.append_assoc, List.cons_append] at same
    have front : ∀ (value : Nat) (tail : List Char),
        (Nat.toDigits 10 value ++ '.' :: tail).takeWhile (fun character => character ≠ '.') =
          Nat.toDigits 10 value := by
      intro value tail
      rw [List.takeWhile_append_of_pos]
      · simp
      · intro character member
        simpa using toDigits_no_point value character member
    have high := congrArg (List.takeWhile fun character => character ≠ '.') same
    rw [front, front] at high
    rw [high] at same
    have tails := (List.cons.inj (List.append_cancel_left same)).2
    have lengths := congrArg List.length tails
    rw [List.length_append, lastDigits_length, lastDigits_length] at lengths
    have none : rest = [] := List.eq_nil_of_length_eq_zero (by omega)
    rw [none, List.append_nil] at tails
    have numbers := congrArg (fun text => Nat.ofDigitChars 10 text 0) high
    simp only [Nat.ofDigitChars_ten_toDigits] at numbers
    rw [← Nat.div_add_mod other (10 ^ scale), ← Nat.div_add_mod number (10 ^ scale), numbers,
      lastDigits_inj tails]

/-! ## Places of a buffer -/

/-- The number in the `count` lowest places. -/
def sumPlaces (places : Nat → Nat) : Nat → Nat
  | 0 => 0
  | count + 1 => sumPlaces places count + places count * 10 ^ count

theorem sumPlaces_congr {first second : Nat → Nat} {count : Nat}
    (same : ∀ place < count, first place = second place) :
    sumPlaces first count = sumPlaces second count := by
  induction count with
  | zero => rfl
  | succ count ih =>
      rw [sumPlaces, sumPlaces, ih fun place below => same place (by omega),
        same count (by omega)]

/-- What setting one place changes. -/
theorem sumPlaces_update (places : Nat → Nat) {place count : Nat} (inside : place < count)
    (value : Nat) :
    sumPlaces (Function.update places place value) count + places place * 10 ^ place =
      sumPlaces places count + value * 10 ^ place := by
  induction count with
  | zero => omega
  | succ count ih =>
      rw [sumPlaces, sumPlaces]
      by_cases last : place = count
      · subst last
        have below : sumPlaces (Function.update places place value) place =
            sumPlaces places place := by
          refine sumPlaces_congr ?_
          intro other less
          exact Function.update_of_ne (by omega) _ _
        rw [below, Function.update_self]
        omega
      · have step := ih (by omega)
        rw [Function.update_of_ne (by omega)]
        omega

theorem le_sumPlaces (places : Nat → Nat) {place count : Nat} (inside : place < count) :
    places place * 10 ^ place ≤ sumPlaces places count := by
  induction count with
  | zero => omega
  | succ count ih =>
      rw [sumPlaces]
      by_cases last : place = count
      · subst last
        omega
      · have step := ih (by omega)
        omega

/-- Zeros above do not count. -/
theorem sumPlaces_zeros {places : Nat → Nat} {low count : Nat} (le : low ≤ count)
    (zeros : ∀ place, low ≤ place → places place = 0) :
    sumPlaces places count = sumPlaces places low := by
  induction count with
  | zero =>
      have same : low = 0 := by omega
      rw [same]
  | succ count ih =>
      by_cases all : low = count + 1
      · rw [all]
      · rw [sumPlaces, zeros count (by omega), ih (by omega)]
        omega

theorem sumPlaces_lt {places : Nat → Nat} (digits : ∀ place, places place ≤ 9) (count : Nat) :
    sumPlaces places count < 10 ^ count := by
  induction count with
  | zero => exact Nat.one_pos
  | succ count ih =>
      have top := Nat.mul_le_mul_right (10 ^ count) (digits count)
      rw [sumPlaces, Nat.pow_succ]
      omega

/-- Places that are digits are the digits of the number. -/
theorem digit_eq {places : Nat → Nat} (digits : ∀ place, places place ≤ 9) {place count : Nat}
    (inside : place < count) :
    places place = sumPlaces places count / 10 ^ place % 10 := by
  induction count with
  | zero => omega
  | succ count ih =>
      rw [sumPlaces]
      by_cases last : place = count
      · subst last
        have below := sumPlaces_lt digits place
        have digit := digits place
        rw [Nat.add_mul_div_right _ _ (Nat.pow_pos (by decide)), Nat.div_eq_of_lt below]
        omega
      · have power : 10 ^ count = 10 * 10 ^ (count - place - 1) * 10 ^ place := by
          rw [← Nat.pow_succ', ← Nat.pow_add]
          congr 1
          omega
        rw [power, ← Nat.mul_assoc, Nat.add_mul_div_right _ _ (Nat.pow_pos (by decide)),
          ← Nat.mul_assoc, Nat.mul_comm (places count) 10, Nat.mul_assoc,
          Nat.add_mul_mod_self_left]
        exact ih (by omega)

end RedshiftOdbc.Decimal
