import RedshiftOdbc.Library.Decimal
import RedshiftOdbc.Library.Double
import RedshiftOdbc.Library.Printf

/-!
# Numbers in text

A number in text is a sign, digits, and a point with more digits.  `readNumber` is
the number that a whole text stands for, and `atof` the `double` nearest to the
number that a text begins with.
-/

namespace RedshiftOdbc.NumberText

open RedshiftOdbc.Decimal RedshiftOdbc.Double RedshiftOdbc.Printf RedshiftOdbc.Scanf

def withSign (negative : Bool) (magnitude : ℚ) : ℚ := if negative then -magnitude else magnitude

/-- The digits behind a point, and what follows them. -/
def fractionDigits : List Char → List Char × List Char
  | '.' :: rest => spanDigits rest.length rest
  | rest => ([], rest)

/-- The number that a text begins with, and what follows it. -/
def scanNumber (input : List Char) : Option (ℚ × List Char) :=
  let (negative, _, unsigned) := scanSign input.length input
  let (whole, rest) := spanDigits unsigned.length unsigned
  let (fraction, rest) := fractionDigits rest
  if whole = [] ∧ fraction = [] then none
  else some (withSign negative (decimal (whole ++ fraction) / 10 ^ fraction.length), rest)

def readNumber (text : List Char) : Option ℚ :=
  match scanNumber text with
  | some (value, []) => some value
  | _ => none

/-- A number as a `double` of 53 bits. -/
def toDouble (number : ℚ) : ℚ := if number < 0 then -round53 (-number) else round53 number

def truncate (number : ℚ) : ℤ := if number < 0 then -⌊-number⌋ else ⌊number⌋

/-- `atof`, for texts without an exponent, a base or a name. -/
def atof (text : List Char) : ℚ :=
  match scanNumber (skipSpace text) with
  | some (value, _) => toDouble value
  | none => 0

/-! ## Reading -/

theorem spanDigits_digits {digits rest : List Char}
    (characters : ∀ character ∈ digits, character.isDigit = true) (ends : EndsNumber rest) :
    spanDigits (digits ++ rest).length (digits ++ rest) = (digits, rest) := by
  obtain ⟨values, rfl⟩ := exists_digitText characters
  exact spanDigits_digitText (by simp) (Or.inr ends)

theorem fractionDigits_digits {fraction : List Char}
    (characters : ∀ character ∈ fraction, character.isDigit = true) :
    fractionDigits ('.' :: fraction) = (fraction, []) := by
  have all := @spanDigits_digits _ [] characters (by simp [EndsNumber])
  rwa [List.append_nil] at all

theorem scanSign_digits {digits : List Char} (negative : Bool) (some_digit : digits ≠ [])
    (characters : ∀ character ∈ digits, character.isDigit = true) (rest : List Char) :
    ∃ width, scanSign ((if negative then ['-'] else []) ++ (digits ++ rest)).length
      ((if negative then ['-'] else []) ++ (digits ++ rest)) =
        (negative, width, digits ++ rest) := by
  cases negative with
  | true => exact ⟨_, rfl⟩
  | false =>
      obtain ⟨values, rfl⟩ := exists_digitText characters
      cases values with
      | nil => exact absurd rfl some_digit
      | cons digit values =>
          obtain ⟨-, noMinus, noPlus⟩ := digitChar_plain digit
          refine ⟨(digitText (digit :: values) ++ rest).length, ?_⟩
          rw [if_neg (by decide), List.nil_append, digitText_cons, List.cons_append, scanSign]
          · intro input same
            exact noMinus (List.cons.inj same).1
          · intro input same
            exact noPlus (List.cons.inj same).1

/-- A sign, some digits, and with a point more digits. -/
theorem scanNumber_text (negative point : Bool) {whole fraction : List Char}
    (some_digit : whole ≠ []) (digits : ∀ character ∈ whole, character.isDigit = true)
    (more : ∀ character ∈ fraction, character.isDigit = true)
    (none : point = false → fraction = []) :
    scanNumber ((if negative then ['-'] else []) ++
        (whole ++ if point then '.' :: fraction else [])) =
      some (withSign negative (decimal (whole ++ fraction) / 10 ^ fraction.length), []) := by
  have tail : EndsNumber (if point then '.' :: fraction else []) ∧
      fractionDigits (if point then '.' :: fraction else []) = (fraction, []) := by
    cases point with
    | true => exact ⟨by simp [EndsNumber], fractionDigits_digits more⟩
    | false => rw [none rfl]; exact ⟨by simp [EndsNumber], rfl⟩
  obtain ⟨width, sign⟩ := scanSign_digits negative some_digit digits
    (if point then '.' :: fraction else [])
  rw [scanNumber, sign]
  dsimp only
  rw [spanDigits_digits digits tail.1]
  dsimp only
  rw [tail.2]
  dsimp only
  rw [if_neg (fun both => some_digit both.1)]

/-- A sign and some digits. -/
theorem scanNumber_digits (negative : Bool) {whole : List Char} (some_digit : whole ≠ [])
    (digits : ∀ character ∈ whole, character.isDigit = true) :
    scanNumber ((if negative then ['-'] else []) ++ whole) =
      some (withSign negative (decimal whole), []) := by
  have read := @scanNumber_text negative false whole [] some_digit digits (by simp) (fun _ => rfl)
  simpa using read

/-- One character is a number exactly when it is a digit. -/
theorem scanNumber_single (character : Char) :
    scanNumber [character] = if character.isDigit then
      some (((character.toNat - '0'.toNat : Nat) : ℚ), []) else none := by
  by_cases digit : character.isDigit = true
  · have read := @scanNumber_digits false [character] (by simp) (by simpa using digit)
    rw [if_pos digit]
    simpa [withSign, decimal] using read
  · rw [if_neg digit]
    by_cases mark : character = '-' ∨ character = '+' ∨ character = '.'
    · rcases mark with rfl | rfl | rfl <;> rfl
    · obtain ⟨minus, plus, point⟩ := not_or.mp mark |>.imp_right not_or.mp
      simp [scanNumber, scanSign, spanDigits, fractionDigits, minus, plus, point, digit]

/-! ## Numbers that were printed -/

theorem toDigits_isDigit (number : Nat) :
    ∀ character ∈ Nat.toDigits 10 number, character.isDigit = true := by
  intro character member
  exact Nat.isDigit_of_mem_toDigits (by decide) (by decide) member

theorem decimal_toDigits (number : Nat) : decimal (Nat.toDigits 10 number) = number := by
  rw [decimal, ← Nat.ofDigitChars_eq_foldl, Nat.ofDigitChars_ten_toDigits]

theorem withSign_natAbs (value : Int) :
    withSign (decide (value < 0)) (value.natAbs : ℚ) = value := by
  rw [withSign]
  by_cases negative : value < 0
  · have magnitude : ((value.natAbs : Int) : ℚ) = -(value : ℚ) := by
      rw [Int.ofNat_natAbs_of_nonpos negative.le, Int.cast_neg]
    rw [if_pos (decide_eq_true negative), ← Int.cast_natCast, magnitude, neg_neg]
  · have magnitude : (value.natAbs : Int) = value := Int.natAbs_of_nonneg (not_lt.mp negative)
    rw [if_neg (by simpa using negative), ← Int.cast_natCast, magnitude]

/-- A printed integer reads as itself. -/
theorem scanNumber_printInt (value : Int) :
    scanNumber (printInt false 0 value) = some ((value : ℚ), []) := by
  have text : printInt false 0 value =
      (if decide (value < 0) then ['-'] else []) ++ Nat.toDigits 10 value.natAbs := by
    simp [printInt]
  rw [text, scanNumber_digits _ Nat.toDigits_ne_nil (toDigits_isDigit _), decimal_toDigits,
    withSign_natAbs]

theorem lastDigits_isDigit (count number : Nat) :
    ∀ character ∈ lastDigits count number, character.isDigit = true := by
  induction count generalizing number with
  | zero => simp [lastDigits]
  | succ count ih =>
      intro character member
      rw [lastDigits, List.mem_append, List.mem_singleton] at member
      rcases member with before | rfl
      · exact ih _ character before
      · exact isDigit_digitChar ⟨number % 10, Nat.mod_lt _ (by decide)⟩

/-- The digits of a number with more digits behind them. -/
theorem decimal_lastDigits (front : List Char) (count number : Nat) :
    decimal (front ++ lastDigits count number) =
      decimal front * 10 ^ count + number % 10 ^ count := by
  induction count generalizing number with
  | zero => simp [lastDigits, Nat.mod_one]
  | succ count ih =>
      have digit := digitChar_value ⟨number % 10, Nat.mod_lt _ (by decide)⟩
      rw [lastDigits, ← List.append_assoc, decimal_append, ih, digit, Nat.pow_succ',
        Nat.mod_mul]
      ring

/-- The number that a text with a fixed point begins with, up to some zeros behind it. -/
theorem scanNumber_fixedText (negative : Bool) (scale number : Nat) :
    scanNumber ((if negative then ['-'] else []) ++ fixedText scale number) =
      some (withSign negative (number / 10 ^ scale), []) := by
  have text : fixedText scale number = Nat.toDigits 10 (number / 10 ^ scale) ++
      if decide (scale ≠ 0) then '.' :: lastDigits scale number else [] := by
    rw [fixedText]
    split_ifs with whole point point <;> simp_all
  have digits : decimal (Nat.toDigits 10 (number / 10 ^ scale) ++ lastDigits scale number) =
      number := by
    rw [decimal_lastDigits, decimal_toDigits, Nat.div_add_mod']
  rw [text, scanNumber_text negative _ Nat.toDigits_ne_nil (toDigits_isDigit _)
    (lastDigits_isDigit scale number), digits, lastDigits_length]
  intro whole
  have zero : scale = 0 := by simpa using whole
  rw [zero, lastDigits]

theorem lastDigits_zeros (count : Nat) : lastDigits count 0 = List.replicate count '0' := by
  induction count with
  | zero => rfl
  | succ count ih =>
      rw [List.replicate_succ', ← ih]
      rfl

/-- Zeros behind the digits of a number. -/
theorem decimal_zeros (front : List Char) (count : Nat) :
    decimal (front ++ List.replicate count '0') = decimal front * 10 ^ count := by
  rw [← lastDigits_zeros, decimal_lastDigits, Nat.zero_mod, Nat.add_zero]

theorem scanNumber_zeros (negative : Bool) (number count : Nat) :
    scanNumber ((if negative then ['-'] else []) ++
        (Nat.toDigits 10 number ++ List.replicate count '0')) =
      some (withSign negative (number * 10 ^ count), []) := by
  rw [scanNumber_digits negative (by simp [Nat.toDigits_ne_nil]), decimal_zeros, decimal_toDigits]
  · push_cast
    rfl
  · intro character member
    rcases List.mem_append.mp member with digit | zero
    · exact toDigits_isDigit number character digit
    · rw [List.eq_of_mem_replicate zero]
      rfl

/-- One more zero behind a zero. -/
theorem scanNumber_zero (negative : Bool) (scale : Nat) :
    scanNumber ((if negative then ['-'] else []) ++ (fixedText scale 0 ++ ['0'])) =
      some (0, []) := by
  have zero : withSign negative 0 = 0 := by simp [withSign]
  by_cases whole : scale = 0
  · have read := scanNumber_zeros negative 0 1
    rw [Nat.cast_zero, zero_mul, zero] at read
    rw [whole]
    exact read
  · have text : fixedText scale 0 ++ ['0'] =
        ['0'] ++ if true then '.' :: List.replicate (scale + 1) '0' else [] := by
      rw [fixedText, if_neg whole, Nat.zero_div, Nat.toDigits_zero, lastDigits_zeros,
        List.replicate_succ']
      rfl
    have first : ∀ character ∈ ['0'], character.isDigit = true := by
      intro character member
      rw [List.mem_singleton.mp member]
      rfl
    have zeros : ∀ character ∈ List.replicate (scale + 1) '0', character.isDigit = true := by
      intro character member
      rw [List.eq_of_mem_replicate member]
      rfl
    rw [text, scanNumber_text negative true (by simp) first zeros (by simp), decimal_zeros]
    simp [decimal, zero]

/-- A text that stands for a number is read by `atof`. -/
theorem atof_eq {text rest : List Char} {value : ℚ} (read : scanNumber text = some (value, rest)) :
    atof text = toDouble value := by
  have plain : skipSpace text = text := by
    cases text with
    | nil => rfl
    | cons character text =>
        refine skipSpace_of_head ?_
        by_contra space
        rw [Bool.not_eq_false, isSpace, decide_eq_true_eq] at space
        have none : scanNumber (character :: text) = none := by
          simp only [List.mem_cons, List.not_mem_nil, or_false] at space
          rcases space with rfl | rfl | rfl | rfl | rfl | rfl <;> rfl
        rw [none] at read
        cases read
  rw [atof, plain, read]

/-- A text that is no number behind its blanks is zero. -/
theorem atof_none {text : List Char} (read : scanNumber (skipSpace text) = none) :
    atof text = 0 := by
  rw [atof, read]

/-- A `double` that keeps the whole part of a number keeps it for both signs. -/
theorem truncate_toDouble {number : ℚ} (keeps : KeepsWhole |number|) :
    truncate (toDouble number) = truncate number := by
  have whole := keeps.floor_round53
  by_cases negative : number < 0
  · rw [abs_of_neg negative] at whole
    have rounded := round53_nonneg (neg_nonneg.mpr negative.le)
    rw [toDouble, if_pos negative, truncate, truncate, if_pos negative, neg_neg, ← whole]
    split_ifs with below
    · rfl
    · have zero : round53 (-number) = 0 := by linarith
      rw [zero]
      rfl
  · have nonneg := not_lt.mp negative
    rw [abs_of_nonneg nonneg] at whole
    rw [toDouble, if_neg negative, truncate, truncate, if_neg negative,
      if_neg (not_lt.mpr (round53_nonneg nonneg)), whole]

theorem truncate_intCast (value : Int) : truncate (value : ℚ) = value := by
  rw [truncate, ← Int.cast_neg, Int.floor_intCast, Int.floor_intCast, neg_neg]
  split_ifs <;> rfl

/-- The integers that a `double` keeps. -/
theorem truncate_toDouble_intCast (value : Int) :
    truncate (toDouble (value : ℚ)) = value ↔ HasSignificand |(value : ℚ)| := by
  constructor
  · intro kept
    have magnitude : |(value : ℚ)| = (value.natAbs : ℚ) := by rw [Nat.cast_natAbs, Int.cast_abs]
    rw [magnitude]
    refine hasSignificand_of_floor ?_
    rw [← magnitude]
    by_cases negative : value < 0
    · have below : (value : ℚ) < 0 := Int.cast_lt_zero.mpr negative
      rw [toDouble, if_pos below, truncate, neg_neg] at kept
      rw [abs_of_neg below]
      split_ifs at kept with sign
      · omega
      · have nonneg := round53_nonneg (neg_nonneg.mpr below.le)
        have zero : round53 (-(value : ℚ)) = 0 := by linarith
        rw [zero, neg_zero, Int.floor_zero] at kept
        omega
    · have nonneg : (0 : ℚ) ≤ value := Int.cast_nonneg (not_lt.mp negative)
      rw [toDouble, if_neg (not_lt.mpr nonneg), truncate,
        if_neg (not_lt.mpr (round53_nonneg nonneg))] at kept
      rw [abs_of_nonneg nonneg]
      omega
  · intro significand
    rw [truncate_toDouble (.inl significand), truncate_intCast]

/-- A small number is kept by a `double`. -/
theorem truncate_toDouble_natCast {number : Nat} (narrow : number < 2 ^ 53) :
    truncate (toDouble (number : ℚ)) = number := by
  have nonneg : ¬ (number : ℚ) < 0 := not_lt.mpr number.cast_nonneg
  have significand : HasSignificand |(number : ℚ)| := by
    rw [Nat.abs_cast]
    exact ⟨number, 0, narrow, by simp⟩
  rw [truncate_toDouble (.inl significand), truncate, if_neg nonneg, Int.floor_natCast]

theorem readNumber_eq {text : List Char} {value : ℚ} (read : scanNumber text = some (value, [])) :
    readNumber text = some value := by
  rw [readNumber, read]

end RedshiftOdbc.NumberText
