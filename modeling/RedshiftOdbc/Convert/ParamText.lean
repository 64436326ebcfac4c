import RedshiftOdbc.Convert.NumericText
import RedshiftOdbc.Convert.ParamTypes
import RedshiftOdbc.Convert.Timestamp
import RedshiftOdbc.Library.NumberText

/-!
# The text of a parameter

`getParamVal` prints a value of a C type into a buffer, and
`convertCParamDataToSQLData` takes the text or refuses the pair of types.  A number
that is bound as a `double` where the server wants an integer is read back with
`atof`, cut to the integer type and printed again.
-/

namespace RedshiftOdbc.Convert

open RedshiftOdbc.Decimal RedshiftOdbc.Double RedshiftOdbc.NumberText RedshiftOdbc.Printf
  RedshiftOdbc.Scanf RedshiftOdbc.Words

/-! ## Values -/

structure TimeStruct where
  hour : Int
  minute : Int
  second : Int
  deriving DecidableEq, Repr

/-- What is at `pParamData`. -/
inductive CValue where
  | integer (width : IntegerWidth) (unsigned : Bool) (value : Int)
  | bit (value : Bool)
  | tinyint (unsigned : Bool) (value : Int)
  | date (value : DateStruct)
  | time (value : TimeStruct)
  | timestamp (value : TimestampStruct)
  | numeric (value : SqlNumericStruct)
  deriving DecidableEq, Repr

def IntegerWidth.bytes : IntegerWidth → Nat
  | .short => 2
  | .long => 4
  | .bigint => 8

/-- The numbers of a word. -/
def InWord (bytes : Nat) (unsigned : Bool) (value : Int) : Prop :=
  if unsigned then 0 ≤ value ∧ value < (256 ^ bytes : Nat)
  else -((256 ^ bytes : Nat) : Int) ≤ 2 * value ∧ 2 * value < (256 ^ bytes : Nat)

instance (bytes : Nat) (unsigned : Bool) (value : Int) : Decidable (InWord bytes unsigned value) :=
  inferInstanceAs (Decidable (if unsigned then _ else _))

/-- What a number in an application's structure is, with zeros for a negative scale. -/
structure SqlNumericStruct.InType (pnVal : SqlNumericStruct) : Prop where
  some_digit : 1 ≤ pnVal.precision
  few : pnVal.precision ≤ 38
  scale : -128 ≤ pnVal.scale
  scale_le : pnVal.scale ≤ pnVal.precision
  val : pnVal.val.length = sqlMaxNumericLen
  fits : pnVal.magnitude < 10 ^ pnVal.precision

namespace CValue

def cType : CValue → CType
  | integer width unsigned _ => .integer width unsigned
  | bit _ => .bit
  | tinyint unsigned _ => .tinyint unsigned
  | date _ => .date
  | time _ => .time
  | timestamp _ => .timestamp
  | numeric _ => .numeric

/-- The values of the C types; the members of the structures are words. -/
def InType : CValue → Prop
  | integer width unsigned value => InWord width.bytes unsigned value
  | bit _ => True
  | tinyint unsigned value => InWord 1 unsigned value
  | date value => InWord 2 false value.year ∧ InWord 2 true value.month ∧ InWord 2 true value.day
  | time value =>
      InWord 2 true value.hour ∧ InWord 2 true value.minute ∧ InWord 2 true value.second
  | timestamp value =>
      (InWord 2 false value.year ∧ InWord 2 true value.month ∧ InWord 2 true value.day) ∧
        (InWord 2 true value.hour ∧ InWord 2 true value.minute ∧ InWord 2 true value.second) ∧
        value.fraction < 256 ^ 4
  | numeric value => value.InType

end CValue

/-! ## The functions -/

/-- A text in `buf`, which `snprintf` cuts to its length. -/
def inBuf (text : List Char) : List Char := cString (text.take maxNumberBufLen)

/-- `"%hd"`, of the short that a member or a value is read as. -/
def printShort (width : Nat) (value : Int) : List Char := printInt false width (wrap 2 value)

/-- The bytes an integer is cut to before it is printed. -/
def printedBytes (width : IntegerWidth) (hSQLType : ParamSqlType) : Nat :=
  if width = .long ∧ hSQLType = .known .smallint then 2 else width.bytes

/-- `SQL_C_BIT`, the character at the pointer. -/
def bitText (val : Nat) : List Char :=
  if val = '1'.toNat ∨ val = 1 ∨ val = 't'.toNat ∨ val = 'T'.toNat then ['1'] else ['0']

def dateParamText (year month day : Int) : List Char :=
  printShort 4 year ++ '-' :: (printShort 2 month ++ '-' :: printShort 2 day)

def timeParamText (hour minute second : Int) : List Char :=
  printShort 2 hour ++ ':' :: (printShort 2 minute ++ ':' :: printShort 2 second)

/--
The text of a numeric value: none where `convertScaledIntegerToNumericString` reads
in front of its digits or writes behind `buf`.
-/
def numericText (pnVal : SqlNumericStruct) : Option (List Char) :=
  if 19 ≤ pnVal.precision ∧ pnVal.scale < 0 then none
  else
    (convertScaledIntegerToNumericString pnVal (maxNumberBufLen + 1)).bind fun pNumData =>
      if pNumData.length ≤ maxNumberBufLen + 1 then some (cString pNumData) else none

/-- The text `getParamVal` prints. -/
def CValue.print (hSQLType : ParamSqlType) : CValue → Option (List Char)
  | integer width _ value =>
      some (inBuf (printInt false 0 (wrap (printedBytes width hSQLType) value)))
  | bit value => some (inBuf (bitText value.toNat))
  | tinyint _ value => some (inBuf [Char.ofNat (unsigned 1 value)])
  | date value => some (inBuf (dateParamText value.year value.month value.day))
  | time value => some (inBuf (timeParamText value.hour value.minute value.second))
  | timestamp value =>
      some (inBuf (dateParamText value.year value.month value.day ++ ' ' ::
        (timeParamText value.hour value.minute value.second ++ '.' ::
          printInt false 6 (wrap 4 ↑(value.fraction / 1000)))))
  | numeric value => numericText value

/-- `iIndicator`, an `int`; zero without an indicator. -/
def iIndicator (plParamDataStrLenInd : Option Int) : Int := wrap 4 (plParamDataStrLenInd.getD 0)

/-- `getParamVal`; none where it has no result. -/
def getParamVal (value : CValue) (plParamDataStrLenInd : Option Int) (hSQLType : ParamSqlType) :
    Option (Option (List Char)) :=
  if iIndicator plParamDataStrLenInd = sqlNullData then some none
  else (value.print hSQLType).map some

/-- What `convertCParamDataToSQLData` returns and reports. -/
structure ParamResult where
  pcVal : Option (List Char)
  iConversionError : Bool
  deriving DecidableEq, Repr

/-- A text read back as a `double` and cut to an integer; out of its range there is no result. -/
def reparse (bytes : Nat) (pcVal : List Char) : Option (List Char) :=
  let data := truncate (atof pcVal)
  if InWord bytes false data then some (printInt false 0 data) else none

def serverText (hSQLType hPrepSQLType : ParamSqlType) : Option (List Char) → Option ParamResult
  | none => some ⟨none, false⟩
  | some pcVal =>
      match reparseWidth hSQLType hPrepSQLType with
      | none => some ⟨some pcVal, false⟩
      | some bytes =>
          if pcVal = [] then some ⟨some pcVal, false⟩
          else (reparse bytes pcVal).map fun text => ⟨some text, false⟩

/-- `convertCParamDataToSQLData`; none where it has no result. -/
def convertCParamDataToSQLData (value : CValue) (plParamDataStrLenInd : Option Int)
    (hCType : CType) (hSQLType hPrepSQLType : ParamSqlType) : Option ParamResult :=
  match readType hCType hSQLType with
  | none => some ⟨none, true⟩
  | some hType =>
      let hSQLType := boundSqlType hSQLType hPrepSQLType
      (getParamVal value plParamDataStrLenInd hSQLType).bind fun pcVal =>
        if takes hSQLType hType hCType then serverText hSQLType hPrepSQLType pcVal
        else some ⟨none, true⟩

/-! ## What a text stands for -/

inductive Meaning where
  | number (value : ℚ)
  | date (year month day : Int)
  | time (hour minute second : Int)
  | timestamp (year month day hour minute second : Int) (fraction : ℚ)
  deriving DecidableEq

/-- A number, cut to its whole part for an integer type. -/
def Meaning.cut (whole : Bool) : Meaning → Meaning
  | number value => if whole then number (truncate value) else number value
  | other => other

/-- The number in a structure. -/
def SqlNumericStruct.value (pnVal : SqlNumericStruct) : ℚ :=
  NumberText.withSign (pnVal.sign = 0) (pnVal.magnitude / 10 ^ pnVal.scale)

namespace CValue

/-- The value, a timestamp up to its microseconds. -/
def meaning : CValue → Meaning
  | integer _ _ value => .number value
  | bit value => .number (value.toNat : ℚ)
  | tinyint _ value => .number value
  | date value => .date value.year value.month value.day
  | time value => .time value.hour value.minute value.second
  | timestamp value => .timestamp value.year value.month value.day value.hour value.minute
      value.second ((value.fraction / 1000 : Nat) / 10 ^ 6)
  | numeric value => .number value.value

end CValue

/-- Numbers with separators between them, and what follows the last one. -/
def scanFields : List Char → List Char → Option (List Int × List Char)
  | [], text => (scanInt text.length text).map fun field => ([field.1], field.2)
  | separator :: more, text =>
      match scanInt text.length text with
      | some (value, next :: rest) =>
          if next = separator then
            (scanFields more rest).map fun fields => (value :: fields.1, fields.2)
          else none
      | _ => none

def dateMeaning (text : List Char) : Option Meaning :=
  match scanFields ['-', '-'] text with
  | some ([year, month, day], []) => some (.date year month day)
  | _ => none

def timeMeaning (text : List Char) : Option Meaning :=
  match scanFields [':', ':'] text with
  | some ([hour, minute, second], []) => some (.time hour minute second)
  | _ => none

/-- A date, a time and the digits of a fraction. -/
def timestampMeaning (text : List Char) : Option Meaning :=
  match scanFields ['-', '-', ' ', ':', ':'] text with
  | some ([year, month, day, hour, minute, second], rest) =>
      match fractionDigits rest with
      | (digits, []) => some (.timestamp year month day hour minute second
          (decimal digits / 10 ^ digits.length))
      | _ => none
  | _ => none

def numberMeaning (text : List Char) : Option Meaning := (NumberText.readNumber text).map Meaning.number

/-- What a text stands for, as a value of a kind. -/
def CValue.readText : CValue → List Char → Option Meaning
  | date _ => dateMeaning
  | time _ => timeMeaning
  | timestamp _ => timestampMeaning
  | integer _ _ _ | bit _ | tinyint _ _ | numeric _ => numberMeaning

/-- The text goes to an integer type. -/
def integerTarget (hSQLType hPrepSQLType : ParamSqlType) : Bool :=
  (reparseWidth hSQLType hPrepSQLType).isSome ||
    hSQLType ∈ [.known .smallint, .known .integer, .known .bigint, .known .tinyint]

/-- `SQL_NULL_DATA` gives NULL, and every value a text that stands for it or a conversion error. -/
def DenotesValue (value : CValue) (plParamDataStrLenInd : Option Int) (hCType : CType)
    (hSQLType hPrepSQLType : ParamSqlType) : Prop :=
  ∃ result, convertCParamDataToSQLData value plParamDataStrLenInd hCType hSQLType hPrepSQLType =
      some result ∧
    if plParamDataStrLenInd = some sqlNullData then result.pcVal = none
    else result.iConversionError = true ∨ ∃ text, result.pcVal = some text ∧
      value.readText text = some (value.meaning.cut
        (integerTarget (boundSqlType hSQLType hPrepSQLType) hPrepSQLType))

/-! ## The condition -/

/-- A number of less than nineteen digits goes through doubles, which are fine enough for it. -/
def SqlNumericStruct.PrintsExactly (pnVal : SqlNumericStruct) : Prop :=
  pnVal.precision < 19 → DoubleExact pnVal.scale.toNat pnVal.magnitude

/--
The zeros of a negative scale are only written for a short number, and have to fit;
digits that a `double` does not keep may be one more.
-/
def SqlNumericStruct.FitsBuffer (pnVal : SqlNumericStruct) : Prop :=
  let length := (if pnVal.sign = 0 then 1 else 0) + (Nat.toDigits 10 pnVal.magnitude).length +
    (-pnVal.scale).toNat
  pnVal.scale < 0 → pnVal.precision < 19 ∧ length ≤ maxNumberBufLen ∧
    (length < maxNumberBufLen ∨ HasSignificand (pnVal.magnitude : ℚ))

/-- The numbers that doubles on their way leave as they are. -/
def CValue.Fine (reparsed : Bool) : CValue → Prop
  | numeric value =>
      value.PrintsExactly ∧ (reparsed = true → KeepsWhole (value.magnitude / 10 ^ value.scale))
  | _ => True

/-- The values whose printed text is right. -/
def CValue.Printable (hSQLType : ParamSqlType) (whole : Bool) : CValue → Prop
  | integer width _ value => InWord (printedBytes width hSQLType) false value
  | bit _ => True
  | tinyint _ _ => False
  | date value => value.month < 2 ^ 15 ∧ value.day < 2 ^ 15
  | time value => value.hour < 2 ^ 15 ∧ value.minute < 2 ^ 15 ∧ value.second < 2 ^ 15
  | timestamp value => (value.month < 2 ^ 15 ∧ value.day < 2 ^ 15) ∧
      (value.hour < 2 ^ 15 ∧ value.minute < 2 ^ 15 ∧ value.second < 2 ^ 15) ∧
      value.fraction < 10 ^ 9
  | numeric value => whole = true → 10 ^ value.scale.toNat ∣ value.magnitude

/-- The values that a `double` brings to an integer type. -/
def CValue.Reparses (bytes : Nat) : CValue → Prop
  | integer width _ value => InWord width.bytes false value ∧
      HasSignificand |(value : ℚ)| ∧ InWord bytes false value
  | tinyint _ _ => False
  | numeric value => InWord bytes false (truncate value.value)
  | _ => True

/-- The values whose text is right for a pair of types that is taken. -/
def CValue.Kept (value : CValue) (hSQLType hPrepSQLType : ParamSqlType) : Prop :=
  value.Fine (reparseWidth hSQLType hPrepSQLType).isSome ∧
    match reparseWidth hSQLType hPrepSQLType with
    | none => value.Printable hSQLType (integerTarget hSQLType hPrepSQLType)
    | some bytes => value.Reparses bytes

/-- The values that have a printed text. -/
def CValue.HasText : CValue → Prop
  | numeric value => value.FitsBuffer
  | _ => True

/-- What a parameter needs: no conversion, NULL, or an indicator and a value that are kept. -/
def ParamKept (value : CValue) (plParamDataStrLenInd : Option Int) (hCType : CType)
    (hSQLType hPrepSQLType : ParamSqlType) : Prop :=
  match readType hCType hSQLType with
  | none => True
  | some hType =>
      let hSQLType := boundSqlType hSQLType hPrepSQLType
      plParamDataStrLenInd = some sqlNullData ∨
        if iIndicator plParamDataStrLenInd = sqlNullData then takes hSQLType hType hCType = false
        else value.HasText ∧
          (takes hSQLType hType hCType = true → value.Kept hSQLType hPrepSQLType)

/-! ## Printed numbers -/

/-- The number a structure's digits are printed for; a short one goes through doubles. -/
def SqlNumericStruct.printedNumber (pnVal : SqlNumericStruct) : Nat :=
  if pnVal.precision < 19 then
    (nearestEven (round53 (round53 pnVal.magnitude / 10 ^ pnVal.scale.toNat) *
      10 ^ pnVal.scale.toNat)).toNat
  else pnVal.magnitude

/-- The number that is printed. -/
def SqlNumericStruct.printedValue (pnVal : SqlNumericStruct) : ℚ :=
  NumberText.withSign (pnVal.sign = 0) (pnVal.printedNumber / 10 ^ pnVal.scale)

/-- The zeros of a negative scale are only written for a short number, and have to fit. -/
def SqlNumericStruct.Room (pnVal : SqlNumericStruct) : Prop :=
  pnVal.scale < 0 → pnVal.precision < 19 ∧
    (if pnVal.sign = 0 then 1 else 0) + (Nat.toDigits 10 pnVal.printedNumber).length +
      (-pnVal.scale).toNat ≤ maxNumberBufLen

namespace SqlNumericStruct

variable {pnVal : SqlNumericStruct}

theorem printedNumber_exact (exactly : pnVal.PrintsExactly) :
    pnVal.printedNumber = pnVal.magnitude := by
  rw [printedNumber]
  split_ifs with few
  · have fine := fineQuotient_of_exact (exactly few)
    rw [FineQuotient, ← printed_eq] at fine
    rw [fine, Int.toNat_natCast]
  · rfl

theorem printedValue_exact (exactly : pnVal.PrintsExactly) : pnVal.printedValue = pnVal.value := by
  rw [printedValue, value, printedNumber_exact exactly]

theorem abs_value : |pnVal.value| = pnVal.magnitude / 10 ^ pnVal.scale := by
  have nonneg : (0 : ℚ) ≤ pnVal.magnitude / 10 ^ pnVal.scale :=
    div_nonneg (Nat.cast_nonneg _) (zpow_nonneg (by norm_num) _)
  rw [value, NumberText.withSign]
  split_ifs
  · rw [abs_neg, abs_of_nonneg nonneg]
  · rw [abs_of_nonneg nonneg]

theorem eq_truncate_iff (number : ℚ) : number = truncate number ↔ ∃ whole : ℤ, |number| = whole := by
  constructor
  · intro same
    exact ⟨|truncate number|, by rw [Int.cast_abs, ← same]⟩
  · rintro ⟨whole, same⟩
    obtain ⟨integer, rfl⟩ : ∃ integer : ℤ, number = integer := by
      rcases abs_choice number with sign | sign
      · exact ⟨whole, sign ▸ same⟩
      · exact ⟨-whole, by rw [Int.cast_neg, ← same, sign, neg_neg]⟩
    rw [truncate_intCast]

/-- A number is whole when the digits behind its point are zeros. -/
theorem value_whole_iff :
    pnVal.value = (truncate pnVal.value : ℚ) ↔ 10 ^ pnVal.scale.toNat ∣ pnVal.magnitude := by
  rw [eq_truncate_iff, abs_value]
  rcases Int.lt_or_le pnVal.scale 0 with negative | nonneg
  · have number : (pnVal.magnitude : ℚ) / 10 ^ pnVal.scale =
        ((pnVal.magnitude * 10 ^ (-pnVal.scale).toNat : ℕ) : ℤ) := by
      push_cast
      rw [div_eq_mul_inv, ← zpow_neg, ← zpow_natCast, Int.toNat_of_nonneg (by omega)]
    refine iff_of_true ⟨_, number⟩ ?_
    rw [Int.toNat_of_nonpos negative.le]
    exact one_dvd _
  · have power : (10 : ℚ) ^ pnVal.scale = 10 ^ pnVal.scale.toNat := by
      rw [← zpow_natCast, Int.toNat_of_nonneg nonneg]
    have positive : (0 : ℚ) < 10 ^ pnVal.scale.toNat := by positivity
    rw [power]
    constructor
    · rintro ⟨whole, same⟩
      rw [div_eq_iff positive.ne'] at same
      have integers : (pnVal.magnitude : ℤ) = whole * (10 ^ pnVal.scale.toNat : ℕ) := by
        exact_mod_cast same
      exact Int.natCast_dvd_natCast.mp ⟨whole, by rw [integers, mul_comm]⟩
    · rintro ⟨whole, same⟩
      refine ⟨whole, ?_⟩
      rw [same, div_eq_iff positive.ne']
      push_cast
      ring

theorem FitsBuffer.room (fits : pnVal.FitsBuffer) : pnVal.Room := by
  intro scale
  obtain ⟨few, short, spare⟩ := fits scale
  refine ⟨few, ?_⟩
  by_cases significand : HasSignificand (pnVal.magnitude : ℚ)
  · have exactly : pnVal.PrintsExactly := by
      intro _
      rw [Int.toNat_of_nonpos scale.le]
      exact .inr ⟨significand, by rwa [pow_zero, div_one]⟩
    rwa [printedNumber_exact exactly]
  · have room := spare.resolve_right significand
    have some : pnVal.magnitude ≠ 0 := by
      intro zero
      exact significand ⟨0, 0, by decide, by rw [zero]; simp⟩
    have printed : pnVal.printedNumber < 10 * pnVal.magnitude := by
      rw [printedNumber, if_pos few]
      exact printed_lt some _
    have digits : pnVal.magnitude < 10 ^ (Nat.toDigits 10 pnVal.magnitude).length :=
      (Nat.length_toDigits_le_iff (by decide) Nat.length_toDigits_pos).mp le_rfl
    have longer : (Nat.toDigits 10 pnVal.printedNumber).length ≤
        (Nat.toDigits 10 pnVal.magnitude).length + 1 := by
      rw [Nat.length_toDigits_le_iff (by decide) (by omega), Nat.pow_succ]
      omega
    omega

theorem Room.fitsBuffer (room : pnVal.Room) (exactly : pnVal.PrintsExactly) :
    pnVal.FitsBuffer := by
  rw [FitsBuffer]
  intro scale
  obtain ⟨few, short⟩ := room scale
  rw [printedNumber_exact exactly] at short
  refine ⟨few, short, .inr ?_⟩
  rcases exactly few with fine | ⟨significand, -⟩
  · exact ⟨pnVal.magnitude, 0, fine.lt, by simp⟩
  · exact significand

end SqlNumericStruct

/-! ## Words -/

theorem wrap_eq_iff {bytes : Nat} {value : Int} :
    wrap bytes value = value ↔ InWord bytes false value := by
  constructor
  · intro same
    have lower := le_wrap bytes value
    have upper := wrap_lt bytes value
    rw [same] at lower upper
    exact ⟨lower, upper⟩
  · rintro ⟨lower, upper⟩
    exact wrap_of_range lower upper

/-- A number of an unsigned type that a signed one has no room for is read as a negative one. -/
theorem wrap_neg {bytes : Nat} {value : Int} (inWord : InWord bytes true value)
    (large : ¬ InWord bytes false value) : wrap bytes value < 0 ∧ 0 < value := by
  obtain ⟨lower, upper⟩ := inWord
  have half : ((256 ^ bytes : Nat) : Int) ≤ 2 * value := by
    by_contra less
    exact large ⟨by omega, by omega⟩
  have shifted : wrap bytes value = wrap bytes (value - (256 ^ bytes : Nat)) := by
    refine wrap_congr ?_
    rw [Int.sub_emod_right]
  rw [shifted, wrap_of_range (by omega) (by omega)]
  omega

theorem natAbs_wrap (bytes : Nat) (value : Int) :
    2 * (wrap bytes value).natAbs ≤ 256 ^ bytes := by
  have lower := le_wrap bytes value
  have upper := wrap_lt bytes value
  omega

/-! ## The buffer -/

theorem inBuf_eq {text : List Char} (plain : '\x00' ∉ text)
    (short : text.length ≤ maxNumberBufLen) : inBuf text = text := by
  rw [inBuf, List.take_of_length_le short, cString_self plain]

theorem printInt_length_max {count : Nat} (some_digit : 0 < count) (width : Nat) {value : Int}
    (small : value.natAbs < 10 ^ count) :
    (printInt false width value).length ≤ max width (count + 1) := by
  have digits := (Nat.length_toDigits_le_iff (n := value.natAbs) (b := 10) (by decide)
    some_digit).mpr small
  simp only [printInt, List.length_append, List.length_replicate, Bool.false_eq_true, if_false]
  split_ifs <;> simp only [List.length_singleton, List.length_nil] <;> omega

theorem printShort_length (width : Nat) (low : width ≤ 6) (value : Int) :
    (printShort width value).length ≤ 6 := by
  have small := natAbs_wrap 2 value
  have length := @printInt_length_max 5 (by decide) width (wrap 2 value)
    (by norm_num at small ⊢; omega)
  rw [printShort]
  omega

/-! ## Numeric values -/

theorem fixedText_length_le (scale : Nat) {number count : Nat} (some_digit : 0 < count)
    (small : number < 10 ^ count) (low : scale ≤ count) :
    (fixedText scale number).length ≤ count + 2 := by
  have whole : (Nat.toDigits 10 (number / 10 ^ scale)).length ≤ max 1 (count - scale) := by
    rw [Nat.length_toDigits_le_iff (by decide) (by omega)]
    rw [Nat.div_lt_iff_lt_mul (Nat.pow_pos (by decide)), ← Nat.pow_add]
    exact Nat.lt_of_lt_of_le small (Nat.pow_le_pow_right (by decide) (by omega))
  rw [fixedText, List.length_append]
  split_ifs with none
  · rw [List.length_nil]
    omega
  · rw [List.length_cons, lastDigits_length]
    omega

theorem not_mem_fixedText (scale number : Nat) : '\x00' ∉ fixedText scale number := by
  have digit {character : Char} (isDigit : character.isDigit = true) : '\x00' ≠ character := by
    rintro rfl
    cases isDigit
  rw [fixedText, List.mem_append]
  rintro (whole | fraction)
  · exact digit (toDigits_isDigit _ _ whole) rfl
  · split_ifs at fraction with none
    · cases fraction
    · rw [List.mem_cons] at fraction
      rcases fraction with point | later
      · exact absurd point (by decide)
      · exact digit (lastDigits_isDigit _ _ _ later) rfl

namespace SqlNumericStruct

variable {pnVal : SqlNumericStruct}

variable (pnVal) in
def signText : List Char := if pnVal.sign = 0 then ['-'] else []

theorem not_mem_signText : '\x00' ∉ pnVal.signText := by
  rw [signText]
  split_ifs <;> simp

theorem signText_length_le : pnVal.signText.length ≤ 1 := by
  rw [signText]
  split_ifs <;> simp

/-- Without the zeros of a negative scale a structure is one with an ordinary scale. -/
theorem InType.valid (inType : pnVal.InType) :
    { pnVal with scale := max 0 pnVal.scale : SqlNumericStruct }.Valid where
  some_digit := inType.some_digit
  few := inType.few
  scale := Int.le_max_left _ _
  scale_le := by
    have scale := inType.scale_le
    have digits := inType.some_digit
    dsimp only
    omega
  val := inType.val
  fits := inType.fits

theorem printedNumber_lt (inType : pnVal.InType) (few : pnVal.precision < 19) :
    pnVal.printedNumber < 10 ^ 19 := by
  have below : pnVal.magnitude < 10 ^ 18 :=
    Nat.lt_of_lt_of_le inType.fits (Nat.pow_le_pow_right (by decide) (by omega))
  rw [printedNumber, if_pos few]
  by_cases zero : pnVal.magnitude = 0
  · have none : nearestEven 0 = 0 := nearestEven_intCast 0
    rw [zero, Nat.cast_zero, round53_zero, zero_div, round53_zero, zero_mul, none]
    decide
  · have less := printed_lt zero pnVal.scale.toNat
    omega

/-- The text of a short number before its zeros. -/
theorem printFixed_printedNumber (inType : pnVal.InType) (few : pnVal.precision < 19) :
    printFixed pnVal.scale.toNat (finalVal pnVal) =
      pnVal.signText ++ fixedText pnVal.scale.toNat pnVal.printedNumber := by
  have scale : (max 0 pnVal.scale).toNat = pnVal.scale.toNat := by omega
  have quotient := finalVal_eq inType.valid few
  have same : finalVal { pnVal with scale := max 0 pnVal.scale } = finalVal pnVal := by
    simp only [finalVal, scale]
  rw [same] at quotient
  rw [quotient, printFixed, printedNumber, if_pos few, signText]
  simp only [scale, decide_eq_true_eq]
  rfl

/-- What is in front of the end of a text without zeros, when the buffer has room for it. -/
theorem cString_ended {text : List Char} (plain : '\x00' ∉ text) :
    (if (text ++ ['\x00']).length ≤ maxNumberBufLen + 1 then some (cString (text ++ ['\x00']))
      else none) = if text.length ≤ maxNumberBufLen then some text else none := by
  rw [cString_append plain, List.length_append, List.length_singleton]
  simp only [Nat.add_le_add_iff_right]

theorem numericText_long (inType : pnVal.InType) (many : 19 ≤ pnVal.precision)
    (scale : 0 ≤ pnVal.scale) :
    numericText pnVal = some (pnVal.signText ++ (fixedText pnVal.scale.toNat pnVal.magnitude ++
      if pnVal.magnitude = 0 then ['0'] else [])) := by
  have valid : pnVal.Valid := ⟨inType.some_digit, inType.few, scale, inType.scale_le, inType.val,
    inType.fits⟩
  have below : pnVal.magnitude < 10 ^ 38 :=
    Nat.lt_of_lt_of_le inType.fits (Nat.pow_le_pow_right (by decide) inType.few)
  have length := fixedText_length_le pnVal.scale.toNat (by decide) below
    (by have low := inType.scale_le; have few := inType.few; omega)
  have sign := @signText_length_le pnVal
  have plain : '\x00' ∉ pnVal.signText ++ (fixedText pnVal.scale.toNat pnVal.magnitude ++
      if pnVal.magnitude = 0 then ['0'] else []) := by
    simp only [List.mem_append, not_mem_signText, not_mem_fixedText, false_or]
    split_ifs <;> decide
  have written := longString_eq valid many
  rw [← signText, List.append_assoc pnVal.signText] at written
  rw [numericText, if_neg (by omega), convertScaledIntegerToNumericString, if_neg (by omega),
    written, Option.bind_some, cString_ended plain, if_pos]
  rw [List.length_append, List.length_append, maxNumberBufLen]
  split_ifs <;> simp only [List.length_singleton, List.length_nil] <;> omega

theorem numericText_short (inType : pnVal.InType) (few : pnVal.precision < 19)
    (scale : 0 ≤ pnVal.scale) :
    numericText pnVal =
      some (pnVal.signText ++ fixedText pnVal.scale.toNat pnVal.printedNumber) := by
  have below := printedNumber_lt inType few
  have length := fixedText_length_le pnVal.scale.toNat (by decide) below
    (by have low := inType.scale_le; omega)
  have sign := @signText_length_le pnVal
  have plain : '\x00' ∉ pnVal.signText ++ fixedText pnVal.scale.toNat pnVal.printedNumber := by
    simp only [List.mem_append, not_mem_signText, not_mem_fixedText, false_or, not_false_iff]
  have short : (pnVal.signText ++ fixedText pnVal.scale.toNat pnVal.printedNumber).length ≤
      maxNumberBufLen := by
    rw [List.length_append, maxNumberBufLen]
    omega
  rw [numericText, if_neg (by omega), convertScaledIntegerToNumericString, if_pos few,
    shortString, if_pos scale, printFixed_printedNumber inType few, snprintf, if_neg (by omega),
    Nat.add_sub_cancel, List.take_of_length_le short, Option.bind_some, cString_ended plain,
    if_pos short]

/-- The zeros of a negative scale follow the digits. -/
theorem numericText_zeros (inType : pnVal.InType) (few : pnVal.precision < 19)
    (scale : pnVal.scale < 0) :
    numericText pnVal =
      if (pnVal.signText ++ (Nat.toDigits 10 pnVal.printedNumber ++
        List.replicate (-pnVal.scale).toNat '0')).length ≤ maxNumberBufLen then
        some (pnVal.signText ++ (Nat.toDigits 10 pnVal.printedNumber ++
          List.replicate (-pnVal.scale).toNat '0'))
      else none := by
  have text := printFixed_printedNumber inType few
  have none : pnVal.scale.toNat = 0 := by omega
  have digits : fixedText 0 pnVal.printedNumber = Nat.toDigits 10 pnVal.printedNumber := by
    rw [fixedText, if_pos rfl, Nat.pow_zero, Nat.div_one, List.append_nil]
  have below := printedNumber_lt inType few
  have length := fixedText_length_le 0 (by decide) below (by omega)
  have sign := @signText_length_le pnVal
  have plain : '\x00' ∉ pnVal.signText ++ (Nat.toDigits 10 pnVal.printedNumber ++
      List.replicate (-pnVal.scale).toNat '0') := by
    rw [← digits]
    simp only [List.mem_append, not_mem_signText, not_mem_fixedText, List.mem_replicate, false_or,
      not_and]
    intro _
    decide
  rw [none, digits] at text
  rw [digits] at length
  rw [numericText, if_neg (by omega), convertScaledIntegerToNumericString, if_pos few,
    shortString, if_neg (by omega), text]
  dsimp only
  rw [if_pos (by rw [List.length_append, maxNumberBufLen]; omega), Option.bind_some,
    List.append_assoc pnVal.signText, cString_ended plain]

theorem signText_eq : pnVal.signText = if decide (pnVal.sign = 0) then ['-'] else [] := by
  simp only [signText, decide_eq_true_eq]

/-- A structure with a text has one that stands for the printed number. -/
theorem numericText_read (inType : pnVal.InType) (room : pnVal.Room) :
    ∃ text, numericText pnVal = some text ∧ scanNumber text = some (pnVal.printedValue, []) := by
  by_cases scale : pnVal.scale < 0
  · obtain ⟨few, fits⟩ := room scale
    have number : (pnVal.printedNumber : ℚ) / 10 ^ pnVal.scale =
        pnVal.printedNumber * 10 ^ (-pnVal.scale).toNat := by
      rw [div_eq_mul_inv, ← zpow_neg, ← zpow_natCast, Int.toNat_of_nonneg (by omega)]
    refine ⟨_, (numericText_zeros inType few scale).trans (if_pos ?_), ?_⟩
    · rw [signText, List.length_append, List.length_append, List.length_replicate]
      split_ifs at fits ⊢ <;> simp only [List.length_singleton, List.length_nil] <;> omega
    · rw [signText_eq, scanNumber_zeros, printedValue, number]
  · have nonneg := not_lt.mp scale
    have number (value : Nat) : (value : ℚ) / 10 ^ pnVal.scale =
        value / 10 ^ pnVal.scale.toNat := by
      rw [← zpow_natCast, Int.toNat_of_nonneg nonneg]
    by_cases few : pnVal.precision < 19
    · refine ⟨_, numericText_short inType few nonneg, ?_⟩
      rw [signText_eq, scanNumber_fixedText, printedValue, number]
    · refine ⟨_, numericText_long inType (not_lt.mp few) nonneg, ?_⟩
      rw [printedValue, printedNumber, if_neg few, number, signText_eq]
      by_cases zero : pnVal.magnitude = 0
      · rw [if_pos zero, zero, scanNumber_zero]
        simp [NumberText.withSign]
      · rw [if_neg zero, List.append_nil, scanNumber_fixedText]

/-- A structure without room has no text. -/
theorem numericText_none (inType : pnVal.InType) (noRoom : ¬ pnVal.Room) :
    numericText pnVal = none := by
  rw [Room, Classical.not_imp] at noRoom
  obtain ⟨scale, beyond⟩ := noRoom
  by_cases few : pnVal.precision < 19
  · rw [numericText_zeros inType few scale, if_neg]
    intro fits
    refine beyond ⟨few, ?_⟩
    rw [signText, List.length_append, List.length_append, List.length_replicate] at fits
    split_ifs at fits ⊢ <;> simp only [List.length_singleton, List.length_nil] at fits <;> omega
  · rw [numericText, if_pos ⟨not_lt.mp few, scale⟩]

end SqlNumericStruct

/-! ## Dates and times -/

theorem scanFields_cons {separator : Char} (other : separator.isDigit = false)
    (more : List Char) (width : Nat) (value : Int) (text : List Char) :
    scanFields (separator :: more) (printShort width value ++ separator :: text) =
      (scanFields more text).map fun fields => (wrap 2 value :: fields.1, fields.2) := by
  have read := scanInt_printInt width
    (printInt false width (wrap 2 value) ++ separator :: text).length (wrap 2 value)
    (separator :: text) (by simp) (by simp [EndsNumber, other])
  rw [scanFields, printShort, read]
  dsimp only
  rw [if_pos rfl]

theorem scanFields_last (width : Nat) (value : Int) {rest : List Char} (ends : EndsNumber rest) :
    scanFields [] (printShort width value ++ rest) = some ([wrap 2 value], rest) := by
  have read := scanInt_printInt width (printInt false width (wrap 2 value) ++ rest).length
    (wrap 2 value) rest (by simp) ends
  rw [scanFields, printShort, read]
  rfl

theorem dateMeaning_text (year month day : Int) : dateMeaning (dateParamText year month day) =
    some (.date (wrap 2 year) (wrap 2 month) (wrap 2 day)) := by
  have last := @scanFields_last 2 day [] (by simp [EndsNumber])
  rw [List.append_nil] at last
  rw [dateMeaning, dateParamText, scanFields_cons rfl, scanFields_cons rfl, last]
  rfl

theorem timeMeaning_text (hour minute second : Int) :
    timeMeaning (timeParamText hour minute second) =
      some (.time (wrap 2 hour) (wrap 2 minute) (wrap 2 second)) := by
  have last := @scanFields_last 2 second [] (by simp [EndsNumber])
  rw [List.append_nil] at last
  rw [timeMeaning, timeParamText, scanFields_cons rfl, scanFields_cons rfl, last]
  rfl

/-- A date, a time and a fraction. -/
theorem timestampMeaning_text (year month day hour minute second : Int) {fraction : List Char}
    (digits : ∀ character ∈ fraction, character.isDigit = true) :
    timestampMeaning (dateParamText year month day ++ ' ' ::
        (timeParamText hour minute second ++ '.' :: fraction)) =
      some (.timestamp (wrap 2 year) (wrap 2 month) (wrap 2 day) (wrap 2 hour) (wrap 2 minute)
        (wrap 2 second) (decimal fraction / 10 ^ fraction.length)) := by
  have last := @scanFields_last 2 second ('.' :: fraction) (by simp [EndsNumber])
  simp only [dateParamText, timeParamText, List.append_assoc, List.cons_append]
  rw [timestampMeaning, scanFields_cons rfl, scanFields_cons rfl, scanFields_cons rfl,
    scanFields_cons rfl, scanFields_cons rfl, last]
  dsimp only [Option.map_some]
  rw [fractionDigits_digits digits]

theorem dateParamText_short (year month day : Int) : (dateParamText year month day).length ≤ 20 ∧
    '\x00' ∉ dateParamText year month day := by
  have first := printShort_length 4 (by decide) year
  have second := printShort_length 2 (by decide) month
  have third := printShort_length 2 (by decide) day
  refine ⟨?_, ?_⟩
  · simp only [dateParamText, List.length_append, List.length_cons]
    omega
  · simp only [dateParamText, printShort, List.mem_append, List.mem_cons, printInt_plain, false_or,
      or_false]
    decide

theorem timeParamText_short (hour minute second : Int) :
    (timeParamText hour minute second).length ≤ 20 ∧ '\x00' ∉ timeParamText hour minute second := by
  have first := printShort_length 2 (by decide) hour
  have other := printShort_length 2 (by decide) minute
  have third := printShort_length 2 (by decide) second
  refine ⟨?_, ?_⟩
  · simp only [timeParamText, List.length_append, List.length_cons]
    omega
  · simp only [timeParamText, printShort, List.mem_append, List.mem_cons, printInt_plain, false_or,
      or_false]
    decide

/-- The microseconds of a timestamp fit an `int`. -/
theorem wrap_microseconds {fraction : Nat} (word : fraction < 256 ^ 4) :
    wrap 4 ((fraction / 1000 : Nat) : Int) = (fraction / 1000 : Nat) := by
  have small : fraction / 1000 ≤ 256 ^ 4 / 1000 := Nat.div_le_div_right word.le
  exact wrap_of_range (by omega) (by norm_num at small ⊢; omega)

theorem timestampText_short (value : TimestampStruct) :
    (dateParamText value.year value.month value.day ++ ' ' ::
        (timeParamText value.hour value.minute value.second ++ '.' ::
          printInt false 6 (wrap 4 ↑(value.fraction / 1000)))).length ≤ maxNumberBufLen ∧
      '\x00' ∉ dateParamText value.year value.month value.day ++ ' ' ::
        (timeParamText value.hour value.minute value.second ++ '.' ::
          printInt false 6 (wrap 4 ↑(value.fraction / 1000))) := by
  have date := dateParamText_short value.year value.month value.day
  have time := timeParamText_short value.hour value.minute value.second
  have small := natAbs_wrap 4 ((value.fraction / 1000 : Nat) : Int)
  have micros := @printInt_length_max 10 (by decide) 6 (wrap 4 ↑(value.fraction / 1000))
    (by norm_num at small ⊢; omega)
  refine ⟨?_, ?_⟩
  · simp only [List.length_append, List.length_cons, maxNumberBufLen]
    omega
  · simp only [List.mem_append, List.mem_cons, date.2, time.2, printInt_plain, false_or, or_false]
    decide

/-- A short is printed right below half the range of the member. -/
theorem wrap_member {value : Int} (inWord : InWord 2 true value) :
    wrap 2 value = value ↔ value < 2 ^ 15 := by
  rw [wrap_eq_iff]
  obtain ⟨lower, upper⟩ := inWord
  constructor
  · rintro ⟨-, small⟩
    norm_num at small ⊢
    omega
  · intro small
    exact ⟨by norm_num; omega, by norm_num at small ⊢; omega⟩

/-- Microseconds are six digits exactly for less than a second. -/
theorem microseconds_iff {fraction : Nat} (word : fraction < 256 ^ 4) :
    (decimal (printInt false 6 (wrap 4 ↑(fraction / 1000))) : ℚ) /
        10 ^ (printInt false 6 (wrap 4 ↑(fraction / 1000))).length =
      (fraction / 1000 : Nat) / 10 ^ 6 ↔ fraction < 10 ^ 9 := by
  rw [wrap_microseconds word]
  have nonneg := Int.natCast_nonneg (fraction / 1000)
  have number : decimal (printInt false 6 ((fraction / 1000 : Nat) : Int)) = fraction / 1000 :=
    Int.ofNat.inj (decimal_printInt 6 nonneg)
  rw [number]
  by_cases less : fraction < 10 ^ 9
  · have six : (printInt false 6 ((fraction / 1000 : Nat) : Int)).length = 6 :=
      printInt_length (by decide) nonneg (by norm_num at less ⊢; omega)
    rw [six]
    exact iff_of_true rfl less
  · have more : ¬ (printInt false 6 ((fraction / 1000 : Nat) : Int)).length ≤ 6 := by
      rw [printInt_length_le nonneg (by decide)]
      rintro ⟨-, six⟩
      norm_num at less six
      omega
    refine iff_of_false ?_ less
    generalize (printInt false 6 ((fraction / 1000 : Nat) : Int)).length = count at more
    intro equal
    have positive : (0 : ℚ) < (fraction / 1000 : Nat) := by
      have some : 0 < fraction / 1000 := by norm_num at less; omega
      exact_mod_cast some
    rw [div_eq_div_iff (by positivity) (by positivity)] at equal
    have power : (10 : ℚ) ^ 6 < 10 ^ count :=
      pow_lt_pow_right₀ (by norm_num) (not_le.mp more)
    exact power.ne (mul_left_cancel₀ positive.ne' equal)

/-! ## Printed values -/

@[simp]
theorem cut_intCast (whole : Bool) (value : Int) :
    (Meaning.number value).cut whole = .number value := by
  rw [Meaning.cut, truncate_intCast, ite_self]

theorem cut_date (whole : Bool) (year month day : Int) :
    (Meaning.date year month day).cut whole = .date year month day := rfl

theorem cut_time (whole : Bool) (hour minute second : Int) :
    (Meaning.time hour minute second).cut whole = .time hour minute second := rfl

theorem cut_timestamp (whole : Bool) (year month day hour minute second : Int) (fraction : ℚ) :
    (Meaning.timestamp year month day hour minute second fraction).cut whole =
      .timestamp year month day hour minute second fraction := rfl

theorem printWord_text (bytes : Nat) (low : bytes ≤ 8) (value : Int) :
    inBuf (printInt false 0 (wrap bytes value)) = printInt false 0 (wrap bytes value) := by
  have small := natAbs_wrap bytes value
  have power : 256 ^ bytes ≤ 256 ^ 8 := Nat.pow_le_pow_right (by decide) low
  have length := @printInt_length_max 20 (by decide) 0 (wrap bytes value)
    (by norm_num at power ⊢; omega)
  exact inBuf_eq (printInt_plain _ _ _) (by rw [maxNumberBufLen]; omega)

theorem printedBytes_le (width : IntegerWidth) (hSQLType : ParamSqlType) :
    printedBytes width hSQLType ≤ 8 := by
  rw [printedBytes]
  split_ifs
  · decide
  · cases width <;> decide

/-- A character that is no digit is no number, and a digit one that is smaller than its code. -/
theorem readNumber_single (code : Fin 256) :
    NumberText.readNumber (inBuf [Char.ofNat code]) =
        (if 48 ≤ code.val ∧ code.val ≤ 57 then some ((code.val - 48 : Nat) : ℚ) else none) ∧
      truncate (atof (inBuf [Char.ofNat code])) =
        if 48 ≤ code.val ∧ code.val ≤ 57 then ((code.val - 48 : Nat) : Int) else 0 := by
  have value : (Char.ofNat code).toNat = code.val := by
    have valid : code.val.isValidChar := Or.inl (code.isLt.trans (by decide))
    rw [Char.ofNat, dif_pos valid]
    rfl
  have digit : (Char.ofNat code).isDigit = true ↔ 48 ≤ code.val ∧ code.val ≤ 57 := by
    rw [Char.isDigit_iff_toNat, value]
    simp
  by_cases zero : code.val = 0
  · rw [zero]
    exact ⟨rfl, rfl⟩
  · have text : inBuf [Char.ofNat code] = [Char.ofNat code] := by
      refine inBuf_eq ?_ (by rw [List.length_singleton, maxNumberBufLen]; omega)
      rw [List.mem_singleton]
      intro same
      rw [← same] at value
      exact zero value.symm
    have read := scanNumber_single (Char.ofNat code)
    rw [value] at read
    rw [text]
    split_ifs with isDigit
    · rw [if_pos (digit.mpr isDigit)] at read
      refine ⟨readNumber_eq read, ?_⟩
      rw [atof_eq read, truncate_toDouble_natCast]
      · rfl
      · change code.val - 48 < _
        omega
    · rw [if_neg (isDigit ∘ digit.mp)] at read
      refine ⟨by rw [NumberText.readNumber, read], ?_⟩
      rw [atof_none]
      · rfl
      · rw [skipSpace, List.dropWhile_cons, List.dropWhile_nil]
        split_ifs
        · rfl
        · exact read

/-- A bit is printed like an integer. -/
theorem inBuf_bitText (value : Bool) :
    inBuf (bitText value.toNat) = printInt false 0 (value.toNat : Int) := by
  cases value <;> decide

/-- The code of a `char` differs from the value by a multiple of 256. -/
theorem tinyint_code {unsigned : Bool} {value : Int} (inWord : InWord 1 unsigned value) :
    ∃ code : Fin 256, Words.unsigned 1 value = code ∧ (value = code ∨ value = code - 256) := by
  have positive : (0 : Int) < 256 := by decide
  have nonneg := Int.emod_nonneg value positive.ne'
  have small := Int.emod_lt_of_pos value positive
  refine ⟨⟨(value % 256).toNat, by omega⟩, rfl, ?_⟩
  have bounds : -128 ≤ value ∧ value < 256 := by
    cases unsigned with
    | true =>
        obtain ⟨lower, upper⟩ := inWord
        norm_num at upper
        omega
    | false =>
        obtain ⟨lower, upper⟩ := inWord
        norm_num at lower upper
        omega
  dsimp only
  omega

namespace CValue

variable {value : CValue} {hSQLType hPrepSQLType : ParamSqlType} {text : List Char}

theorem isSome_of_hasText (inType : value.InType) (hSQLType : ParamSqlType)
    (hasText : value.HasText) : (value.print hSQLType).isSome = true := by
  cases value with
  | numeric pnVal =>
      obtain ⟨text, print, -⟩ :=
        SqlNumericStruct.numericText_read inType (SqlNumericStruct.FitsBuffer.room hasText)
      rw [CValue.print, print]
      rfl
  | _ => rfl

/-- What a value needs for a text, unless a double prints another number. -/
theorem hasText_of_isSome {reparsed : Bool} (inType : value.InType) (fine : value.Fine reparsed)
    (some : (value.print hSQLType).isSome = true) : value.HasText := by
  cases value with
  | numeric pnVal =>
      by_contra noRoom
      have none := SqlNumericStruct.numericText_none inType fun room =>
        noRoom (room.fitsBuffer fine.1)
      rw [CValue.print, none] at some
      cases some
  | _ => trivial

theorem numericText_of_print {pnVal : SqlNumericStruct} (inType : pnVal.InType)
    (print : (numeric pnVal).print hSQLType = some text) :
    scanNumber text = some (pnVal.printedValue, []) := by
  have room : pnVal.Room := by
    by_contra noRoom
    rw [CValue.print, SqlNumericStruct.numericText_none inType noRoom] at print
    cases print
  obtain ⟨same, print', read⟩ := SqlNumericStruct.numericText_read inType room
  obtain rfl := Option.some.inj (print'.symm.trans print)
  exact read

/-- The number of a printed integer. -/
theorem readText_integer (width : IntegerWidth) (unsigned : Bool) (value : Int)
    (hSQLType : ParamSqlType) : (integer width unsigned value).print hSQLType =
      some (printInt false 0 (wrap (printedBytes width hSQLType) value)) :=
  congrArg some (printWord_text _ (printedBytes_le width hSQLType) value)

/-- A printed text stands for its value exactly when the value is printable. -/
theorem printed_iff {reparsed : Bool} (inType : value.InType) (fine : value.Fine reparsed)
    (print : value.print hSQLType = some text) (whole : Bool) :
    value.readText text = some (value.meaning.cut whole) ↔
      value.Printable hSQLType whole := by
  cases value with
  | integer width unsigned value =>
      rw [readText_integer, Option.some_inj] at print
      rw [readText, numberMeaning, ← print, readNumber_eq (scanNumber_printInt _), meaning,
        cut_intCast, Printable, ← wrap_eq_iff, Option.map_some, Option.some_inj, Meaning.number.injEq,
        Int.cast_inj]
  | bit value =>
      rw [CValue.print, inBuf_bitText, Option.some_inj] at print
      refine iff_of_true ?_ trivial
      have same : (bit value).meaning = .number ((value.toNat : Int) : ℚ) := rfl
      rw [same, cut_intCast, readText, numberMeaning, ← print,
        readNumber_eq (scanNumber_printInt _), Option.map_some]
  | tinyint unsigned value =>
      obtain ⟨code, same, near⟩ := tinyint_code inType
      rw [CValue.print, same, Option.some_inj] at print
      rw [readText, numberMeaning, ← print, (readNumber_single code).1, meaning, cut_intCast]
      refine iff_of_false ?_ id
      split_ifs with digit
      · rw [Option.map_some, Option.some_inj, Meaning.number.injEq]
        intro equal
        have integers : ((code.val - 48 : Nat) : Int) = value := by exact_mod_cast equal
        omega
      · intro none
        cases none
  | date value =>
      obtain ⟨year, month, day⟩ := inType
      obtain ⟨short, plain⟩ := dateParamText_short value.year value.month value.day
      rw [CValue.print, inBuf_eq plain (by rw [maxNumberBufLen]; omega), Option.some_inj] at print
      rw [readText, ← print, dateMeaning_text, wrap_eq_iff.mpr year, meaning, cut_date, Printable,
        ← wrap_member month, ← wrap_member day]
      simp
  | time value =>
      obtain ⟨hour, minute, second⟩ := inType
      obtain ⟨short, plain⟩ := timeParamText_short value.hour value.minute value.second
      rw [CValue.print, inBuf_eq plain (by rw [maxNumberBufLen]; omega), Option.some_inj] at print
      rw [readText, ← print, timeMeaning_text, meaning, cut_time, Printable,
        ← wrap_member hour, ← wrap_member minute, ← wrap_member second]
      simp
  | timestamp value =>
      obtain ⟨⟨year, month, day⟩, ⟨hour, minute, second⟩, fraction⟩ := inType
      have micros : 0 ≤ wrap 4 ((value.fraction / 1000 : Nat) : Int) := by
        rw [wrap_microseconds fraction]
        exact Int.natCast_nonneg _
      have digits := (printInt_digits 6 micros).1
      have text := timestampText_short value
      rw [CValue.print, inBuf_eq text.2 text.1, Option.some_inj] at print
      rw [readText, ← print, timestampMeaning_text _ _ _ _ _ _ digits, wrap_eq_iff.mpr year,
        meaning, cut_timestamp, Printable, ← wrap_member month, ← wrap_member day, ← wrap_member hour,
        ← wrap_member minute, ← wrap_member second, ← microseconds_iff fraction]
      simp only [Option.some_inj, Meaning.timestamp.injEq, true_and, and_assoc]
  | numeric pnVal =>
      have read := numericText_of_print inType print
      rw [SqlNumericStruct.printedValue_exact fine.1] at read
      rw [readText, numberMeaning, readNumber_eq read, Option.map_some, Option.some_inj, meaning,
        Meaning.cut, Printable]
      cases whole with
      | false => simp
      | true => simp [← SqlNumericStruct.value_whole_iff]

/-- The values that are numbers. -/
theorem readText_number (number : value.cType.isNumber = true) (text : List Char) :
    value.readText text = numberMeaning text := by
  cases value with
  | date value => cases number
  | time value => cases number
  | timestamp value => cases number
  | _ => rfl

/-- A text with a number, read back, stands for the whole part of the nearest `double`. -/
theorem reparse_iff (number : value.cType.isNumber = true) (bytes : Nat) {q : ℚ}
    (read : scanNumber text = some (q, [])) (meaning : ℚ) :
    (if text = [] then value.readText text = some (.number meaning)
      else ∃ out, reparse bytes text = some out ∧ value.readText out = some (.number meaning)) ↔
      InWord bytes false (truncate (toDouble q)) ∧ (truncate (toDouble q) : ℚ) = meaning := by
  have some_text : text ≠ [] := by
    rintro rfl
    cases read
  rw [if_neg some_text, reparse, atof_eq read]
  split_ifs with inWord
  · simp only [Option.some_inj, exists_eq_left', readText_number number, numberMeaning,
      readNumber_eq (scanNumber_printInt _), Option.map_some, Meaning.number.injEq, inWord,
      true_and]
  · simp [inWord]

/-- A number below zero has no whole part above it, as a `double` or not. -/
theorem truncate_toDouble_nonpos {number : ℚ} (negative : number < 0) :
    truncate (toDouble number) ≤ 0 := by
  have magnitude := round53_nonneg (neg_nonneg.mpr negative.le)
  rw [toDouble, if_pos negative, truncate, neg_neg]
  split_ifs with sign
  · exact Int.neg_nonpos_of_nonneg (Int.floor_nonneg.mpr magnitude)
  · have zero : round53 (-number) = 0 := by linarith
    rw [zero]
    decide

/-- A value that goes through a `double` is right exactly when it reparses. -/
theorem reparsed_iff {bytes : Nat} (fine : value.Fine true) (width : bytes = 2 ∨ bytes = 4 ∨ bytes = 8)
    (number : value.cType.isNumber = true) (inType : value.InType)
    (print : value.print hSQLType = some text) (plain : hSQLType ≠ .known .smallint) :
    (if text = [] then value.readText text = some (value.meaning.cut true)
      else ∃ out, reparse bytes text = some out ∧
        value.readText out = some (value.meaning.cut true)) ↔ value.Reparses bytes := by
  cases value with
  | integer width unsigned value =>
      have whole : printedBytes width hSQLType = width.bytes := if_neg fun both => plain both.2
      rw [readText_integer, Option.some_inj, whole] at print
      have read := scanNumber_printInt (wrap width.bytes value)
      rw [print] at read
      rw [meaning, cut_intCast, reparse_iff rfl bytes read, Reparses, Int.cast_inj]
      by_cases small : InWord width.bytes false value
      · rw [wrap_eq_iff.mpr small, ← truncate_toDouble_intCast]
        constructor
        · rintro ⟨inWord, same⟩
          exact ⟨small, same, same ▸ inWord⟩
        · rintro ⟨-, same, inWord⟩
          exact ⟨same.symm ▸ inWord, same⟩
      · cases unsigned with
        | false => exact absurd inType small
        | true =>
            obtain ⟨negative, positive⟩ := wrap_neg inType small
            have nonpos := truncate_toDouble_nonpos (Int.cast_lt_zero.mpr negative : (_ : ℚ) < 0)
            refine iff_of_false ?_ (fun kept => small kept.1)
            rintro ⟨-, same⟩
            omega
  | bit value =>
      rw [CValue.print, inBuf_bitText, Option.some_inj] at print
      have read := scanNumber_printInt (value.toNat : Int)
      have small : value.toNat < 2 ^ 53 := value.toNat_lt.trans (by decide)
      rw [print, Int.cast_natCast] at read
      have same : (bit value).meaning = .number ((value.toNat : Int) : ℚ) := rfl
      rw [same, cut_intCast, reparse_iff rfl bytes read, truncate_toDouble_natCast small]
      refine iff_of_true ⟨?_, rfl⟩ trivial
      rcases width with rfl | rfl | rfl <;> cases value <;> decide
  | tinyint unsigned value =>
      obtain ⟨code, same, near⟩ := tinyint_code inType
      obtain ⟨single, back⟩ := readNumber_single code
      rw [CValue.print, same, Option.some_inj] at print
      rw [meaning, cut_intCast, Reparses, ← print]
      refine iff_of_false ?_ id
      split_ifs with empty
      · rw [empty]
        rintro ⟨⟩
      · rintro ⟨out, printed, read⟩
        have some_code : code.val ≠ 0 := by
          intro zero
          exact empty (by rw [zero]; rfl)
        have other : truncate (atof (inBuf [Char.ofNat code])) ≠ value := by
          rw [back]
          split_ifs <;> omega
        rw [reparse] at printed
        generalize truncate (atof (inBuf [Char.ofNat code])) = data at printed other
        split_ifs at printed
        obtain rfl := Option.some.inj printed
        rw [readText, numberMeaning, readNumber_eq (scanNumber_printInt _), Option.map_some,
          Option.some_inj, Meaning.number.injEq, Int.cast_inj] at read
        exact other read
  | numeric pnVal =>
      have read := numericText_of_print inType print
      rw [SqlNumericStruct.printedValue_exact fine.1] at read
      have whole : truncate (toDouble pnVal.value) = truncate pnVal.value := by
        refine truncate_toDouble ?_
        rw [SqlNumericStruct.abs_value]
        exact fine.2 rfl
      rw [meaning, Meaning.cut, if_pos rfl, reparse_iff rfl bytes read, Reparses, Int.cast_inj,
        whole]
      exact and_iff_left rfl
  | date value => cases number
  | time value => cases number
  | timestamp value => cases number

end CValue

/-! ## Parameters -/

/-- A number goes through a `double` to one of three integer types. -/
theorem reparseWidth_some {hSQLType hPrepSQLType : ParamSqlType} {bytes : Nat}
    (width : reparseWidth hSQLType hPrepSQLType = some bytes) :
    (bytes = 2 ∨ bytes = 4 ∨ bytes = 8) ∧ hSQLType.group = .number ∧
      hSQLType ≠ .known .smallint := by
  rw [reparseWidth.eq_def] at width
  split at width
  all_goals first
    | cases width
    | refine ⟨?_, rfl, by decide⟩
      split at width <;> cases width <;> decide

/-- What is taken for a value that goes through a `double` is a number. -/
theorem isNumber_of_takes {value : CValue} {hSQLType hPrepSQLType : ParamSqlType} {hCType : CType}
    {bytes : Nat} (width : reparseWidth hSQLType hPrepSQLType = some bytes)
    (taken : takes hSQLType value.cType hCType = true) : value.cType.isNumber = true := by
  rw [takes, (reparseWidth_some width).2.1] at taken
  cases value <;> simp_all [CValue.cType, CType.isText]

/-- A text that is taken denotes its value exactly when the value is kept. -/
theorem serverText_iff {value : CValue} {hSQLType hPrepSQLType : ParamSqlType} {hCType : CType}
    {text : List Char} (inType : value.InType)
    (fine : value.Fine (reparseWidth hSQLType hPrepSQLType).isSome)
    (print : value.print hSQLType = some text)
    (taken : takes hSQLType value.cType hCType = true) :
    (∃ result, serverText hSQLType hPrepSQLType (some text) = some result ∧
        (result.iConversionError = true ∨ ∃ out, result.pcVal = some out ∧
          value.readText out = some (value.meaning.cut (integerTarget hSQLType hPrepSQLType)))) ↔
      value.Kept hSQLType hPrepSQLType := by
  rw [CValue.Kept, and_iff_right fine, serverText]
  cases width : reparseWidth hSQLType hPrepSQLType with
  | none =>
      dsimp only
      rw [← CValue.printed_iff inType fine print]
      simp
  | some bytes =>
      obtain ⟨widths, -, plain⟩ := reparseWidth_some width
      have whole : integerTarget hSQLType hPrepSQLType = true := by
        rw [integerTarget, width]
        rfl
      rw [width] at fine
      dsimp only
      rw [← CValue.reparsed_iff fine widths (isNumber_of_takes width taken) inType print plain,
        whole]
      split_ifs with empty
      · simp
      · cases reparse bytes text with
        | none => simp
        | some out => simp

/-- A value that is not NULL is sent right when it has a text and is kept where it is taken. -/
theorem denotes_of_kept {value : CValue} {hSQLType hPrepSQLType : ParamSqlType} {hCType : CType}
    (inType : value.InType) (hasText : value.HasText)
    (kept : takes hSQLType value.cType hCType = true → value.Kept hSQLType hPrepSQLType) :
    ∃ result, ((value.print hSQLType).map some).bind (fun pcVal =>
        if takes hSQLType value.cType hCType then serverText hSQLType hPrepSQLType pcVal
        else some ⟨none, true⟩) = some result ∧
      (result.iConversionError = true ∨ ∃ text, result.pcVal = some text ∧
        value.readText text = some (value.meaning.cut (integerTarget hSQLType hPrepSQLType))) := by
  obtain ⟨text, print⟩ :=
    Option.isSome_iff_exists.mp (CValue.isSome_of_hasText inType hSQLType hasText)
  rw [print, Option.map_some, Option.bind_some]
  split_ifs with taken
  · exact (serverText_iff inType (kept taken).1 print taken).mpr (kept taken)
  · exact ⟨_, rfl, Or.inl rfl⟩

theorem kept_of_denotes {value : CValue} {hSQLType hPrepSQLType : ParamSqlType} {hCType : CType}
    (inType : value.InType) (fine : value.Fine (reparseWidth hSQLType hPrepSQLType).isSome)
    {result : ParamResult}
    (converted : ((value.print hSQLType).map some).bind (fun pcVal =>
        if takes hSQLType value.cType hCType then serverText hSQLType hPrepSQLType pcVal
        else some ⟨none, true⟩) = some result)
    (denotes : result.iConversionError = true ∨ ∃ text, result.pcVal = some text ∧
      value.readText text = some (value.meaning.cut (integerTarget hSQLType hPrepSQLType))) :
    value.HasText ∧
      (takes hSQLType value.cType hCType = true → value.Kept hSQLType hPrepSQLType) := by
  cases print : value.print hSQLType with
  | none =>
      rw [print] at converted
      cases converted
  | some text =>
      rw [print, Option.map_some, Option.bind_some] at converted
      refine ⟨CValue.hasText_of_isSome inType fine (by rw [print]; rfl), fun taken => ?_⟩
      rw [if_pos taken] at converted
      exact (serverText_iff inType fine print taken).mp ⟨result, converted, denotes⟩

/--
A parameter's text denotes its value, with NULL for `SQL_NULL_DATA` and a conversion
error for a pair of types that is refused, when the parameter is kept; and only then,
unless doubles on the way of a numeric value are too coarse for it.
-/
theorem denotesValue_when (value : CValue) (plParamDataStrLenInd : Option Int) (hCType : CType)
    (hSQLType hPrepSQLType : ParamSqlType) (inType : value.InType)
    (typed : ∀ hType ∈ readType hCType hSQLType, hType = value.cType) :
    (ParamKept value plParamDataStrLenInd hCType hSQLType hPrepSQLType →
      DenotesValue value plParamDataStrLenInd hCType hSQLType hPrepSQLType) ∧
    (value.Fine (reparseWidth (boundSqlType hSQLType hPrepSQLType) hPrepSQLType).isSome →
      DenotesValue value plParamDataStrLenInd hCType hSQLType hPrepSQLType →
      ParamKept value plParamDataStrLenInd hCType hSQLType hPrepSQLType) := by
  rw [DenotesValue, ParamKept, convertCParamDataToSQLData]
  cases read : readType hCType hSQLType with
  | none =>
      refine ⟨fun _ => ⟨_, rfl, ?_⟩, fun _ _ => trivial⟩
      split_ifs
      · rfl
      · exact Or.inl rfl
  | some hType =>
      obtain rfl := typed hType read
      dsimp only
      generalize boundSqlType hSQLType hPrepSQLType = hSQLType
      by_cases isNull : plParamDataStrLenInd = some sqlNullData
      · have null : iIndicator plParamDataStrLenInd = sqlNullData := by
          rw [isNull]
          decide
        refine ⟨fun _ => ?_, fun _ _ => Or.inl isNull⟩
        rw [getParamVal, if_pos null, Option.bind_some]
        split_ifs
        · exact ⟨_, rfl, rfl⟩
        · exact ⟨_, rfl, rfl⟩
      · rw [getParamVal, or_iff_right isNull]
        simp only [if_neg isNull]
        by_cases null : iIndicator plParamDataStrLenInd = sqlNullData
        · rw [if_pos null, if_pos null, Option.bind_some]
          cases takes hSQLType value.cType hCType with
          | true => simp [serverText]
          | false => simp
        · rw [if_neg null, if_neg null]
          refine ⟨fun ⟨hasText, kept⟩ => denotes_of_kept inType hasText kept, ?_⟩
          rintro fine ⟨result, converted, denotes⟩
          exact kept_of_denotes inType fine converted denotes

/-- `-123.45`, bound as a `double` where the server wants a `bigint`, and the largest unsigned
short that a short holds. -/
theorem denotesValue_numeric :
    DenotesValue (.numeric ⟨5, 2, 0, little 16 12345⟩) (some 0) .numeric (.known .double)
        (.known .bigint) ∧
      DenotesValue (.integer .short true 32767) (some 0) (.integer .short true) (.known .integer)
        (.known .integer) := by
  refine ⟨(denotesValue_when _ _ _ _ _ ?_ ?_).1 (Or.inr ?_),
    (denotesValue_when _ _ _ _ _ ?_ ?_).1 (Or.inr ?_)⟩
  · exact ⟨by decide, by decide, by decide, by decide, by decide, by decide⟩
  · intro hType read
    exact (Option.some.inj read).symm
  · rw [if_neg (by decide)]
    have digits : (⟨5, 2, 0, little 16 12345⟩ : SqlNumericStruct).magnitude = 12345 := by decide
    refine ⟨fun scale => absurd scale (by decide), fun _ => ⟨⟨fun _ => ?_, fun _ => ?_⟩, ?_⟩⟩
    · rw [digits]
      exact Or.inl (fineGrid_of_lt (by decide) (by decide) _)
    · rw [digits]
      exact Or.inr (by decide +kernel)
    · exact (by decide +kernel : InWord 8 false
        (truncate (SqlNumericStruct.value ⟨5, 2, 0, little 16 12345⟩)))
  · exact (by decide : InWord 2 true 32767)
  · intro hType read
    exact (Option.some.inj read).symm
  · rw [if_neg (by decide)]
    exact ⟨trivial, fun _ => ⟨trivial, (by decide : InWord 2 false 32767)⟩⟩

/-- The unsigned short `40000` becomes `-25536`. -/
theorem denotesValue_wrong : ¬ ∀ (value : CValue) (plParamDataStrLenInd : Option Int)
    (hCType : CType) (hSQLType hPrepSQLType : ParamSqlType), value.InType →
    (∀ hType ∈ readType hCType hSQLType, hType = value.cType) →
    DenotesValue value plParamDataStrLenInd hCType hSQLType hPrepSQLType := by
  intro every
  obtain ⟨result, converted, denotes⟩ := every (.integer .short true 40000) (some 0)
    (.integer .short true) (.known .integer) (.known .integer)
    (show InWord 2 true 40000 by decide) (by decide)
  have text : convertCParamDataToSQLData (.integer .short true 40000) (some 0)
      (.integer .short true) (.known .integer) (.known .integer) =
      some ⟨some "-25536".toList, false⟩ := by
    decide
  obtain rfl := Option.some.inj (text.symm.trans converted)
  rw [if_neg (by decide)] at denotes
  rcases denotes with error | ⟨text, same, read⟩
  · cases error
  · obtain rfl := Option.some.inj same
    have number : numberMeaning (printInt false 0 (-25536)) = some (.number ((-25536 : Int) : ℚ)) := by
      rw [numberMeaning, readNumber_eq (scanNumber_printInt _), Option.map_some]
    have equal := number.symm.trans read
    rw [CValue.meaning, cut_intCast, Option.some_inj, Meaning.number.injEq, Int.cast_inj] at equal
    exact absurd equal (by decide)

end RedshiftOdbc.Convert
