import RedshiftOdbc.Convert.Types
import RedshiftOdbc.Library.Scanf

/-!
# Times as text

How `getRsVal` and `convertSQLDataToCData` read a TIMESTAMP, TIMESTAMPTZ or TIME
value in text format into a `TIMESTAMP_STRUCT`.  The fraction is taken off as a
word of its own, padded with zeros to nine digits, to six, or not at all, and
read as a number; the suffix of a time zone is part of that word.
-/

namespace RedshiftOdbc.Convert

open RedshiftOdbc.Scanf RedshiftOdbc.Words

structure TimestampStruct where
  year : Int
  month : Int
  day : Int
  hour : Int
  minute : Int
  second : Int
  fraction : Nat
  deriving DecidableEq, Repr

structure RsTimeStruct where
  hour : Int
  minute : Int
  second : Int
  fraction : Nat
  deriving DecidableEq, Repr

structure DateStruct where
  year : Int
  month : Int
  day : Int
  deriving DecidableEq, Repr

/-- `"%4hd-%2hd-%2hd"`. -/
def dateFormat : List Directive := [.int 4, .literal '-', .int 2, .literal '-', .int 2]

/-- `"%2hd:%2hd:%2hd.%s"`. -/
def timeFormat : List Directive :=
  [.int 2, .literal ':', .int 2, .literal ':', .int 2, .literal '.', .word]

/-- `"%4hd-%2hd-%2hd %2hd:%2hd:%2hd.%s"`. -/
def timestampFormat : List Directive := dateFormat ++ .space :: timeFormat

/-- A field that is a `short`; one that was not read keeps what it held. -/
def shortField (scanned : Scanned) (index : Nat) (before : Int) : Int :=
  ((scanned.ints[index]?).map (wrap 2)).getD before

/-- The fields of a timestamp and its `szFraction`. -/
def scanTimestamp (before : TimestampStruct) (input : List Char) :
    TimestampStruct × List Char :=
  let scanned := sscanf timestampFormat input
  ({ year := shortField scanned 0 before.year
     month := shortField scanned 1 before.month
     day := shortField scanned 2 before.day
     hour := shortField scanned 3 before.hour
     minute := shortField scanned 4 before.minute
     second := shortField scanned 5 before.second
     fraction := 0 },
    scanned.words.headD [])

/-- The fields of a time and its `szFraction`. -/
def scanTime (before : RsTimeStruct) (input : List Char) : RsTimeStruct × List Char :=
  let scanned := sscanf timeFormat input
  ({ hour := shortField scanned 0 before.hour
     minute := shortField scanned 1 before.minute
     second := shortField scanned 2 before.second
     fraction := 0 },
    scanned.words.headD [])

/-- Zeros from `fractionLen` on, and the end at `width`. -/
def padZeros (szFraction : List Char) (fractionLen : Int) (width : Nat) : List Char :=
  if 0 < fractionLen then
    (szFraction.take fractionLen.toNat ++ List.replicate (width - fractionLen.toNat) '0').take width
  else szFraction

/-- The fraction as `sscanf` reads it into an unsigned field that is zero. -/
def scanFraction (szFraction : List Char) (width : Nat) : Nat :=
  ((sscanf [.int width] szFraction).ints.head?.map (unsigned 4)).getD 0

/-- `getRsVal` for a timestamp in text format. -/
def getTimestampVal (hRsSpecialType : RsSpecialType) (before : TimestampStruct)
    (pColData : List Char) (iColDataLen : Nat) : TimestampStruct :=
  if 0 < iColDataLen then
    let (tsVal, szFraction) := scanTimestamp before (valueText pColData iColDataLen)
    let fractionLen : Int :=
      if hRsSpecialType = .timestamptzoid then (szFraction.length : Int) - 3
      else szFraction.length
    { tsVal with fraction := scanFraction (padZeros szFraction fractionLen 9) 9 }
  else ⟨0, 0, 0, 0, 0, 0, 0⟩

/-- `getRsVal` for a time in text format. -/
def getTimeVal (before : RsTimeStruct) (pColData : List Char) (iColDataLen : Nat) :
    RsTimeStruct :=
  if 0 < iColDataLen then
    let (tVal, szFraction) := scanTime before (valueText pColData iColDataLen)
    { tVal with fraction := scanFraction (padZeros szFraction szFraction.length 6) 6 }
  else ⟨0, 0, 0, 0⟩

/-- `getRsVal` for a date in text format. -/
def getDateVal (before : DateStruct) (pColData : List Char) (iColDataLen : Nat) : DateStruct :=
  if 0 < iColDataLen then
    let scanned := sscanf dateFormat (valueText pColData iColDataLen)
    ⟨shortField scanned 0 before.year, shortField scanned 1 before.month,
      shortField scanned 2 before.day⟩
  else ⟨0, 0, 0⟩

def twoDigits (number : Fin 100) : List (Fin 10) :=
  [⟨number / 10, by omega⟩, ⟨number % 10, by omega⟩]

def fourDigits (number : Fin 10000) : List (Fin 10) :=
  [⟨number / 1000, by omega⟩, ⟨number / 100 % 10, by omega⟩, ⟨number / 10 % 10, by omega⟩,
    ⟨number % 10, by omega⟩]

/-- The suffix of a time zone. -/
inductive Offset where
  | none
  | hours (minus : Bool) (hour : Fin 100)
  | minutes (minus : Bool) (hour minute : Fin 100)
  deriving DecidableEq, Repr

def signText (minus : Bool) : Char := if minus then '-' else '+'

def Offset.text : Offset → List Char
  | .none => []
  | .hours minus hour => signText minus :: digitText (twoDigits hour)
  | .minutes minus hour minute =>
      signText minus :: (digitText (twoDigits hour) ++ ':' :: digitText (twoDigits minute))

/-- A date and a time of day with at most six digits of a fraction, and a time zone. -/
structure Moment where
  year : Fin 10000
  month : Fin 100
  day : Fin 100
  hour : Fin 100
  minute : Fin 100
  second : Fin 100
  fraction : List (Fin 10)
  offset : Offset
  short : fraction.length ≤ 6

namespace Moment

variable (moment : Moment)

/-- The fraction with its dot, and the time zone. -/
def tailText : List Char :=
  if moment.fraction = [] then moment.offset.text
  else '.' :: (digitText moment.fraction ++ moment.offset.text)

def timeText : List Char :=
  digitText (twoDigits moment.hour) ++ ':' :: (digitText (twoDigits moment.minute) ++
    ':' :: (digitText (twoDigits moment.second) ++ moment.tailText))

def timestampText : List Char :=
  digitText (fourDigits moment.year) ++ '-' :: (digitText (twoDigits moment.month) ++
    '-' :: (digitText (twoDigits moment.day) ++ ' ' :: moment.timeText))

def billionths : Nat := ofDigits moment.fraction * 10 ^ (9 - moment.fraction.length)

end Moment

/-- The columns whose text becomes a `TIMESTAMP_STRUCT`. -/
inductive Column where
  | timestamp (hRsSpecialType : RsSpecialType)
  | varcharTimestamptz
  | time (hRsSpecialType : RsSpecialType)
  deriving DecidableEq, Repr

namespace Column

def text (moment : Moment) : Column → List Char
  | .timestamp _ | .varcharTimestamptz => moment.timestampText
  | .time _ => moment.timeText

/-- The fields of the text, with its fraction in billionths of a second. -/
def expected (moment : Moment) : Column → TimestampStruct
  | .timestamp _ | .varcharTimestamptz =>
      ⟨moment.year, moment.month, moment.day, moment.hour, moment.minute, moment.second,
        moment.billionths⟩
  | .time _ => ⟨0, 0, 0, moment.hour, moment.minute, moment.second, moment.billionths⟩

end Column

/-! ## Reading the texts -/

theorem digitText_plain (digits : List (Fin 10)) : ∀ character ∈ digitText digits,
    isSpace character = false ∧ character ≠ '\x00' := by
  intro character member
  obtain ⟨digit, -, rfl⟩ := List.mem_map.mp member
  clear member
  revert digit
  decide

/-- Nothing in a suffix is a space. -/
theorem Offset.text_plain (offset : Offset) :
    ∀ character ∈ offset.text, isSpace character = false ∧ character ≠ '\x00' := by
  have sign : ∀ minus, isSpace (signText minus) = false ∧ signText minus ≠ '\x00' := by decide
  cases offset with
  | none => simp [text]
  | hours minus hour =>
      intro character member
      rcases List.mem_cons.mp member with rfl | later
      · exact sign minus
      · exact digitText_plain _ character later
  | minutes minus hour minute =>
      intro character member
      rcases List.mem_cons.mp member with rfl | later
      · exact sign minus
      · rcases List.mem_append.mp later with first | second
        · exact digitText_plain _ character first
        · rcases List.mem_cons.mp second with rfl | last
          · decide
          · exact digitText_plain _ character last

namespace Moment

variable (moment : Moment)

/-- `szFraction`: the digits and, behind them, the suffix. -/
def fractionWord : List Char :=
  if moment.fraction = [] then [] else digitText moment.fraction ++ moment.offset.text

end Moment

/-! ## The columns -/

namespace Moment

variable (moment : Moment)

end Moment

end RedshiftOdbc.Convert
