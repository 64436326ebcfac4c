import Mathlib.Data.List.TakeWhile

/-!
# Types of columns and of application buffers

The SQL types a column can have and the C types an application can ask for, as
far as the conversions of `convertSQLDataToCData` tell them apart.
-/

namespace RedshiftOdbc.Convert

inductive SqlType where
  | char
  | wchar
  | varchar
  | longvarchar
  | wvarchar
  | wlongvarchar
  | binary
  | longvarbinary
  | bit
  | tinyint
  | smallint
  | integer
  | bigint
  | real
  | float
  | double
  | numeric
  | decimal
  | typeDate
  | date
  | typeTime
  | time
  | typeTimestamp
  | timestamp
  | intervalYearToMonth
  | intervalDayToSecond
  deriving DecidableEq, Repr

/-- The `hRsSpecialType` values that a conversion of a time asks about. -/
inductive RsSpecialType where
  | none
  | timetzoid
  | timestamptzoid
  deriving DecidableEq, Repr

/-- `RS_TEXT_FORMAT` and `RS_BINARY_FORMAT`. -/
inductive Format where
  | text
  | binary
  deriving DecidableEq, Repr

/-- A text as a C string: up to the first zero. -/
def cString (memory : List Char) : List Char :=
  memory.takeWhile fun character => character ≠ '\x00'

def maxNumberBufLen : Nat := 64

/-- `makeNullTerminateIntVal`: the text in `szNumBuf`. -/
def makeNullTerminateIntVal (pColData : List Char) (iColDataLen iBufLen : Nat) : List Char :=
  cString (pColData.take (min iColDataLen (iBufLen - 1)))

/-- The text `getRsVal` reads a value from. -/
def valueText (pColData : List Char) (iColDataLen : Nat) : List Char :=
  if pColData[iColDataLen - 1]? = some '\x00' then cString pColData
  else makeNullTerminateIntVal pColData iColDataLen (maxNumberBufLen + 1)

theorem cString_append {text beyond : List Char} (plain : '\x00' ∉ text) :
    cString (text ++ '\x00' :: beyond) = text := by
  induction text with
  | nil => simp [cString]
  | cons character rest ih =>
      obtain ⟨here, later⟩ := not_or.mp (fun member => plain (List.mem_cons.mpr member))
      have keep : character ≠ '\x00' := fun same => here same.symm
      have tail := ih later
      unfold cString at tail ⊢
      rw [List.cons_append, List.takeWhile_cons_of_pos (by simpa using keep), tail]

/-- What follows the end of a string does not count. -/
theorem cString_end (text beyond : List Char) : cString (text ++ '\x00' :: beyond) = cString text := by
  induction text with
  | nil => simp [cString]
  | cons character rest ih =>
      unfold cString at ih ⊢
      rw [List.cons_append, List.takeWhile_cons, List.takeWhile_cons, ih]

theorem cString_self {text : List Char} (plain : '\x00' ∉ text) : cString text = text := by
  rw [cString, List.takeWhile_eq_self_iff]
  intro character member
  have keep : character ≠ '\x00' := fun same => plain (same ▸ member)
  simpa using keep

/-- A value that the C library ended with a zero is read whole. -/
theorem valueText_append {text beyond : List Char} (plain : '\x00' ∉ text)
    (short : text.length ≤ maxNumberBufLen) :
    valueText (text ++ '\x00' :: beyond) text.length = text := by
  rw [valueText]
  split
  · exact cString_append plain
  · rw [makeNullTerminateIntVal, Nat.add_sub_cancel, Nat.min_eq_left short,
      List.take_left, cString_self plain]

end RedshiftOdbc.Convert
