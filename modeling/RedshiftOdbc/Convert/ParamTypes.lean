import RedshiftOdbc.Convert.Types

/-!
# Types of parameters

The SQL types a parameter can be bound with, the C types of its value, and which
pairs of them `convertCParamDataToSQLData` takes.
-/

namespace RedshiftOdbc.Convert

/-- The `hSQLType` values of a parameter; none is set where it is bound by descriptor. -/
inductive ParamSqlType where
  | unset
  | known (type : SqlType)
  | varbinary
  | other
  deriving DecidableEq, Repr

inductive IntegerWidth where
  | short
  | long
  | bigint
  deriving DecidableEq, Repr

/--
The `hCType` values of a parameter.  The names with and without a sign, and those of
the second and the third ODBC, have their cases together.
-/
inductive CType where
  | char
  | wchar
  | binary
  | integer (width : IntegerWidth) (unsigned : Bool)
  | float
  | double
  | bit
  | tinyint (unsigned : Bool)
  | date
  | time
  | timestamp
  | numeric
  | intervalYearToMonth
  | intervalDayToSecond
  | default
  deriving DecidableEq, Repr

def sqlNullData : Int := -1

/-- `getDefaultCTypeFromSQLType`; none is a conversion error. -/
def getDefaultCTypeFromSQLType : ParamSqlType → Option CType
  | .known .char | .known .varchar | .known .longvarchar | .known .numeric | .known .decimal =>
      some .char
  | .known .wchar | .known .wvarchar | .known .wlongvarchar => some .wchar
  | .known .smallint => some (.integer .short false)
  | .known .integer => some (.integer .long false)
  | .known .bigint => some (.integer .bigint false)
  | .known .real => some .float
  | .known .float | .known .double => some .double
  | .known .bit => some .bit
  | .known .binary | .varbinary | .known .longvarbinary => some .binary
  | .known .tinyint => some (.tinyint false)
  | .known .typeDate | .known .date => some .date
  | .known .typeTimestamp | .known .timestamp => some .timestamp
  | .known .intervalYearToMonth => some .intervalYearToMonth
  | .known .intervalDayToSecond => some .intervalDayToSecond
  | .known .typeTime | .known .time => some .time
  | .unset | .other => none

def CType.isNumber : CType → Bool
  | .integer _ _ | .float | .double | .bit | .tinyint _ | .numeric => true
  | _ => false

def CType.isText : CType → Bool
  | .char | .wchar => true
  | _ => false

/-- The SQL types whose cases take the same C types. -/
inductive SqlGroup where
  | character
  | longvarbinary
  | number
  | datetime
  | intervalYearToMonth
  | intervalDayToSecond
  | time
  | unlisted
  deriving DecidableEq, Repr

def ParamSqlType.group : ParamSqlType → SqlGroup
  | .known .char | .known .varchar | .known .longvarchar | .known .wchar | .known .wvarchar
  | .known .wlongvarchar => .character
  | .known .longvarbinary => .longvarbinary
  | .known .smallint | .known .integer | .known .bigint | .known .real | .known .float
  | .known .double | .known .bit | .known .tinyint | .known .numeric | .known .decimal => .number
  | .known .typeDate | .known .date | .known .typeTimestamp | .known .timestamp => .datetime
  | .known .intervalYearToMonth => .intervalYearToMonth
  | .known .intervalDayToSecond => .intervalDayToSecond
  | .known .typeTime | .known .time => .time
  | .known .binary | .unset | .varbinary | .other => .unlisted

/-- The pairs without a conversion error; a type that is not listed wants the default. -/
def takes (hSQLType : ParamSqlType) (hType hCType : CType) : Bool :=
  match hSQLType.group with
  | .character => hType ≠ .binary && hType ≠ .default
  | .longvarbinary => hType.isText || hType = .binary
  | .number => hType.isText || hType.isNumber
  | .datetime => hType.isText || hType = .date || hType = .timestamp
  | .intervalYearToMonth => hType.isText || hType = .intervalYearToMonth
  | .intervalDayToSecond => hType.isText || hType = .intervalDayToSecond
  | .time => hType.isText || hType = .time
  | .unlisted => hCType = .default

/-- The C type that is read, unless there is no default. -/
def readType (hCType : CType) (hSQLType : ParamSqlType) : Option CType :=
  if hCType = .default then getDefaultCTypeFromSQLType hSQLType else some hCType

/-- The SQL type that is converted to; one bound by descriptor has that of the statement. -/
def boundSqlType (hSQLType hPrepSQLType : ParamSqlType) : ParamSqlType :=
  if hSQLType = .unset then hPrepSQLType else hSQLType

/-- The integer type of the server that a number bound as a `double` is converted to. -/
def reparseWidth (hSQLType hPrepSQLType : ParamSqlType) : Option Nat :=
  match hSQLType with
  | .known .real | .known .float | .known .double =>
      match hPrepSQLType with
      | .known .integer => some 4
      | .known .smallint => some 2
      | .known .bigint => some 8
      | _ => none
  | _ => none

end RedshiftOdbc.Convert
