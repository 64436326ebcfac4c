import Mathlib.Data.String.Defs

/-!
# Scalar functions

The table of `processEscapeFunctionCall`: what a scalar function of ODBC becomes
with its arguments.  A function that is not in the table, or that has another
number of arguments there, is written out again as it is.
-/

namespace RedshiftOdbc.Escape

def cText (text : String) : String := String.ofList (text.toList.takeWhile (· ≠ '\x00'))

/-- `_stricmp` finds no difference. -/
def sameName (first second : String) : Bool := first.toUpper = (cText second).toUpper

def intervalMappings : List (String × String) :=
  [("SQL_TSI_FRAC_SECOND", "us"), ("SQL_TSI_SECOND", "s"), ("SQL_TSI_MINUTE", "m"),
    ("SQL_TSI_HOUR", "h"), ("SQL_TSI_DAY", "d"), ("SQL_TSI_WEEK", "w"), ("SQL_TSI_MONTH", "mon"),
    ("SQL_TSI_QUARTER", "qtr"), ("SQL_TSI_YEAR", "y")]

def typeMappings : List (String × String) :=
  [("SQL_BIGINT", "BIGINT"), ("SQL_BIT", "BOOL"), ("SQL_CHAR", "CHAR"), ("SQL_DECIMAL", "DECIMAL"),
    ("SQL_DOUBLE", "FLOAT8"), ("SQL_FLOAT", "FLOAT8"), ("SQL_INTEGER", "INTEGER"),
    ("SQL_NUMERIC", "NUMERIC"), ("SQL_REAL", "REAL"), ("SQL_SMALLINT", "SMALLINT"),
    ("SQL_TYPE_DATE", "DATE"), ("SQL_DATE", "DATE"), ("SQL_TYPE_TIMESTAMP", "TIMESTAMP"),
    ("SQL_TIMESTAMP", "TIMESTAMP"), ("SQL_TYPE_TIME", "TIME"), ("SQL_TIME", "TIME"),
    ("SQL_VARCHAR", "VARCHAR"), ("SQL_INTERVAL_YEAR_TO_MONTH", "INTERVALY2M"),
    ("SQL_INTERVAL_DAY_TO_SECOND", "INTERVALD2S")]

def lookupIntervalToken (odbcIntervalToken : String) : Option String :=
  (intervalMappings.find? fun entry => sameName entry.1 odbcIntervalToken).map Prod.snd

def lookupSqlType (odbcTypeName : String) : Option String :=
  (typeMappings.find? fun entry => sameName entry.1 odbcTypeName).map Prod.snd

def castAs (expr type : String) : String := "CAST(" ++ expr ++ " AS " ++ type ++ ")"

def buildStandardFunction (funcName : String) (args : List String) : String :=
  funcName ++ "(" ++ ", ".intercalate args ++ ")"

def datePart (part expr : String) : String :=
  "DATE_PART('" ++ part ++ "', " ++ castAs expr "TIMESTAMP" ++ ")"

/-- The functions that keep their one argument, under the name they have in Redshift. -/
def unaryMappings : List (String × String) :=
  [("LCASE", "LOWER"), ("UCASE", "UPPER"), ("LOG", "LN"), ("ACOS", "ACOS"), ("ASIN", "ASIN"),
    ("ATAN", "ATAN"), ("COS", "COS"), ("COT", "COT"), ("SIN", "SIN"), ("TAN", "TAN"),
    ("DEGREES", "DEGREES"), ("RADIANS", "RADIANS"), ("EXP", "EXP"), ("SIGN", "SIGN"),
    ("CEILING", "CEIL"), ("FLOOR", "FLOOR"), ("SQRT", "SQRT"), ("SOUNDEX", "SOUNDEX"),
    ("LTRIM", "LTRIM"), ("RTRIM", "RTRIM"), ("LENGTH", "LENGTH"), ("ASCII", "ASCII"),
    ("BIT_LENGTH", "BIT_LENGTH"), ("CHAR", "CHR"), ("CHAR_LENGTH", "CHAR_LENGTH"),
    ("CHARACTER_LENGTH", "CHARACTER_LENGTH"), ("OCTET_LENGTH", "OCTET_LENGTH"),
    ("TRUNCATE", "TRUNC"), ("ROUND", "ROUND")]

def binaryMappings : List (String × String) :=
  [("TRUNCATE", "TRUNC"), ("IFNULL", "COALESCE"), ("ATAN2", "ATAN2"), ("POWER", "POWER"),
    ("ROUND", "ROUND"), ("REPEAT", "REPEAT")]

/-- The functions whose arguments do not matter. -/
def constantMappings : List (String × String) :=
  [("RAND", "RANDOM()"), ("CURRENT_DATE", "GETDATE()"), ("CURDATE", "GETDATE()"),
    ("CURTIME", "LOCALTIME"), ("DATABASE", "CURRENT_DATABASE()"), ("USER", "USER"),
    ("CURRENT_TIME", "CURRENT_TIME"), ("CURRENT_TIMESTAMP", "CURRENT_TIMESTAMP"),
    ("NOW", "NOW()"), ("PI", "PI()")]

/-- The parts of a date that are read with `DATE_PART`. -/
def datePartMappings : List (String × String) :=
  [("DAYOFMONTH", "d"), ("DAYOFYEAR", "doy"), ("HOUR", "h"), ("MINUTE", "m"), ("MONTH", "mon"),
    ("QUARTER", "qtr"), ("SECOND", "s"), ("WEEK", "w"), ("YEAR", "y")]

/-- The functions of one argument that have a form of their own. -/
def unaryFunction (FN arg : String) : Option String :=
  if FN = "LOG10" then some ("LOG(10," ++ arg ++ ")")
  else if FN = "ABS" then some ("ABS(" ++ castAs arg "DOUBLE PRECISION" ++ ")")
  else if FN = "DAYOFWEEK" then some (datePart "dow" arg ++ " + 1")
  else if FN = "MONTHNAME" then some ("TRIM(TO_CHAR(" ++ castAs arg "TIMESTAMP" ++ ", 'Month'))")
  else if FN = "DAYNAME" then some ("TRIM(TO_CHAR(" ++ castAs arg "TIMESTAMP" ++ ", 'Day'))")
  else if FN = "SPACE" then some ("REPEAT(' ', " ++ castAs arg "INTEGER" ++ ")")
  else
    match unaryMappings.find? fun entry => entry.1 = FN with
    | some (_, name) => some (name ++ "(" ++ arg ++ ")")
    | none => (datePartMappings.find? fun entry => entry.1 = FN).map fun entry => datePart entry.2 arg

def binaryFunction (FN first second : String) : Option String :=
  if FN = "MOD" then
    some ("MOD(" ++ castAs first "NUMERIC" ++ "," ++ castAs second "NUMERIC" ++ ")")
  else if FN = "CONVERT" then
    (lookupSqlType second).map fun mapped => "CAST(" ++ first ++ " AS " ++ mapped ++ ")"
  else if FN = "LOCATE" ∨ FN = "POSITION" then
    some ("POSITION(" ++ first ++ " IN " ++ second ++ ")")
  else if FN = "SUBSTRING" then
    some ("SUBSTRING(" ++ first ++ " FROM " ++ castAs second "INTEGER" ++ ")")
  else if FN = "LEFT" then
    some ("SUBSTRING(" ++ first ++ " FROM 1 FOR " ++ castAs second "INTEGER" ++ ")")
  else if FN = "RIGHT" then
    some ("SUBSTRING(" ++ first ++ " FROM (LENGTH(" ++ first ++ ") - " ++
      castAs second "INTEGER" ++ " + 1))")
  else if FN = "DIFFERENCE" then some ("DIFFERENCE(" ++ first ++ ", " ++ second ++ ")")
  else
    (binaryMappings.find? fun entry => entry.1 = FN).map fun entry =>
      entry.2 ++ "(" ++ first ++ "," ++ second ++ ")"

def ternaryFunction (FN first second third : String) : Option String :=
  if FN = "TIMESTAMPADD" then
    (lookupIntervalToken first).map fun part =>
      "DATEADD(" ++ part ++ ", " ++ castAs second "INTEGER" ++ ", " ++
        castAs third "TIMESTAMP" ++ ")"
  else if FN = "TIMESTAMPDIFF" then
    (lookupIntervalToken first).map fun part =>
      "DATEDIFF(" ++ part ++ ", " ++ castAs second "TIMESTAMP" ++ ", " ++
        castAs third "TIMESTAMP" ++ ")"
  else if FN = "LOCATE" then
    some ("POSITION(" ++ first ++ " IN SUBSTRING(" ++ second ++ " FROM " ++
      castAs third "INTEGER" ++ ")) + " ++ castAs third "INTEGER" ++ " - 1")
  else if FN = "SUBSTRING" then
    some ("SUBSTRING(" ++ first ++ " FROM " ++ castAs second "INTEGER" ++ " FOR " ++
      castAs third "INTEGER" ++ ")")
  else if FN = "REPLACE" then
    some ("REPLACE(" ++ first ++ ", " ++ second ++ ", " ++ third ++ ")")
  else none

def insertFunction (first second third fourth : String) : String :=
  "SUBSTRING(" ++ first ++ " FROM 1 FOR (" ++ castAs second "INTEGER" ++ " - 1)) || " ++ fourth ++
    " || " ++ "SUBSTRING(" ++ first ++ " FROM (" ++ castAs second "INTEGER" ++ " + " ++
    castAs third "INTEGER" ++ "))"

/-- The chain of function names: what a function with its arguments becomes. -/
def redshiftFunction (FN : String) (arguments : List String) : String :=
  let mapped : Option String :=
    match constantMappings.find? fun entry => entry.1 = FN with
    | some (_, text) => some text
    | none =>
        if FN = "CONCAT" ∧ 2 ≤ arguments.length then some (" || ".intercalate arguments)
        else
          match arguments with
          | [arg] => unaryFunction FN arg
          | [first, second] => binaryFunction FN first second
          | [first, second, third] => ternaryFunction FN first second third
          | [first, second, third, fourth] =>
              if FN = "INSERT" then some (insertFunction first second third fourth) else none
          | _ => none
  mapped.getD (buildStandardFunction FN arguments)

example : redshiftFunction "LOCATE" ["'a'", "b"] = "POSITION('a' IN b)" := by decide

end RedshiftOdbc.Escape
