import RedshiftOdbc.Convert.ParamTypes
import RedshiftOdbc.Convert.Unicode
import RedshiftOdbc.Execute.PutData

/-!
# The buffer of a text parameter

For texts and bytes `getParamVal` copies what a length selects or goes on with the
pointer of the application, and `convertCParamDataToSQLData` takes an escape clause
off the text where it is.  What `atof` and a cast make of a text is a parameter, and
the memory of the application is what begins at its pointer.  What should be sent is
the whole text of the bytes that the lengths select, without the name and the end of
an escape clause.
-/

namespace RedshiftOdbc.ParamBuffer

open RedshiftOdbc.Codes RedshiftOdbc.Convert RedshiftOdbc.Words

/-! ## Wide texts -/

/-- The words of some bytes that are in a memory. -/
def unitsOf (size : Nat) (memory : List UInt8) : List Nat :=
  (List.range (memory.length / size)).map fun place =>
    ofLittle ((memory.drop (place * size)).take size)

/-- The size of an `SQLWCHAR`. -/
inductive UnicodeType where
  | utf16
  | utf32
  deriving DecidableEq, Repr

def UnicodeType.sizeofSQLWCHAR : UnicodeType → Nat
  | .utf16 => 2
  | .utf32 => 4

def scanCap : Nat := 1024 * 1024

def sqlwcsnlenCap (units : List Nat) (cap : Nat) : Nat :=
  ((units.take cap).takeWhile (· ≠ 0)).length

/-- `sqlwchar_to_utf8_str`; a text that is not valid is empty. -/
def sqlwcharToUtf8Str (unicodeType : UnicodeType) (units : List Nat) (cchLen : Int) :
    List UInt8 :=
  if cchLen < 0 ∧ cchLen ≠ sqlNts then []
  else
    match unicodeType with
    | .utf16 => (utf16ToUtf8Throw ((sourceUnits units cchLen).map UInt16.ofNat)).getD []
    | .utf32 => (utf32ToUtf8Throw ((sourceUnits units cchLen).map UInt32.ofNat)).getD []

/-! ## Reading the parameter -/

inductive Pointer where
  | null
  | own (bytes : List UInt8)
  | application
  deriving DecidableEq, Repr

/-- The texts and bytes that a parameter is bound as. -/
structure Binding where
  hCType : CType
  hSQLType : ParamSqlType
  hPrepSQLType : ParamSqlType
  unicodeType : UnicodeType
  iParamDataLen : Int
  plParamDataStrLenInd : Option Int

namespace Binding

variable (binding : Binding) (memory : List UInt8)

/-- `iIndicator`, an `int`. -/
def iIndicator : Int := wrap 4 (binding.plParamDataStrLenInd.getD 0)

def charLen : Int :=
  if 0 ≤ binding.iParamDataLen ∧ binding.plParamDataStrLenInd ≠ none then
    if binding.iParamDataLen = 0 ∧ 0 < binding.iIndicator then binding.iIndicator
    else if 0 < binding.iParamDataLen ∧ 0 ≤ binding.iIndicator then
      min binding.iParamDataLen binding.iIndicator
    else binding.iParamDataLen
  else binding.iParamDataLen

/-- `SQL_C_CHAR`; none where the copy reads behind the memory. -/
def charVal : Option Pointer :=
  if binding.iIndicator = sqlNts then some .application
  else if binding.iIndicator = sqlNullData then some .null
  else if binding.charLen = 0 then some (.own [0])
  else if 0 < binding.charLen then (DataAtExec.rs_strdup memory binding.charLen).map .own
  else some .null

/-- `convertAndAllocate`, with its length cut to an `int`. -/
def convertAndAllocate (cchLen : Nat) : Pointer :=
  .own (sqlwcharToUtf8Str binding.unicodeType
    (unitsOf binding.unicodeType.sizeofSQLWCHAR memory) (wrap 4 cchLen) ++ [0])

/-- `SQL_C_WCHAR`. -/
def wcharVal : Pointer :=
  let size := binding.unicodeType.sizeofSQLWCHAR
  if binding.iIndicator = sqlNullData then .null
  else if binding.iIndicator = sqlNts then
    let maxChars :=
      if 0 < binding.iParamDataLen then binding.iParamDataLen.toNat / size else scanCap
    binding.convertAndAllocate memory (sqlwcsnlenCap (unitsOf size memory) maxChars)
  else if 0 < binding.iParamDataLen then
    let iParamDataLen := if binding.plParamDataStrLenInd ≠ none ∧ 0 ≤ binding.iIndicator then
      min binding.iParamDataLen binding.iIndicator else binding.iParamDataLen
    binding.convertAndAllocate memory (iParamDataLen.toNat / size)
  else if binding.iParamDataLen = 0 ∧ 0 < binding.iIndicator ∧
      binding.plParamDataStrLenInd ≠ none then
    binding.convertAndAllocate memory (binding.iIndicator.toNat / size)
  else if binding.iParamDataLen = 0 then .own [0]
  else .null

/-- `SQL_C_BINARY`, which is only set for the binary types. -/
def binaryVal (hSQLType : ParamSqlType) : Pointer :=
  if hSQLType = .known .longvarbinary ∨ hSQLType = .known .binary ∨ hSQLType = .varbinary then
    if binding.iIndicator ≠ sqlNullData then .application else .null
  else .null

/-- `getParamVal` for texts and bytes. -/
def getParamVal (hType : CType) (hSQLType : ParamSqlType) : Option Pointer :=
  match hType with
  | .char => binding.charVal memory
  | .wchar => some (binding.wcharVal memory)
  | .binary => some (binding.binaryVal hSQLType)
  | _ => some .null

end Binding

/-! ## Escape clauses -/

/-- The characters in front of the literal of an escape clause. -/
def escapeLength (hSQLType : ParamSqlType) (text : List UInt8) : Option Nat :=
  match hSQLType with
  | .known .typeDate | .known .date => if "\x7bd".toUTF8.toList <+: text then some 2 else none
  | .known .typeTimestamp | .known .timestamp =>
      if "\x7bts".toUTF8.toList <+: text then some 3 else none
  | .known .intervalYearToMonth | .known .intervalDayToSecond =>
      if "\x7bivl".toUTF8.toList <+: text then some 4 else none
  | .known .typeTime | .known .time =>
      if "\x7bt ".toUTF8.toList <+: text ∨ "\x7bt'".toUTF8.toList <+: text then some 2 else none
  | _ => none

def closingBrace : UInt8 := 125

def blank : UInt8 := 32

/-- The text of an escape clause begins behind its name, and a blank takes the place of its end. -/
def stripEscape (hSQLType : ParamSqlType) (bytes : List UInt8) : List UInt8 × Nat :=
  match escapeLength hSQLType (DataAtExec.cString bytes) with
  | none => (bytes, 0)
  | some skip =>
      if closingBrace ∈ DataAtExec.cString bytes then
        (bytes.set (bytes.idxOf closingBrace) blank, skip)
      else (bytes, 0)

/-! ## The conversion -/

/-- What is sent for a parameter: a text or NULL, and whether an error was reported. -/
structure Outcome where
  pcVal : Option (List UInt8)
  iConversionError : Bool
  deriving DecidableEq, Repr

/-- What is sent, and the memory of the application behind the call. -/
structure Converted where
  outcome : Outcome
  memory : List UInt8
  deriving DecidableEq, Repr

namespace Binding

variable (reparse : Nat → List UInt8 → Option (List UInt8)) (binding : Binding)

/-- The text at the pointer and the bytes it is in; none where it does not end. -/
def finish (hSQLType : ParamSqlType) (bytes : List UInt8) : Option (List UInt8 × List UInt8) :=
  let stripped := stripEscape hSQLType bytes
  if 0 ∈ stripped.1.drop stripped.2 then
    let pcVal := DataAtExec.cString (stripped.1.drop stripped.2)
    match reparseWidth hSQLType binding.hPrepSQLType with
    | none => some (pcVal, stripped.1)
    | some width =>
        if pcVal = [] then some (pcVal, stripped.1)
        else (reparse width pcVal).map fun text => (text, stripped.1)
  else none

/-- What is sent from a pointer, and the memory of the application behind it. -/
def sendFrom (hSQLType : ParamSqlType) (memory : List UInt8) : Pointer → Option Converted
  | .null => some ⟨⟨none, false⟩, memory⟩
  | .own bytes =>
      (binding.finish reparse hSQLType bytes).map fun text => ⟨⟨some text.1, false⟩, memory⟩
  | .application =>
      (binding.finish reparse hSQLType memory).map fun text => ⟨⟨some text.1, false⟩, text.2⟩

/-- `convertCParamDataToSQLData` for texts and bytes; none where it has no result. -/
def convertCParamDataToSQLData (memory : List UInt8) : Option Converted :=
  match readType binding.hCType binding.hSQLType with
  | none => some ⟨⟨none, true⟩, memory⟩
  | some hType =>
      let hSQLType := boundSqlType binding.hSQLType binding.hPrepSQLType
      (binding.getParamVal memory hType hSQLType).bind fun pBuf =>
        if takes hSQLType hType binding.hCType then binding.sendFrom reparse hSQLType memory pBuf
        else some ⟨⟨none, true⟩, memory⟩

/-- The memory of the application behind some executions. -/
def memoryAfter (memory : List UInt8) : Nat → List UInt8
  | 0 => memory
  | count + 1 =>
      match binding.convertCParamDataToSQLData reparse (memoryAfter memory count) with
      | none => memoryAfter memory count
      | some converted => converted.memory

end Binding

/-! ## What should be sent -/

/-- The indicators of a value: it ends with a terminator, has a length, or is NULL. -/
inductive Indicator where
  | nts
  | length (bytes : Nat)
  | null
  deriving DecidableEq, Repr

def Indicator.toInt : Indicator → Int
  | nts => sqlNts
  | length bytes => bytes
  | null => sqlNullData

/-- The bytes a length selects; a buffer length of zero says nothing about the buffer. -/
def selectedCount (iParamDataLen : Int) (bytes : Nat) : Nat :=
  if iParamDataLen = 0 then bytes else (min iParamDataLen bytes).toNat

/-- The bytes up to a terminator of its size. -/
def upToTerminator (size : Nat) (memory : List UInt8) : List UInt8 :=
  memory.take (size * ((unitsOf size memory).takeWhile (· ≠ 0)).length)

def Binding.unitSize (binding : Binding) (hType : CType) : Nat :=
  if hType = .wchar then binding.unicodeType.sizeofSQLWCHAR else 1

/-- The bytes that the length rules select. -/
def Binding.selected (binding : Binding) (hType : CType) (indicator : Indicator)
    (memory : List UInt8) : List UInt8 :=
  match indicator with
  | .nts => upToTerminator (binding.unitSize hType) memory
  | .length bytes => memory.take (selectedCount binding.iParamDataLen bytes)
  | .null => []

/-- The memory has the terminator or the bytes that the indicator promises. -/
def Binding.Holds (binding : Binding) (hType : CType) (indicator : Indicator)
    (memory : List UInt8) : Prop :=
  match indicator with
  | .nts => 0 ∈ unitsOf (binding.unitSize hType) memory
  | .length bytes => selectedCount binding.iParamDataLen bytes ≤ memory.length
  | .null => True

def UnicodeType.units (unicodeType : UnicodeType) (characters : List Char) : List Nat :=
  match unicodeType with
  | .utf16 => (encode utf16EncodeChar characters).map UInt16.toNat
  | .utf32 => (encode utf32EncodeChar characters).map UInt32.toNat

/-- The text of the selected bytes: the bytes themselves, or their characters in UTF-8. -/
def Binding.Encodes (binding : Binding) (hType : CType) (selected text : List UInt8) : Prop :=
  if hType = .wchar then
    ∃ characters, binding.unicodeType.units characters =
        unitsOf binding.unicodeType.sizeofSQLWCHAR selected ∧
      text = encode String.utf8EncodeChar characters
  else text = selected

/-- An escape clause without its name and with a blank for its end, any other text as it is. -/
def literal (hSQLType : ParamSqlType) (text : List UInt8) : List UInt8 :=
  match escapeLength hSQLType text with
  | none => text
  | some skip =>
      if closingBrace ∈ text then (text.set (text.idxOf closingBrace) blank).drop skip else text

/-- What the server is given for a text: its literal, or the integer that is read off it. -/
def Binding.given (reparse : Nat → List UInt8 → Option (List UInt8)) (binding : Binding)
    (text : List UInt8) : Option (List UInt8) :=
  let hSQLType := boundSqlType binding.hSQLType binding.hPrepSQLType
  match reparseWidth hSQLType binding.hPrepSQLType with
  | none => some (literal hSQLType text)
  | some width =>
      if DataAtExec.cString text = [] then some [] else reparse width (DataAtExec.cString text)

/-- The SQL type takes the C type. -/
def Binding.Taken (binding : Binding) (hType : CType) : Prop :=
  takes (boundSqlType binding.hSQLType binding.hPrepSQLType) hType binding.hCType = true

/-- The whole text of the selected bytes is sent, nothing else has a say in it, and the buffer
stays as it is. -/
structure Binding.LeftAlone (reparse : Nat → List UInt8 → Option (List UInt8))
    (binding : Binding) (hType : CType) (indicator : Indicator) (memory : List UInt8) : Prop where
  refused : ¬binding.Taken hType →
    (binding.convertCParamDataToSQLData reparse memory).map Converted.outcome =
      some ⟨none, true⟩
  null : binding.Taken hType → indicator = .null →
    (binding.convertCParamDataToSQLData reparse memory).map Converted.outcome =
      some ⟨none, false⟩
  whole : binding.Taken hType → indicator ≠ .null →
    ∃ text, binding.Encodes hType (binding.selected hType indicator memory) text ∧
      (binding.convertCParamDataToSQLData reparse memory).map Converted.outcome =
        (binding.given reparse text).map fun pcVal => ⟨some pcVal, false⟩
  selected : ∀ other, binding.Holds hType indicator other →
    binding.selected hType indicator other = binding.selected hType indicator memory →
    (binding.convertCParamDataToSQLData reparse other).map Converted.outcome =
      (binding.convertCParamDataToSQLData reparse memory).map Converted.outcome
  unchanged : ∀ converted ∈ binding.convertCParamDataToSQLData reparse memory,
    converted.memory = memory
  repeats : ∀ count, (binding.convertCParamDataToSQLData reparse
      (binding.memoryAfter reparse memory count)).map Converted.outcome =
    (binding.convertCParamDataToSQLData reparse memory).map Converted.outcome

/-! ## The condition -/

/-- A text that is taken from the buffer of the application begins an escape clause and ends it. -/
def Binding.Strips (binding : Binding) (hType : CType) (indicator : Indicator)
    (memory : List UInt8) : Prop :=
  let hSQLType := boundSqlType binding.hSQLType binding.hPrepSQLType
  hType = .char ∧ indicator = .nts ∧
    (escapeLength hSQLType (DataAtExec.cString memory)).isSome = true ∧
    closingBrace ∈ DataAtExec.cString memory

def Indicator.Fits : Indicator → Prop
  | length bytes => bytes < 2 ^ 31
  | _ => True

/-- The lengths fit an `int`, and a wide text ends within its buffer, or within the scan. -/
def Binding.Fits (binding : Binding) (hType : CType) (indicator : Indicator)
    (memory : List UInt8) : Prop :=
  let size := binding.unicodeType.sizeofSQLWCHAR
  let count := ((unitsOf size memory).takeWhile (· ≠ 0)).length
  indicator.Fits ∧ (hType = .wchar → indicator = .nts → count < 2 ^ 31 ∧
    count ≤ if 0 < binding.iParamDataLen then binding.iParamDataLen.toNat / size else scanCap)

/-- The wide characters that are selected are valid. -/
def Binding.Valid (binding : Binding) (selected : List UInt8) : Prop :=
  ∃ characters, binding.unicodeType.units characters =
    unitsOf binding.unicodeType.sizeofSQLWCHAR selected

/-- The selected bytes can be sent whole: wide ones are valid, and with a length there are no
binary ones, no negative buffer and no zeros in what is not read as a number. -/
def Binding.Sendable (binding : Binding) (hType : CType) (indicator : Indicator)
    (memory : List UInt8) : Prop :=
  let selected := binding.selected hType indicator memory
  indicator ≠ .null → (hType = .wchar → binding.Valid selected) ∧
    (indicator ≠ .nts → hType ≠ .binary ∧ 0 ≤ binding.iParamDataLen ∧
      (reparseWidth (boundSqlType binding.hSQLType binding.hPrepSQLType) binding.hPrepSQLType =
        none → 0 ∉ unitsOf (binding.unitSize hType) selected))

/-! ## Units of a prefix -/

theorem unitsOf_length (size : Nat) (memory : List UInt8) :
    (unitsOf size memory).length = memory.length / size := by
  rw [unitsOf, List.length_map, List.length_range]

/-- The words of the first bytes are the first words. -/
theorem unitsOf_take {size : Nat} (positive : 0 < size) {count : Nat} {memory : List UInt8}
    (inside : count ≤ memory.length) :
    unitsOf size (memory.take count) = (unitsOf size memory).take (count / size) := by
  refine List.ext_getElem ?_ ?_
  · rw [unitsOf_length, List.length_take, List.length_take, unitsOf_length,
      Nat.min_eq_left inside, Nat.min_eq_left (Nat.div_le_div_right inside)]
  · intro place here there
    have below : place < count / size := by
      rw [unitsOf_length, List.length_take, Nat.min_eq_left inside] at here
      exact here
    have room : place * size + size ≤ count := by
      have enough : (place + 1) * size ≤ count := (Nat.le_div_iff_mul_le positive).mp below
      rwa [Nat.succ_mul] at enough
    simp only [unitsOf, List.getElem_map, List.getElem_range, List.getElem_take, List.drop_take,
      List.take_take]
    rw [Nat.min_eq_left (by omega)]

/-- A prefix up to the terminator has the words in front of it. -/
theorem unitsOf_upToTerminator {size : Nat} (positive : 0 < size) (memory : List UInt8) :
    unitsOf size (upToTerminator size memory) = (unitsOf size memory).takeWhile (· ≠ 0) := by
  have short := (List.takeWhile_prefix (fun unit => decide (unit ≠ 0)) (l := unitsOf size memory))
  have inside : size * ((unitsOf size memory).takeWhile (· ≠ 0)).length ≤ memory.length := by
    have le := short.length_le
    rw [unitsOf_length] at le
    calc size * ((unitsOf size memory).takeWhile (· ≠ 0)).length
        ≤ size * (memory.length / size) := Nat.mul_le_mul_left size le
      _ ≤ memory.length := Nat.mul_div_le _ _
  rw [upToTerminator, unitsOf_take positive inside, Nat.mul_div_cancel_left _ positive]
  exact (List.prefix_iff_eq_take.mp short).symm

/-- Words of one byte. -/
theorem unitsOf_one (memory : List UInt8) : unitsOf 1 memory = memory.map UInt8.toNat := by
  refine List.ext_getElem ?_ ?_
  · rw [unitsOf_length, List.length_map, Nat.div_one]
  · intro place here there
    have inside : place < memory.length := by
      rwa [List.length_map] at there
    simp only [unitsOf, List.getElem_map, List.getElem_range, Nat.mul_one]
    rw [List.drop_eq_getElem_cons inside, List.take_succ_cons, List.take_zero, ofLittle, ofLittle]
    omega

theorem upToTerminator_one (memory : List UInt8) :
    upToTerminator 1 memory = DataAtExec.cString memory := by
  have bytes : (memory.map UInt8.toNat).takeWhile (· ≠ 0) =
      (DataAtExec.cString memory).map UInt8.toNat := by
    rw [List.takeWhile_map, DataAtExec.cString]
    refine congrArg (List.map UInt8.toNat) (congrArg (memory.takeWhile ·) (funext fun byte => ?_))
    simp [← UInt8.toNat_inj]
  rw [upToTerminator, unitsOf_one, bytes, List.length_map, Nat.one_mul]
  exact DataAtExec.cString_take memory

/-! ## Wide texts of a prefix -/

theorem takeWhile_terminator (units : List Nat) :
    (units.takeWhile (· ≠ 0)).takeWhile (· ≠ 0) = units.takeWhile (· ≠ 0) := by
  rw [List.takeWhile_takeWhile]
  simp

theorem sqlwcsnlenCap_eq (units : List Nat) (cap : Nat) :
    sqlwcsnlenCap units cap = min cap (units.takeWhile (· ≠ 0)).length := by
  rw [sqlwcsnlenCap, ← List.take_takeWhile, List.length_take]

theorem toNat_wrap_le (width count : Nat) : (wrap width (count : Int)).toNat ≤ count := by
  rcases Int.lt_or_le (wrap width (count : Int)) 0 with negative | natural
  · omega
  · have upper := wrap_lt width (count : Int)
    have same := wrap_emod width (count : Int)
    rw [Int.emod_eq_of_lt natural (by omega)] at same
    have low := Nat.mod_le count (256 ^ width)
    rw [← Int.natCast_mod] at same
    omega

section
variable (unicodeType : UnicodeType) {units : List Nat} {cchLen : Int}

/-- A text is read from the units in front of the terminator. -/
theorem sqlwcharToUtf8Str_takeWhile
    (inside : cchLen.toNat ≤ (units.takeWhile (· ≠ 0)).length) :
    sqlwcharToUtf8Str unicodeType (units.takeWhile (· ≠ 0)) cchLen =
      sqlwcharToUtf8Str unicodeType units cchLen := by
  have source : sourceUnits (units.takeWhile (· ≠ 0)) cchLen = sourceUnits units cchLen := by
    rw [sourceUnits, sourceUnits]
    split
    · exact takeWhile_terminator units
    · rw [List.prefix_iff_eq_take.mp (List.takeWhile_prefix (fun unit => decide (unit ≠ 0))
        (l := units)), List.take_take, Nat.min_eq_left inside]
  simp only [sqlwcharToUtf8Str, source]

/-- A text with a length is read from so many units. -/
theorem sqlwcharToUtf8Str_take {count : Nat} (natural : 0 ≤ cchLen)
    (inside : cchLen.toNat ≤ count) :
    sqlwcharToUtf8Str unicodeType (units.take count) cchLen =
      sqlwcharToUtf8Str unicodeType units cchLen := by
  have length : cchLen ≠ sqlNts := by
    rw [sqlNts]
    omega
  have source : sourceUnits (units.take count) cchLen = sourceUnits units cchLen := by
    rw [sourceUnits, sourceUnits, if_neg length, if_neg length, List.take_take,
      Nat.min_eq_left inside]
  simp only [sqlwcharToUtf8Str, source]

end

/-! ## What is read -/

namespace Binding

section
variable {binding : Binding} {indicator : Indicator}

/-- A length that fits an `int` is not cut. -/
theorem iIndicator_eq (stated : binding.plParamDataStrLenInd = some indicator.toInt)
    (fits : indicator.Fits) : binding.iIndicator = indicator.toInt := by
  rw [iIndicator, stated, Option.getD_some]
  cases indicator with
  | nts => decide
  | length bytes =>
      rw [Indicator.Fits] at fits
      exact wrap_of_range (by simp only [Indicator.toInt]; omega)
        (by simp only [Indicator.toInt]; omega)
  | null => decide

theorem rs_strdup_length {count : Nat} (short : count < 2 ^ 31) (memory : List UInt8) :
    DataAtExec.rs_strdup memory count = some (memory.take count ++ [0]) := by
  have whole : wrap 4 (count : Int) = count := wrap_of_range (by omega) (by omega)
  rw [DataAtExec.rs_strdup, whole, if_neg (by rw [DataAtExec.sqlNts]; omega),
    if_neg (by rw [DataAtExec.sqlNullData]; omega), Int.toNat_natCast]

/-- The characters that are copied are those the length selects. -/
theorem charLen_eq {bytes : Nat} (stated : binding.plParamDataStrLenInd = some bytes)
    (indicated : binding.iIndicator = bytes) (copied : 0 < binding.charLen) :
    binding.charLen = selectedCount binding.iParamDataLen bytes := by
  have given : binding.plParamDataStrLenInd ≠ none := by simp [stated]
  simp only [charLen, selectedCount, given, ne_eq, not_false_eq_true, and_true, indicated]
    at copied ⊢
  split_ifs at copied ⊢ <;> omega

theorem selectedCount_le (iParamDataLen : Int) (bytes : Nat) :
    selectedCount iParamDataLen bytes ≤ bytes := by
  rw [selectedCount]
  split <;> omega

theorem charVal_selected (stated : binding.plParamDataStrLenInd = some indicator.toInt)
    (fits : indicator.Fits) (copied : indicator ≠ .nts) (memory : List UInt8) :
    binding.charVal (binding.selected .char indicator memory) = binding.charVal memory := by
  have indicated := iIndicator_eq stated fits
  cases indicator with
  | nts => exact absurd rfl copied
  | null => rw [charVal, charVal, indicated]; rfl
  | length bytes =>
      have short := Nat.lt_of_le_of_lt (selectedCount_le binding.iParamDataLen bytes) fits
      rw [charVal, charVal]
      by_cases positive : 0 < binding.charLen
      · rw [charLen_eq stated indicated positive, rs_strdup_length short, rs_strdup_length short,
          selected, List.take_take, Nat.min_self]
      · simp only [if_neg positive]

theorem sizeofSQLWCHAR_pos (unicodeType : UnicodeType) : 0 < unicodeType.sizeofSQLWCHAR := by
  cases unicodeType with
  | utf16 => decide
  | utf32 => decide

theorem convertAndAllocate_take {count : Nat} (short : count < 2 ^ 31) {memory : List UInt8}
    (inside : count ≤ memory.length) :
    binding.convertAndAllocate (memory.take count)
        (count / binding.unicodeType.sizeofSQLWCHAR) =
      binding.convertAndAllocate memory (count / binding.unicodeType.sizeofSQLWCHAR) := by
  have fewer := Nat.div_le_self count binding.unicodeType.sizeofSQLWCHAR
  have whole : wrap 4 ((count / binding.unicodeType.sizeofSQLWCHAR : Nat) : Int) =
      (count / binding.unicodeType.sizeofSQLWCHAR : Nat) := by
    generalize count / binding.unicodeType.sizeofSQLWCHAR = units at fewer ⊢
    exact wrap_of_range (by omega) (by omega)
  rw [convertAndAllocate, convertAndAllocate, whole,
    unitsOf_take (sizeofSQLWCHAR_pos binding.unicodeType) inside,
    sqlwcharToUtf8Str_take _ (Int.natCast_nonneg _) (Int.toNat_natCast _).le]

theorem convertAndAllocate_upToTerminator {count : Nat} {memory : List UInt8}
    (inside : count ≤
      ((unitsOf binding.unicodeType.sizeofSQLWCHAR memory).takeWhile (· ≠ 0)).length) :
    binding.convertAndAllocate (upToTerminator binding.unicodeType.sizeofSQLWCHAR memory) count =
      binding.convertAndAllocate memory count := by
  rw [convertAndAllocate, convertAndAllocate,
    unitsOf_upToTerminator (sizeofSQLWCHAR_pos binding.unicodeType),
    sqlwcharToUtf8Str_takeWhile _ ((toNat_wrap_le 4 count).trans inside)]

theorem wcharVal_selected (stated : binding.plParamDataStrLenInd = some indicator.toInt)
    (fits : indicator.Fits) {memory : List UInt8} (holds : binding.Holds .wchar indicator memory) :
    binding.wcharVal (binding.selected .wchar indicator memory) = binding.wcharVal memory := by
  have indicated := iIndicator_eq stated fits
  have given : binding.plParamDataStrLenInd ≠ none := by simp [stated]
  cases indicator with
  | null => rw [wcharVal, wcharVal, indicated]; rfl
  | nts =>
      have ended : binding.iIndicator = sqlNts := indicated
      have distinct : sqlNts ≠ sqlNullData := by decide
      simp only [wcharVal, ended, distinct, if_true, if_false, sqlwcsnlenCap_eq, selected, unitSize,
        unitsOf_upToTerminator (sizeofSQLWCHAR_pos binding.unicodeType), takeWhile_terminator]
      rw [convertAndAllocate_upToTerminator (Nat.min_le_right _ _)]
  | length bytes =>
      have short := Nat.lt_of_le_of_lt (selectedCount_le binding.iParamDataLen bytes) fits
      have known : (bytes : Int) ≠ sqlNullData ∧ (bytes : Int) ≠ sqlNts := by
        rw [sqlNullData, sqlNts]
        omega
      have taken := @convertAndAllocate_take binding _ short memory holds
      simp only [wcharVal, indicated, Indicator.toInt, known.1, known.2, if_false, given, ne_eq,
        not_false_eq_true, true_and, and_true, selected]
      by_cases positive : 0 < binding.iParamDataLen
      · have count : (min binding.iParamDataLen bytes).toNat =
            selectedCount binding.iParamDataLen bytes := by
          rw [selectedCount, if_neg (by omega)]
        simp only [if_pos positive, if_pos (Int.natCast_nonneg bytes), count]
        exact taken
      · by_cases stands : binding.iParamDataLen = 0 ∧ (0 : Int) < bytes
        · have count : (bytes : Int).toNat = selectedCount binding.iParamDataLen bytes := by
            rw [selectedCount, if_pos stands.1, Int.toNat_natCast]
          simp only [if_neg positive, if_pos stands, count]
          exact taken
        · simp only [if_neg positive, if_neg stands]

theorem charVal_own (stated : binding.plParamDataStrLenInd = some indicator.toInt)
    (fits : indicator.Fits) (copied : indicator ≠ .nts) (memory : List UInt8) :
    binding.charVal memory ≠ some .application := by
  have known : binding.iIndicator ≠ sqlNts := by
    rw [iIndicator_eq stated fits]
    cases indicator with
    | nts => exact absurd rfl copied
    | length bytes => rw [Indicator.toInt, sqlNts]; omega
    | null => decide
  rw [charVal, if_neg known]
  split_ifs <;> simp

theorem wcharVal_own (memory : List UInt8) : binding.wcharVal memory ≠ .application := by
  simp only [wcharVal, convertAndAllocate]
  split_ifs <;> simp

end

end Binding

/-! ## Escape clauses that are taken off -/

/-- The types of escape clauses take texts and no bytes, and send them as they are. -/
theorem types_of_clause {hSQLType : ParamSqlType} {text : List UInt8}
    (clause : (escapeLength hSQLType text).isSome = true) (hCType : CType)
    (hPrepSQLType : ParamSqlType) :
    takes hSQLType .char hCType = true ∧ takes hSQLType .binary hCType = false ∧
      reparseWidth hSQLType hPrepSQLType = none := by
  unfold escapeLength at clause
  split at clause
  case h_9 => cases clause
  all_goals exact ⟨rfl, rfl, rfl⟩

/-- The name of a clause is in front of its literal, and is no zero. -/
theorem escapeLength_name {hSQLType : ParamSqlType} {text : List UInt8} {skip : Nat}
    (clause : escapeLength hSQLType text = some skip) :
    skip ≤ text.length ∧ 0 ∉ text.take skip := by
  have begins {name : List UInt8} (start : name <+: text) (inside : skip ≤ name.length)
      (free : 0 ∉ name.take skip) : skip ≤ text.length ∧ 0 ∉ text.take skip := by
    obtain ⟨rest, rfl⟩ := start
    rw [List.take_append_of_le_length inside, List.length_append]
    exact ⟨by omega, free⟩
  unfold escapeLength at clause
  split at clause
  case h_9 => cases clause
  case h_7 | h_8 =>
    obtain ⟨start, skips⟩ := Option.ite_none_right_eq_some.mp clause
    cases skips
    rcases start with start | start
    · exact begins start (by decide +kernel) (by decide +kernel)
    · exact begins start (by decide +kernel) (by decide +kernel)
  all_goals
    obtain ⟨start, skips⟩ := Option.ite_none_right_eq_some.mp clause
    cases skips
    exact begins start (by decide +kernel) (by decide +kernel)

/-- A write in front of its end leaves a text its end. -/
theorem zero_mem_drop_set {memory : List UInt8} {skip : Nat} (ended : 0 ∈ memory)
    (inside : skip ≤ (DataAtExec.cString memory).length) {byte : UInt8} (other : byte ≠ 0)
    (among : byte ∈ memory) : 0 ∈ (memory.set (memory.idxOf byte) blank).drop skip := by
  have zero := List.idxOf_lt_length_of_mem ended
  have behind : (DataAtExec.cString memory).length ≤ memory.idxOf 0 := by
    by_contra before
    have begins : DataAtExec.cString memory <+: memory := List.takeWhile_prefix _
    have found := begins.getElem (Nat.lt_of_not_le before)
    rw [List.getElem_idxOf zero] at found
    exact DataAtExec.not_mem_cString memory (found ▸ List.getElem_mem _)
  have apart : memory.idxOf byte ≠ memory.idxOf 0 := by
    intro same
    exact other ((List.idxOf_inj among).mp same)
  refine List.mem_drop_iff_getElem.mpr ⟨memory.idxOf 0 - skip, ?_, ?_⟩
  · rw [List.length_set]
    omega
  · simp only [Nat.add_sub_of_le (inside.trans behind)]
    rw [List.getElem_set_of_ne apart, List.getElem_idxOf zero]

theorem cString_split {memory : List UInt8} (ended : 0 ∈ memory) :
    ∃ rest, memory = DataAtExec.cString memory ++ 0 :: rest := by
  have whole := List.takeWhile_append_dropWhile (p := (· ≠ 0)) (l := memory)
  cases behind : memory.dropWhile (· ≠ 0) with
  | nil =>
      rw [behind, List.append_nil] at whole
      exact absurd ended ((DataAtExec.cString_eq_iff memory).mp whole)
  | cons first rest =>
      have stops := List.head?_dropWhile_not (· ≠ 0) memory
      rw [behind] at stops
      obtain rfl : first = 0 := by simpa using stops
      exact ⟨rest, by rw [DataAtExec.cString, ← behind, whole]⟩

/-- The text behind a write in front of its end. -/
theorem cString_drop_set {memory : List UInt8} {skip : Nat} (ended : 0 ∈ memory)
    (inside : skip ≤ (DataAtExec.cString memory).length) {byte : UInt8}
    (among : byte ∈ DataAtExec.cString memory) :
    DataAtExec.cString ((memory.set (memory.idxOf byte) blank).drop skip) =
      ((DataAtExec.cString memory).set ((DataAtExec.cString memory).idxOf byte) blank).drop
        skip := by
  have free := DataAtExec.not_mem_cString memory
  obtain ⟨rest, whole⟩ := cString_split ended
  generalize DataAtExec.cString memory = text at inside among free whole ⊢
  subst whole
  have place := List.idxOf_lt_length_of_mem among
  have kept : 0 ∉ (text.set (text.idxOf byte) blank).drop skip := by
    intro zero
    rcases List.mem_or_eq_of_mem_set (List.mem_of_mem_drop zero) with old | new
    · exact free old
    · exact absurd new (by decide)
  rw [List.idxOf_append_of_mem among, List.set_append_left _ _ place,
    List.drop_append_of_le_length (by rw [List.length_set]; exact inside),
    DataAtExec.cString, List.takeWhile_append_of_pos]
  · simp
  · intro byte member
    have other : byte ≠ 0 := fun same => kept (same ▸ member)
    simpa using other

/-- A text with a zero has a literal with a zero. -/
theorem not_mem_of_literal {hSQLType : ParamSqlType} {text : List UInt8}
    (free : 0 ∉ literal hSQLType text) : 0 ∉ text := by
  rw [literal] at free
  split at free
  · exact free
  · rename_i skip clause
    split at free
    · intro zero
      have place := List.idxOf_lt_length_of_mem zero
      have apart : text.idxOf closingBrace ≠ text.idxOf 0 := by
        intro same
        exact absurd ((List.idxOf_inj ‹_›).mp same) (by decide)
      have behind : skip ≤ text.idxOf 0 := by
        by_contra before
        refine (escapeLength_name clause).2 (List.mem_take_iff_getElem.mpr ⟨text.idxOf 0, ?_, ?_⟩)
        · omega
        · exact List.getElem_idxOf place
      refine free (List.mem_drop_iff_getElem.mpr ⟨text.idxOf 0 - skip, ?_, ?_⟩)
      · rw [List.length_set]
        omega
      · simp only [Nat.add_sub_of_le behind]
        rw [List.getElem_set_of_ne apart, List.getElem_idxOf place]
    · exact free

/-! ## Texts that keep their clause -/

/-- Nothing is taken off a text. -/
def Plain (hSQLType : ParamSqlType) (bytes : List UInt8) : Prop :=
  (escapeLength hSQLType (DataAtExec.cString bytes)).isSome = true →
    closingBrace ∉ DataAtExec.cString bytes

theorem stripEscape_plain {hSQLType : ParamSqlType} {bytes : List UInt8}
    (plain : Plain hSQLType bytes) : stripEscape hSQLType bytes = (bytes, 0) := by
  rw [stripEscape]
  cases clause : escapeLength hSQLType (DataAtExec.cString bytes) with
  | none => rfl
  | some skip => exact if_neg (plain (by rw [clause]; rfl))

namespace Binding

section
variable {reparse : Nat → List UInt8 → Option (List UInt8)} {binding : Binding}
  {hSQLType : ParamSqlType} {bytes other : List UInt8}

theorem finish_memory (plain : Plain hSQLType bytes) :
    ∀ text ∈ binding.finish reparse hSQLType bytes, text.2 = bytes := by
  intro text sent
  simp only [finish, stripEscape_plain plain, List.drop_zero] at sent
  by_cases ended : 0 ∈ bytes
  · rw [if_pos ended] at sent
    split at sent
    · rw [← Option.some.inj sent]
    · split at sent
      · rw [← Option.some.inj sent]
      · obtain ⟨_, _, rfl⟩ := Option.map_eq_some_iff.mp sent
        rfl
  · rw [if_neg ended] at sent
    cases sent

variable (binding reparse) in
/-- A text that ends is handed on without its clause. -/
theorem finish_given (ended : 0 ∈ bytes) :
    (binding.finish reparse (boundSqlType binding.hSQLType binding.hPrepSQLType) bytes).map
        Prod.fst = binding.given reparse (DataAtExec.cString bytes) := by
  cases clause : escapeLength (boundSqlType binding.hSQLType binding.hPrepSQLType)
      (DataAtExec.cString bytes) with
  | none =>
      simp only [finish, stripEscape, given, literal, clause, List.drop_zero, if_pos ended,
        DataAtExec.cString_cString]
      split
      · rfl
      · split_ifs with blank
        · rw [Option.map_some, blank]
        · rw [Option.map_map]
          exact Option.map_id'
  | some skip =>
      have kept := (types_of_clause (by rw [clause]; rfl) binding.hCType binding.hPrepSQLType).2.2
      have inside := (escapeLength_name clause).1
      by_cases among : closingBrace ∈ DataAtExec.cString bytes
      · have rest := zero_mem_drop_set ended inside (by decide : closingBrace ≠ 0)
          ((List.takeWhile_prefix _).mem among)
        simp only [finish, stripEscape, given, literal, clause, if_pos among, if_pos rest, kept,
          cString_drop_set ended inside among, Option.map_some]
      · simp only [finish, stripEscape, given, literal, clause, if_neg among, List.drop_zero,
          if_pos ended, kept, Option.map_some]

/-- Only what is read as a number may hold a zero. -/
theorem given_cString {text : List UInt8}
    (free : reparseWidth (boundSqlType binding.hSQLType binding.hPrepSQLType)
      binding.hPrepSQLType = none → 0 ∉ text) :
    binding.given reparse (DataAtExec.cString text) = binding.given reparse text := by
  cases width : reparseWidth (boundSqlType binding.hSQLType binding.hPrepSQLType)
      binding.hPrepSQLType with
  | none => rw [DataAtExec.cString_of_free (free width)]
  | some width' => simp only [given, width, DataAtExec.cString_cString]

end

end Binding

end RedshiftOdbc.ParamBuffer
