import RedshiftOdbc.Descriptor.Records
import RedshiftOdbc.Execute.PutData

/-!
# The fields of a descriptor

`SQLSetDescField`, `SQLSetDescRec` and `SQLCopyDesc`, with the errors they report, and
`SQLGetDescField` for the count of the records.
-/

namespace RedshiftOdbc.Descriptor

open RedshiftOdbc.Keyed RedshiftOdbc.Words

/-- The fields of a record that only describe a column and that no call writes. -/
inductive ColumnField where
  | autoUniqueValue
  | baseColumnName
  | baseTableName
  | caseSensitive
  | catalogName
  | displaySize
  | fixedPrecScale
  | label
  | literalPrefix
  | literalSuffix
  | localTypeName
  | nullable
  | schemaName
  | searchable
  | tableName
  | typeName
  | unsigned
  | updatable
  deriving DecidableEq, Repr

inductive HeaderField where
  | allocType
  | arraySize
  | arrayStatusPtr
  | bindOffsetPtr
  | bindType
  | count
  | rowsProcessedPtr
  deriving DecidableEq, Repr

/-- The identifiers of the fields of a record; `other` is any further number. -/
inductive RecordField where
  | column (field : ColumnField)
  | conciseType
  | datetimeIntervalCode
  | datetimeIntervalPrecision
  | length
  | numPrecRadix
  | octetLength
  | precision
  | scale
  | type
  | dataPtr
  | indicatorPtr
  | octetLengthPtr
  | name
  | parameterType
  | unnamed
  | other (hFieldIdentifier : Int)
  deriving DecidableEq, Repr

/-- `isHeaderField` tells which of the two an identifier is. -/
inductive FieldIdentifier where
  | header (field : HeaderField)
  | record (field : RecordField)
  deriving DecidableEq, Repr

/-- The rule of `isWritableField` for a type that is known. -/
def FieldIdentifier.writableFor : FieldIdentifier → DescType → Bool
  | .header .allocType, _ | .record (.column _), _ => false
  | .header .count, iDescType | .record .conciseType, iDescType
  | .record .datetimeIntervalCode, iDescType | .record .datetimeIntervalPrecision, iDescType
  | .record .length, iDescType | .record .numPrecRadix, iDescType
  | .record .octetLength, iDescType | .record .precision, iDescType
  | .record .scale, iDescType | .record .type, iDescType => iDescType ≠ .ird
  | .header .arraySize, iDescType | .header .bindOffsetPtr, iDescType
  | .header .bindType, iDescType | .record .dataPtr, iDescType
  | .record .indicatorPtr, iDescType | .record .octetLengthPtr, iDescType =>
      iDescType ≠ .ird && iDescType ≠ .ipd
  | .header .rowsProcessedPtr, iDescType => iDescType ≠ .ard && iDescType ≠ .apd
  | .record .name, iDescType | .record .parameterType, iDescType
  | .record .unnamed, iDescType => iDescType = .ipd
  | .header .arrayStatusPtr, _ | .record (.other _), _ => true

def sqlCDate : Int := 9

def sqlCTimestamp : Int := 11

/-- `getCTypeFromConciseType`; the code of a timestamp is three. -/
def getCTypeFromConciseType (hConciseType hDateTimeIntervalCode hType : Int) : Int :=
  if hType = 0 ∨ hType = sqlCDefault then
    if hConciseType ≠ 0 then
      if hConciseType = sqlCDate then
        if hDateTimeIntervalCode = 3 then sqlCTimestamp else sqlCDate
      else hConciseType
    else sqlCDefault
  else hType

def maxIdenLen : Nat := 129

/-- `copyStrDataSmallLen` into a field with room for `maxIdenLen` bytes. -/
def copyName (pSrc : Option (List UInt8)) (iSrcLen : Int) : List UInt8 :=
  match pSrc with
  | none => []
  | some text =>
      if iSrcLen = -1 then []
      else
        let len := if iSrcLen = -3 then (DataAtExec.strlen text : Int) else iSrcLen
        DataAtExec.cString (text.take (min len.toNat (maxIdenLen - 1)))

/-- What `SQLSetDescField` is given: the word of `pValue`, and the bytes at it for a name. -/
structure FieldValue where
  pValue : Pointer
  text : List UInt8 := []
  cbLen : Int := 0
  deriving DecidableEq, Repr

namespace FieldValue

variable (value : FieldValue)

def iVal : Int := wrap 4 value.pValue

def hVal : Int := wrap 2 value.pValue

end FieldValue

/-- A field of a record that is written; an identifier that is not known writes nothing. -/
def DescRec.setField (pDescRec : DescRec) (iType : DescType) (field : RecordField)
    (value : FieldValue) : DescRec :=
  match field with
  | .dataPtr => { pDescRec with pValue := value.pValue }
  | .indicatorPtr => { pDescRec with pcbLenInd := value.pValue }
  | .length => { pDescRec with iSize := value.iVal }
  | .name =>
      { pDescRec with
        szName := copyName (if value.pValue = 0 then none else some value.text) value.cbLen }
  | .numPrecRadix => { pDescRec with iNumPrecRadix := value.iVal }
  | .octetLength =>
      { pDescRec with
        iOctetLen := value.iVal
        cbLen := if (iType = .apd ∨ iType = .ard) ∧ pDescRec.cbLen = 0 then value.iVal
          else pDescRec.cbLen }
  | .octetLengthPtr => { pDescRec with plOctetLen := value.pValue }
  | .parameterType => { pDescRec with hInOutType := value.hVal }
  | .precision => { pDescRec with iPrecision := value.hVal }
  | .scale => { pDescRec with hScale := value.hVal }
  | .type => { pDescRec with hType := value.hVal }
  | .conciseType =>
      { pDescRec with
        hConciseType := value.hVal
        hType := if iType = .apd ∨ iType = .ard ∨ iType = .ipd then
            getCTypeFromConciseType value.hVal pDescRec.hDateTimeIntervalCode pDescRec.hType
          else pDescRec.hType }
  | .unnamed => { pDescRec with iUnNamed := value.hVal }
  | .column _ => pDescRec
  | .datetimeIntervalCode => { pDescRec with hDateTimeIntervalCode := value.hVal }
  | .datetimeIntervalPrecision => { pDescRec with iDateTimeIntervalPrecision := value.iVal }
  | .other _ => pDescRec

def invalidIdentifier : Diagnostic := ("HY091", "Invalid descriptor field identifier")

def invalidAttribute : Diagnostic := ("HY024", "Invalid attribute/option identifier")

def invalidIndex : Diagnostic := ("07009", "Invalid descriptor index")

def fixedArray : Diagnostic := ("HY000", "Cannot add new rec in an array")

namespace Desc

variable (pDesc : Desc)

def isWritableField (field : FieldIdentifier) : Bool :=
  pDesc.iType = .unknown || field.writableFor pDesc.iType

/-- The loop over the records above a number; `releaseDescriptorRec` leaves an array alone. -/
def releaseAbove (hVal : Int) : Desc :=
  if pDesc.iRecListType = .linkedList then
    { pDesc with
      pDescRecHead := pDesc.pDescRecHead.filter fun pDescRec => pDescRec.hRecNumber ≤ hVal }
  else pDesc

/-- `SQL_DESC_COUNT`; a record that an array cannot add is not missed. -/
def setCount (hVal : Int) : Option Diagnostic × Desc :=
  let zeroAllowed := (pDesc.iType = .apd ∨ pDesc.iType = .ard) ∧ pDesc.iRecListType = .linkedList
  if hVal < 0 ∨ (hVal = 0 ∧ ¬zeroAllowed) then (some invalidAttribute, pDesc)
  else
    let counted := { pDesc with pDescHeader := { pDesc.pDescHeader with hHighestCount := hVal } }
    let added :=
      if hVal ≠ 0 then
        match counted.checkAndAddDescRec hVal true with
        | none => counted
        | some (pDesc, _) => pDesc
      else counted
    (none, added.releaseAbove hVal)

def setHeaderField (field : HeaderField) (value : FieldValue) : Option Diagnostic × Desc :=
  let header := pDesc.pDescHeader
  match field with
  | .arraySize =>
      if value.iVal ≤ 0 then (some invalidAttribute, pDesc)
      else (none, { pDesc with pDescHeader := { header with lArraySize := value.iVal } })
  | .arrayStatusPtr =>
      (none, { pDesc with pDescHeader := { header with phArrayStatusPtr := value.pValue } })
  | .bindOffsetPtr =>
      (none, { pDesc with pDescHeader := { header with plBindOffsetPtr := value.pValue } })
  | .bindType =>
      if value.iVal < 0 then (some invalidAttribute, pDesc)
      else (none, { pDesc with pDescHeader := { header with lBindType := value.iVal } })
  | .count => pDesc.setCount value.hVal
  | .rowsProcessedPtr =>
      (none, { pDesc with pDescHeader := { header with plRowsProcessedPtr := value.pValue } })
  | .allocType => (some invalidIdentifier, pDesc)

/-- The record is there before the identifier is looked at. -/
def setRecordField (hRecNumber : Int) (field : RecordField) (value : FieldValue) :
    Option Diagnostic × Desc :=
  if hRecNumber ≤ 0 then (some invalidIndex, pDesc)
  else
    match pDesc.checkAndAddDescRec hRecNumber true with
    | none => (some fixedArray, pDesc)
    | some (pDesc, _) =>
        match field with
        | .other _ => (some invalidIdentifier, pDesc)
        | field =>
            (none, pDesc.update hRecNumber fun pDescRec => pDescRec.setField pDesc.iType field value)

def setDescField (hRecNumber : Int) (field : FieldIdentifier) (value : FieldValue)
    (iInternal : Bool) : Option Diagnostic × Desc :=
  if (iInternal || pDesc.isWritableField field) = false then
    (some ("HY016", "Cannot modify an implementation row descriptor"), pDesc)
  else
    match field with
    | .record field => pDesc.setRecordField hRecNumber field value
    | .header field =>
        if pDesc.pDescHeader.valid = false then (some ("HY000", "Null pointer found"), pDesc)
        else pDesc.setHeaderField field value

end Desc

/-- The arguments of `SQLSetDescRec`. -/
structure RecValues where
  hRecNumber : Int
  hType : Int
  hSubType : Int
  iOctetLength : Int
  hPrecision : Int
  hScale : Int
  pData : Pointer
  plStrLen : Pointer
  plIndicator : Pointer
  deriving DecidableEq, Repr

def recFields : List RecordField :=
  [.type, .datetimeIntervalCode, .octetLength, .precision, .scale, .dataPtr, .octetLengthPtr,
    .indicatorPtr]

def RecValues.store (values : RecValues) (iType : DescType) (pDescRec : DescRec) : DescRec :=
  { pDescRec with
    hType := values.hType
    hDateTimeIntervalCode := values.hSubType
    iOctetLen := wrap 4 values.iOctetLength
    iPrecision := values.hPrecision
    hScale := values.hScale
    pValue := values.pData
    plOctetLen := values.plStrLen
    pcbLenInd := values.plIndicator
    cbLen := if (iType = .apd ∨ iType = .ard) ∧ pDescRec.cbLen = 0 then values.iOctetLength
      else pDescRec.cbLen }

namespace Desc

variable (pDesc : Desc)

def setDescRec (values : RecValues) : Option Diagnostic × Desc :=
  if values.hRecNumber ≤ 0 then (some invalidIndex, pDesc)
  else if (recFields.all fun field => pDesc.isWritableField (.record field)) = false then
    (some ("HY000", "Field is not writable"), pDesc)
  else if values.pData = 0 ∧ values.plIndicator = 0 ∧ pDesc.iType = .ard then
    (none, pDesc.releaseDescriptorRecByNum values.hRecNumber)
  else
    match pDesc.checkAndAddDescRec values.hRecNumber true with
    | none => (some fixedArray, pDesc)
    | some (pDesc, _) => (none, pDesc.update values.hRecNumber (values.store pDesc.iType))

/-- `SQL_DESC_COUNT` of `RS_SQLGetDescField`, and the header that keeps it. -/
def getCount : Except Diagnostic Int × Desc :=
  if pDesc.pDescHeader.valid = false then (.error ("HY000", "Null pointer found"), pDesc)
  else
    let hHighestCount :=
      if pDesc.pDescHeader.hHighestCount = 0 then pDesc.findHighestRecCount
      else pDesc.pDescHeader.hHighestCount
    (.ok hHighestCount, { pDesc with pDescHeader := { pDesc.pDescHeader with hHighestCount } })

/-- The destination of a copy with the header of the source and without its records. -/
def receive (pDescDest pDescSrc : Desc) : Desc :=
  let header :=
    if pDescDest.pDescHeader.valid ∧ pDescSrc.pDescHeader.valid then
      { pDescSrc.pDescHeader with hAllocType := pDescDest.pDescHeader.hAllocType }
    else pDescDest.pDescHeader
  { ({ pDescDest with pDescHeader := header } : Desc).releaseDescriptorRecs with
    iRecListType := .linkedList
    iType := if pDescDest.iType = .unknown then pDescSrc.iType else pDescDest.iType }

end Desc

/-- A copied record; what was sent for it stays with the source. -/
def DescRec.copied (pDescRec : DescRec) : DescRec := { pDescRec with pDataAtExec := 0 }

abbrev Descs (Handle : Type) := Handle → Desc

namespace Descs

variable {Handle : Type} [DecidableEq Handle] (descs : Descs Handle)

def put (handle : Handle) (pDesc : Desc) : Descs Handle := Function.update descs handle pDesc

/-- `RS_SQLCopyDesc`, which reads the source's records when those of the destination are gone. -/
def copyDesc (phdescSrc phdescDest : Handle) (iInternal : Bool) :
    Option Diagnostic × Descs Handle :=
  if iInternal = false ∧
      ((descs phdescDest).iType = .ird ∨ (descs phdescDest).iType = .ipd) then
    (some ("HY016", "Cannot modify an implementation descriptor"), descs)
  else
    let released := descs.put phdescDest ((descs phdescDest).receive (descs phdescSrc))
    let pDescDest := released phdescDest
    (none, released.put phdescDest { pDescDest with
      pDescRecHead :=
        pDescDest.pDescRecHead ++ (released phdescSrc).pDescRecHead.map DescRec.copied })

end Descs

end RedshiftOdbc.Descriptor
