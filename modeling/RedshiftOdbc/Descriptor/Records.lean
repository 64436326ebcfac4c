import RedshiftOdbc.Library.KeyedList
import RedshiftOdbc.Library.Words

/-!
# The records of a descriptor

A descriptor has a header and a list of records, which are found by their number.
Records are linked one by one, or they are an array that was filled for the columns of a
result or the parameters of a statement and that nothing is added to.
-/

namespace RedshiftOdbc.Descriptor

open RedshiftOdbc.Keyed RedshiftOdbc.Words

/-- An address of the application; `NULL` is zero. -/
abbrev Pointer := Nat

abbrev Diagnostic := String × String

inductive DescType where
  | unknown
  | apd
  | ard
  | ipd
  | ird
  deriving DecidableEq, Repr

inductive RecListType where
  | linkedList
  | arrayList
  deriving DecidableEq, Repr

structure Header where
  hAllocType : Int
  lArraySize : Int := 1
  phArrayStatusPtr : Pointer := 0
  plBindOffsetPtr : Pointer := 0
  lBindType : Int := 0
  hHighestCount : Int := 0
  plRowsProcessedPtr : Pointer := 0
  /-- Until the descriptor is freed. -/
  valid : Bool := true
  deriving DecidableEq, Repr

/-- `RS_DESC_REC`, which `rs_calloc` clears; texts without their terminators. -/
structure DescRec where
  hRecNumber : Int
  szName : List UInt8 := []
  hType : Int := 0
  iSize : Int := 0
  hScale : Int := 0
  hNullable : Int := 0
  cAutoInc : Int := 0
  szTableName : List UInt8 := []
  cCaseSensitive : Int := 0
  szCatalogName : List UInt8 := []
  iDisplaySize : Int := 0
  cFixedPrecScale : Int := 0
  szLiteralPrefix : List UInt8 := []
  szLiteralSuffix : List UInt8 := []
  szTypeName : List UInt8 := []
  iNumPrecRadix : Int := 0
  iOctetLen : Int := 0
  iPrecision : Int := 0
  szSchemaName : List UInt8 := []
  iSearchable : Int := 0
  iUnNamed : Int := 0
  cUnsigned : Int := 0
  iUpdatable : Int := 0
  pValue : Pointer := 0
  cbLen : Int := 0
  pcbLenInd : Pointer := 0
  hInOutType : Int := 0
  hParamSQLType : Int := 0
  hConciseType : Int := 0
  plOctetLen : Pointer := 0
  hDateTimeIntervalCode : Int := 0
  iDateTimeIntervalPrecision : Int := 0
  pDataAtExec : Pointer := 0
  hRsSpecialType : Int := 0
  deriving DecidableEq, Repr

structure Desc where
  iType : DescType
  pDescHeader : Header
  iRecListType : RecListType := .linkedList
  pDescRecHead : List DescRec := []
  deriving DecidableEq, Repr

def sqlCDefault : Int := 99

def sqlParamInput : Int := 1

namespace Desc

variable (pDesc : Desc) (hRecNumber : Int)

def findDescRec : Option DescRec := find DescRec.hRecNumber hRecNumber pDesc.pDescRecHead

def numbers : List Int := pDesc.pDescRecHead.map DescRec.hRecNumber

def findHighestRecCount : Int :=
  pDesc.pDescRecHead.foldl (fun hHighestCount pDescRec =>
    if pDescRec.hRecNumber > hHighestCount then pDescRec.hRecNumber else hHighestCount) 0

def releaseDescriptorRecs : Desc := { pDesc with pDescRecHead := [] }

/-- Nothing is removed from an array. -/
def releaseDescriptorRecByNum : Desc :=
  if pDesc.iRecListType = .linkedList then
    { pDesc with pDescRecHead := remove DescRec.hRecNumber hRecNumber pDesc.pDescRecHead }
  else pDesc

def addDescriptorRec (pDescRec : DescRec) (iAtFront : Bool) : Desc :=
  { pDesc with
    pDescRecHead :=
      if iAtFront then pDescRec :: pDesc.pDescRecHead else pDesc.pDescRecHead ++ [pDescRec] }

def newRec : DescRec :=
  let hType := if pDesc.iType = .ard ∨ pDesc.iType = .apd then sqlCDefault else 0
  { hRecNumber
    hType
    hConciseType := hType
    hInOutType := if pDesc.iType = .ipd then sqlParamInput else 0 }

/--
The descriptor with a record of the number, and whether it is a new one; none where an
array has no such record.
-/
def checkAndAddDescRec (iAtFront : Bool) : Option (Desc × Bool) :=
  match pDesc.findDescRec hRecNumber with
  | some _ => some (pDesc, false)
  | none =>
      if pDesc.iRecListType ≠ .arrayList then
        some (pDesc.addDescriptorRec (pDesc.newRec hRecNumber) iAtFront, true)
      else none

/-- What is written to the record that was found or created. -/
def update (change : DescRec → DescRec) : Desc :=
  { pDesc with pDescRecHead := modify DescRec.hRecNumber hRecNumber change pDesc.pDescRecHead }

end Desc

/-! ## The calls that bind -/

def numericStructSize : Int := 19

/-- `getOctetLenUsingCType`, by the codes of the C types. -/
def getOctetLenUsingCType (hCType iSize : Int) : Int :=
  if hCType ∈ [1, -8] then iSize
  else if hCType = 2 then numericStructSize
  else if hCType ∈ [-7, -6, -26, -28] then 1
  else if hCType ∈ [5, -15, -17] then 2
  else if hCType ∈ [4, -18, -16] then 4
  else if hCType ∈ [-25, -27] then 8
  else if hCType = 7 then 4
  else if hCType = 8 then 8
  else if hCType ∈ [91, 9, 92, 10] then 6
  else if hCType ∈ [93, 11] then 16
  else if hCType = 107 then 8
  else if hCType = 110 then 20
  else 0

/-- `getOctetLen`, by the codes of the SQL types and without a special type. -/
def getOctetLen (hSQLType iSize : Int) : Int :=
  if hSQLType ∈ [12, -1, 1, -8, -9, -10, -4] then iSize
  else if hSQLType = 2 then if 0 < iSize then iSize + 2 else numericStructSize
  else if hSQLType ∈ [-7, -6] then 1
  else if hSQLType = 5 then 2
  else if hSQLType ∈ [4, 7] then 4
  else if hSQLType ∈ [-5, 110] then 20
  else if hSQLType ∈ [6, 8, 107] then 8
  else if hSQLType ∈ [91, 9, 92, 10] then 6
  else if hSQLType ∈ [93, 11] then 16
  else 0

def sqlNoType : Int := 120

def mappedTypes : List Int :=
  [1, 12, -1, -8, -9, -10, -7, -2, -3, -4, 2, 3, -6, 5, 4, -5, 7, 6, 8, -11, 91, 92, 93, 9, 10, 11,
    101, 102, 103, 104, 105, 106, 107, 108, 109, 110, 111, 112, 113]

/-- `sqlTypeMap`; what is read behind its ends is not known. -/
def sqlTypeMap (outside : Int → Int) (hSQLType : Int) : Int :=
  if hSQLType < -12 ∨ 113 < hSQLType then outside hSQLType
  else if hSQLType ∈ [9, 10, 11] then hSQLType + 82
  else if hSQLType ∈ mappedTypes then hSQLType
  else sqlNoType

/-- The arguments of `SQLBindParameter`; the number of the parameter is unsigned. -/
structure ParamBinding where
  hParam : Nat
  hInOutType : Int
  hType : Int
  hSQLType : Int
  iColSize : Nat
  hScale : Int
  pValue : Pointer
  cbLen : Int
  pcbLenInd : Pointer
  deriving DecidableEq, Repr

namespace ParamBinding

variable (param : ParamBinding)

/-- The number as a `short`. -/
def hRecNumber : Int := wrap 2 param.hParam

def unbinds : Bool := param.pValue = 0 && param.pcbLenInd = 0

def store (pDescRec : DescRec) : DescRec :=
  let octets := getOctetLenUsingCType param.hType (wrap 4 param.cbLen)
  { pDescRec with
    hRecNumber := param.hRecNumber
    hInOutType := param.hInOutType
    hType := param.hType
    hParamSQLType := param.hSQLType
    iSize := wrap 4 param.iColSize
    hScale := param.hScale
    pValue := param.pValue
    cbLen := param.cbLen
    pcbLenInd := param.pcbLenInd
    iOctetLen := if octets = 0 then getOctetLen param.hSQLType (wrap 4 param.cbLen) else octets }

/-- Why a binding is refused before the descriptor is looked at. -/
def refused (outside : Int → Int) : Option Diagnostic :=
  if param.hRecNumber < 0 then some ("HY000", "Invalid parameter number")
  else if sqlTypeMap outside param.hSQLType = sqlNoType then
    some ("HY004", "Invalid SQL type: " ++ toString param.hSQLType)
  else none

end ParamBinding

/-- `RS_SQLBindParameter` on the descriptor, and whether the record is a new one. -/
def Desc.bindParameter (pAPD : Desc) (outside : Int → Int) (param : ParamBinding) :
    Option Diagnostic × Desc × Bool :=
  match param.refused outside with
  | some diagnostic => (some diagnostic, pAPD, false)
  | none =>
      if param.unbinds then (none, pAPD.releaseDescriptorRecByNum param.hRecNumber, false)
      else
        match pAPD.checkAndAddDescRec param.hRecNumber false with
        | none => (some ("HY001", "Memory allocation error"), pAPD, false)
        | some (pAPD, iNewDescRec) => (none, pAPD.update param.hRecNumber param.store, iNewDescRec)

/-- The arguments of `SQLBindCol`; the number of the column is unsigned. -/
structure ColBinding where
  hCol : Nat
  hType : Int
  pValue : Pointer
  cbLen : Int
  pcbLenInd : Pointer
  deriving DecidableEq, Repr

namespace ColBinding

variable (col : ColBinding)

def hRecNumber : Int := wrap 2 col.hCol

def unbinds : Bool := col.pValue = 0 && col.pcbLenInd = 0

def store (pDescRec : DescRec) : DescRec :=
  { pDescRec with
    hRecNumber := col.hRecNumber
    hType := col.hType
    pValue := col.pValue
    cbLen := col.cbLen
    pcbLenInd := col.pcbLenInd
    iOctetLen := getOctetLenUsingCType col.hType (wrap 4 col.cbLen) }

end ColBinding

def Desc.bindCol (pARD : Desc) (col : ColBinding) : Option Diagnostic × Desc :=
  if col.hCol = 0 then (some ("HY000", "SQLBindCol: Invalid column number"), pARD)
  else if col.unbinds then (none, pARD.releaseDescriptorRecByNum col.hRecNumber)
  else
    match pARD.checkAndAddDescRec col.hRecNumber false with
    | none => (some ("HY001", "Memory allocation error"), pARD)
    | some (pARD, _) => (none, pARD.update col.hRecNumber col.store)

/-- `clearBindColList` and `clearBindParamList`, for `SQLFreeStmt`. -/
def Desc.clearBindList (pDesc : Desc) : Desc :=
  { pDesc with pDescHeader := { pDesc.pDescHeader with hHighestCount := 0 } }.releaseDescriptorRecs

/-! ## What a binding does -/

namespace Desc

variable {pDesc : Desc} {hRecNumber : Int}

theorem numbers_update {change : DescRec → DescRec}
    (keeps : ∀ pDescRec, (change pDescRec).hRecNumber = hRecNumber) :
    (pDesc.update hRecNumber change).numbers = pDesc.numbers :=
  map_modify fun pDescRec _ => keeps pDescRec

theorem numbers_releaseByNum (unique : pDesc.numbers.Nodup) :
    (pDesc.releaseDescriptorRecByNum hRecNumber).numbers.Nodup := by
  rw [releaseDescriptorRecByNum]
  split_ifs
  · exact unique.sublist ((List.eraseP_sublist ..).map _)
  · exact unique

theorem numbers_add {pDescRec : DescRec} {iAtFront : Bool} (unique : pDesc.numbers.Nodup)
    (missing : hRecNumber ∉ pDesc.numbers) (same : pDescRec.hRecNumber = hRecNumber) :
    (pDesc.addDescriptorRec pDescRec iAtFront).numbers.Nodup := by
  have number : pDescRec.hRecNumber ∉ pDesc.numbers := same ▸ missing
  cases iAtFront with
  | true => exact List.nodup_cons.mpr ⟨number, unique⟩
  | false =>
      have behind := List.Nodup.concat number unique
      rw [List.concat_eq_append] at behind
      rw [numbers, addDescriptorRec, if_neg (by decide), List.map_append]
      exact behind

/-- A binding is refused, removes a record, changes one or adds one. -/
theorem bindParameter_cases (pAPD : Desc) (outside : Int → Int) (param : ParamBinding) :
    ((param.refused outside).isSome = true ∧ (pAPD.bindParameter outside param).2 = (pAPD, false)) ∨
    (param.refused outside = none ∧ param.unbinds = true ∧
      (pAPD.bindParameter outside param).2 =
        (pAPD.releaseDescriptorRecByNum param.hRecNumber, false)) ∨
    (param.refused outside = none ∧ param.unbinds = false ∧
      ((∃ pDescRec, pAPD.findDescRec param.hRecNumber = some pDescRec ∧
          (pAPD.bindParameter outside param).2 =
            (pAPD.update param.hRecNumber param.store, false)) ∨
        (pAPD.findDescRec param.hRecNumber = none ∧ pAPD.iRecListType = .linkedList ∧
          (pAPD.bindParameter outside param).2 =
            (pAPD.addDescriptorRec (param.store (pAPD.newRec param.hRecNumber)) false, true)) ∨
        (pAPD.findDescRec param.hRecNumber = none ∧ pAPD.iRecListType = .arrayList ∧
          (pAPD.bindParameter outside param).2 = (pAPD, false)))) := by
  unfold bindParameter
  cases refused : param.refused outside with
  | some diagnostic => exact Or.inl ⟨rfl, rfl⟩
  | none =>
      refine Or.inr ?_
      cases unbinds : param.unbinds with
      | true => exact Or.inl ⟨rfl, rfl, rfl⟩
      | false =>
          refine Or.inr ⟨rfl, rfl, ?_⟩
          unfold checkAndAddDescRec
          cases found : pAPD.findDescRec param.hRecNumber with
          | some pDescRec => exact Or.inl ⟨pDescRec, rfl, rfl⟩
          | none =>
              refine Or.inr ?_
              cases list : pAPD.iRecListType with
              | arrayList => exact Or.inr ⟨rfl, rfl, by simp⟩
              | linkedList =>
                  refine Or.inl ⟨rfl, rfl, ?_⟩
                  have stored := @modify_concat _ _ _ DescRec.hRecNumber param.hRecNumber
                    param.store pAPD.pDescRecHead (pAPD.newRec param.hRecNumber) found rfl
                  simp [update, addDescriptorRec, stored]

end Desc

end RedshiftOdbc.Descriptor
