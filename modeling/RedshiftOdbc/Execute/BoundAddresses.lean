import RedshiftOdbc.Execute.ParamData
import RedshiftOdbc.Execute.RowsSent

/-!
# Bound addresses

A rowset and an array of parameters find the values of a row by the same rule.
`RS_SQLFetchScroll` follows it for columns, `libpqExecuteDirectOrPreparedOnThread`
for the parameters it sends, `needDataAtExec` for their indicators, and
`updateOutBindParametersValue` for what comes back, each with arithmetic of its own.  The
last one takes a parameter's place in the list for its number.
-/

namespace RedshiftOdbc.Bound

open RedshiftOdbc.Words RedshiftOdbc.Execute

/-! ## The rule -/

/-- Where a value and its length or indicator are; none is a NULL pointer. -/
@[ext]
structure Addresses where
  value : Option Int
  lenInd : Option Int
  deriving DecidableEq, Repr

/-- The bytes from one length or indicator to the next. -/
def lenIndStride (desc : RsDescInfo) : Int :=
  if desc.lBindType = sqlBindByColumn then sqlLenSize else desc.lBindType

def valueStride (desc : RsDescInfo) (rec : RsDescRec) : Int :=
  if desc.lBindType = sqlBindByColumn then rec.iOctetLen else desc.lBindType

def boundAddresses (desc : RsDescInfo) (rec : RsDescRec) (row : Nat) : Addresses where
  value := desc.boundValue rec row
  lenInd := desc.boundLenInd rec row

/-- A pointer moved by some bytes; a NULL pointer that is moved is not one any more. -/
def moved (pointer : Option Int) (bytes : Int) : Option Int :=
  match pointer with
  | some address => some (address + bytes)
  | none => if bytes = 0 then none else some bytes

/-! ## Columns -/

structure Column extends RsDescRec where
  plOctetLen : Option Int
  deriving DecidableEq, Repr

variable (pARD : RsDescInfo) (column : Column) (lRowFetched : Nat)

def iBlockCursor : Bool := 1 < pARD.lArraySize

/-- `iValOffset`, an `int`. -/
def iValOffset : Int :=
  if iBlockCursor pARD then
    if pARD.lBindType = sqlBindByColumn then column.iOctetLen else wrap 4 pARD.lBindType
  else 0

/-- The length pointer of the row without the bind offset. -/
def pcbLenInd : Option Int :=
  column.pcbLenInd.map fun pcbLenInd =>
    if iBlockCursor pARD ∧ pARD.lBindType ≠ sqlBindByColumn ∧ column.plOctetLen = none then
      pcbLenInd + iValOffset pARD column * lRowFetched
    else pcbLenInd + lRowFetched * sqlLenSize

/-- The elements of an array have no length. -/
def lengthMissing : Bool :=
  iBlockCursor pARD && pARD.lBindType = sqlBindByColumn && iValOffset pARD column = 0

/-- What `RS_SQLGetData` is given for a column, unless an array element has no length. -/
def fetchColumn : Option Addresses :=
  if lengthMissing pARD column then none
  else
    some
      { value := moved column.pValue (lRowFetched * iValOffset pARD column + pARD.plBindOffset)
        lenInd := (pcbLenInd pARD column lRowFetched).map (· + pARD.plBindOffset) }

/-- A fetch writes a column where it is bound, or fails. -/
def ColumnFollows : Prop :=
  ∀ addresses ∈ fetchColumn pARD column lRowFetched,
    addresses = boundAddresses pARD column.toRsDescRec lRowFetched

/-- What the rule needs of a column. -/
structure ColumnKept : Prop where
  /-- Behind the first row the structures have sizes of an `int`. -/
  value : column.pValue.isSome = true → pARD.lBindType ≠ sqlBindByColumn → lRowFetched ≠ 0 →
    wrap 4 pARD.lBindType = pARD.lBindType
  /-- Nothing moves a NULL pointer. -/
  null : column.pValue = none → lengthMissing pARD column = false →
    pARD.plBindOffset = -(lRowFetched * iValOffset pARD column)
  lenInd : column.pcbLenInd.isSome = true → pARD.lBindType ≠ sqlBindByColumn → lRowFetched ≠ 0 →
    if column.plOctetLen = none then wrap 4 pARD.lBindType = pARD.lBindType
    else pARD.lBindType = sqlLenSize

/-! ## Parameters -/

/-- A record of the application's parameter descriptor. -/
structure Param extends RsDescRec where
  hType : Int
  hParamSQLType : Int
  /-- `hInOutType` is `SQL_PARAM_INPUT_OUTPUT`. -/
  inputOutput : Bool
  /-- The value comes from `SQLPutData`. -/
  pDataAtExec : Bool
  deriving DecidableEq, Repr

/-- `SQL_PARAM_OUTPUT` or `SQL_PARAM_INPUT_OUTPUT`. -/
def Param.writtenBack (param : Param) : Bool := param.output || param.inputOutput

/-- The application's parameter descriptor with its whole records, in the order of its list. -/
structure ParamInfo extends RsDescInfo where
  params : List Param
  records : pDescRecHead = params.map Param.toRsDescRec

/-- What an execution knows of its statement. -/
structure Exec where
  iNoOfParams : Nat
  iMultiInsert : Nat
  /-- The values of a function call are read back. -/
  iReadOutParamVals : Bool

variable (pAPD : RsDescInfo) (param : Param) (exec : Exec) (lParamProcessed : Nat)

/-- The types `needDataAtExec` looks at. -/
def Param.isCharacter : Bool :=
  param.hParamSQLType = DataAtExec.sqlChar || param.hParamSQLType = DataAtExec.sqlVarchar ||
    param.hType = DataAtExec.sqlCChar || param.hType = DataAtExec.sqlCWchar

/-- The parameter's indicator is looked at for data at execution. -/
def looksAt : Bool :=
  exec.iMultiInsert = 0 && param.isCharacter && param.hRecNumber ≤ exec.iNoOfParams

/-- The indicator `needDataAtExec` reads for a parameter. -/
def needDataAtExec : Option Int :=
  if looksAt param exec then
    param.pcbLenInd.map fun pcbLenInd => pcbLenInd + lParamProcessed * sqlLenSize
  else none

/-- The parameter is sent with its bound value. -/
def isSent : Bool :=
  !decide (1 < pAPD.lArraySize ∧ pAPD.iValOffset param.toRsDescRec ≤ 0) &&
    param.hRecNumber ≤ min (countBindParams pAPD.pDescRecHead) exec.iNoOfParams &&
    !param.output && !param.pDataAtExec

/-- What `convertCParamDataToSQLData` is given for a parameter of the application's memory. -/
def bindParam : Option Addresses :=
  if isSent pAPD param exec then
    some
      { value := pAPD.pParamData param.toRsDescRec lParamProcessed
        lenInd := pAPD.plParamDataStrLenInd param.toRsDescRec lParamProcessed }
  else none

/-- The entry of `pOutParamRecNums` for the number behind an index is set. -/
def pOutParamRecNums (params : List Param) (iParamNumber : Nat) : Bool :=
  params.any fun param => param.hRecNumber = iParamNumber + 1 && param.writtenBack

/--
The second loop of `updateOutBindParametersValue`: what `RS_SQLGetData` is given for each
record, the column of the result and the addresses.  Whether it is called goes by the
number that the record's place in the list stands for.
-/
def outParamCalls (recNums : Nat → Bool) :
    Nat → Nat → List Param → List (Option (Nat × Addresses))
  | _, _, [] => []
  | iParamNumber, iOutParamResultIndex, param :: rest =>
      if recNums iParamNumber then
        some (iOutParamResultIndex + 1, ⟨param.pValue, param.pcbLenInd⟩) ::
          outParamCalls recNums (iParamNumber + 1) (iOutParamResultIndex + 1) rest
      else none :: outParamCalls recNums (iParamNumber + 1) iOutParamResultIndex rest

/-- What an execution writes back to the records of the list. -/
def updateOutBindParametersValue (params : List Param) : List (Option (Nat × Addresses)) :=
  if exec.iReadOutParamVals then outParamCalls (pOutParamRecNums params) 0 0 params
  else params.map fun _ => none

/-- The values that come back are in the order of the parameters' numbers. -/
def outColumn (params : List Param) (param : Param) : Nat :=
  params.countP (fun other => other.writtenBack && other.hRecNumber < param.hRecNumber) + 1

/-- A value is written back to the parameter. -/
def comesBack : Bool := exec.iReadOutParamVals && param.writtenBack

/-- The value that the parameter is due, and where the rule has it. -/
def outValue (pAPD : ParamInfo) (param : Param) (exec : Exec) (row : Nat) :
    Option (Nat × Addresses) :=
  if comesBack param exec then
    some (outColumn pAPD.params param, boundAddresses pAPD.toRsDescInfo param.toRsDescRec row)
  else none

/-- An execution reads the parameter at a place of the list, and writes it, where it is bound. -/
def ParamFollows (pAPD : ParamInfo) (place : Fin pAPD.params.length) (exec : Exec) (row : Nat) :
    Prop :=
  (∀ address ∈ needDataAtExec pAPD.params[place] exec row,
      some address = pAPD.boundLenInd pAPD.params[place].toRsDescRec row) ∧
    (∀ addresses ∈ bindParam pAPD.toRsDescInfo pAPD.params[place] exec row,
      addresses = boundAddresses pAPD.toRsDescInfo pAPD.params[place].toRsDescRec row) ∧
    (updateOutBindParametersValue exec pAPD.params)[place]? =
      some (outValue pAPD pAPD.params[place] exec row)

/-- What the rule needs of the parameter at a place of the list. -/
structure ParamKept (pAPD : ParamInfo) (place : Fin pAPD.params.length) (exec : Exec)
    (row : Nat) : Prop where
  /-- Indicators are looked for as if they were bound by columns without an offset. -/
  looked : pAPD.params[place].pcbLenInd.isSome = true → looksAt pAPD.params[place] exec = true →
    pAPD.plBindOffset = row * (sqlLenSize - lenIndStride pAPD.toRsDescInfo)
  /-- The offset fits an `int`, and is not there for lengths that are bound by columns. -/
  value : pAPD.params[place].pValue.isSome = true →
    isSent pAPD.toRsDescInfo pAPD.params[place] exec = true →
      wrap 4 pAPD.plBindOffset = pAPD.plBindOffset
  lenInd : pAPD.params[place].pcbLenInd.isSome = true →
    isSent pAPD.toRsDescInfo pAPD.params[place] exec = true →
      if pAPD.lBindType = sqlBindByColumn then pAPD.plBindOffset = 0
      else wrap 4 pAPD.plBindOffset = pAPD.plBindOffset
  /-- The number that the place stands for is of a parameter of the same kind. -/
  backKind : exec.iReadOutParamVals = true →
    pOutParamRecNums pAPD.params place = pAPD.params[place].writtenBack
  /-- As many numbers up to the place come back as parameters with a lower number. -/
  backColumn : comesBack pAPD.params[place] exec = true →
    (List.range place).countP (pOutParamRecNums pAPD.params) + 1 =
      outColumn pAPD.params pAPD.params[place]
  /-- What comes back goes to the first row. -/
  backValue : pAPD.params[place].pValue.isSome = true → comesBack pAPD.params[place] exec = true →
    pAPD.plBindOffset = -(row * valueStride pAPD.toRsDescInfo pAPD.params[place].toRsDescRec)
  backLenInd : pAPD.params[place].pcbLenInd.isSome = true →
    comesBack pAPD.params[place] exec = true →
      pAPD.plBindOffset = -(row * lenIndStride pAPD.toRsDescInfo)

/-! ## One row -/

variable {pARD pAPD : RsDescInfo} {column : Column} {param : Param} {exec : Exec} {row : Nat}

/-- A row of the only element is the first one. -/
theorem row_zero {desc : RsDescInfo} (inside : row < desc.lArraySize)
    (single : ¬ 1 < desc.lArraySize) : row = 0 := by
  omega

theorem mul_left_iff {first second : Int} :
    (row : Int) * first = row * second ↔ (row ≠ 0 → first = second) := by
  by_cases first_row : row = 0
  · simp [first_row]
  · rw [Int.mul_eq_mul_left_iff (by exact_mod_cast first_row)]
    exact ⟨fun same _ => same, fun same => same first_row⟩

/-- A moved pointer is the one of the rule when it was NULL and stays there, or moves with it. -/
theorem moved_eq_iff {pointer : Option Int} {bytes rule : Int} :
    moved pointer bytes = pointer.map (· + rule) ↔
      (pointer.isSome = true → bytes = rule) ∧ (pointer = none → bytes = 0) := by
  cases pointer with
  | none =>
      rw [moved]
      split_ifs with still <;> simp [still]
  | some address => simp [moved]

theorem map_add_eq_iff {pointer : Option Int} {bytes rule : Int} :
    pointer.map (· + bytes) = pointer.map (· + rule) ↔
      (pointer.isSome = true → bytes = rule) := by
  cases pointer with
  | none => simp
  | some address => simp

theorem eq_map_add_iff {pointer : Option Int} {rule : Int} :
    pointer = pointer.map (· + rule) ↔ (pointer.isSome = true → rule = 0) := by
  cases pointer with
  | none => simp
  | some address => simp

theorem boundValue_eq (desc : RsDescInfo) (rec : RsDescRec) (row : Nat) :
    desc.boundValue rec row =
      rec.pValue.map (· + (desc.plBindOffset + row * valueStride desc rec)) := by
  rw [RsDescInfo.boundValue]
  refine congrArg (rec.pValue.map ·) (funext fun pValue => ?_)
  rw [valueStride, Int.add_assoc]

theorem boundLenInd_eq (desc : RsDescInfo) (rec : RsDescRec) (row : Nat) :
    desc.boundLenInd rec row =
      rec.pcbLenInd.map (· + (desc.plBindOffset + row * lenIndStride desc)) := by
  rw [RsDescInfo.boundLenInd]
  refine congrArg (rec.pcbLenInd.map ·) (funext fun pcbLenInd => ?_)
  rw [lenIndStride, Int.add_assoc]

/-! ## Columns follow the rule -/

/-- The bytes between the values of a column, where there is more than one row. -/
theorem row_mul_iValOffset (column : Column) (inside : row < pARD.lArraySize) :
    (row : Int) * iValOffset pARD column =
      row * if pARD.lBindType = sqlBindByColumn then column.iOctetLen
        else wrap 4 pARD.lBindType := by
  rw [mul_left_iff]
  intro behind
  rw [iValOffset, iBlockCursor, if_pos (by simp; omega)]

theorem columnLenInd_eq (inside : row < pARD.lArraySize) :
    (pcbLenInd pARD column row).map (· + pARD.plBindOffset) =
      column.pcbLenInd.map (· + (pARD.plBindOffset + row *
        if pARD.lBindType ≠ sqlBindByColumn ∧ column.plOctetLen = none then
          wrap 4 pARD.lBindType else sqlLenSize)) := by
  rw [pcbLenInd, Option.map_map]
  refine congrArg (column.pcbLenInd.map ·) (funext fun pointer => ?_)
  have stride := row_mul_iValOffset column inside
  simp only [Function.comp]
  by_cases rows : pARD.lBindType ≠ sqlBindByColumn ∧ column.plOctetLen = none
  · rw [if_neg rows.1] at stride
    rw [if_pos rows]
    split_ifs with block
    · rw [Int.mul_comm, stride]
      ring
    · have first : row = 0 := by
        refine row_zero inside fun more => block ⟨?_, rows⟩
        simpa [iBlockCursor] using more
      rw [first]
      simp
  · rw [if_neg rows, if_neg (fun block => rows block.2)]
    ring

theorem value_kept_iff (column : Column) (inside : row < pARD.lArraySize) :
    moved column.pValue (row * iValOffset pARD column + pARD.plBindOffset) =
        pARD.boundValue column.toRsDescRec row ↔
      (column.pValue.isSome = true → pARD.lBindType ≠ sqlBindByColumn → row ≠ 0 →
        wrap 4 pARD.lBindType = pARD.lBindType) ∧
      (column.pValue = none → pARD.plBindOffset = -(row * iValOffset pARD column)) := by
  rw [boundValue_eq, moved_eq_iff]
  refine and_congr (imp_congr_right fun _ => ?_) (imp_congr_right fun _ => by omega)
  rw [row_mul_iValOffset column inside, valueStride, Int.add_comm, Int.add_right_inj, mul_left_iff]
  split_ifs with columns
  · exact ⟨fun _ rows => absurd columns rows, fun _ _ => rfl⟩
  · exact ⟨fun kept _ => kept, fun kept => kept columns⟩

theorem lenInd_kept_iff (column : Column) (inside : row < pARD.lArraySize) :
    (pcbLenInd pARD column row).map (· + pARD.plBindOffset) =
        pARD.boundLenInd column.toRsDescRec row ↔
      (column.pcbLenInd.isSome = true → pARD.lBindType ≠ sqlBindByColumn → row ≠ 0 →
        if column.plOctetLen = none then wrap 4 pARD.lBindType = pARD.lBindType
        else pARD.lBindType = sqlLenSize) := by
  rw [columnLenInd_eq inside, boundLenInd_eq, map_add_eq_iff]
  refine imp_congr_right fun _ => ?_
  rw [Int.add_right_inj, mul_left_iff, lenIndStride]
  by_cases columns : pARD.lBindType = sqlBindByColumn
  · rw [if_neg (fun rows => rows.1 columns), if_pos columns]
    exact ⟨fun _ rows => absurd columns rows, fun _ _ => rfl⟩
  · rw [if_neg columns]
    split_ifs with rows same same
    · exact ⟨fun kept _ => kept, fun kept => kept columns⟩
    · exact absurd rows.2 same
    · exact absurd ⟨columns, same⟩ rows
    · exact ⟨fun kept _ behind => (kept behind).symm, fun kept behind => (kept columns behind).symm⟩

/-- A fetch follows the rule for a column at a row exactly when the column is kept. -/
theorem columnFollows_iff (inside : row < pARD.lArraySize) :
    ColumnFollows pARD column row ↔ ColumnKept pARD column row := by
  have value := value_kept_iff column inside
  have lenInd := lenInd_kept_iff column inside
  rw [ColumnFollows, fetchColumn]
  cases missing : lengthMissing pARD column with
  | true =>
      have columns : pARD.lBindType = sqlBindByColumn := by
        simp only [lengthMissing, Bool.and_eq_true, decide_eq_true_eq] at missing
        exact missing.1.2
      rw [if_pos rfl]
      refine ⟨fun _ => ⟨fun _ rows => absurd columns rows, ?_, fun _ rows => absurd columns rows⟩,
        fun _ addresses none => nomatch none⟩
      intro _ present
      rw [missing] at present
      cases present
  | false =>
      rw [if_neg (by decide)]
      simp only [Option.mem_def, Option.some.injEq, forall_eq']
      rw [Addresses.ext_iff, boundAddresses, value, lenInd]
      constructor
      · rintro ⟨⟨value, null⟩, lenInd⟩
        exact ⟨value, fun pValue _ => null pValue, lenInd⟩
      · rintro ⟨value, null, lenInd⟩
        exact ⟨⟨value, fun pValue => null pValue missing⟩, lenInd⟩

/-! ## Parameters follow the rule -/

/-- The bytes between the values of a parameter, where there is more than one row. -/
theorem row_mul_paramOffset (inside : row < pAPD.lArraySize) (rec : RsDescRec) :
    (row : Int) * pAPD.iValOffset rec = row * valueStride pAPD rec := by
  rw [mul_left_iff]
  intro behind
  rw [RsDescInfo.iValOffset, if_pos (by omega), valueStride]

theorem pParamData_eq (inside : row < pAPD.lArraySize) (rec : RsDescRec) :
    pAPD.pParamData rec row =
      rec.pValue.map (· + (pAPD.iBindOffset + row * valueStride pAPD rec)) := by
  rw [RsDescInfo.pParamData]
  refine congrArg (rec.pValue.map ·) (funext fun pValue => ?_)
  rw [row_mul_paramOffset inside]
  ring

theorem plParamDataStrLenInd_eq (inside : row < pAPD.lArraySize) (rec : RsDescRec) :
    pAPD.plParamDataStrLenInd rec row = rec.pcbLenInd.map
      (· + ((if pAPD.lBindType = sqlBindByColumn then 0 else pAPD.iBindOffset) +
        row * lenIndStride pAPD)) := by
  have stride := row_mul_paramOffset inside rec
  rw [RsDescInfo.plParamDataStrLenInd]
  refine congrArg (rec.pcbLenInd.map ·) (funext fun pcbLenInd => ?_)
  rw [valueStride] at stride
  rw [lenIndStride]
  split_ifs at stride ⊢ with columns
  · rw [Int.zero_add]
  · rw [stride]
    ring

theorem looked_kept_iff : (∀ address ∈ needDataAtExec param exec row,
      some address = pAPD.boundLenInd param.toRsDescRec row) ↔
    (param.pcbLenInd.isSome = true → looksAt param exec = true →
      pAPD.plBindOffset = row * (sqlLenSize - lenIndStride pAPD)) := by
  rw [needDataAtExec, boundLenInd_eq]
  cases looksAt param exec with
  | false => simp
  | true =>
      cases param.pcbLenInd with
      | none => simp
      | some pcbLenInd =>
          simp only [if_true, Option.map_some, Option.mem_def, Option.some.injEq, forall_eq',
            Option.isSome_some, forall_const, Int.mul_sub]
          omega

theorem bind_kept_iff (inside : row < pAPD.lArraySize) :
    (∀ addresses ∈ bindParam pAPD param exec row,
      addresses = boundAddresses pAPD param.toRsDescRec row) ↔
    (param.pValue.isSome = true → isSent pAPD param exec = true →
        wrap 4 pAPD.plBindOffset = pAPD.plBindOffset) ∧
      (param.pcbLenInd.isSome = true → isSent pAPD param exec = true →
        if pAPD.lBindType = sqlBindByColumn then pAPD.plBindOffset = 0
        else wrap 4 pAPD.plBindOffset = pAPD.plBindOffset) := by
  rw [bindParam]
  cases isSent pAPD param exec with
  | false => simp
  | true =>
      simp only [if_true, Option.mem_def, Option.some.injEq, forall_eq', forall_const]
      rw [Addresses.ext_iff, boundAddresses, pParamData_eq inside,
        plParamDataStrLenInd_eq inside, boundValue_eq, boundLenInd_eq,
        map_add_eq_iff, map_add_eq_iff, Int.add_left_inj, Int.add_left_inj,
        RsDescInfo.iBindOffset]
      refine and_congr_right fun _ => imp_congr_right fun _ => ?_
      split_ifs with columns
      · exact eq_comm
      · rfl

/-- What the second loop makes of the record at a place. -/
theorem outParamCalls_getElem (recNums : Nat → Bool) (params : List Param)
    (iParamNumber iOutParamResultIndex place : Nat) :
    (outParamCalls recNums iParamNumber iOutParamResultIndex params)[place]? =
      params[place]?.map fun param =>
        if recNums (iParamNumber + place) then
          some (iOutParamResultIndex +
            (List.range place).countP (fun earlier => recNums (iParamNumber + earlier)) + 1,
            ⟨param.pValue, param.pcbLenInd⟩)
        else none := by
  induction params generalizing iParamNumber iOutParamResultIndex place with
  | nil => rfl
  | cons param rest ih =>
      rw [outParamCalls]
      cases place with
      | zero => cases recNums iParamNumber <;> simp
      | succ place =>
          have count : (List.range (place + 1)).countP
              (fun earlier => recNums (iParamNumber + earlier)) =
              (recNums iParamNumber).toNat + (List.range place).countP
                (fun earlier => recNums (iParamNumber + 1 + earlier)) := by
            rw [List.range_succ_eq_map, List.countP_cons, List.countP_map, Nat.add_comm]
            congr 1
            · cases recNums iParamNumber <;> rfl
            · refine List.countP_congr fun earlier _ => ?_
              rw [Function.comp_apply, Nat.succ_eq_add_one, Nat.add_assoc, Nat.add_comm 1]
          rw [count, List.getElem?_cons_succ, ← Nat.add_assoc, Nat.add_right_comm]
          cases recNums iParamNumber with
          | true =>
              rw [if_pos rfl, List.getElem?_cons_succ, ih, Bool.toNat_true, Nat.add_assoc
                iOutParamResultIndex]
          | false =>
              rw [if_neg (by decide), List.getElem?_cons_succ, ih, Bool.toNat_false, Nat.zero_add]

theorem back_kept_iff (pAPD : ParamInfo) (place : Fin pAPD.params.length) :
    (updateOutBindParametersValue exec pAPD.params)[place]? =
        some (outValue pAPD pAPD.params[place] exec row) ↔
      (exec.iReadOutParamVals = true →
        pOutParamRecNums pAPD.params place = pAPD.params[place].writtenBack) ∧
      (comesBack pAPD.params[place] exec = true →
        (List.range place).countP (pOutParamRecNums pAPD.params) + 1 =
          outColumn pAPD.params pAPD.params[place]) ∧
      (pAPD.params[place].pValue.isSome = true → comesBack pAPD.params[place] exec = true →
        pAPD.plBindOffset =
          -(row * valueStride pAPD.toRsDescInfo pAPD.params[place].toRsDescRec)) ∧
      (pAPD.params[place].pcbLenInd.isSome = true → comesBack pAPD.params[place] exec = true →
        pAPD.plBindOffset = -(row * lenIndStride pAPD.toRsDescInfo)) := by
  have here : pAPD.params[(place : Nat)]? = some pAPD.params[place] := by simp
  rw [updateOutBindParametersValue, outValue, comesBack]
  cases exec.iReadOutParamVals with
  | false => simp
  | true =>
      rw [if_pos rfl, Fin.getElem?_fin, outParamCalls_getElem, here, Option.map_some,
        Option.some.injEq]
      simp only [Nat.zero_add, Bool.true_and, forall_const]
      generalize pAPD.params[place] = param
      cases pOutParamRecNums pAPD.params place <;> cases param.writtenBack
      · simp
      · simp
      · simp
      · simp only [if_true, Option.some.injEq, Prod.mk.injEq, forall_const, true_and]
        refine and_congr_right fun _ => ?_
        rw [Addresses.ext_iff, boundAddresses, boundValue_eq, boundLenInd_eq, eq_map_add_iff,
          eq_map_add_iff]
        refine and_congr (imp_congr_right fun _ => ?_) (imp_congr_right fun _ => ?_) <;> omega

section

variable {params : List Param}
  (ordered : ∀ place (inside : place < params.length), params[place].hRecNumber = place + 1)

include ordered

theorem pOutParamRecNums_of_ordered {place : Nat} (inside : place < params.length) :
    pOutParamRecNums params place = params[place].writtenBack := by
  rw [pOutParamRecNums, Bool.eq_iff_iff, List.any_eq_true]
  constructor
  · rintro ⟨param, member, set⟩
    obtain ⟨other, within, rfl⟩ := List.getElem_of_mem member
    rw [ordered other within, Bool.and_eq_true, decide_eq_true_eq] at set
    obtain rfl : other = place := by omega
    exact set.2
  · intro back
    exact ⟨params[place], List.getElem_mem inside, by simp [ordered place inside, back]⟩

theorem countP_of_ordered {place : Nat} (inside : place ≤ params.length) :
    (List.range place).countP (pOutParamRecNums params) =
      (params.take place).countP Param.writtenBack := by
  induction place with
  | zero => rfl
  | succ place ih =>
      rw [List.range_succ, List.countP_append, ih (by omega), List.take_add_one,
        List.getElem?_eq_getElem inside, List.countP_append]
      simp [pOutParamRecNums_of_ordered ordered inside]

/-- Parameters that are bound in the order of their numbers have their own places. -/
theorem back_of_ordered (place : Fin params.length) :
    pOutParamRecNums params place = params[place].writtenBack ∧
      (List.range place).countP (pOutParamRecNums params) + 1 = outColumn params params[place] := by
  have front : (params.take place).countP (fun other =>
      other.writtenBack && decide (other.hRecNumber < params[place].hRecNumber)) =
      (params.take place).countP Param.writtenBack := by
    refine List.countP_congr fun other member => ?_
    obtain ⟨index, within, rfl⟩ := List.getElem_of_mem member
    rw [List.length_take] at within
    have lower : index + 1 < (place : Nat) + 1 := by omega
    simp [List.getElem_take, ordered, lower]
  have behind : (params.drop place).countP (fun other =>
      other.writtenBack && decide (other.hRecNumber < params[place].hRecNumber)) = 0 := by
    refine List.countP_eq_zero.mpr fun other member => ?_
    obtain ⟨index, within, rfl⟩ := List.getElem_of_mem member
    simp [List.getElem_drop, ordered]
  refine ⟨pOutParamRecNums_of_ordered ordered place.isLt, ?_⟩
  have whole := congrArg (List.countP fun other =>
    other.writtenBack && decide (other.hRecNumber < params[place].hRecNumber))
    (List.take_append_drop (place : Nat) params)
  rw [List.countP_append, front, behind, Nat.add_zero] at whole
  rw [outColumn, countP_of_ordered ordered place.isLt.le, whole]

end

/-- An execution follows the rule for a parameter at a row exactly when the parameter is kept. -/
theorem paramFollows_iff {pAPD : ParamInfo} {place : Fin pAPD.params.length}
    (inside : row < pAPD.lArraySize) :
    ParamFollows pAPD place exec row ↔ ParamKept pAPD place exec row := by
  rw [ParamFollows, looked_kept_iff, bind_kept_iff inside, back_kept_iff]
  constructor
  · rintro ⟨looked, ⟨value, lenInd⟩, backKind, backColumn, backValue, backLenInd⟩
    exact ⟨looked, value, lenInd, backKind, backColumn, backValue, backLenInd⟩
  · rintro ⟨looked, value, lenInd, backKind, backColumn, backValue, backLenInd⟩
    exact ⟨looked, ⟨value, lenInd⟩, backKind, backColumn, backValue, backLenInd⟩

/-! ## The rule for both -/

variable (pARD column exec) in
/--
A fetch and an execution find what is bound for a row by the rule exactly for the
columns and the parameters that are kept.
-/
theorem addresses_follow_iff (pAPD : ParamInfo) (place : Fin pAPD.params.length) (row : Nat)
    (fetched : row < pARD.lArraySize) (processed : row < pAPD.lArraySize) :
    (ColumnFollows pARD column row ↔ ColumnKept pARD column row) ∧
      (ParamFollows pAPD place exec row ↔ ParamKept pAPD place exec row) :=
  ⟨columnFollows_iff fetched, paramFollows_iff processed⟩

/-- Structures of 24 bytes, each with a text and its length, at a bind offset. -/
def structures : ParamInfo where
  pDescRecHead := [⟨1, false, some 1000, 16, some 1016⟩]
  lArraySize := 3
  positive := Nat.succ_pos 2
  lBindType := 24
  plBindOffset := 48
  params := [⟨⟨1, false, some 1000, 16, some 1016⟩, 4, 4, false, false⟩]
  records := rfl

def textField : Column := ⟨⟨1, false, some 1000, 16, some 1016⟩, none⟩

/-- A number that goes into a function and two that come back, bound in their order. -/
def functionCall : ParamInfo where
  pDescRecHead := [⟨1, true, some 1000, 4, none⟩, ⟨2, false, some 2000, 4, none⟩,
    ⟨3, false, some 3000, 4, some 3004⟩]
  lArraySize := 1
  positive := Nat.succ_pos 0
  lBindType := 0
  plBindOffset := 0
  params := [⟨⟨1, true, some 1000, 4, none⟩, 4, 4, false, false⟩,
    ⟨⟨2, false, some 2000, 4, none⟩, 4, 4, false, false⟩,
    ⟨⟨3, false, some 3000, 4, some 3004⟩, 4, 4, true, false⟩]
  records := rfl

theorem addresses_follow_structures :
    (ColumnFollows structures.toRsDescInfo textField 2 ∧
      ParamFollows structures ⟨0, by decide⟩ ⟨1, 0, false⟩ 2) ∧
    ParamFollows functionCall ⟨2, by decide⟩ ⟨3, 0, true⟩ 0 := by
  have follow := addresses_follow_iff structures.toRsDescInfo textField ⟨1, 0, false⟩ structures
    ⟨0, by decide⟩ 2 (by decide) (by decide)
  have back := addresses_follow_iff structures.toRsDescInfo textField ⟨3, 0, true⟩ functionCall
    ⟨2, by decide⟩ 0 (by decide) (by decide)
  obtain ⟨kind, inColumn⟩ := back_of_ordered (show ∀ place (inside :
    place < functionCall.params.length), functionCall.params[place].hRecNumber = place + 1 by
      decide) ⟨2, by decide⟩
  refine ⟨⟨follow.1.mpr ⟨?_, ?_, ?_⟩, follow.2.mpr ⟨?_, ?_, ?_, ?_, ?_, ?_, ?_⟩⟩,
    back.2.mpr ⟨?_, ?_, ?_, fun _ => kind, fun _ => inColumn, ?_, ?_⟩⟩ <;> decide

/-- A column of numbers at a bind offset. -/
def numbersColumn : ParamInfo where
  pDescRecHead := [⟨1, false, some 1000, 4, some 2000⟩]
  lArraySize := 2
  positive := Nat.succ_pos 1
  lBindType := 0
  plBindOffset := 16
  params := [⟨⟨1, false, some 1000, 4, some 2000⟩, 4, 4, false, false⟩]
  records := rfl

/-- A function call whose second parameter was bound first. -/
def unorderedCall : ParamInfo where
  pDescRecHead := [⟨2, true, some 2000, 4, none⟩, ⟨1, false, some 1000, 4, none⟩]
  lArraySize := 1
  positive := Nat.succ_pos 0
  lBindType := 0
  plBindOffset := 0
  params := [⟨⟨2, true, some 2000, 4, none⟩, 4, 4, false, false⟩,
    ⟨⟨1, false, some 1000, 4, none⟩, 4, 4, false, false⟩]
  records := rfl

/--
The lengths of a column of parameters are read without the bind offset, and what comes back
of a call whose parameters were not bound in order is written over the one that goes in.
-/
theorem addresses_follow_wrong :
    (¬ ∀ (pARD : RsDescInfo) (column : Column) (exec : Exec) (pAPD : ParamInfo)
      (place : Fin pAPD.params.length) (row : Nat), row < pARD.lArraySize →
        row < pAPD.lArraySize → ColumnFollows pARD column row ∧
          ParamFollows pAPD place exec row) ∧
    updateOutBindParametersValue ⟨2, 0, true⟩ unorderedCall.params =
      [none, some (1, ⟨some 1000, none⟩)] := by
  refine ⟨?_, by decide⟩
  intro every
  have follows := (every structures.toRsDescInfo textField ⟨1, 0, false⟩ numbersColumn
    ⟨0, by decide⟩ 1 (by decide) (by decide)).2
  have sent := follows.2.1 ⟨some 1020, some 2008⟩ (by decide)
  revert sent
  decide

end RedshiftOdbc.Bound
