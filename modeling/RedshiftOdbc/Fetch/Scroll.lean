import RedshiftOdbc.Library.Words

/-!
# Scrolling through a result

`RS_SQLFetchScroll` positions a cursor on a result that is either wholly in
memory or spilled.  A spilled result is known here only through its batch
functions: they hold one window of rows in memory and say where it lies.  The
position is split into `iRowOffset`, the rows before the window, and `iCurRow`,
the row inside it.
-/

namespace RedshiftOdbc.Fetch

open RedshiftOdbc.Words

/--
The batch functions of a spilled result of `n` rows.  A state holds the `len`
rows behind the first `start`; a function that reads no row gives `none`.
-/
structure BatchFunctions (n : Nat) where
  State : Type
  start : State → Nat
  len : State → Nat
  len_pos : ∀ state, 0 < len state
  window_le : ∀ state, start state + len state ≤ n
  readNext : State → Option State
  readNext_some : ∀ state next, readNext state = some next →
    start next = start state + len state
  readNext_none : ∀ state, readNext state = none → start state + len state = n
  readPrevious : State → Option State
  readPrevious_some : ∀ state next, readPrevious state = some next →
    start next + len next = start state
  readPrevious_none : ∀ state, readPrevious state = none → start state = 0
  readFirst : State → Option State
  readFirst_some : ∀ state next, readFirst state = some next → start next = 0
  readFirst_none : ∀ state, readFirst state = none → start state = 0
  readLast : State → Option State
  readLast_some : ∀ state next, readLast state = some next → start next + len next = n
  readLast_none : ∀ state, readLast state = none → start state + len state = n
  /-- The new window and the value left in `*indexBuf`. -/
  readAbsolute : State → Int → Option State × Int
  readAbsolute_inside : ∀ state (indexBuf : Int) (row : Nat), row < n →
    (if indexBuf < 0 then n + indexBuf + 1 else indexBuf) = ((row + 1 : Nat) : Int) →
      let next := (readAbsolute state indexBuf).1.getD state
      start next ≤ row ∧ row < start next + len next ∧
        (readAbsolute state indexBuf).2 = ((row - start next + 1 : Nat) : Int)
  readAbsolute_outside : ∀ state (indexBuf : Int),
    ¬ (0 < (if indexBuf < 0 then n + indexBuf + 1 else indexBuf) ∧
      (if indexBuf < 0 then n + indexBuf + 1 else indexBuf) ≤ (n : Int)) →
      readAbsolute state indexBuf = (none, indexBuf)

inductive Orientation where
  | next
  | prior
  | first
  | last
  | absolute
  | relative
  | bookmark
  | other
  deriving DecidableEq, Repr

inductive SqlReturn where
  | success
  | noData
  | error
  deriving DecidableEq, Repr

/-- What putting a row into the bound buffers comes to. -/
inductive BindOutcome where
  | stored
  | failed
  /-- An array element length of zero ends the call. -/
  | zeroLength
  deriving DecidableEq, Repr

inductive RowStatus where
  | success
  | error
  | noRow
  deriving DecidableEq, Repr

/-- The arguments of a call and the statement attributes it reads. -/
structure Call where
  orientation : Orientation
  offset : Int
  arraySize : Int
  maxRows : Int
  retrieveData : Bool
  /-- The outcome for the row at a position of the result. -/
  bind : Int → BindOutcome

/-- `RS_RESULT_INFO`; `csc` is the spilled part, absent when all rows are in memory. -/
structure ResultInfo {n : Nat} (batches : BatchFunctions n) where
  iCurRow : Int
  iNumberOfRowsInMem : Int
  iRowOffset : Int
  csc : Option batches.State

variable {n : Nat} {batches : BatchFunctions n}

namespace ResultInfo

/-- A result of `n` rows that is wholly in memory, before its first row. -/
def inMemory (batches : BatchFunctions n) : ResultInfo batches := ⟨-1, n, 0, none⟩

/-- A spilled result before its first row. -/
def spilled (state : batches.State) : ResultInfo batches :=
  ⟨-1, batches.len state, 0, some state⟩

def position (info : ResultInfo batches) : Int := info.iRowOffset + info.iCurRow

/-- The window of `csc` becomes the rows in memory. -/
def load (info : ResultInfo batches) (state : batches.State) (iCurRow : Int) :
    ResultInfo batches :=
  { info with
    iNumberOfRowsInMem := batches.len state
    iRowOffset := batches.start state
    iCurRow := iCurRow
    csc := some state }

def setFetchAtFirstRow (info : ResultInfo batches) : ResultInfo batches :=
  if 0 < info.iNumberOfRowsInMem then
    match info.csc.bind batches.readFirst with
    | none => info
    | some next => info.load next 0
  else info

def setFetchAtLastRow (info : ResultInfo batches) : ResultInfo batches :=
  match info.csc.bind batches.readLast with
  | none => info
  | some next => info.load next (batches.len next - 1)

def beforeFirst (info : ResultInfo batches) : ResultInfo batches :=
  { info.setFetchAtFirstRow with iCurRow := -1 }

def afterLast (info : ResultInfo batches) : ResultInfo batches :=
  { info.setFetchAtLastRow with iCurRow := info.setFetchAtLastRow.iNumberOfRowsInMem }

/-- `setAbsolute`.  A spilled result is asked for the offset cut down to an `int`. -/
def setAbsolute (info : ResultInfo batches) (iFetchOffset : Int) :
    SqlReturn × ResultInfo batches :=
  if iFetchOffset = 0 then (.noData, info.beforeFirst)
  else
    let (iFetchOffset, info) :=
      match info.csc with
      | none => (iFetchOffset, info)
      | some state =>
          match batches.readAbsolute state (wrap 4 iFetchOffset) with
          | (none, iNewIndex) => (iNewIndex, info)
          | (some next, iNewIndex) => (iNewIndex, info.load next info.iCurRow)
    if iFetchOffset < 0 then
      if -info.iNumberOfRowsInMem ≤ iFetchOffset then
        (.success, { info with iCurRow := info.iNumberOfRowsInMem + iFetchOffset })
      else (.noData, info.beforeFirst)
    else if iFetchOffset ≤ info.iNumberOfRowsInMem then
      (.success, { info with iCurRow := iFetchOffset - 1 })
    else (.noData, info.afterLast)

def isBeforeFirstRow (info : ResultInfo batches) : Bool :=
  info.iRowOffset + info.iCurRow < 0 && 0 < info.iNumberOfRowsInMem &&
    match info.csc with
    | none => true
    | some state => batches.start state = 0

def isAfterLastRow (info : ResultInfo batches) : Bool :=
  info.iNumberOfRowsInMem ≤ info.iCurRow && 0 < info.iNumberOfRowsInMem &&
    match info.csc with
    | none => true
    | some state => batches.start state + batches.len state = n

def maxRowsReached (info : ResultInfo batches) (maxRows : Int) : Bool :=
  0 < maxRows && maxRows ≤ info.iCurRow + info.iRowOffset + 1

/-- `SQL_FETCH_NEXT`, which leaves the return code alone when it finds a row. -/
def fetchNext (info : ResultInfo batches) (maxRows : Int) (rc : SqlReturn) :
    SqlReturn × ResultInfo batches :=
  let info :=
    if info.iNumberOfRowsInMem ≤ info.iCurRow + 1 && !info.maxRowsReached maxRows then
      match info.csc.bind batches.readNext with
      | none => info
      | some next =>
          { info with
            iRowOffset := info.iRowOffset + info.iNumberOfRowsInMem
            iCurRow := -1
            iNumberOfRowsInMem := batches.len next
            csc := some next }
    else info
  if -1 ≤ info.iCurRow ∧ info.iCurRow ≤ info.iNumberOfRowsInMem - 1 then
    if info.maxRowsReached maxRows then (.noData, info)
    else
      (if info.iNumberOfRowsInMem ≤ info.iCurRow + 1 then .noData else rc,
        { info with iCurRow := info.iCurRow + 1 })
  else (.noData, info)

/-- `SQL_FETCH_PRIOR`. -/
def fetchPrior (info : ResultInfo batches) (rc : SqlReturn) : SqlReturn × ResultInfo batches :=
  let info :=
    if info.iCurRow - 1 < 0 then
      match info.csc.bind batches.readPrevious with
      | none => info
      | some next =>
          { info with
            iNumberOfRowsInMem := batches.len next
            iRowOffset := info.iRowOffset - batches.len next
            iCurRow := batches.len next
            csc := some next }
    else info
  if 0 ≤ info.iCurRow ∧ info.iCurRow ≤ info.iNumberOfRowsInMem then
    (if info.iCurRow - 1 ≤ -1 then .noData else rc, { info with iCurRow := info.iCurRow - 1 })
  else (.noData, info)

/-- `SQL_FETCH_FIRST`. -/
def fetchFirst (info : ResultInfo batches) : SqlReturn × ResultInfo batches :=
  if 0 < info.iNumberOfRowsInMem then
    (.success, { info.setFetchAtFirstRow with iCurRow := 0 })
  else (.noData, info)

/-- `SQL_FETCH_LAST`. -/
def fetchLast (info : ResultInfo batches) (maxRows : Int) : SqlReturn × ResultInfo batches :=
  if 0 < info.iNumberOfRowsInMem then
    let info := info.setFetchAtLastRow
    if 0 < maxRows ∧ maxRows < info.iRowOffset + info.iNumberOfRowsInMem then
      (.success, { info with
        iCurRow := if info.iRowOffset < maxRows then maxRows - info.iRowOffset - 1 else 0 })
    else (.success, { info with iCurRow := info.iNumberOfRowsInMem - 1 })
  else (.noData, info)

/-- The index `SQL_FETCH_RELATIVE` goes to, an `SQLLEN`. -/
def relativeIndex (info : ResultInfo batches) (iFetchOffset : Int) : Int :=
  let index := wrap 8 (info.iCurRow + 1 + iFetchOffset)
  match info.csc with
  | none => index
  | some _ => wrap 8 (index + info.iRowOffset)

/-- `SQL_FETCH_RELATIVE`. -/
def fetchRelative (info : ResultInfo batches) (iFetchOffset : Int) :
    SqlReturn × ResultInfo batches :=
  if iFetchOffset = 0 then
    if info.iNumberOfRowsInMem = 0 then (.noData, info)
    else if info.isBeforeFirstRow || info.isAfterLastRow then (.noData, info)
    else (.success, info)
  else
    let index := info.relativeIndex iFetchOffset
    if index < 0 then (.noData, info.beforeFirst) else info.setAbsolute index

/-- The switch of `RS_SQLFetchScroll`; an unsupported orientation is `none`. -/
def positionCursor (info : ResultInfo batches) (call : Call) (orientation : Orientation)
    (rc : SqlReturn) : Option (SqlReturn × ResultInfo batches) :=
  match orientation with
  | .next => some (info.fetchNext call.maxRows rc)
  | .prior => some (info.fetchPrior rc)
  | .first => some info.fetchFirst
  | .last => some (info.fetchLast call.maxRows)
  | .absolute => some (info.setAbsolute call.offset)
  | .relative => some (info.fetchRelative call.offset)
  | .bookmark | .other => none

end ResultInfo

/-- What a call reports: its code, `*plRowsProcessedPtr` and the row statuses set. -/
structure Report where
  rc : SqlReturn
  rowsProcessed : Option Nat
  rowStatus : List (Nat × RowStatus)
  deriving DecidableEq, Repr

/-- The orientation of the rows behind the first one of a block cursor. -/
def Call.orientationAfter (call : Call) (orientation : Orientation) (rc : SqlReturn) :
    Orientation :=
  match orientation with
  | .first | .last | .absolute | .relative =>
      if 1 < call.arraySize ∧ rc = .success then .next else orientation
  | _ => orientation

/--
The rows loop of `RS_SQLFetchScroll` with `left` rows to go and `lRowFetched`
fetched.  An error of a row stays in the return code of the following turns.
-/
def fetchRows (call : Call) : Nat → Nat → Orientation → ResultInfo batches → Report →
    Report × ResultInfo batches
  | 0, _, _, info, report => (report, info)
  | left + 1, lRowFetched, orientation, info, report =>
      match info.positionCursor call orientation report.rc with
      | none => ({ report with rc := .error }, info)
      | some (.success, info) =>
          let orientation := call.orientationAfter orientation .success
          if call.retrieveData then
            match call.bind info.position with
            | .zeroLength => ({ report with rc := .error }, info)
            | .stored =>
                fetchRows call left (lRowFetched + 1) orientation info
                  ⟨.success, some (lRowFetched + 1),
                    report.rowStatus ++ [(lRowFetched, .success)]⟩
            | .failed =>
                fetchRows call left (lRowFetched + 1) orientation info
                  ⟨.error, some (lRowFetched + 1),
                    report.rowStatus ++ [(lRowFetched, .error)]⟩
          else
            fetchRows call left (lRowFetched + 1) orientation info { report with rc := .success }
      | some (.noData, info) =>
          ({ report with
              rc := if 0 < lRowFetched then .success else .noData
              rowStatus :=
                if call.retrieveData then report.rowStatus ++ [(lRowFetched, .noRow)]
                else report.rowStatus }, info)
      | some (.error, info) => ({ report with rc := .error }, info)

/-- `RS_SQLFetchScroll` on a scrollable cursor. -/
def sqlFetchScroll (call : Call) (info : ResultInfo batches) : Report × ResultInfo batches :=
  fetchRows call (if call.arraySize ≤ 0 then 1 else call.arraySize.toNat) 0 call.orientation info
    ⟨.success, none, []⟩

end RedshiftOdbc.Fetch
