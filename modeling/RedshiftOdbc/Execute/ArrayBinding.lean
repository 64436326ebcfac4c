import Mathlib.Tactic.Common

/-!
# Executing with arrays of parameters

`libpqExecuteDirectOrPreparedOnThread` binds the rows of the parameter arrays
one after another and sends a command for each row, or one command for as many
rows as a multi-row INSERT has tuples.  What libpq and the server answer is
given for every row.  The turns of the loop share one return code.
-/

namespace RedshiftOdbc.Execute

inductive SqlReturn where
  | success
  | error
  | needData
  deriving DecidableEq, Repr

/-- The status of a command in a `PGresult`. -/
inductive ExecStatus where
  | emptyQuery
  | commandOk
  | tuplesOk
  | copyOut
  | copyIn
  | badResponse
  | nonfatalError
  | fatalError
  deriving DecidableEq, Repr

def ExecStatus.ok : ExecStatus → Bool
  | .emptyQuery | .commandOk | .tuplesOk => true
  | _ => false

/-- A result, with what is looked at when it has been stored. -/
structure PgResult where
  pqRc : ExecStatus
  /-- The connection is lost. -/
  connectionBad : Bool
  /-- The rest of the result is read on a thread of its own. -/
  cscThreadCreated : Bool
  deriving DecidableEq, Repr

/-- `SQL_PARAM_SUCCESS` and `SQL_PARAM_ERROR`. -/
inductive ParamStatus where
  | success
  | error
  deriving DecidableEq, Repr

/-- What the function reads of the statement, its descriptors and its connection. -/
structure Statement where
  lParamsToBind : Nat
  /-- The array size is at least one. -/
  positive : 0 < lParamsToBind
  iMultiInsert : Nat
  iLastBatchMultiInsert : Nat
  executePrepared : Bool
  /-- The application descriptor has records. -/
  descRec : Bool
  /-- The number of parameters of a row that are sent. -/
  iNumBindParams : Nat
  unbound : descRec = false → iNumBindParams = 0
  /-- The application has given an array for the statuses of the rows. -/
  arrayStatus : Bool
  autoCommitOff : Bool
  iFunctionCall : Bool
  /-- There are parameters that are written back. -/
  outParams : Bool
  streamingCursor : Bool

/-- What the parts of the driver and the server answer, by the row they are asked at. -/
structure Answers where
  setQueryTimeout : Bool
  needDataAtExec : Nat → Bool
  /-- The parameters of the row have their descriptors and can be converted. -/
  converts : Nat → Bool
  rePrepareLastBatch : Bool
  transactionIdle : Nat → Bool
  beginCommand : Nat → Bool
  /-- The results of the command that is sent at the row. -/
  results : Nat → List PgResult
  updateOutParams : Nat → Bool
  rePrepareRegular : Bool
  /-- The reference cursors of the results are fetched, and one of them fails. -/
  refCursorError : Bool

structure Batch where
  rows : List Nat
  /-- The row at whose turn it was sent. -/
  turn : Nat
  nParams : Nat
  /-- It was sent with the command for the last batch. -/
  lastBatch : Bool
  deriving DecidableEq, Repr

structure Progress where
  rc : SqlReturn
  batches : List Batch
  /-- The rows whose values are in `ppBindParamVals`. -/
  bound : List Nat
  arrayStatus : List (Nat × ParamStatus)
  rowsProcessed : Option Nat
  iLastBatchMultiInsertPrepare : Bool
  deriving DecidableEq, Repr

/-- `setResultInStmt`, as far as it decides the return code. -/
def setResultInStmt (rc : SqlReturn) (pqRc : ExecStatus) : SqlReturn :=
  if pqRc.ok then rc else .error

/-- The multi result loop, with whether the OUT parameters are read behind it. -/
def readResults (streamingCursor : Bool) : SqlReturn → Bool → List PgResult → SqlReturn × Bool
  | rc, iReadOutParamVals, [] => (rc, iReadOutParamVals)
  | rc, iReadOutParamVals, result :: rest =>
      let rc := setResultInStmt rc result.pqRc
      if result.connectionBad then (rc, iReadOutParamVals)
      else if streamingCursor ∧ rc ≠ .error then (rc, false)
      else if result.cscThreadCreated then (rc, false)
      else readResults streamingCursor rc iReadOutParamVals rest

/-- The status a row gets when its values have been put into the buffers. -/
def paramStatus : SqlReturn → ParamStatus
  | .success => .success
  | _ => .error

namespace Statement

variable (statement : Statement) (answers : Answers)

/-- The row is the last one of the arrays and the last batch has a command of its own. -/
def lastBatchAt (row : Nat) : Bool :=
  statement.iMultiInsert ≠ 0 && statement.iLastBatchMultiInsert ≠ 0 &&
    row + 1 = statement.lParamsToBind

def sendsAt (row : Nat) : Bool :=
  statement.iMultiInsert = 0 || (row + 1) % statement.iMultiInsert = 0 || statement.lastBatchAt row

def needsAt (row : Nat) : Bool :=
  statement.descRec && statement.iMultiInsert = 0 && answers.needDataAtExec row

/-- `BEGIN` is sent before the command of the row. -/
def beginsAt (row : Nat) : Bool :=
  (statement.autoCommitOff || statement.iFunctionCall) && answers.transactionIdle row &&
    (row = 0 || statement.iMultiInsert ≠ 0)

/-- The command for the last batch is prepared before it is sent at the row. -/
def rePreparesAt (row : Nat) : Bool := statement.executePrepared && statement.lastBatchAt row

/-- Putting a row into the buffers; an `error` leaves the loop. -/
def bindRow (row : Nat) (progress : Progress) : Except Progress Progress :=
  if statement.needsAt answers row then .ok { progress with rc := .needData }
  else if statement.descRec && !answers.converts row then .error { progress with rc := .error }
  else
    .ok { progress with
      bound := progress.bound ++ [row]
      arrayStatus :=
        if statement.descRec && statement.arrayStatus then
          progress.arrayStatus ++ [(row, paramStatus progress.rc)]
        else progress.arrayStatus
      rowsProcessed := if statement.descRec then some (row + 1) else progress.rowsProcessed }

/-- The re-prepare of the last batch and the transaction start, which both set the return code. -/
def openBatch (row : Nat) (progress : Progress) : Except Progress Progress :=
  if statement.rePreparesAt row && !answers.rePrepareLastBatch then
    .error { progress with iLastBatchMultiInsertPrepare := true, rc := .error }
  else
    let progress :=
      if statement.rePreparesAt row then
        { progress with iLastBatchMultiInsertPrepare := true, rc := .success }
      else progress
    if statement.beginsAt answers row then
      if answers.beginCommand row then .ok { progress with rc := .success }
      else .error { progress with rc := .error }
    else .ok progress

/-- The number of values the command of the row is sent with. -/
def nParamsAt (row : Nat) : Nat :=
  if statement.iMultiInsert = 0 then statement.iNumBindParams
  else if statement.lastBatchAt row then statement.iNumBindParams * statement.iLastBatchMultiInsert
  else statement.iNumBindParams * statement.iMultiInsert

/-- Sending the command of the row and reading its results. -/
def sendBatch (row : Nat) (progress : Progress) : Except Progress Progress :=
  let (rc, iReadOutParamVals) :=
    readResults statement.streamingCursor progress.rc statement.iFunctionCall (answers.results row)
  let progress :=
    { progress with
      rc := rc
      batches := progress.batches ++
        [⟨progress.bound, row, statement.nParamsAt row, statement.lastBatchAt row⟩] }
  if rc = .success && iReadOutParamVals && statement.outParams && !answers.updateOutParams row then
    .error { progress with rc := .error }
  else .ok progress

/-- What follows the binding of a row at which a command is sent. -/
def sendTurn (row : Nat) (progress : Progress) : Except Progress Progress :=
  if progress.rc = .needData then .ok { progress with bound := [] }
  else
    match statement.openBatch answers row progress with
    | .error progress => .error progress
    | .ok progress =>
        match statement.sendBatch answers row progress with
        | .error progress => .error progress
        | .ok progress => .ok { progress with bound := [] }

def turn (row : Nat) (progress : Progress) : Except Progress Progress :=
  match statement.bindRow answers row progress with
  | .error progress => .error progress
  | .ok progress =>
      if statement.sendsAt row then statement.sendTurn answers row progress else .ok progress

def turns : Nat → Except Progress Progress
  | 0 => .ok ⟨.success, [], [], [], none, false⟩
  | row + 1 =>
      match turns row with
      | .error progress => .error progress
      | .ok progress => statement.turn answers row progress

end Statement

/-- What follows the loop: the re-prepare of the regular command and the reference cursors. -/
def Answers.finish (answers : Answers) (progress : Progress) : Progress :=
  let progress :=
    if progress.iLastBatchMultiInsertPrepare then
      { progress with rc := if answers.rePrepareRegular then .success else .error }
    else progress
  if progress.rc = .success && answers.refCursorError then { progress with rc := .error }
  else progress

/-- `libpqExecuteDirectOrPreparedOnThread` with a command. -/
def Statement.libpqExecuteDirectOrPreparedOnThread (statement : Statement) (answers : Answers) :
    Progress :=
  if answers.setQueryTimeout then
    match statement.turns answers statement.lParamsToBind with
    | .error progress => progress
    | .ok progress => answers.finish progress
  else ⟨.error, [], [], [], none, false⟩

end RedshiftOdbc.Execute
