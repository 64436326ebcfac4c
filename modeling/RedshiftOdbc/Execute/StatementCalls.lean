import RedshiftOdbc.Execute.ArrayBinding
import RedshiftOdbc.Execute.MultiInsert

/-!
# Preparing and executing one statement

`SQLPrepare`, `SQLExecute` and `SQLExecDirect` share the fields of the statement:
the INSERT of the user with the array size it was rewritten for, the command and
the command of the last batch, and the counts of parameters.  The command that is
prepared at the server is kept beside them.  Commands are their texts before the
markers get their numbers.  What the server and the connection answer comes with
each call, and converting a parameter goes by its record and two addresses.
-/

namespace RedshiftOdbc.Execute

open RedshiftOdbc.Words RedshiftOdbc.Escape

/-! ## Parameters -/

structure RsDescRec where
  hRecNumber : Nat
  /-- `hInOutType` is `SQL_PARAM_OUTPUT`. -/
  output : Bool
  pValue : Option Int
  iOctetLen : Int
  pcbLenInd : Option Int
  deriving DecidableEq, Repr

/-- The application's parameter descriptor; no array size below one can be set. -/
structure RsDescInfo where
  pDescRecHead : List RsDescRec
  lArraySize : Nat
  positive : 0 < lArraySize
  lBindType : Int
  /-- The number at `plBindOffsetPtr`, zero without one. -/
  plBindOffset : Int
  deriving DecidableEq, Repr

def sqlBindByColumn : Int := 0

def sqlLenSize : Int := 8

abbrev ParamVal := Option (List Char)

def countBindParams (pDescRecHead : List RsDescRec) : Nat := pDescRecHead.length

def findDescRec (pDescRecHead : List RsDescRec) (hRecNumber : Nat) : Option RsDescRec :=
  pDescRecHead.find? fun pDescRec => pDescRec.hRecNumber = hRecNumber

namespace RsDescInfo

variable (pAPD : RsDescInfo) (pDescRec : RsDescRec) (lParamProcessed : Nat)

/-- The bytes from one row to the next. -/
def iValOffset : Int :=
  if 1 < pAPD.lArraySize then
    if pAPD.lBindType = sqlBindByColumn then pDescRec.iOctetLen else pAPD.lBindType
  else 0

/-- The bind offset, which is read as an `int`. -/
def iBindOffset : Int := wrap 4 pAPD.plBindOffset

def pParamData : Option Int :=
  pDescRec.pValue.map fun pValue =>
    pValue + lParamProcessed * pAPD.iValOffset pDescRec + pAPD.iBindOffset

def plParamDataStrLenInd : Option Int :=
  pDescRec.pcbLenInd.map fun pcbLenInd =>
    if pAPD.lBindType = sqlBindByColumn then pcbLenInd + lParamProcessed * sqlLenSize
    else pcbLenInd + pAPD.iBindOffset + lParamProcessed * pAPD.iValOffset pDescRec

/-- `"null"`, the value of a parameter that is only written back. -/
def nullText : ParamVal := some ['n', 'u', 'l', 'l']

/-- The value of a parameter at a row, when it is bound and can be converted. -/
def paramVal (convertCParamDataToSQLData : RsDescRec → Option Int → Option Int → Option ParamVal)
    (iBindParam : Nat) : Option ParamVal :=
  match findDescRec pAPD.pDescRecHead (iBindParam + 1) with
  | none => none
  | some pDescRec =>
      if 1 < pAPD.lArraySize ∧ pAPD.iValOffset pDescRec ≤ 0 then none
      else if pDescRec.output then some nullText
      else convertCParamDataToSQLData pDescRec (pAPD.pParamData pDescRec lParamProcessed)
        (pAPD.plParamDataStrLenInd pDescRec lParamProcessed)

def paramVals (convertCParamDataToSQLData : RsDescRec → Option Int → Option Int → Option ParamVal)
    (iNumBindParams : Nat) : List ParamVal :=
  (List.range iNumBindParams).filterMap
    (pAPD.paramVal lParamProcessed convertCParamDataToSQLData)

end RsDescInfo

/-! ## The statement and its calls -/

/-- What the calls read and write of `RS_STMT_INFO`, and the command prepared at the server. -/
structure RsStmtInfo where
  insert : InsertInfo
  pCmdBuf : List Char
  pszLastBatchMultiInsertCmd : Option (List Char)
  iNumOfParamMarkers : Nat
  /-- `iNumberOfParams` of the prepared command. -/
  pPrepareHead : Option Nat
  /-- The command that the server has under the cursor name. -/
  server : Option (List Char)
  deriving DecidableEq, Repr

def RsStmtInfo.new : RsStmtInfo := ⟨⟨none, 0, 0, 0⟩, [], none, 0, none, none⟩

/-- What the server answers to `DEALLOCATE` and to the preparing, with the parameters it counts. -/
structure PrepareAnswers where
  deallocates : Bool
  prepares : Option Nat
  deriving DecidableEq, Repr

/-- What an execution finds around it. -/
structure ExecuteEnv where
  answers : Answers
  /-- A streaming cursor of another statement is open. -/
  otherStreamingCursor : Bool
  /-- What comes of preparing again for another array size. -/
  rePrepare : PrepareAnswers
  /-- A re-prepare around the last batch that fails has deallocated the command. -/
  failsDeallocated : Bool
  arrayStatus : Bool
  autoCommitOff : Bool
  iFunctionCall : Bool
  outParams : Bool
  streamingCursor : Bool

inductive Call where
  | sqlPrepare (pCmd : List Char) (pAPD : RsDescInfo) (answers : PrepareAnswers)
  | sqlExecute (pAPD : RsDescInfo) (env : ExecuteEnv)
  | sqlExecDirect (pCmd : List Char) (pAPD : RsDescInfo) (deallocates : Bool) (env : ExecuteEnv)

structure SentCommand where
  command : Option (List Char)
  ppBindParamVals : List ParamVal
  deriving DecidableEq, Repr

structure Execution where
  pAPD : RsDescInfo
  env : ExecuteEnv
  sent : List SentCommand

namespace RsStmtInfo

variable (pStmt : RsStmtInfo)

def iMultiInsert : Nat := pStmt.insert.iMultiInsert.toNat

def iLastBatchMultiInsert : Nat := pStmt.insert.iLastBatchMultiInsert.toNat

def getParamMarkerCount : Nat :=
  if pStmt.iMultiInsert = 0 then pStmt.iNumOfParamMarkers
  else pStmt.iNumOfParamMarkers / pStmt.iMultiInsert

/-- `getNumberOfParams` of a prepared command, else `getParamMarkerCount`. -/
def iNoOfParams : Nat :=
  match pStmt.pPrepareHead with
  | some iNumberOfParams =>
      if pStmt.iMultiInsert = 0 then iNumberOfParams else iNumberOfParams / pStmt.iMultiInsert
  | none => pStmt.getParamMarkerCount

/-- `libpqExecuteDeallocateCommand`. -/
def deallocate (deallocates : Bool) : RsStmtInfo :=
  if pStmt.pPrepareHead.isSome && deallocates then { pStmt with server := none } else pStmt

/-- `makeItReadyForNewQueryExecution` before another command. -/
def makeItReadyForNewQueryExecution (deallocates : Bool) : RsStmtInfo :=
  { pStmt.deallocate deallocates with
    pPrepareHead := none
    insert := { pStmt.insert with iMultiInsert := 0, iLastBatchMultiInsert := 0 }
    pszLastBatchMultiInsertCmd := none }

/-- Rewriting a command and keeping it, with the count of its markers. -/
def setCommand (iMultiInsertCmdConvertEnable stored : Bool) (lArraySize : Nat)
    (pCmd : List Char) : RsStmtInfo :=
  match parseForMultiInsertCommand iMultiInsertCmdConvertEnable stored true lArraySize
      pStmt.insert pCmd with
  | (none, insert) =>
      { pStmt with
        insert := insert
        pCmdBuf := pCmd
        iNumOfParamMarkers := countParamMarkers (some pCmd) sqlNtsLen }
  | (some command, insert) =>
      { pStmt with
        insert := insert
        pCmdBuf := command.pMultiInsertCmd.text
        iNumOfParamMarkers := countParamMarkers (some command.pMultiInsertCmd.text) sqlNtsLen
        pszLastBatchMultiInsertCmd :=
          match command.pLastBatchMultiInsertCmd with
          | none => pStmt.pszLastBatchMultiInsertCmd
          | some last => some last.text }

/-- `RS_SQLPrepare`, with whether it succeeds. -/
def prepare (iMultiInsertCmdConvertEnable stored : Bool) (lArraySize : Nat) (pCmd : List Char)
    (answers : PrepareAnswers) : Bool × RsStmtInfo :=
  let pStmt := (pStmt.makeItReadyForNewQueryExecution answers.deallocates).setCommand
    iMultiInsertCmdConvertEnable stored lArraySize pCmd
  match answers.prepares with
  | none => (false, pStmt)
  | some iNumberOfParams =>
      (true, { pStmt with
        pPrepareHead := some iNumberOfParams
        server := some pStmt.pCmdBuf })

/-- `shouldRePrepareArrayBinding`, with the command to prepare again. -/
def shouldRePrepareArrayBinding (lArraySize : Nat) : Option (List Char) :=
  match pStmt.insert.pszUserInsertCmd with
  | none => none
  | some pszUserInsertCmd =>
      if pStmt.insert.lArraySizeMultiInsert ≠ lArraySize then some pszUserInsertCmd else none

/-- What precedes the execution of the prepared command, which an error leaves. -/
def readyPrepared (iMultiInsertCmdConvertEnable : Bool) (pAPD : RsDescInfo) (env : ExecuteEnv) :
    Bool × RsStmtInfo :=
  if countBindParams pAPD.pDescRecHead < pStmt.iNoOfParams ∨ env.otherStreamingCursor then
    (false, pStmt)
  else
    match pStmt.shouldRePrepareArrayBinding pAPD.lArraySize with
    | none => (true, pStmt)
    | some pszUserInsertCmd =>
        pStmt.prepare iMultiInsertCmdConvertEnable true pAPD.lArraySize pszUserInsertCmd
          env.rePrepare

/-- What precedes the execution of a command that is not prepared. -/
def readyDirect (iMultiInsertCmdConvertEnable : Bool) (pCmd : List Char) (pAPD : RsDescInfo)
    (deallocates : Bool) (env : ExecuteEnv) : Bool × RsStmtInfo :=
  if env.otherStreamingCursor then (false, pStmt)
  else
    (true, (pStmt.makeItReadyForNewQueryExecution deallocates).setCommand
      iMultiInsertCmdConvertEnable false pAPD.lArraySize pCmd)

/-- The number of parameters that are sent for a row. -/
def iNumBindParams (pAPD : RsDescInfo) : Nat :=
  min (countBindParams pAPD.pDescRecHead) pStmt.iNoOfParams

variable (convertCParamDataToSQLData : RsDescRec → Option Int → Option Int → Option ParamVal)

/-- The statement as the loop over the rows sees it. -/
def statement (executePrepared : Bool) (pAPD : RsDescInfo) (env : ExecuteEnv) : Statement where
  lParamsToBind := pAPD.lArraySize
  positive := pAPD.positive
  iMultiInsert := pStmt.iMultiInsert
  iLastBatchMultiInsert := pStmt.iLastBatchMultiInsert
  executePrepared := executePrepared
  descRec := !pAPD.pDescRecHead.isEmpty
  iNumBindParams := pStmt.iNumBindParams pAPD
  unbound := by
    intro none
    rw [Bool.not_eq_eq_eq_not, Bool.not_false, List.isEmpty_iff] at none
    rw [iNumBindParams, none, countBindParams, List.length_nil, Nat.zero_min]
  arrayStatus := env.arrayStatus
  autoCommitOff := env.autoCommitOff
  iFunctionCall := env.iFunctionCall
  outParams := env.outParams
  streamingCursor := env.streamingCursor

/-- The answers the loop gets, where a row converts when all its parameters do. -/
def rowAnswers (pAPD : RsDescInfo) (env : ExecuteEnv) : Answers :=
  { env.answers with
    converts := fun row => (List.range (pStmt.iNumBindParams pAPD)).all fun iBindParam =>
      (pAPD.paramVal row convertCParamDataToSQLData iBindParam).isSome }

def batchCommand (executePrepared : Bool) (batch : Batch) : Option (List Char) :=
  if batch.lastBatch then pStmt.pszLastBatchMultiInsertCmd
  else if executePrepared then pStmt.server
  else some pStmt.pCmdBuf

/-- The values a batch is sent with; what has not been filled is zero. -/
def batchValues (pAPD : RsDescInfo) (batch : Batch) : List ParamVal :=
  let filled := batch.rows.flatMap fun row =>
    pAPD.paramVals row convertCParamDataToSQLData (pStmt.iNumBindParams pAPD)
  (filled ++ List.replicate (batch.nParams - filled.length) none).take batch.nParams

/-- What the server has when a re-prepare around the last batch has failed. -/
def serverFailed (failsDeallocated : Bool) (server : Option (List Char)) : Option (List Char) :=
  if pStmt.pPrepareHead.isSome && failsDeallocated then none else server

/-- What the server has when the re-prepares around the last batch are done. -/
def serverAfter (env : ExecuteEnv) (turns : Except Progress Progress) : Option (List Char) :=
  let last :=
    if env.answers.rePrepareLastBatch then pStmt.pszLastBatchMultiInsertCmd
    else pStmt.serverFailed env.failsDeallocated pStmt.server
  match turns with
  | .error progress => if progress.iLastBatchMultiInsertPrepare then last else pStmt.server
  | .ok progress =>
      if progress.iLastBatchMultiInsertPrepare then
        if env.answers.rePrepareRegular then some pStmt.pCmdBuf
        else pStmt.serverFailed env.failsDeallocated last
      else pStmt.server

/-- `libpqExecuteDirectOrPrepared`. -/
def execute (executePrepared : Bool) (pAPD : RsDescInfo) (env : ExecuteEnv) :
    RsStmtInfo × Execution :=
  let statement := pStmt.statement executePrepared pAPD env
  let answers := pStmt.rowAnswers convertCParamDataToSQLData pAPD env
  let final := statement.libpqExecuteDirectOrPreparedOnThread answers
  let turns := statement.turns answers statement.lParamsToBind
  ({ pStmt with
      server := if answers.setQueryTimeout then pStmt.serverAfter env turns else pStmt.server },
    { pAPD := pAPD
      env := env
      sent := final.batches.map fun batch => ⟨pStmt.batchCommand executePrepared batch,
        pStmt.batchValues convertCParamDataToSQLData pAPD batch⟩ })

/-- One call: what the execution starts from, when there is one, or how the call leaves it. -/
def ready (iMultiInsertCmdConvertEnable : Bool) : Call →
    Option (Bool × RsDescInfo × ExecuteEnv) × RsStmtInfo
  | .sqlPrepare pCmd pAPD answers =>
      (none, (pStmt.prepare iMultiInsertCmdConvertEnable false pAPD.lArraySize pCmd answers).2)
  | .sqlExecute pAPD env =>
      match pStmt.readyPrepared iMultiInsertCmdConvertEnable pAPD env with
      | (false, pStmt) => (none, pStmt)
      | (true, pStmt) => (some (true, pAPD, env), pStmt)
  | .sqlExecDirect pCmd pAPD deallocates env =>
      match pStmt.readyDirect iMultiInsertCmdConvertEnable pCmd pAPD deallocates env with
      | (false, pStmt) => (none, pStmt)
      | (true, pStmt) => (some (false, pAPD, env), pStmt)

def call (iMultiInsertCmdConvertEnable : Bool) (call : Call) : RsStmtInfo × List Execution :=
  match pStmt.ready iMultiInsertCmdConvertEnable call with
  | (none, pStmt) => (pStmt, [])
  | (some (executePrepared, pAPD, env), pStmt) =>
      let (pStmt, execution) :=
        pStmt.execute convertCParamDataToSQLData executePrepared pAPD env
      (pStmt, [execution])

/-- The calls of an application on one statement, and their executions. -/
def calls (iMultiInsertCmdConvertEnable : Bool) : RsStmtInfo → List Call →
    RsStmtInfo × List Execution
  | pStmt, [] => (pStmt, [])
  | pStmt, call :: rest =>
      let (pStmt, executions) := pStmt.call convertCParamDataToSQLData
        iMultiInsertCmdConvertEnable call
      let (pStmt, others) := calls iMultiInsertCmdConvertEnable pStmt rest
      (pStmt, executions ++ others)

end RsStmtInfo

end RedshiftOdbc.Execute
