import RedshiftOdbc.Execute.ArrayBinding
import RedshiftOdbc.Library.Scanf

/-!
# The results of a statement

`setResultInStmt` puts what the server answers into the list of results of a
statement, and adds the counts of an array execution up in the first of them.
`checkAndAutoFetchRefCursor` walks through the list and puts what a reference
cursor fetches in the place of its result.
-/

namespace RedshiftOdbc.ResultList

open RedshiftOdbc.Words RedshiftOdbc.Scanf
open RedshiftOdbc.Execute (ExecStatus SqlReturn)

/-! ## Answers -/

/-- The width of a `long`: eight bytes on Linux and macOS, four on Windows. -/
inductive DataModel where
  | lp64
  | llp64
  deriving DecidableEq, Repr

def DataModel.longBytes : DataModel → Nat
  | lp64 => 8
  | llp64 => 4

def DataModel.longMax (model : DataModel) : Int := 2 ^ (8 * model.longBytes - 1) - 1

/-- An answer of the server: its command tag, the types of its columns and its rows. -/
structure PgResult where
  pqRc : ExecStatus
  cmdStatus : List Char
  ftypes : List Nat
  tuples : List (List (Option (List Char)))
  /-- The connection is lost. -/
  connectionBad : Bool
  /-- The rest of the answers is read on a thread of its own. -/
  cscThreadCreated : Bool
  deriving DecidableEq, Repr

def behindBlank (text : List Char) : Option (List Char) :=
  match text.dropWhile (· ≠ ' ') with
  | [] => none
  | _ :: rest => some rest

/-- The count in a tag that begins with the word. -/
def tagCount (word cmdStatus : List Char) : Option (List Char) :=
  if word.isPrefixOf cmdStatus then some (cmdStatus.drop word.length) else none

def PQcmdTuples (res : PgResult) : List Char :=
  let counted :=
    if "INSERT ".toList.isPrefixOf res.cmdStatus then behindBlank (res.cmdStatus.drop 7)
    else
      ["SELECT ".toList, "DELETE ".toList, "UPDATE ".toList, "FETCH ".toList, "MOVE ".toList,
        "COPY ".toList, "CTAS ".toList].findSome? fun word => tagCount word res.cmdStatus
  match counted with
  | some digits => if digits.all Char.isDigit then digits else []
  | none => []

/-- The rows affected, cut off at `LONG_MAX`. -/
def rowsUpdated (model : DataModel) (pgResult : PgResult) : Int :=
  let llRowsUpdated := strtol (PQcmdTuples pgResult)
  if llRowsUpdated > 0 ∧ llRowsUpdated > model.longMax then model.longMax else llRowsUpdated

/-! ## The list -/

/-- `RS_RESULT_INFO` without the description of its columns. -/
structure Result where
  pgResult : PgResult
  iNumberOfCols : Nat
  lRowsUpdated : Int
  iNumberOfRowsInMem : Int
  iCurRow : Int
  iRefCursorInResult : Bool
  deriving DecidableEq, Repr

def createResultObject (pgResult : PgResult) : Result :=
  { pgResult, iNumberOfCols := 0, lRowsUpdated := -1, iNumberOfRowsInMem := 0, iCurRow := -1,
    iRefCursorInResult := false }

def refCursorOid : Nat := 1790

/-- `getResultDescription` on the result's own fields. -/
def getResultDescription (iFetchRefCursor : Bool) (pResult : Result) : Result :=
  { pResult with
    iNumberOfCols := pResult.pgResult.ftypes.length
    iRefCursorInResult := pResult.iRefCursorInResult ||
      (iFetchRefCursor && pResult.pgResult.ftypes.contains refCursorOid) }

/-- What stays the same while a statement is executed. -/
structure Settings where
  model : DataModel
  iFetchRefCursor : Bool
  iArrayBinding : Bool
  streamingCursor : Bool

namespace Settings

variable (settings : Settings)

/-- The rows affected as they are kept, in a `long`. -/
def lRowsUpdated (pgResult : PgResult) : Int :=
  wrap settings.model.longBytes (rowsUpdated settings.model pgResult)

def node (pgResult : PgResult) : Result :=
  match pgResult.pqRc with
  | .commandOk => { createResultObject pgResult with lRowsUpdated := settings.lRowsUpdated pgResult }
  | .tuplesOk =>
      getResultDescription settings.iFetchRefCursor
        { createResultObject pgResult with iNumberOfRowsInMem := pgResult.tuples.length }
  | _ => createResultObject pgResult

end Settings

/-- The return code of an execution and the list at `pResultHead`. -/
structure StmtResults where
  rc : SqlReturn
  results : List Result
  deriving DecidableEq, Repr

def addResult (results : List Result) (pResult : Result) : List Result := results ++ [pResult]

namespace Settings

variable (settings : Settings)

/-- The first result takes the count of the answer. -/
def accumulates (results : List Result) (pgResult : PgResult) : Bool :=
  pgResult.pqRc = .commandOk && settings.iArrayBinding &&
    results.head?.any fun head => head.lRowsUpdated > 0

/-- `pStmt->pResultHead->lRowsUpdated += (long)llRowsUpdated`. -/
def accumulate (pgResult : PgResult) (head : Result) : Result :=
  { head with
    lRowsUpdated := wrap settings.model.longBytes
      (head.lRowsUpdated + settings.lRowsUpdated pgResult) }

def setResultInStmt (list : StmtResults) (pgResult : PgResult) : StmtResults :=
  { rc := Execute.setResultInStmt list.rc pgResult.pqRc
    results :=
      if pgResult.pqRc.ok then
        if settings.accumulates list.results pgResult then
          list.results.modifyHead (settings.accumulate pgResult)
        else addResult list.results (settings.node pgResult)
      else list.results }

def readResults : StmtResults → List PgResult → StmtResults
  | list, [] => list
  | list, pgResult :: rest =>
      let list := settings.setResultInStmt list pgResult
      if pgResult.connectionBad then list
      else if settings.streamingCursor ∧ list.rc ≠ .error then list
      else if pgResult.cscThreadCreated then list
      else readResults list rest

/-- The answers to the commands of the array binding loop, one list for each command. -/
def execute (list : StmtResults) (turns : List (List PgResult)) : StmtResults :=
  turns.foldl settings.readResults list

end Settings

def PgResult.status (pgResult : PgResult) : Execute.PgResult :=
  ⟨pgResult.pqRc, pgResult.connectionBad, pgResult.cscThreadCreated⟩

/-! ## What a loop without accumulation appends -/

namespace Settings

variable (settings : Settings)

/-- The answers that are read before the loop is left, when none is an error. -/
def answersRead : List PgResult → List PgResult
  | [] => []
  | pgResult :: rest =>
      if pgResult.connectionBad ∨ settings.streamingCursor ∨ pgResult.cscThreadCreated then [pgResult]
      else pgResult :: answersRead rest

def fetched (turns : List (List PgResult)) : List Result :=
  turns.flatMap fun answers => (settings.answersRead answers).map settings.node

variable {settings}

theorem setResultInStmt_rc (list : StmtResults) (pgResult : PgResult) :
    (settings.setResultInStmt list pgResult).rc =
      Execute.setResultInStmt list.rc pgResult.pqRc := rfl

theorem readResults_error {list : StmtResults} (failed : list.rc = .error)
    (answers : List PgResult) : (settings.readResults list answers).rc = .error := by
  induction answers generalizing list with
  | nil => exact failed
  | cons answer rest ih =>
      have still : (settings.setResultInStmt list answer).rc = .error := by
        rw [setResultInStmt_rc, Execute.setResultInStmt, failed, ite_self]
      rw [readResults]
      split
      · exact still
      split
      · exact still
      split
      · exact still
      · exact ih still

theorem execute_error {list : StmtResults} (failed : list.rc = .error)
    (turns : List (List PgResult)) : (settings.execute list turns).rc = .error := by
  induction turns generalizing list with
  | nil => exact failed
  | cons answers turns ih => exact ih (readResults_error failed answers)

/-- An answer that is no command's is appended. -/
theorem setResultInStmt_appends {list : StmtResults} {pgResult : PgResult}
    (rows : pgResult.pqRc ≠ .commandOk)
    (success : (settings.setResultInStmt list pgResult).rc ≠ .error) :
    settings.setResultInStmt list pgResult =
      ⟨list.rc, list.results ++ [settings.node pgResult]⟩ := by
  have ok : pgResult.pqRc.ok = true := by
    by_contra failed
    exact success (by rw [setResultInStmt_rc, Execute.setResultInStmt, if_neg failed])
  have apart : settings.accumulates list.results pgResult = false := by
    rw [accumulates, decide_eq_false rows, Bool.false_and, Bool.false_and]
  rw [setResultInStmt, Execute.setResultInStmt, if_pos ok, if_pos ok, apart,
    if_neg Bool.false_ne_true, addResult]

theorem readResults_appends {list : StmtResults} {answers : List PgResult}
    (rows : ∀ answer ∈ answers, answer.pqRc ≠ .commandOk)
    (success : (settings.readResults list answers).rc ≠ .error) :
    settings.readResults list answers =
      ⟨list.rc, list.results ++ (settings.answersRead answers).map settings.node⟩ := by
  induction answers generalizing list with
  | nil => rw [readResults, answersRead, List.map_nil, List.append_nil]
  | cons answer rest ih =>
      have stored : (settings.setResultInStmt list answer).rc ≠ .error := by
        intro failed
        refine success ?_
        rw [readResults]
        split
        · exact failed
        split
        · exact failed
        split
        · exact failed
        · exact readResults_error failed rest
      have appended := setResultInStmt_appends (rows answer (List.mem_cons_self ..)) stored
      rw [readResults] at success ⊢
      rw [answersRead]
      simp only [appended] at success stored ⊢
      by_cases last : answer.connectionBad ∨ settings.streamingCursor ∨ answer.cscThreadCreated
      · rw [if_pos last]
        rcases last with bad | streaming | thread
        · rw [if_pos bad]
          rfl
        · split
          · rfl
          · rw [if_pos ⟨streaming, stored⟩]
            rfl
        · split
          · rfl
          split <;> rfl
      · simp only [not_or] at last
        rw [if_neg last.1, if_neg fun both => last.2.1 both.1, if_neg last.2.2] at success ⊢
        rw [if_neg (by simp only [not_or]; exact last), ih
          (fun other member => rows other (List.mem_cons_of_mem _ member)) success, List.map_cons,
          List.append_assoc]
        rfl

theorem execute_appends {list : StmtResults} {turns : List (List PgResult)}
    (rows : ∀ answers ∈ turns, ∀ answer ∈ answers, answer.pqRc ≠ .commandOk)
    (success : (settings.execute list turns).rc ≠ .error) :
    settings.execute list turns = ⟨list.rc, list.results ++ settings.fetched turns⟩ := by
  induction turns generalizing list with
  | nil => rw [execute, List.foldl_nil, fetched, List.flatMap_nil, List.append_nil]
  | cons answers turns ih =>
      rw [execute, List.foldl_cons] at success ⊢
      have first : (settings.readResults list answers).rc ≠ .error := by
        intro failed
        exact success (execute_error failed turns)
      rw [readResults_appends (rows answers (List.mem_cons_self ..)) first] at success ⊢
      rw [← execute] at success ⊢
      rw [ih (fun other member => rows other (List.mem_cons_of_mem _ member)) success,
        List.append_assoc, fetched, fetched, List.flatMap_cons]

end Settings

end RedshiftOdbc.ResultList
