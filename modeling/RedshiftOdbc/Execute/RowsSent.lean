import RedshiftOdbc.Execute.RewrittenMarkers
import RedshiftOdbc.Execute.RowBatches
import RedshiftOdbc.Execute.StatementCalls
import Mathlib.Tactic.Ring

/-!
# Which rows an execution sends

The rewriting of an INSERT is kept with the array size it was made for, and an
execution with another array size makes a new one, so the commands of every
execution are those for the text that was given last and for its own rows.  The
batches are sent with the rows their commands have tuples for, in their order,
and the addresses of the values are those of the rows unless a bind offset is not
the one that was set.
-/

namespace RedshiftOdbc.Execute

open RedshiftOdbc.Words RedshiftOdbc.Escape

/-! ## What an execution should send -/

namespace RsDescInfo

variable (pAPD : RsDescInfo) (pDescRec : RsDescRec) (row : Nat)

def boundValue : Option Int :=
  pDescRec.pValue.map fun pValue => pValue + pAPD.plBindOffset +
    row * if pAPD.lBindType = sqlBindByColumn then pDescRec.iOctetLen else pAPD.lBindType

/-- The address of the length or indicator at a row. -/
def boundLenInd : Option Int :=
  pDescRec.pcbLenInd.map fun pcbLenInd => pcbLenInd + pAPD.plBindOffset +
    row * if pAPD.lBindType = sqlBindByColumn then sqlLenSize else pAPD.lBindType

/-- The value that is bound for a parameter at a row. -/
def boundParamVal
    (convertCParamDataToSQLData : RsDescRec → Option Int → Option Int → Option ParamVal)
    (iBindParam : Nat) : Option ParamVal :=
  match findDescRec pAPD.pDescRecHead (iBindParam + 1) with
  | none => none
  | some pDescRec =>
      if pDescRec.output then some nullText
      else convertCParamDataToSQLData pDescRec (pAPD.boundValue pDescRec row)
        (pAPD.boundLenInd pDescRec row)

end RsDescInfo

/-! ### The batches -/

section

variable (iMultiInsertCmdConvertEnable : Bool) (text : List Char) (lArraySize : Nat)

/-- The rows of a command: the tuples of a rewritten INSERT, or one. -/
def rowsOfCommand : Nat :=
  match rewriting iMultiInsertCmdConvertEnable text lArraySize with
  | none => 1
  | some command => command.iMultiInsert.toNat

/-- The command for a number of rows: the text with its tuple repeated for each of them. -/
def commandFor (rows : Nat) : List Char :=
  match rewriting iMultiInsertCmdConvertEnable text lArraySize with
  | none => text
  | some command => repeated text command.pLeftBracket command.pRightBracket rows

end

/-- The values that are bound for the parameters of some rows. -/
def RsDescInfo.boundParamVals (pAPD : RsDescInfo)
    (convertCParamDataToSQLData : RsDescRec → Option Int → Option Int → Option ParamVal)
    (numOfParams : Nat) (rows : List Nat) : List (Option ParamVal) :=
  rows.flatMap fun row => (List.range numOfParams).map
    (pAPD.boundParamVal row convertCParamDataToSQLData)

/--
Nothing is sent, or something is wrong around the first batches: a row of the next
one waits for its data or cannot be converted, what precedes its command fails, or
OUT parameters cannot be read behind the last one.
-/
def Execution.Ends
    (convertCParamDataToSQLData : RsDescRec → Option Int → Option Int → Option ParamVal)
    (numOfParams size count : Nat) (execution : Execution) : Prop :=
  execution.env.answers.setQueryTimeout = false ∨
    ∃ row < execution.pAPD.lArraySize,
      row / size = count ∧
          (execution.env.answers.needDataAtExec row = true ∨
            (∃ iBindParam < numOfParams,
              execution.pAPD.paramVal row convertCParamDataToSQLData iBindParam = none) ∨
            execution.env.answers.rePrepareLastBatch = false ∨
            execution.env.answers.beginCommand row = false) ∨
        row / size + 1 = count ∧ execution.env.outParams = true ∧
          execution.env.answers.updateOutParams row = false

/--
The commands that are sent are those for the batches of the rows, in their order and
with the values of their rows, up to one that something is wrong with.  Each has as
many values as markers, and when nothing is wrong every row is sent once.
-/
def Execution.InOrder (backslash iMultiInsertCmdConvertEnable : Bool)
    (convertCParamDataToSQLData : RsDescRec → Option Int → Option Int → Option ParamVal)
    (text : List Char) (execution : Execution) : Prop :=
  let numOfParams := (markersOutside backslash text).card
  let rows := execution.pAPD.lArraySize
  let size := rowsOfCommand iMultiInsertCmdConvertEnable text rows
  (∃ count,
    execution.sent.map (fun sent => (sent.command, sent.ppBindParamVals.map some)) =
        (List.range count).map (fun batch =>
          (some (commandFor iMultiInsertCmdConvertEnable text rows
              (batchRows rows size batch).length),
            execution.pAPD.boundParamVals convertCParamDataToSQLData numOfParams
              (batchRows rows size batch))) ∧
      (count = batchCount rows size ∨
        execution.Ends convertCParamDataToSQLData numOfParams size count)) ∧
    (∀ sent ∈ execution.sent, ∃ command, sent.command = some command ∧
      sent.ppBindParamVals.length = (markersOutside backslash command).card) ∧
    ((∀ count, ¬ execution.Ends convertCParamDataToSQLData numOfParams size count) →
      (execution.sent.flatMap SentCommand.ppBindParamVals).map some =
        execution.pAPD.boundParamVals convertCParamDataToSQLData numOfParams (List.range rows))

/-- The text of a statement behind a call; a call that is refused at once leaves it. -/
def Call.text (text : List Char) : Call → List Char
  | .sqlPrepare pCmd _ _ => pCmd
  | .sqlExecute _ _ => text
  | .sqlExecDirect pCmd _ _ env => if env.otherStreamingCursor then text else pCmd

/-! ## The condition -/

/-- The bind offset fits an `int`, and no lengths of columns are bound with one. -/
def RsDescInfo.OffsetKept (pAPD : RsDescInfo) : Prop :=
  wrap 4 pAPD.plBindOffset = pAPD.plBindOffset ∧
    (pAPD.lBindType = sqlBindByColumn → pAPD.plBindOffset ≠ 0 →
      ∀ pDescRec ∈ pAPD.pDescRecHead, pDescRec.pcbLenInd = none)

/-- The text, the descriptor and what is prepared fit an execution. -/
structure RsStmtInfo.Fits (backslash iMultiInsertCmdConvertEnable : Bool) (text : List Char)
    (pStmt : RsStmtInfo) (executePrepared : Bool) (pAPD : RsDescInfo) : Prop where
  rewrites : TextFits backslash iMultiInsertCmdConvertEnable text pAPD.lArraySize
  /-- The server has the command of the statement. -/
  server : executePrepared = true → pStmt.server = some pStmt.pCmdBuf
  /-- It has counted the markers of the command that was prepared. -/
  counted : ∀ iNumberOfParams, pStmt.pPrepareHead = some iNumberOfParams →
    iNumberOfParams = (markersOutside backslash pStmt.pCmdBuf).card
  bound : (markersOutside backslash text).card ≤ countBindParams pAPD.pDescRecHead
  offset : pAPD.OffsetKept

/-- An execution that a call makes fits its text and its rows. -/
def RsStmtInfo.CallFits (backslash iMultiInsertCmdConvertEnable : Bool) (text : List Char)
    (pStmt : RsStmtInfo) (call : Call) : Prop :=
  ∀ executePrepared pAPD env,
    (pStmt.ready iMultiInsertCmdConvertEnable call).1 = some (executePrepared, pAPD, env) →
    (pStmt.ready iMultiInsertCmdConvertEnable call).2.Fits backslash iMultiInsertCmdConvertEnable
      (call.text text) executePrepared pAPD

/-! ## The values of a row -/

namespace RsDescInfo

variable {pAPD : RsDescInfo} {row : Nat}
  {convertCParamDataToSQLData : RsDescRec → Option Int → Option Int → Option ParamVal}

/-- Without a bind offset of its own the address of a value is the one that was bound. -/
theorem pParamData_eq (kept : pAPD.OffsetKept) (inside : row < pAPD.lArraySize)
    (pDescRec : RsDescRec) : pAPD.pParamData pDescRec row = pAPD.boundValue pDescRec row := by
  rw [pParamData, boundValue, iBindOffset, kept.1, iValOffset]
  congr 1
  funext pValue
  by_cases several : 1 < pAPD.lArraySize
  · rw [if_pos several]
    ring
  · obtain rfl : row = 0 := by omega
    simp

theorem plParamDataStrLenInd_eq (kept : pAPD.OffsetKept) (inside : row < pAPD.lArraySize)
    {pDescRec : RsDescRec} (member : pDescRec ∈ pAPD.pDescRecHead) :
    pAPD.plParamDataStrLenInd pDescRec row = pAPD.boundLenInd pDescRec row := by
  rw [plParamDataStrLenInd, boundLenInd, iBindOffset, kept.1, iValOffset]
  by_cases column : pAPD.lBindType = sqlBindByColumn
  · by_cases none : pAPD.plBindOffset = 0
    · simp only [column, if_true, none]
      congr 1
      funext pcbLenInd
      ring
    · rw [kept.2 column none pDescRec member]
      rfl
  · simp only [column, if_false]
    congr 1
    funext pcbLenInd
    split_ifs with several
    · ring
    · obtain rfl : row = 0 := by omega
      simp

/-- A value that can be sent is the one that was bound. -/
theorem paramVal_eq (kept : pAPD.OffsetKept) (inside : row < pAPD.lArraySize) {iBindParam : Nat}
    (converts : (pAPD.paramVal row convertCParamDataToSQLData iBindParam).isSome) :
    pAPD.paramVal row convertCParamDataToSQLData iBindParam =
      pAPD.boundParamVal row convertCParamDataToSQLData iBindParam := by
  rw [paramVal] at converts ⊢
  rw [boundParamVal]
  cases found : findDescRec pAPD.pDescRecHead (iBindParam + 1) with
  | none => rfl
  | some pDescRec =>
      simp only [found] at converts ⊢
      have member := List.mem_of_find?_eq_some found
      split_ifs at converts ⊢ with narrow output
      · cases converts
      · cases converts
      · rfl
      · rw [pParamData_eq kept inside, plParamDataStrLenInd_eq kept inside member]

/-- The values of a row that converts. -/
theorem paramVals_eq (kept : pAPD.OffsetKept) (inside : row < pAPD.lArraySize)
    {iNumBindParams : Nat} (converts : ∀ iBindParam < iNumBindParams,
      (pAPD.paramVal row convertCParamDataToSQLData iBindParam).isSome) :
    (pAPD.paramVals row convertCParamDataToSQLData iNumBindParams).map some =
      (List.range iNumBindParams).map (pAPD.boundParamVal row convertCParamDataToSQLData) := by
  have same : (List.range iNumBindParams).map (pAPD.boundParamVal row convertCParamDataToSQLData) =
      (List.range iNumBindParams).map (pAPD.paramVal row convertCParamDataToSQLData) := by
    refine List.map_congr_left ?_
    intro iBindParam member
    exact (paramVal_eq kept inside (converts iBindParam (List.mem_range.mp member))).symm
  rw [same, paramVals, List.map_filterMap]
  rw [← List.filterMap_eq_map]
  refine List.filterMap_congr ?_
  intro iBindParam member
  obtain ⟨value, here⟩ := Option.isSome_iff_exists.mp
    (converts iBindParam (List.mem_range.mp member))
  simp [here]

end RsDescInfo

/-! ## The statement behind a rewriting -/

/-- The fields of the statement are those of a text that was rewritten for so many rows. -/
structure RsStmtInfo.Written (iMultiInsertCmdConvertEnable : Bool) (text : List Char)
    (lArraySize : Nat) (pStmt : RsStmtInfo) : Prop where
  insert : pStmt.insert.pszUserInsertCmd = some text ∧
      pStmt.insert.lArraySizeMultiInsert = lArraySize ∨
    pStmt.insert.pszUserInsertCmd = none ∧
      ∀ rows, rewriting iMultiInsertCmdConvertEnable text rows = none
  plain : rewriting iMultiInsertCmdConvertEnable text lArraySize = none →
    pStmt.insert.iMultiInsert = 0 ∧ pStmt.insert.iLastBatchMultiInsert = 0 ∧ pStmt.pCmdBuf = text
  rewritten : ∀ command, rewriting iMultiInsertCmdConvertEnable text lArraySize = some command →
    pStmt.insert.iMultiInsert = command.iMultiInsert ∧
      pStmt.insert.iLastBatchMultiInsert = command.iLastBatchMultiInsert ∧
      pStmt.pCmdBuf = command.pMultiInsertCmd.text ∧
      pStmt.pszLastBatchMultiInsertCmd = command.pLastBatchMultiInsertCmd.map Buffer.text
  count : pStmt.iNumOfParamMarkers = countParamMarkers (some pStmt.pCmdBuf) sqlNtsLen

/-- What the parser keeps of a text that begins with a word. -/
theorem parse_written {convert stored : Bool} {lArraySize : Nat} (rows : 0 < lArraySize)
    {info : InsertInfo} {text : List Char}
    (word : (getNextWord text 0).1 ≠ (getNextWord text 0).2)
    (same : stored = true → info.pszUserInsertCmd = some text)
    (off : convert = false → info.pszUserInsertCmd = none) :
    (parseForMultiInsertCommand convert stored true lArraySize info text).1 =
        rewriting convert text lArraySize ∧
      ((parseForMultiInsertCommand convert stored true lArraySize info text).2.pszUserInsertCmd =
          some text ∧
        (parseForMultiInsertCommand convert stored true lArraySize info
          text).2.lArraySizeMultiInsert = lArraySize ∨
      (parseForMultiInsertCommand convert stored true lArraySize info text).2.pszUserInsertCmd =
          none ∧
        ∀ rows, rewriting convert text rows = none) := by
  have size := parserArraySize_pos rows
  unfold rewriting parseForMultiInsertCommand
  generalize getNextWord text 0 = ends at word ⊢
  obtain ⟨pToken, pSrc⟩ := ends
  dsimp only at word ⊢
  rw [size]
  cases convert with
  | false => exact ⟨rfl, Or.inr ⟨off rfl, fun _ => rfl⟩⟩
  | true =>
      simp only [if_true, if_pos word]
      by_cases insert : ((text.drop pToken).take (pSrc - pToken)).map Char.toLower =
          insertWord.map Char.toLower
      · simp only [if_pos insert]
        cases multiInsert text lArraySize <;> cases stored <;> simp [same] <;> split_ifs <;> simp
      · simp only [if_neg insert]
        exact ⟨trivial, Or.inr ⟨trivial, fun _ => trivial⟩⟩

/-- The parser leaves the tuples of the command it writes, or none. -/
theorem parse_tuples {convert stored : Bool} {lArraySize : Int} {info : InsertInfo}
    {text : List Char} (none : (parseForMultiInsertCommand convert stored true lArraySize info
      text).1 = none) :
    (parseForMultiInsertCommand convert stored true lArraySize info text).2.iMultiInsert = 0 ∧
      (parseForMultiInsertCommand convert stored true lArraySize info
        text).2.iLastBatchMultiInsert = 0 := by
  unfold parseForMultiInsertCommand at none ⊢
  generalize getNextWord text 0 = ends at none ⊢
  obtain ⟨pToken, pSrc⟩ := ends
  dsimp only at none ⊢
  cases rewritten : multiInsert text (parserArraySize true lArraySize) with
  | none => split_ifs <;> exact ⟨rfl, rfl⟩
  | some command =>
      rw [rewritten] at none
      split_ifs at none ⊢ <;> exact ⟨rfl, rfl⟩

namespace RsStmtInfo

variable {pStmt : RsStmtInfo} {convert : Bool} {text : List Char}

theorem setCommand_written {stored : Bool} {lArraySize : Nat} (rows : 0 < lArraySize)
    (word : (getNextWord text 0).1 ≠ (getNextWord text 0).2)
    (same : stored = true → pStmt.insert.pszUserInsertCmd = some text)
    (off : convert = false → pStmt.insert.pszUserInsertCmd = none)
    (cleared : pStmt.pszLastBatchMultiInsertCmd = none) :
    (pStmt.setCommand convert stored lArraySize text).Written convert text lArraySize := by
  obtain ⟨commands, kept⟩ := parse_written rows word same off
  rw [setCommand]
  cases parsed : parseForMultiInsertCommand convert stored true lArraySize pStmt.insert text with
  | mk command insert =>
      rw [parsed] at commands kept
      dsimp only at commands kept
      cases command with
      | none =>
          have tuples := parse_tuples (congrArg Prod.fst parsed)
          rw [parsed] at tuples
          refine ⟨kept, fun _ => ⟨tuples.1, tuples.2, rfl⟩, fun command here => ?_, rfl⟩
          rw [← commands] at here
          cases here
      | some command =>
          obtain ⟨-, multi, lastMulti⟩ := parse_multiInsert parsed
          refine ⟨kept, fun here => ?_, fun other here => ?_, rfl⟩
          · rw [← commands] at here
            cases here
          · rw [← commands] at here
            cases here
            refine ⟨multi, lastMulti, rfl, ?_⟩
            dsimp only
            cases command.pLastBatchMultiInsertCmd with
            | none => exact cleared
            | some last => rfl

/-- The fields of the statement are those of the text that was given last, for some rows. -/
structure Kept (convert : Bool) (text : List Char) (pStmt : RsStmtInfo) : Prop where
  off : convert = false → pStmt.insert.pszUserInsertCmd = none
  written : (getNextWord text 0).1 ≠ (getNextWord text 0).2 →
    ∃ lArraySize, pStmt.Written convert text lArraySize

/-- A new command begins with nothing of the one before but the user's INSERT. -/
theorem setCommand_kept {stored : Bool} {lArraySize : Nat} (rows : 0 < lArraySize)
    (deallocates : Bool) (same : stored = true → pStmt.insert.pszUserInsertCmd = some text)
    (off : convert = false → pStmt.insert.pszUserInsertCmd = none) :
    Kept convert text ((pStmt.makeItReadyForNewQueryExecution deallocates).setCommand convert
        stored lArraySize text) ∧
      ((getNextWord text 0).1 ≠ (getNextWord text 0).2 →
        ((pStmt.makeItReadyForNewQueryExecution deallocates).setCommand convert stored lArraySize
          text).Written convert text lArraySize) := by
  have written := fun word => @setCommand_written
    (pStmt.makeItReadyForNewQueryExecution deallocates) convert text stored lArraySize rows word
    same off rfl
  refine ⟨⟨fun none => ?_, fun word => ⟨lArraySize, written word⟩⟩, written⟩
  have nothing := off none
  subst none
  exact nothing

/-- What is prepared at the server is not what a rewriting leaves. -/
theorem Written.of_server {lArraySize : Nat} (written : pStmt.Written convert text lArraySize)
    (pPrepareHead : Option Nat) (server : Option (List Char)) :
    Written convert text lArraySize
      { pStmt with pPrepareHead := pPrepareHead, server := server } :=
  ⟨written.insert, written.plain, written.rewritten, written.count⟩

theorem Kept.of_server (kept : Kept convert text pStmt) (pPrepareHead : Option Nat)
    (server : Option (List Char)) :
    Kept convert text { pStmt with pPrepareHead := pPrepareHead, server := server } :=
  ⟨kept.off, fun word => (kept.written word).imp fun _ written =>
    written.of_server pPrepareHead server⟩

/-- A command that is prepared is written for its text. -/
theorem prepare_written {before : List Char} (kept : Kept convert before pStmt) {stored : Bool}
    {lArraySize : Nat} (rows : 0 < lArraySize)
    (same : stored = true → pStmt.insert.pszUserInsertCmd = some text) (answers : PrepareAnswers) :
    Kept convert text (pStmt.prepare convert stored lArraySize text answers).2 ∧
      ((getNextWord text 0).1 ≠ (getNextWord text 0).2 →
        (pStmt.prepare convert stored lArraySize text answers).2.Written convert text
          lArraySize) := by
  obtain ⟨all, written⟩ := setCommand_kept rows answers.deallocates same kept.off
  rw [prepare]
  cases answers.prepares with
  | none => exact ⟨all, written⟩
  | some iNumberOfParams =>
      exact ⟨all.of_server _ _, fun word => (written word).of_server _ _⟩

theorem shouldRePrepare_some {lArraySize : Nat} {pszUserInsertCmd : List Char}
    (again : pStmt.shouldRePrepareArrayBinding lArraySize = some pszUserInsertCmd) :
    pStmt.insert.pszUserInsertCmd = some pszUserInsertCmd := by
  rw [shouldRePrepareArrayBinding] at again
  split at again
  · cases again
  · next text here =>
      split_ifs at again
      rw [here, Option.some.inj again]

/-- Without a new rewriting the one that is kept was made for the rows. -/
theorem Written.of_keeps {lArraySize rows : Nat} (written : pStmt.Written convert text lArraySize)
    (keeps : pStmt.shouldRePrepareArrayBinding rows = none) : pStmt.Written convert text rows := by
  rcases written.insert with ⟨stored, size⟩ | ⟨absent, nothing⟩
  · have equal : pStmt.insert.lArraySizeMultiInsert = rows := by
      by_contra other
      rw [shouldRePrepareArrayBinding, stored] at keeps
      dsimp only at keeps
      rw [if_pos other] at keeps
      cases keeps
    obtain rfl : lArraySize = rows := by omega
    exact written
  · refine ⟨Or.inr ⟨absent, nothing⟩, fun _ => written.plain (nothing _), fun command here => ?_,
      written.count⟩
    rw [nothing rows] at here
    cases here

/-- An execution starts from what was written for its text and its rows. -/
theorem ready_written (kept : Kept convert text pStmt) (call : Call) :
    Kept convert (call.text text) (pStmt.ready convert call).2 ∧
      ∀ executePrepared pAPD env,
        (pStmt.ready convert call).1 = some (executePrepared, pAPD, env) →
        (getNextWord (call.text text) 0).1 ≠ (getNextWord (call.text text) 0).2 →
        (pStmt.ready convert call).2.Written convert (call.text text) pAPD.lArraySize := by
  have fresh : ∀ pCmd, false = true → pStmt.insert.pszUserInsertCmd = some pCmd := by
    intro pCmd stored
    cases stored
  cases call with
  | sqlPrepare pCmd pAPD answers =>
      have prepared := prepare_written kept pAPD.positive (fresh pCmd) answers
      refine ⟨prepared.1, ?_⟩
      intro executePrepared other env executes
      cases executes
  | sqlExecute pAPD env =>
      rw [ready, readyPrepared]
      split_ifs with refused
      · refine ⟨kept, ?_⟩
        intro executePrepared other otherEnv executes
        cases executes
      · cases again : pStmt.shouldRePrepareArrayBinding pAPD.lArraySize with
        | none =>
            refine ⟨kept, ?_⟩
            intro executePrepared other otherEnv executes word
            cases executes
            obtain ⟨rows, written⟩ := kept.written word
            exact written.of_keeps again
        | some pszUserInsertCmd =>
            have stored := shouldRePrepare_some again
            have prepared := prepare_written kept pAPD.positive
              (show true = true → _ from fun _ => stored) env.rePrepare
            have same : (getNextWord text 0).1 ≠ (getNextWord text 0).2 →
                pszUserInsertCmd = text := by
              intro word
              obtain ⟨rows, written⟩ := kept.written word
              rcases written.insert with ⟨here, -⟩ | ⟨absent, -⟩
              · exact Option.some.inj (stored.symm.trans here)
              · rw [stored] at absent
                cases absent
            have all : Kept convert text (pStmt.prepare convert true pAPD.lArraySize
                pszUserInsertCmd env.rePrepare).2 :=
              ⟨prepared.1.off, fun word => same word ▸ prepared.1.written (same word ▸ word)⟩
            dsimp only
            revert prepared all
            generalize pStmt.prepare convert true pAPD.lArraySize pszUserInsertCmd env.rePrepare =
              result
            intro prepared all
            obtain ⟨succeeds, pStmt⟩ := result
            cases succeeds with
            | false =>
                refine ⟨all, ?_⟩
                intro executePrepared other otherEnv executes
                cases executes
            | true =>
                refine ⟨all, ?_⟩
                intro executePrepared other otherEnv executes word
                cases executes
                have written := prepared.2
                rw [same word] at written
                exact written word
  | sqlExecDirect pCmd pAPD deallocates env =>
      rw [ready, readyDirect, Call.text]
      split_ifs with refused
      · refine ⟨kept, ?_⟩
        intro executePrepared other otherEnv executes
        cases executes
      · obtain ⟨all, written⟩ := setCommand_kept pAPD.positive deallocates (fresh pCmd) kept.off
        refine ⟨all, ?_⟩
        intro executePrepared other otherEnv executes word
        cases executes
        exact written word

/-! ## One execution -/

variable {backslash executePrepared : Bool} {pAPD : RsDescInfo} {env : ExecuteEnv}
  {convertCParamDataToSQLData : RsDescRec → Option Int → Option Int → Option ParamVal}

/-- As many parameters are counted for a row as the text has markers. -/
theorem iNoOfParams_eq (fits : pStmt.Fits backslash convert text executePrepared pAPD)
    (written : pStmt.Written convert text pAPD.lArraySize) :
    pStmt.iNoOfParams = (markersOutside backslash text).card := by
  have counted := fits.counted
  have tidy := countParamMarkers_tidy fits.rewrites.noZero fits.rewrites.short fits.rewrites.tidy
  rw [iNoOfParams, getParamMarkerCount, written.count, iMultiInsert]
  cases rewritten : rewriting convert text pAPD.lArraySize with
  | none =>
      obtain ⟨multi, -, command⟩ := written.plain rewritten
      rw [command] at counted ⊢
      simp only [multi, Int.toNat_zero, if_true]
      cases prepared : pStmt.pPrepareHead with
      | none => exact tidy
      | some iNumberOfParams => exact counted iNumberOfParams prepared
  | some command =>
      obtain ⟨multi, -, buffer, -⟩ := written.rewritten command rewritten
      have right := fits.rewrites.right pAPD.positive rewritten
      have tuples := right.tuples_pos pAPD.positive fits.rewrites.small
      rw [buffer] at counted ⊢
      simp only [multi, if_neg tuples.ne']
      cases prepared : pStmt.pPrepareHead with
      | none =>
          dsimp only
          rw [right.counted, Nat.mul_div_cancel_left _ tuples]
      | some iNumberOfParams =>
          dsimp only
          rw [counted iNumberOfParams prepared, right.all.card (by omega),
            Nat.mul_div_cancel_left _ tuples]

theorem iNumBindParams_eq (fits : pStmt.Fits backslash convert text executePrepared pAPD)
    (written : pStmt.Written convert text pAPD.lArraySize) :
    pStmt.iNumBindParams pAPD = (markersOutside backslash text).card := by
  rw [iNumBindParams, iNoOfParams_eq fits written]
  exact Nat.min_eq_right fits.bound

variable (env) in
/-- The rows are divided as they are planned for the text. -/
theorem statement_planned (fits : pStmt.Fits backslash convert text executePrepared pAPD)
    (written : pStmt.Written convert text pAPD.lArraySize) :
    (pStmt.statement executePrepared pAPD env).Planned ∧
      (pStmt.statement executePrepared pAPD env).rowsOfBatch =
        rowsOfCommand convert text pAPD.lArraySize := by
  have multi : (pStmt.statement executePrepared pAPD env).iMultiInsert =
    pStmt.insert.iMultiInsert.toNat := rfl
  have lastMulti : (pStmt.statement executePrepared pAPD env).iLastBatchMultiInsert =
    pStmt.insert.iLastBatchMultiInsert.toNat := rfl
  have rows : (pStmt.statement executePrepared pAPD env).lParamsToBind = pAPD.lArraySize := rfl
  rw [Statement.rowsOfBatch, rowsOfCommand]
  cases rewritten : rewriting convert text pAPD.lArraySize with
  | none =>
      obtain ⟨single, -, -⟩ := written.plain rewritten
      rw [single] at multi
      exact ⟨⟨fun more => absurd multi more, fun more => absurd multi more⟩, if_pos multi⟩
  | some command =>
      obtain ⟨tuples, lastTuples, -, -⟩ := written.rewritten command rewritten
      have right := fits.rewrites.right pAPD.positive rewritten
      have positive := right.tuples_pos pAPD.positive fits.rewrites.small
      obtain ⟨less, rest⟩ := right.divides pAPD.positive fits.rewrites.small
      rw [tuples] at multi
      rw [lastTuples] at lastMulti
      refine ⟨⟨fun _ => ?_, fun _ => ?_⟩, ?_⟩
      · rw [multi, lastMulti]
        exact less
      · rw [multi, lastMulti, rows]
        exact rest
      · rw [multi, if_neg positive.ne']

/-- A batch goes with the command for its rows, which has their markers. -/
theorem batchCommand_eq (fits : pStmt.Fits backslash convert text executePrepared pAPD)
    (written : pStmt.Written convert text pAPD.lArraySize) {answers : Answers} {batch : Batch}
    (whole : Statement.Whole (pStmt.statement executePrepared pAPD env) answers batch) :
    pStmt.batchCommand executePrepared batch =
        some (commandFor convert text pAPD.lArraySize batch.rows.length) ∧
      (markersOutside backslash (commandFor convert text pAPD.lArraySize
        batch.rows.length)).card = (markersOutside backslash text).card * batch.rows.length := by
  have rows := whole.rows
  have lastRows : batch.lastBatch = true → pStmt.insert.iLastBatchMultiInsert.toNat ≠ 0 :=
    whole.last
  have regular : (if executePrepared then pStmt.server else some pStmt.pCmdBuf) =
      some pStmt.pCmdBuf := by
    split_ifs with prepared
    · exact fits.server prepared
    · rfl
  rw [(statement_planned env fits written).2] at rows
  have lastMulti : (pStmt.statement executePrepared pAPD env).iLastBatchMultiInsert =
    pStmt.insert.iLastBatchMultiInsert.toNat := rfl
  rw [lastMulti] at rows
  rw [batchCommand, commandFor, regular]
  rw [rowsOfCommand] at rows
  cases rewritten : rewriting convert text pAPD.lArraySize with
  | none =>
      obtain ⟨-, none, command⟩ := written.plain rewritten
      have other : batch.lastBatch = false := by
        rw [← Bool.not_eq_true]
        intro last
        exact lastRows last (by rw [none, Int.toNat_zero])
      rw [rewritten, other] at rows
      rw [other, command, rows]
      exact ⟨rfl, (Nat.mul_one _).symm⟩
  | some command =>
      obtain ⟨multi, tuples, buffer, lastBuffer⟩ := written.rewritten command rewritten
      have right := fits.rewrites.right pAPD.positive rewritten
      rw [rewritten] at rows
      cases last : batch.lastBatch with
      | true =>
          have more := lastRows last
          rw [tuples] at more rows
          obtain ⟨lastCommand, allocated, faithful⟩ := right.last (by omega)
          rw [last, if_pos rfl] at rows
          rw [lastBuffer, allocated, rows]
          dsimp only
          rw [← faithful.text]
          exact ⟨rfl, by rw [faithful.card (by omega), Nat.mul_comm]⟩
      | false =>
          have positive := right.tuples_pos pAPD.positive fits.rewrites.small
          rw [last, if_neg (by decide)] at rows
          rw [buffer, rows]
          dsimp only
          rw [← right.all.text]
          exact ⟨rfl, by rw [right.all.card (by omega), Nat.mul_comm]⟩

/-- A row whose values are in the buffers converts. -/
theorem converts_of_bindsAt {row : Nat}
    (binds : (pStmt.statement executePrepared pAPD env).bindsAt
      (pStmt.rowAnswers convertCParamDataToSQLData pAPD env) row = true) :
    ∀ iBindParam < pStmt.iNumBindParams pAPD,
      (pAPD.paramVal row convertCParamDataToSQLData iBindParam).isSome := by
  intro iBindParam less
  have bound : pAPD.pDescRecHead.isEmpty = false := by
    cases empty : pAPD.pDescRecHead.isEmpty with
    | false => rfl
    | true =>
        rw [List.isEmpty_iff] at empty
        rw [iNumBindParams, countBindParams, empty] at less
        simp at less
  simp only [Statement.bindsAt, statement, rowAnswers, bound, Bool.not_false, Bool.true_and,
    Bool.and_eq_true, Bool.not_not, List.all_eq_true, List.mem_range] at binds
  exact binds.2 iBindParam less

theorem paramVals_length {row : Nat} (converts : ∀ iBindParam < pStmt.iNumBindParams pAPD,
    (pAPD.paramVal row convertCParamDataToSQLData iBindParam).isSome) :
    (pAPD.paramVals row convertCParamDataToSQLData (pStmt.iNumBindParams pAPD)).length =
      pStmt.iNumBindParams pAPD := by
  rw [RsDescInfo.paramVals, List.length_filterMap_eq_countP, List.countP_eq_length.mpr,
    List.length_range]
  intro iBindParam member
  exact converts iBindParam (List.mem_range.mp member)

/-- A whole batch is sent with the values of its rows and nothing else. -/
theorem batchValues_eq {batch : Batch}
    (whole : Statement.Whole (pStmt.statement executePrepared pAPD env)
      (pStmt.rowAnswers convertCParamDataToSQLData pAPD env) batch) :
    pStmt.batchValues convertCParamDataToSQLData pAPD batch = (batch.rows.flatMap fun row =>
        pAPD.paramVals row convertCParamDataToSQLData (pStmt.iNumBindParams pAPD)) ∧
      (pStmt.batchValues convertCParamDataToSQLData pAPD batch).length =
        pStmt.iNumBindParams pAPD * batch.rows.length := by
  have length : (batch.rows.flatMap fun row =>
      pAPD.paramVals row convertCParamDataToSQLData (pStmt.iNumBindParams pAPD)).length =
        pStmt.iNumBindParams pAPD * batch.rows.length := by
    rw [List.length_flatMap, List.map_congr_left (g := fun _ => pStmt.iNumBindParams pAPD),
      List.map_const', List.sum_replicate_nat, Nat.mul_comm]
    intro row member
    exact paramVals_length (converts_of_bindsAt (whole.bound row member))
  have nParams : batch.nParams = pStmt.iNumBindParams pAPD * batch.rows.length := whole.nParams
  rw [batchValues, nParams, length, Nat.sub_self, List.replicate_zero, List.append_nil,
    List.take_of_length_le length.le]
  exact ⟨rfl, length⟩

/-- They are the values that are bound at these rows. -/
theorem batchValues_bound (fits : pStmt.Fits backslash convert text executePrepared pAPD)
    (written : pStmt.Written convert text pAPD.lArraySize) {batch : Batch}
    (whole : Statement.Whole (pStmt.statement executePrepared pAPD env)
      (pStmt.rowAnswers convertCParamDataToSQLData pAPD env) batch)
    (inside : ∀ row ∈ batch.rows, row < pAPD.lArraySize) :
    (pStmt.batchValues convertCParamDataToSQLData pAPD batch).map some =
      pAPD.boundParamVals convertCParamDataToSQLData (markersOutside backslash text).card
        batch.rows := by
  rw [(batchValues_eq whole).1, RsDescInfo.boundParamVals, List.map_flatMap,
    ← iNumBindParams_eq fits written]
  refine List.flatMap_congr ?_
  intro row member
  exact RsDescInfo.paramVals_eq fits.offset (inside row member)
    (converts_of_bindsAt (whole.bound row member))

/-- Where the loop ends something is wrong that the execution was given. -/
theorem ends_of_loop (fits : pStmt.Fits backslash convert text executePrepared pAPD)
    (written : pStmt.Written convert text pAPD.lArraySize) {count : Nat}
    (ends : Statement.Ends (pStmt.statement executePrepared pAPD env)
      (pStmt.rowAnswers convertCParamDataToSQLData pAPD env) count) :
    (pStmt.execute convertCParamDataToSQLData executePrepared pAPD env).2.Ends
      convertCParamDataToSQLData (markersOutside backslash text).card
      (rowsOfCommand convert text pAPD.lArraySize) count := by
  obtain ⟨row, inside, reason⟩ := ends
  refine Or.inr ⟨row, inside, ?_⟩
  rw [(statement_planned env fits written).2] at reason
  refine reason.imp (And.imp_right ?_) id
  rintro (needs | unbound | ⟨-, closed⟩)
  · simp only [Statement.needsAt, Bool.and_eq_true] at needs
    exact Or.inl needs.2
  · simp only [Statement.bindsAt, Bool.and_eq_false_iff, Bool.not_eq_false'] at unbound
    rcases unbound with needs | failed
    · simp only [Statement.needsAt, Bool.and_eq_true] at needs
      exact Or.inl needs.2
    · right
      left
      simp only [rowAnswers, Bool.and_eq_true, Bool.not_eq_true', List.all_eq_false,
        List.mem_range, Bool.not_eq_true, Option.isSome_eq_false_iff,
        Option.isNone_iff_eq_none] at failed
      obtain ⟨-, iBindParam, less, none⟩ := failed
      exact ⟨iBindParam, iNumBindParams_eq fits written ▸ less, none⟩
  · right
    right
    simp only [Statement.opensAt, Bool.and_eq_false_iff, Bool.not_eq_false', Bool.and_eq_true,
      Bool.not_eq_true'] at closed
    exact closed.imp And.right And.right

variable (env convertCParamDataToSQLData) in
/-- An execution that fits sends its batches in order. -/
theorem execute_batches (fits : pStmt.Fits backslash convert text executePrepared pAPD)
    (written : pStmt.Written convert text pAPD.lArraySize) :
    (∃ count,
      (pStmt.execute convertCParamDataToSQLData executePrepared pAPD env).2.sent.map
          (fun sent => (sent.command, sent.ppBindParamVals.map some)) =
        (List.range count).map (fun batch =>
          (some (commandFor convert text pAPD.lArraySize (batchRows pAPD.lArraySize
              (rowsOfCommand convert text pAPD.lArraySize) batch).length),
            pAPD.boundParamVals convertCParamDataToSQLData (markersOutside backslash text).card
              (batchRows pAPD.lArraySize (rowsOfCommand convert text pAPD.lArraySize) batch))) ∧
      (count = batchCount pAPD.lArraySize (rowsOfCommand convert text pAPD.lArraySize) ∨
        (pStmt.execute convertCParamDataToSQLData executePrepared pAPD env).2.Ends
          convertCParamDataToSQLData (markersOutside backslash text).card
          (rowsOfCommand convert text pAPD.lArraySize) count)) ∧
    ∀ sent ∈ (pStmt.execute convertCParamDataToSQLData executePrepared pAPD env).2.sent,
      ∃ command, sent.command = some command ∧
        sent.ppBindParamVals.length = (markersOutside backslash command).card := by
  obtain ⟨planned, size⟩ := statement_planned env fits written
  obtain ⟨count, sent, complete⟩ := Statement.sent_turns
    (pStmt.statement executePrepared pAPD env)
    (pStmt.rowAnswers convertCParamDataToSQLData pAPD env) planned
  rw [size] at complete
  cases timeout : (pStmt.rowAnswers convertCParamDataToSQLData pAPD env).setQueryTimeout with
  | false =>
      have none : ((pStmt.statement executePrepared pAPD env).libpqExecuteDirectOrPreparedOnThread
          (pStmt.rowAnswers convertCParamDataToSQLData pAPD env)).batches = [] := by
        rw [Statement.libpqExecuteDirectOrPreparedOnThread, timeout]
        rfl
      rw [execute]
      simp only [none, List.map_nil]
      refine ⟨⟨0, rfl, Or.inr (Or.inl timeout)⟩, ?_⟩
      intro other member
      cases member
  | true =>
      obtain ⟨batches, -⟩ := Statement.final_eq (pStmt.statement executePrepared pAPD env) timeout
      generalize outcome : Statement.outcome ((pStmt.statement executePrepared pAPD env).turns
        (pStmt.rowAnswers convertCParamDataToSQLData pAPD env)
        (pStmt.statement executePrepared pAPD env).lParamsToBind) = progress at sent batches
      have rows : progress.batches.map Batch.rows = (List.range count).map
          (batchRows pAPD.lArraySize (rowsOfCommand convert text pAPD.lArraySize)) :=
        size ▸ sent.rows
      have inside : ∀ batch ∈ progress.batches, ∀ row ∈ batch.rows, row < pAPD.lArraySize := by
        intro batch member row here
        have listed := List.mem_map_of_mem (f := Batch.rows) member
        rw [rows, List.mem_map] at listed
        obtain ⟨index, -, same⟩ := listed
        exact batchRows_mem (same ▸ here)
      refine ⟨⟨count, ?_, complete.imp_right (ends_of_loop fits written)⟩, ?_⟩
      · rw [execute]
        dsimp only
        rw [batches, List.map_map]
        calc progress.batches.map _
            = progress.batches.map fun batch =>
                (some (commandFor convert text pAPD.lArraySize batch.rows.length),
                  pAPD.boundParamVals convertCParamDataToSQLData
                    (markersOutside backslash text).card batch.rows) := by
              refine List.map_congr_left ?_
              intro batch member
              have whole := sent.whole batch member
              exact Prod.ext (batchCommand_eq fits written whole).1
                (batchValues_bound fits written whole (inside batch member))
          _ = (progress.batches.map Batch.rows).map fun rows =>
                (some (commandFor convert text pAPD.lArraySize rows.length),
                  pAPD.boundParamVals convertCParamDataToSQLData
                    (markersOutside backslash text).card rows) := by
              rw [List.map_map]
              rfl
          _ = _ := by
              rw [rows, List.map_map]
              rfl
      · intro other member
        rw [execute] at member
        dsimp only at member
        rw [batches, List.mem_map] at member
        obtain ⟨batch, here, rfl⟩ := member
        have whole := sent.whole batch here
        obtain ⟨command, markers⟩ := batchCommand_eq fits written whole
        refine ⟨_, command, ?_⟩
        rw [markers, ← iNumBindParams_eq fits written]
        exact (batchValues_eq whole).2

theorem rowsOfCommand_pos (fits : pStmt.Fits backslash convert text executePrepared pAPD)
    (written : pStmt.Written convert text pAPD.lArraySize) (env : ExecuteEnv) :
    0 < rowsOfCommand convert text pAPD.lArraySize := by
  rw [← (statement_planned env fits written).2]
  exact Statement.rowsOfBatch_pos _

theorem execute_inOrder (fits : pStmt.Fits backslash convert text executePrepared pAPD)
    (written : pStmt.Written convert text pAPD.lArraySize) :
    (pStmt.execute convertCParamDataToSQLData executePrepared pAPD env).2.InOrder backslash
      convert convertCParamDataToSQLData text := by
  obtain ⟨⟨count, sent, complete⟩, markers⟩ :=
    execute_batches env convertCParamDataToSQLData fits written
  refine ⟨⟨count, sent, complete⟩, markers, fun well => ?_⟩
  have all := complete.resolve_right (well count)
  have positive := rowsOfCommand_pos fits written env
  have values := congrArg (List.flatMap Prod.snd) sent
  rw [List.flatMap_map, List.flatMap_map] at values
  have rows : List.range pAPD.lArraySize = (List.range count).flatMap
      (batchRows pAPD.lArraySize (rowsOfCommand convert text pAPD.lArraySize)) := by
    rw [all]
    exact (batchRows_all _ positive).symm
  rw [List.map_flatMap]
  refine values.trans ?_
  change _ = pAPD.boundParamVals convertCParamDataToSQLData _ (List.range pAPD.lArraySize)
  rw [rows, RsDescInfo.boundParamVals, List.flatMap_assoc]
  rfl

/-! ## All runs -/

variable (convertCParamDataToSQLData) in
/-- The statement's fields are those of the text that was given last, along every run. -/
theorem calls_kept (kept : Kept convert text pStmt) (calls : List Call) :
    Kept convert (calls.foldl Call.text text)
      (pStmt.calls convertCParamDataToSQLData convert calls).1 := by
  induction calls generalizing text pStmt with
  | nil => exact kept
  | cons call rest ih =>
      rw [RsStmtInfo.calls, List.foldl_cons]
      refine ih ?_
      obtain ⟨next, -⟩ := ready_written kept call
      rw [RsStmtInfo.call]
      revert next
      generalize pStmt.ready convert call = start
      intro next
      obtain ⟨executes, pStmt⟩ := start
      cases executes with
      | none => exact next
      | some execution =>
          obtain ⟨executePrepared, pAPD, env⟩ := execution
          exact next.of_server pStmt.pPrepareHead _

/--
In every run of calls on a statement, every execution whose text, rows and server fit
sends the batches of its rows in order.
-/
theorem calls_inOrder (backslash iMultiInsertCmdConvertEnable : Bool)
    (convertCParamDataToSQLData : RsDescRec → Option Int → Option Int → Option ParamVal)
    (before : List Call) (call : Call)
    (fits : (RsStmtInfo.new.calls convertCParamDataToSQLData iMultiInsertCmdConvertEnable
      before).1.CallFits backslash iMultiInsertCmdConvertEnable (before.foldl Call.text []) call) :
    ∀ execution ∈ ((RsStmtInfo.new.calls convertCParamDataToSQLData iMultiInsertCmdConvertEnable
        before).1.call convertCParamDataToSQLData iMultiInsertCmdConvertEnable call).2,
      execution.InOrder backslash iMultiInsertCmdConvertEnable convertCParamDataToSQLData
        ((before ++ [call]).foldl Call.text []) := by
  have start : Kept iMultiInsertCmdConvertEnable [] RsStmtInfo.new :=
    ⟨fun _ => rfl, fun word => absurd rfl word⟩
  have kept := calls_kept convertCParamDataToSQLData start before
  rw [List.foldl_append, List.foldl_cons, List.foldl_nil]
  revert fits kept
  generalize (RsStmtInfo.new.calls convertCParamDataToSQLData iMultiInsertCmdConvertEnable
    before).1 = pStmt
  intro fits kept
  obtain ⟨-, written⟩ := ready_written kept call
  rw [CallFits] at fits
  rw [RsStmtInfo.call]
  revert fits written
  generalize pStmt.ready iMultiInsertCmdConvertEnable call = ready
  intro fits written
  obtain ⟨executes, pStmt⟩ := ready
  cases executes with
  | none =>
      intro execution member
      cases member
  | some execution =>
      obtain ⟨executePrepared, pAPD, env⟩ := execution
      intro execution member
      rw [List.mem_singleton.mp member]
      have here := fits _ _ _ rfl
      exact execute_inOrder here (written _ _ _ rfl here.rewrites.word)

end RsStmtInfo

/-! ## A run and a counterexample -/

/-- Everything around an execution goes well, and the server counts one parameter a row. -/
def goodEnv (iNumberOfParams : Nat) : ExecuteEnv where
  answers :=
    { setQueryTimeout := true
      needDataAtExec := fun _ => false
      converts := fun _ => true
      rePrepareLastBatch := true
      transactionIdle := fun _ => false
      beginCommand := fun _ => true
      results := fun _ => [⟨.commandOk, false, false⟩]
      updateOutParams := fun _ => true
      rePrepareRegular := true
      refCursorError := false }
  otherStreamingCursor := false
  rePrepare := ⟨true, some iNumberOfParams⟩
  failsDeallocated := false
  arrayStatus := false
  autoCommitOff := false
  iFunctionCall := false
  outParams := false
  streamingCursor := false

/-- One text column, bound by columns with lengths and a bind offset. -/
def textColumn (lArraySize : Nat) (positive : 0 < lArraySize) (plBindOffset : Int) : RsDescInfo where
  pDescRecHead := [⟨1, false, some 1000, 4, some 2000⟩]
  lArraySize := lArraySize
  positive := positive
  lBindType := sqlBindByColumn
  plBindOffset := plBindOffset

/-- A parameter whose values are letters; the first two of its lengths say NULL. -/
def letters (_ : RsDescRec) (_ plParamDataStrLenInd : Option Int) : Option ParamVal :=
  if plParamDataStrLenInd = some 2000 ∨ plParamDataStrLenInd = some 2008 then some none
  else some (some ['a'])

def oneValue : List Char := "insert into t values (?)".toList

def preparedForOne : List Call := [.sqlPrepare oneValue (textColumn 1 (by decide) 0) ⟨true, some 1⟩]

theorem oneValue_rewritable : Rewritable false oneValue 2 := by
  intro pLeftBracket pRightBracket found
  have brackets : findTuple oneValue = some (21, 23) := by decide
  rw [brackets] at found
  cases found
  have count : countParamMarkers (some oneValue) sqlNtsLen = 1 := by decide
  have tuples : getTotalMultiTuples 1 2 = (2, 0) := by decide
  rw [count, tuples]
  refine ⟨⟨14, by decide, by decide, by decide, by decide⟩, ?_, by decide, by decide, ?_, ?_⟩
  · intro i first last
    obtain rfl | rfl : i = 22 ∨ i = 23 := by omega
    · decide
    · decide
  · rw [MarkersFit]
    decide
  · intro some
    cases some

set_option maxRecDepth 4000 in
/-- It is executed with two rows. -/
theorem calls_inOrder_twoRows :
    ((RsStmtInfo.new.calls letters true preparedForOne).1.call letters true
        (.sqlExecute (textColumn 2 (by decide) 0) (goodEnv 2))).2.length = 1 ∧
      ∀ execution ∈ ((RsStmtInfo.new.calls letters true preparedForOne).1.call letters true
          (.sqlExecute (textColumn 2 (by decide) 0) (goodEnv 2))).2,
        execution.InOrder false true letters oneValue := by
  refine ⟨by decide, RsStmtInfo.calls_inOrder false true letters preparedForOne
    (.sqlExecute (textColumn 2 (by decide) 0) (goodEnv 2)) ?_⟩
  have ready : (RsStmtInfo.new.calls letters true preparedForOne).1.ready true
      (.sqlExecute (textColumn 2 (by decide) 0) (goodEnv 2)) =
      (some (true, textColumn 2 (by decide) 0, goodEnv 2),
        ⟨⟨some oneValue, 2, 2, 0⟩, "insert into t values (?),(?)".toList, none, 2, some 2,
          some "insert into t values (?),(?)".toList⟩) := by
    rfl
  rw [RsStmtInfo.CallFits, ready]
  intro executePrepared pAPD env executes
  cases executes
  refine ⟨⟨by decide, by decide, by decide, by decide, by decide, ?_⟩, fun _ => rfl, ?_, by decide,
    ⟨by decide, by decide⟩⟩
  · intro command rewritten
    refine ⟨oneValue_rewritable, ?_⟩
    have bracket : command.pRightBracket = 23 := by
      have brackets : (rewriting true oneValue 2).map MultiInsertCommand.pRightBracket =
        some 23 := by decide
      have same : rewriting true oneValue 2 = some command := rewritten
      rw [same] at brackets
      exact Option.some.inj brackets
    rw [bracket]
    decide
  · rintro iNumberOfParams ⟨⟩
    decide

/-- With the bind offset the lengths are looked for where they were without it. -/
theorem calls_inOrder_wrong : ¬ ∀ (backslash : Bool)
    (convertCParamDataToSQLData : RsDescRec → Option Int → Option Int → Option ParamVal)
    (before : List Call) (call : Call),
    ∀ execution ∈ ((RsStmtInfo.new.calls convertCParamDataToSQLData true before).1.call
        convertCParamDataToSQLData true call).2,
      execution.InOrder backslash true convertCParamDataToSQLData
        ((before ++ [call]).foldl Call.text []) := by
  intro every
  have sent : (RsStmtInfo.new.call letters true (.sqlExecDirect oneValue
      (textColumn 2 (by decide) 16) true (goodEnv 1))).2 =
      [⟨textColumn 2 (by decide) 16, goodEnv 1,
        [⟨some "insert into t values (?),(?)".toList, [none, none]⟩]⟩] := by
    rfl
  have inOrder := every false letters [] (.sqlExecDirect oneValue (textColumn 2 (by decide) 16)
    true (goodEnv 1)) _ (by rw [RsStmtInfo.calls, sent]; exact List.mem_singleton.mpr rfl)
  obtain ⟨-, -, values⟩ := inOrder
  have convertible : ∀ row < 2, ∀ iBindParam < (markersOutside false oneValue).card,
      (textColumn 2 (by decide) 16).paramVal row letters iBindParam ≠ none := by
    decide
  have same := values (by
    rintro count (timeout | ⟨row, inside, ⟨-, needs | ⟨iBindParam, less, none⟩ | closed | closed⟩ |
      ⟨-, outParams, -⟩⟩)
    · cases timeout
    · cases needs
    · exact convertible row inside iBindParam less none
    · cases closed
    · cases closed
    · cases outParams)
  revert same
  decide

end RedshiftOdbc.Execute
