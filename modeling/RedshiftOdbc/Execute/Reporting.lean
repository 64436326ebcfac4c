import RedshiftOdbc.Execute.ArrayBinding
import Mathlib.Data.List.Basic
import Mathlib.Data.Nat.Find

/-!
# What an array execution reports

A row's status is written when its values are bound, before its command is
sent, and the return code is set again by the re-prepare of the last batch, by
a transaction start, by a row that waits for its data, and by the re-prepare
behind the loop.  With an array for the statuses the report is right exactly
when nothing goes wrong for a row that has been bound; without one, exactly when
nothing sets the return code again behind the last failed command.
-/

namespace RedshiftOdbc.Execute

def Answers.fails (answers : Answers) (row : Nat) : Prop :=
  ∃ result ∈ answers.results row, result.pqRc.ok = false

namespace Statement

variable (statement : Statement) (answers : Answers)

/--
A failed command makes the function return an error, and only rows whose own
command was sent and did not fail have the status of success.
-/
def Reported : Prop :=
  let final := statement.libpqExecuteDirectOrPreparedOnThread answers
  (∀ batch ∈ final.batches, answers.fails batch.turn → final.rc = .error) ∧
    ∀ row, (row, ParamStatus.success) ∈ final.arrayStatus →
      ∃ batch ∈ final.batches, row ∈ batch.rows ∧ ¬ answers.fails batch.turn

/-! ## The condition -/

/-- The row does not wait for data and its parameters are put into the buffers. -/
def bindsAt (row : Nat) : Bool :=
  !statement.needsAt answers row && !(statement.descRec && !answers.converts row)

/-- A re-prepare or a transaction start that the row's command waits for fails. -/
def opensAt (row : Nat) : Bool :=
  !(statement.rePreparesAt row && !answers.rePrepareLastBatch) &&
    !(statement.beginsAt answers row && !answers.beginCommand row)

/-- The return code is set to success before the row's command is sent. -/
def resetsAt (row : Nat) : Bool := statement.rePreparesAt row || statement.beginsAt answers row

/-- A failed result of the row's command is looked at. -/
def seenAt (row : Nat) : Bool :=
  (readResults statement.streamingCursor .success statement.iFunctionCall
    (answers.results row)).1 = .error

/-- The OUT parameters are read behind the row's command, and that fails. -/
def outFailsAt (row : Nat) : Bool :=
  (readResults statement.streamingCursor .success statement.iFunctionCall
    (answers.results row)).2 && statement.outParams && !answers.updateOutParams row

/-- The row is the first one behind a command, or the first of all. -/
def startsAt (row : Nat) : Bool := row = 0 || statement.sendsAt (row - 1)

/-- The loop goes on behind a row for which all goes well. -/
def Passes (row : Nat) : Prop :=
  statement.bindsAt answers row = true ∧
    (statement.sendsAt row = true → statement.outFailsAt answers row = false)

/-- Nothing fails at the row that leaves a status of success without a command that succeeded. -/
def Fine (row : Nat) : Prop :=
  (statement.bindsAt answers row = false → statement.startsAt row = true) ∧
    (statement.bindsAt answers row = true → statement.sendsAt row = true →
      statement.opensAt answers row = true ∧ ¬ answers.fails row)

/--
With an array for the statuses: up to the first row that waits for its data or ends
the loop, no command fails or is left unsent for rows that have been bound.
-/
def StatusKept : Prop :=
  (∀ row < statement.lParamsToBind, (∀ earlier < row, statement.Passes answers earlier) →
      statement.needsAt answers row = false → statement.Fine answers row) ∧
    ((∀ row < statement.lParamsToBind, statement.Passes answers row) →
      statement.sendsAt (statement.lParamsToBind - 1) = true)

def SentAt (row : Nat) : Prop :=
  statement.sendsAt row = true ∧ ∀ earlier ≤ row, statement.needsAt answers earlier = false

/-- A failure has been seen, and nothing has set the return code since. -/
def ErrorAfter (rows : Nat) : Prop :=
  ∃ row < rows, statement.sendsAt row = true ∧ statement.seenAt answers row = true ∧
    ∀ later, row < later → later < rows → statement.sendsAt later = true →
      statement.resetsAt answers later = false

/-- The loop goes on behind the row. -/
def GoesOn (row : Nat) : Prop :=
  statement.needsAt answers row = true ∨ statement.bindsAt answers row = true ∧
    ((∃ earlier < row, statement.needsAt answers earlier = true) ∨
      (statement.sendsAt row = true → statement.opensAt answers row = true ∧
        (statement.outFailsAt answers row = true → statement.ErrorAfter answers (row + 1))))

/--
A command fails and the loop comes to its end, where a row that waits for its data,
the re-prepare of the regular command, or a transaction start behind the failed
command has set the return code, or the failed result has not been looked at.
-/
def ErrorLost : Prop :=
  (∀ row < statement.lParamsToBind, statement.GoesOn answers row) ∧
    (∃ row < statement.lParamsToBind, statement.SentAt answers row ∧ answers.fails row) ∧
    ((∃ row < statement.lParamsToBind, statement.needsAt answers row = true) ∨
      (if statement.rePreparesAt (statement.lParamsToBind - 1) then
          answers.rePrepareRegular = true
        else ¬ statement.ErrorAfter answers statement.lParamsToBind) ∧
        answers.refCursorError = false)

/-! ## One turn -/

variable {statement answers} {row : Nat} {progress : Progress}

theorem sendsAt_of_needsAt (needs : statement.needsAt answers row = true) :
    statement.sendsAt row = true := by
  simp only [needsAt, Bool.and_eq_true, decide_eq_true_eq] at needs
  simp [sendsAt, needs.1.2]

theorem turn_needs (needs : statement.needsAt answers row = true) :
    statement.turn answers row progress = .ok { progress with rc := .needData, bound := [] } := by
  rw [turn, bindRow, if_pos needs]
  dsimp only
  rw [if_pos (sendsAt_of_needsAt needs), sendTurn, if_pos rfl]

theorem turn_unconverted (ready : statement.needsAt answers row = false)
    (unbound : statement.bindsAt answers row = false) :
    statement.turn answers row progress = .error { progress with rc := .error } := by
  simp only [bindsAt, ready, Bool.not_false, Bool.true_and, Bool.not_eq_eq_eq_not] at unbound
  rw [turn, bindRow, if_neg (by simp [ready]), if_pos unbound]

variable (statement) in
def put (row : Nat) (progress : Progress) : Progress :=
  { progress with
    bound := progress.bound ++ [row]
    arrayStatus :=
      if statement.descRec && statement.arrayStatus then
        progress.arrayStatus ++ [(row, paramStatus progress.rc)]
      else progress.arrayStatus
    rowsProcessed := if statement.descRec then some (row + 1) else progress.rowsProcessed }

theorem turn_bound (bound : statement.bindsAt answers row = true) :
    statement.turn answers row progress =
      if statement.sendsAt row then
        statement.sendTurn answers row (statement.put row progress)
      else .ok (statement.put row progress) := by
  simp only [bindsAt, Bool.and_eq_true, Bool.not_eq_eq_eq_not, Bool.not_true] at bound
  rw [turn, bindRow, if_neg (by simp [bound.1]), if_neg (by simp [bound.2])]
  rfl

/-- A row behind one that waits for its data. -/
theorem sendTurn_waiting (waiting : progress.rc = .needData) :
    statement.sendTurn answers row progress = .ok { progress with bound := [] } := by
  rw [sendTurn, if_pos waiting]

theorem sendTurn_unopened (code : progress.rc ≠ .needData)
    (closed : statement.opensAt answers row = false) :
    ∃ prepare, statement.sendTurn answers row progress =
      .error { progress with rc := .error, iLastBatchMultiInsertPrepare := prepare } := by
  rw [sendTurn, if_neg code, openBatch]
  cases prepares : statement.rePreparesAt row with
  | false =>
      have failed : statement.beginsAt answers row = true ∧ answers.beginCommand row = false := by
        simpa [opensAt, prepares] using closed
      exact ⟨progress.iLastBatchMultiInsertPrepare, by simp [failed]⟩
  | true =>
      cases prepared : answers.rePrepareLastBatch with
      | false => exact ⟨true, by simp⟩
      | true =>
          have failed : statement.beginsAt answers row = true ∧
              answers.beginCommand row = false := by
            simpa [opensAt, prepares, prepared] using closed
          exact ⟨true, by simp [failed]⟩

variable (statement answers) in
def sent (row : Nat) (progress : Progress) (rc : SqlReturn) : Progress :=
  { progress with
    rc := rc
    batches := progress.batches ++
      [⟨progress.bound, row, statement.nParamsAt row, statement.lastBatchAt row⟩]
    iLastBatchMultiInsertPrepare :=
      statement.rePreparesAt row || progress.iLastBatchMultiInsertPrepare }

theorem sendTurn_opened (code : progress.rc ≠ .needData)
    (opens : statement.opensAt answers row = true) :
    statement.sendTurn answers row progress =
      let read := readResults statement.streamingCursor
        (if statement.resetsAt answers row then .success else progress.rc)
        statement.iFunctionCall (answers.results row)
      if read.1 = .success && read.2 && statement.outParams && !answers.updateOutParams row then
        .error (statement.sent row progress .error)
      else .ok { statement.sent row progress read.1 with bound := [] } := by
  have opened : statement.openBatch answers row progress =
      .ok { progress with
        rc := if statement.resetsAt answers row then .success else progress.rc
        iLastBatchMultiInsertPrepare :=
          statement.rePreparesAt row || progress.iLastBatchMultiInsertPrepare } := by
    simp only [opensAt, Bool.and_eq_true, Bool.not_eq_eq_eq_not, Bool.not_true] at opens
    rw [openBatch, if_neg (by simp [opens.1]), resetsAt]
    cases prepares : statement.rePreparesAt row with
    | false =>
        cases begins : statement.beginsAt answers row with
        | false => simp
        | true =>
            have begun : answers.beginCommand row = true := by simpa [begins] using opens.2
            simp [begun]
    | true =>
        cases begins : statement.beginsAt answers row with
        | false => simp
        | true =>
            have begun : answers.beginCommand row = true := by simpa [begins] using opens.2
            simp [begun]
  rw [sendTurn, if_neg code, opened]
  dsimp only
  rw [sendBatch]
  dsimp only
  generalize readResults statement.streamingCursor _ statement.iFunctionCall _ = read
  by_cases failed : (decide (read.1 = .success) && read.2 && statement.outParams &&
      !answers.updateOutParams row) = true
  · rw [if_pos failed, if_pos failed]
    rfl
  · rw [if_neg failed, if_neg failed]
    rfl

/-! ## Reading results -/

theorem setResultInStmt_success {pqRc : ExecStatus} :
    setResultInStmt .success pqRc = if pqRc.ok then .success else .error := rfl

/-- An error stays in the return code while results are read. -/
theorem readResults_error (streamingCursor iReadOutParamVals : Bool) (results : List PgResult) :
    (readResults streamingCursor .error iReadOutParamVals results).1 = .error := by
  induction results generalizing iReadOutParamVals with
  | nil => rfl
  | cons result rest ih =>
      have stays : setResultInStmt .error result.pqRc = .error := by simp [setResultInStmt]
      rw [readResults, stays]
      split
      · rfl
      · rw [if_neg (by simp)]
        split
        · rfl
        · exact ih iReadOutParamVals

/-- Results that have not failed leave the return code alone. -/
theorem readResults_success (streamingCursor iReadOutParamVals : Bool) {results : List PgResult}
    (fine : ∀ result ∈ results, result.pqRc.ok = true) :
    (readResults streamingCursor .success iReadOutParamVals results).1 = .success := by
  induction results generalizing iReadOutParamVals with
  | nil => rfl
  | cons result rest ih =>
      have stays : setResultInStmt .success result.pqRc = .success := by
        simp [setResultInStmt, fine result (List.mem_cons_self ..)]
      rw [readResults, stays]
      split
      · rfl
      · split
        · rfl
        · split
          · rfl
          · exact ih iReadOutParamVals fun result member =>
              fine result (List.mem_cons_of_mem _ member)

theorem readResults_cases (streamingCursor iReadOutParamVals : Bool) (results : List PgResult) :
    (readResults streamingCursor .success iReadOutParamVals results).1 = .success ∨
      (readResults streamingCursor .success iReadOutParamVals results).1 = .error := by
  induction results generalizing iReadOutParamVals with
  | nil => exact .inl rfl
  | cons result rest ih =>
      rw [readResults, setResultInStmt_success]
      cases result.pqRc.ok with
      | false =>
          right
          simp only [Bool.false_eq_true, if_false]
          split
          · rfl
          · rw [if_neg (by simp)]
            split
            · rfl
            · exact readResults_error streamingCursor iReadOutParamVals rest
      | true =>
          simp only [if_true]
          split
          · exact .inl rfl
          · split
            · exact .inl rfl
            · split
              · exact .inl rfl
              · exact ih iReadOutParamVals

theorem not_fails {answers : Answers} {row : Nat} :
    ¬ answers.fails row ↔ ∀ result ∈ answers.results row, result.pqRc.ok = true := by
  simp [Answers.fails]

/-! ## With an array for the statuses -/

/-- Where the loop is left, whether at its end or before. -/
def outcome : Except Progress Progress → Progress
  | .ok progress => progress
  | .error progress => progress

variable (statement) in
/-- The function changes nothing but the return code behind the loop. -/
theorem final_eq (timeout : answers.setQueryTimeout = true) :
    (statement.libpqExecuteDirectOrPreparedOnThread answers).batches =
        (outcome (statement.turns answers statement.lParamsToBind)).batches ∧
      (statement.libpqExecuteDirectOrPreparedOnThread answers).arrayStatus =
        (outcome (statement.turns answers statement.lParamsToBind)).arrayStatus := by
  rw [libpqExecuteDirectOrPreparedOnThread, if_pos timeout]
  cases statement.turns answers statement.lParamsToBind with
  | error progress => exact ⟨rfl, rfl⟩
  | ok progress =>
      dsimp only [outcome, Answers.finish]
      split_ifs <;> exact ⟨rfl, rfl⟩

variable (answers) in
/-- A row has the status of success, and no command that succeeded was sent for it. -/
def Misreports (progress : Progress) : Prop :=
  ∃ lost, (lost, ParamStatus.success) ∈ progress.arrayStatus ∧
    ∀ batch ∈ progress.batches, lost ∈ batch.rows → answers.fails batch.turn

variable (answers) in
/-- No command failed, and every row with the status of success had one. -/
def Right (progress : Progress) : Prop :=
  (∀ batch ∈ progress.batches, ¬ answers.fails batch.turn) ∧
    ∀ row, (row, ParamStatus.success) ∈ progress.arrayStatus →
      ∃ batch ∈ progress.batches, row ∈ batch.rows

theorem reported_of_right (timeout : answers.setQueryTimeout = true)
    (right : Right answers (outcome (statement.turns answers statement.lParamsToBind))) :
    statement.Reported answers := by
  obtain ⟨batches, statuses⟩ := final_eq statement timeout
  rw [Reported, batches, statuses]
  refine ⟨fun batch member failed => absurd failed (right.1 batch member), ?_⟩
  intro row marked
  obtain ⟨batch, member, inside⟩ := right.2 row marked
  exact ⟨batch, member, inside, right.1 batch member⟩

theorem not_reported_of_misreports (timeout : answers.setQueryTimeout = true)
    (wrong : Misreports answers (outcome (statement.turns answers statement.lParamsToBind))) :
    ¬ statement.Reported answers := by
  obtain ⟨batches, statuses⟩ := final_eq statement timeout
  rw [Reported, batches, statuses]
  rintro ⟨-, every⟩
  obtain ⟨lost, marked, failed⟩ := wrong
  obtain ⟨batch, member, inside, succeeded⟩ := every lost marked
  exact succeeded (failed batch member inside)

variable (statement) in
/-- What a turn can add: the status of its row, and one command for the rows in the buffers. -/
structure Adds (row : Nat) (progress after : Progress) : Prop where
  statuses : ∃ more, after.arrayStatus = progress.arrayStatus ++ more ∧
    ((statement.descRec && statement.arrayStatus) = false → more = [])
  batches : after.batches = progress.batches ∨
    ∃ rows turn nParams lastBatch, after.batches = progress.batches ++
      [⟨rows, turn, nParams, lastBatch⟩] ∧ rows ⊆ progress.bound ++ [row]
  bound : after.bound ⊆ progress.bound ++ [row]

variable (statement answers) in
theorem turn_adds (row : Nat) (progress : Progress) :
    Adds statement row progress (outcome (statement.turn answers row progress)) := by
  have unchanged : ∃ more, progress.arrayStatus = progress.arrayStatus ++ more ∧
      ((statement.descRec && statement.arrayStatus) = false → more = []) :=
    ⟨[], (List.append_nil _).symm, fun _ => rfl⟩
  have put_statuses : ∃ more, (statement.put row progress).arrayStatus =
      progress.arrayStatus ++ more ∧
        ((statement.descRec && statement.arrayStatus) = false → more = []) := by
    rw [put]
    dsimp only
    split
    next recorded => exact ⟨_, rfl, fun none => absurd (recorded.symm.trans none) (by simp)⟩
    · exact unchanged
  cases needs : statement.needsAt answers row with
  | true =>
      rw [turn_needs needs]
      exact ⟨unchanged, .inl rfl, List.nil_subset _⟩
  | false =>
      cases bound : statement.bindsAt answers row with
      | false =>
          rw [turn_unconverted needs bound]
          exact ⟨unchanged, .inl rfl, List.subset_append_left _ _⟩
      | true =>
          rw [turn_bound bound]
          split
          · by_cases waiting : progress.rc = .needData
            · have waits : (statement.put row progress).rc = .needData := waiting
              rw [sendTurn_waiting waits]
              exact ⟨put_statuses, .inl rfl, List.nil_subset _⟩
            · cases opens : statement.opensAt answers row with
              | false =>
                  have goes : (statement.put row progress).rc ≠ .needData := waiting
                  obtain ⟨prepare, failed⟩ := sendTurn_unopened goes opens
                  rw [failed]
                  exact ⟨put_statuses, .inl rfl, List.Subset.refl _⟩
              | true =>
                  have goes : (statement.put row progress).rc ≠ .needData := waiting
                  rw [sendTurn_opened goes opens]
                  dsimp only
                  generalize readResults statement.streamingCursor _ statement.iFunctionCall _ =
                    read
                  split
                  · exact ⟨put_statuses, .inr ⟨_, _, _, _, rfl, List.Subset.refl _⟩,
                      List.Subset.refl _⟩
                  · exact ⟨put_statuses, .inr ⟨_, _, _, _, rfl, List.Subset.refl _⟩,
                      List.nil_subset _⟩
          · exact ⟨put_statuses, .inl rfl, List.Subset.refl _⟩

variable (answers) in
/-- A row behind the turns so far is misreported whatever comes. -/
def Doomed (lost row : Nat) (progress : Progress) : Prop :=
  (lost, ParamStatus.success) ∈ progress.arrayStatus ∧ lost < row ∧ lost ∉ progress.bound ∧
    ∀ batch ∈ progress.batches, lost ∈ batch.rows → answers.fails batch.turn

theorem Doomed.turn {lost : Nat} (doomed : Doomed answers lost row progress) :
    Doomed answers lost (row + 1) (outcome (statement.turn answers row progress)) := by
  obtain ⟨marked, before, unbound, failed⟩ := doomed
  obtain ⟨⟨more, statuses, -⟩, batches, bound⟩ :=
    turn_adds statement answers row progress
  have outside : ∀ rows ⊆ progress.bound ++ [row], lost ∉ rows := by
    intro rows inside member
    rcases List.mem_append.mp (inside member) with old | new
    · exact unbound old
    · exact absurd (List.mem_singleton.mp new) (Nat.ne_of_lt before)
  refine ⟨?_, Nat.lt_succ_of_lt before, outside _ bound, ?_⟩
  · rw [statuses]
    exact List.mem_append_left _ marked
  · intro batch member inside
    rcases batches with same | ⟨rows, turn, nParams, lastBatch, added, subset⟩
    · exact failed batch (same ▸ member) inside
    · rw [added] at member
      rcases List.mem_append.mp member with old | new
      · exact failed batch old inside
      · rw [List.mem_singleton.mp new] at inside
        exact absurd inside (outside rows subset)

/-- What is doomed stays so to the end of the loop. -/
theorem misreports_of_doomed {lost : Nat}
    (doomed : Doomed answers lost row (outcome (statement.turns answers row))) {last : Nat}
    (later : row ≤ last) : Misreports answers (outcome (statement.turns answers last)) := by
  have stays : Doomed answers lost last (outcome (statement.turns answers last)) := by
    induction last, later using Nat.le_induction with
    | base => exact doomed
    | succ last _ ih =>
        rw [turns]
        cases reached : statement.turns answers last with
        | error progress =>
            rw [reached] at ih
            exact ⟨ih.1, Nat.lt_succ_of_lt ih.2.1, ih.2.2.1, ih.2.2.2⟩
        | ok progress =>
            rw [reached] at ih
            exact Doomed.turn ih
  exact ⟨lost, stays.1, stays.2.2.2⟩

/-- A loop that has been left is not entered again. -/
theorem turns_error {progress : Progress} (left : statement.turns answers row = .error progress)
    {last : Nat} (later : row ≤ last) : statement.turns answers last = .error progress := by
  induction last, later using Nat.le_induction with
  | base => exact left
  | succ last _ ih => rw [turns, ih]

variable (statement answers) in
structure Clean (row : Nat) (progress : Progress) : Prop where
  code : progress.rc = .success
  fine : ∀ batch ∈ progress.batches, ¬ answers.fails batch.turn
  marked : ∀ earlier, (earlier, ParamStatus.success) ∈ progress.arrayStatus →
    earlier ∈ progress.bound ∨ ∃ batch ∈ progress.batches, earlier ∈ batch.rows
  recorded : statement.descRec = true → statement.arrayStatus = true →
    ∀ earlier ∈ progress.bound, (earlier, ParamStatus.success) ∈ progress.arrayStatus
  empty : statement.startsAt row = true ↔ progress.bound = []
  apart : ∀ batch ∈ progress.batches, ∀ earlier ∈ batch.rows,
    earlier < row ∧ earlier ∉ progress.bound
  before : ∀ earlier ∈ progress.bound, earlier < row

theorem Clean.right (clean : Clean statement answers row progress)
    (starts : statement.startsAt row = true) : Right answers progress := by
  refine ⟨clean.fine, fun earlier marked => ?_⟩
  rcases clean.marked earlier marked with bound | sent
  · rw [clean.empty.mp starts] at bound
    cases bound
  · exact sent

theorem startsAt_succ : statement.startsAt (row + 1) = statement.sendsAt row := by
  simp [startsAt]

/-- The statuses and the buffers when a row has been put behind clean ones. -/
theorem Clean.put (clean : Clean statement answers row progress) :
    (∀ earlier, (earlier, ParamStatus.success) ∈ (statement.put row progress).arrayStatus →
        earlier ∈ progress.bound ++ [row] ∨ ∃ batch ∈ progress.batches, earlier ∈ batch.rows) ∧
      (statement.descRec = true → statement.arrayStatus = true →
        ∀ earlier ∈ progress.bound ++ [row],
          (earlier, ParamStatus.success) ∈ (statement.put row progress).arrayStatus) := by
  have old : ∀ earlier, (earlier, ParamStatus.success) ∈ progress.arrayStatus →
      earlier ∈ progress.bound ++ [row] ∨ ∃ batch ∈ progress.batches, earlier ∈ batch.rows :=
    fun earlier marked => (clean.marked earlier marked).imp_left (List.mem_append_left _)
  rw [Statement.put, clean.code, paramStatus]
  dsimp only
  constructor
  · intro earlier marked
    split at marked
    · rcases List.mem_append.mp marked with marked | new
      · exact old earlier marked
      · cases List.mem_singleton.mp new
        exact .inl (List.mem_append_right _ (List.mem_singleton_self _))
    · exact old earlier marked
  · intro records array earlier member
    rw [if_pos (by simp [records, array])]
    rcases List.mem_append.mp member with bound | new
    · exact List.mem_append_left _ (clean.recorded records array earlier bound)
    · rw [List.mem_singleton.mp new]
      exact List.mem_append_right _ (List.mem_singleton_self _)

/-- The command of a row behind clean ones, when it is sent. -/
theorem Clean.sendTurn (clean : Clean statement answers row progress)
    (opens : statement.opensAt answers row = true) :
    statement.sendTurn answers row (statement.put row progress) =
      if statement.seenAt answers row = false ∧ statement.outFailsAt answers row = true then
        .error (statement.sent row (statement.put row progress) .error)
      else .ok { statement.sent row (statement.put row progress)
        (if statement.seenAt answers row then .error else .success) with bound := [] } := by
  have code : (statement.put row progress).rc = .success := clean.code
  rw [sendTurn_opened (by rw [code]; simp) opens, code, ite_self, seenAt, outFailsAt]
  dsimp only
  have cases := readResults_cases statement.streamingCursor statement.iFunctionCall
    (answers.results row)
  generalize readResults statement.streamingCursor .success statement.iFunctionCall
    (answers.results row) = read at cases
  rcases cases with success | failed
  · simp [success, and_assoc]
  · simp [failed]

/-- A row for which all goes well keeps the loop clean. -/
theorem Clean.turn (clean : Clean statement answers row progress)
    (passes : statement.Passes answers row) (fine : statement.Fine answers row) :
    ∃ after, statement.turn answers row progress = .ok after ∧
      Clean statement answers (row + 1) after := by
  obtain ⟨marked, recorded⟩ := clean.put
  rw [turn_bound passes.1]
  cases sends : statement.sendsAt row with
  | false =>
      refine ⟨statement.put row progress, rfl, clean.code, clean.fine, marked, recorded, ?_, ?_, ?_⟩
      · rw [startsAt_succ, sends]
        simp [Statement.put]
      · intro batch member earlier inside
        obtain ⟨before, unbound⟩ := clean.apart batch member earlier inside
        refine ⟨Nat.lt_succ_of_lt before, fun bound => ?_⟩
        rcases List.mem_append.mp bound with old | new
        · exact unbound old
        · exact Nat.ne_of_lt before (List.mem_singleton.mp new)
      · intro earlier bound
        rcases List.mem_append.mp bound with old | new
        · exact Nat.lt_succ_of_lt (clean.before earlier old)
        · rw [List.mem_singleton.mp new]
          exact Nat.lt_succ_self row
  | true =>
      obtain ⟨opens, succeeds⟩ := fine.2 passes.1 sends
      have unseen : statement.seenAt answers row = false := by
        simp [seenAt, readResults_success _ _ (not_fails.mp succeeds)]
      rw [if_pos rfl, clean.sendTurn opens, unseen, passes.2 sends]
      refine ⟨_, rfl, rfl, ?_, ?_, ?_, ?_, ?_, ?_⟩
      · intro batch member
        rcases List.mem_append.mp member with old | new
        · exact clean.fine batch old
        · rw [List.mem_singleton.mp new]
          exact succeeds
      · intro earlier here
        refine .inr ?_
        rcases marked earlier here with bound | ⟨batch, member, inside⟩
        · exact ⟨_, List.mem_append_right _ (List.mem_singleton_self _), bound⟩
        · exact ⟨batch, List.mem_append_left _ member, inside⟩
      · intro _ _ earlier bound
        cases bound
      · rw [startsAt_succ, sends]
        simp
      · intro batch member earlier inside
        refine ⟨?_, List.not_mem_nil⟩
        rcases List.mem_append.mp member with old | new
        · exact Nat.lt_succ_of_lt (clean.apart batch old earlier inside).1
        · rw [List.mem_singleton.mp new] at inside
          rcases List.mem_append.mp inside with old | new
          · exact Nat.lt_succ_of_lt (clean.before earlier old)
          · rw [List.mem_singleton.mp new]
            exact Nat.lt_succ_self row
      · intro earlier bound
        cases bound

theorem clean_turns (passes : ∀ earlier < row, statement.Passes answers earlier)
    (fine : ∀ earlier < row, statement.Fine answers earlier) :
    ∃ progress, statement.turns answers row = .ok progress ∧
      Clean statement answers row progress := by
  induction row with
  | zero => exact ⟨_, rfl, ⟨rfl, nofun, nofun, nofun, by simp [startsAt], nofun, nofun⟩⟩
  | succ row ih =>
      obtain ⟨progress, reached, clean⟩ := ih
        (fun earlier before => passes earlier (Nat.lt_succ_of_lt before))
        (fun earlier before => fine earlier (Nat.lt_succ_of_lt before))
      rw [turns, reached]
      exact clean.turn (passes row (Nat.lt_succ_self row)) (fine row (Nat.lt_succ_self row))

/-- A failure behind a row that has been bound misreports it. -/
theorem Clean.misreports (clean : Clean statement answers row progress)
    (reached : statement.turns answers row = .ok progress)
    (records : statement.descRec = true) (array : statement.arrayStatus = true)
    (ready : statement.needsAt answers row = false) (wrong : ¬ statement.Fine answers row)
    {last : Nat} (later : row < last) :
    Misreports answers (outcome (statement.turns answers last)) := by
  have next : statement.turns answers (row + 1) = statement.turn answers row progress := by
    rw [turns, reached]
  obtain ⟨marked, recorded⟩ := clean.put
  cases bound : statement.bindsAt answers row with
  | false =>
      have waiting : ¬ statement.startsAt row = true := by
        intro starts
        exact wrong ⟨fun _ => starts, fun binds => absurd (bound.symm.trans binds) (by simp)⟩
      rw [turn_unconverted ready bound] at next
      rw [turns_error next later]
      obtain ⟨lost, member⟩ := List.exists_mem_of_ne_nil _ (mt clean.empty.mpr waiting)
      exact ⟨lost, clean.recorded records array lost member,
        fun batch sent inside => absurd member (clean.apart batch sent lost inside).2⟩
  | true =>
      have here : (row, ParamStatus.success) ∈ (statement.put row progress).arrayStatus :=
        recorded records array row (List.mem_append_right _ (List.mem_singleton_self _))
      have unsent : ∀ batch ∈ progress.batches, row ∉ batch.rows :=
        fun batch member inside => Nat.lt_irrefl row (clean.apart batch member row inside).1
      have broken : statement.sendsAt row = true ∧
          (statement.opensAt answers row = false ∨ answers.fails row) := by
        by_contra fine
        refine wrong ⟨fun unbound => absurd (bound.symm.trans unbound) (by simp),
          fun _ sends => ?_⟩
        by_contra closed
        refine fine ⟨sends, ?_⟩
        by_contra neither
        push Not at neither
        exact closed ⟨by simpa using neither.1, neither.2⟩
      obtain ⟨sends, failure⟩ := broken
      rw [turn_bound bound, if_pos sends] at next
      cases opens : statement.opensAt answers row with
      | false =>
          have goes : (statement.put row progress).rc ≠ .needData := by
            change progress.rc ≠ _
            rw [clean.code]
            simp
          obtain ⟨prepare, failed⟩ := sendTurn_unopened goes opens
          rw [failed] at next
          rw [turns_error next later]
          exact ⟨row, here, fun batch member inside => absurd inside (unsent batch member)⟩
      | true =>
          have fails : answers.fails row := by
            rcases failure with closed | fails
            · rw [opens] at closed
              cases closed
            · exact fails
          have failed : ∀ rc, ∀ batch ∈ (statement.sent row (statement.put row progress) rc).batches,
              row ∈ batch.rows → answers.fails batch.turn := by
            intro rc batch member inside
            rcases List.mem_append.mp member with old | new
            · exact absurd inside (unsent batch old)
            · rw [List.mem_singleton.mp new]
              exact fails
          rw [clean.sendTurn opens] at next
          split at next
          · rw [turns_error next later]
            exact ⟨row, here, failed _⟩
          · have doomed : Doomed answers row (row + 1)
                (outcome (statement.turns answers (row + 1))) := by
              rw [next]
              exact ⟨here, Nat.lt_succ_self row, List.not_mem_nil, failed .success⟩
            exact misreports_of_doomed doomed later

variable (answers) in
/-- Behind a row that waits for its data. -/
structure Waiting (progress : Progress) : Prop where
  code : progress.rc = .needData
  right : Right answers progress

/-- Behind a row that waits for its data no command is sent and no row is marked as a success. -/
theorem Waiting.turn (single : statement.iMultiInsert = 0) (waiting : Waiting answers progress) :
    Right answers (outcome (statement.turn answers row progress)) ∧
      ∀ after, statement.turn answers row progress = .ok after → Waiting answers after := by
  have sends : statement.sendsAt row = true := by simp [sendsAt, single]
  cases needs : statement.needsAt answers row with
  | true =>
      rw [turn_needs needs]
      refine ⟨waiting.right, ?_⟩
      rintro after ⟨⟩
      exact ⟨rfl, waiting.right⟩
  | false =>
      cases bound : statement.bindsAt answers row with
      | false =>
          rw [turn_unconverted needs bound]
          exact ⟨waiting.right, nofun⟩
      | true =>
          have code : (statement.put row progress).rc = .needData := waiting.code
          have right : Right answers { statement.put row progress with bound := [] } := by
            refine ⟨waiting.right.1, fun earlier marked => ?_⟩
            have status : paramStatus progress.rc = .error := by
              rw [waiting.code]
              rfl
            rw [Statement.put, status] at marked
            dsimp only at marked
            split at marked
            · rcases List.mem_append.mp marked with old | new
              · exact waiting.right.2 earlier old
              · cases List.mem_singleton.mp new
            · exact waiting.right.2 earlier marked
          rw [turn_bound bound, if_pos sends, sendTurn_waiting code]
          refine ⟨right, ?_⟩
          rintro after ⟨⟩
          exact ⟨waiting.code, right⟩

/-- Once a row waits for its data, the report stays right. -/
theorem right_of_waiting (single : statement.iMultiInsert = 0)
    (reached : statement.turns answers row = .ok progress) (waiting : Waiting answers progress)
    {last : Nat} (later : row ≤ last) :
    Right answers (outcome (statement.turns answers last)) := by
  have stays : Right answers (outcome (statement.turns answers last)) ∧
      ∀ after, statement.turns answers last = .ok after → Waiting answers after := by
    induction last, later using Nat.le_induction with
    | base =>
        rw [reached]
        refine ⟨waiting.right, ?_⟩
        rintro after ⟨⟩
        exact waiting
    | succ last _ ih =>
        rw [turns]
        cases before : statement.turns answers last with
        | error progress =>
            rw [before] at ih
            exact ⟨ih.1, nofun⟩
        | ok progress => exact (ih.2 progress before).turn single
  exact stays.1

/-- A row at which the loop does not go on cleanly and nothing is misreported. -/
theorem Clean.right_of_stops (clean : Clean statement answers row progress)
    (reached : statement.turns answers row = .ok progress)
    (stops : ¬ statement.Passes answers row)
    (fine : statement.needsAt answers row = false → statement.Fine answers row)
    {last : Nat} (later : row < last) :
    Right answers (outcome (statement.turns answers last)) := by
  have next : statement.turns answers (row + 1) = statement.turn answers row progress := by
    rw [turns, reached]
  cases needs : statement.needsAt answers row with
  | true =>
      have single : statement.iMultiInsert = 0 := by
        simp only [needsAt, Bool.and_eq_true, decide_eq_true_eq] at needs
        exact needs.1.2
      have starts : statement.startsAt row = true := by simp [startsAt, sendsAt, single]
      rw [turn_needs needs] at next
      exact right_of_waiting single next ⟨rfl, clean.right starts⟩ later
  | false =>
      cases bound : statement.bindsAt answers row with
      | false =>
          rw [turn_unconverted needs bound] at next
          rw [turns_error next later]
          exact clean.right ((fine needs).1 bound)
      | true =>
          have broken : statement.sendsAt row = true ∧ statement.outFailsAt answers row = true := by
            by_contra passes
            refine stops ⟨bound, fun sends => ?_⟩
            by_contra fails
            exact passes ⟨sends, by simpa using fails⟩
          obtain ⟨opens, succeeds⟩ := (fine needs).2 bound broken.1
          have unseen : statement.seenAt answers row = false := by
            simp [seenAt, readResults_success _ _ (not_fails.mp succeeds)]
          rw [turn_bound bound, if_pos broken.1, clean.sendTurn opens, if_pos ⟨unseen, broken.2⟩]
            at next
          rw [turns_error next later]
          constructor
          · intro batch member
            rcases List.mem_append.mp member with old | new
            · exact clean.fine batch old
            · rw [List.mem_singleton.mp new]
              exact succeeds
          · intro earlier marked
            rcases clean.put.1 earlier marked with inside | ⟨batch, member, inside⟩
            · exact ⟨_, List.mem_append_right _ (List.mem_singleton_self _), inside⟩
            · exact ⟨batch, List.mem_append_left _ member, inside⟩

/-- With an array for the statuses. -/
theorem reported_iff_statusKept (timeout : answers.setQueryTimeout = true)
    (records : statement.descRec = true) (array : statement.arrayStatus = true) :
    statement.Reported answers ↔ statement.StatusKept answers := by
  have positive := statement.positive
  constructor
  · intro reported
    have right : ¬ Misreports answers (outcome (statement.turns answers statement.lParamsToBind)) :=
      fun wrong => not_reported_of_misreports timeout wrong reported
    -- up to a row that all pass, none of them has gone wrong
    have fine : ∀ row ≤ statement.lParamsToBind,
        (∀ earlier < row, statement.Passes answers earlier) →
          ∀ earlier < row, statement.Fine answers earlier := by
      intro row
      induction row with
      | zero => exact fun _ _ earlier before => absurd before (Nat.not_lt_zero _)
      | succ row ih =>
          intro within passes earlier before
          have older := ih (Nat.le_of_succ_le within)
            fun earlier before => passes earlier (Nat.lt_succ_of_lt before)
          rcases Nat.lt_succ_iff_lt_or_eq.mp before with inside | rfl
          · exact older earlier inside
          · obtain ⟨progress, reached, clean⟩ :=
              clean_turns (fun earlier before => passes earlier (Nat.lt_succ_of_lt before)) older
            by_contra wrong
            have bound := (passes earlier before).1
            simp only [bindsAt, Bool.and_eq_true, Bool.not_eq_eq_eq_not, Bool.not_true] at bound
            exact right (clean.misreports reached records array bound.1 wrong within)
    constructor
    · intro row within passes ready
      obtain ⟨progress, reached, clean⟩ :=
        clean_turns passes (fine row (Nat.le_of_lt within) passes)
      by_contra wrong
      exact right (clean.misreports reached records array ready wrong within)
    · intro passes
      obtain ⟨progress, reached, clean⟩ := clean_turns passes (fine _ (Nat.le_refl _) passes)
      by_contra unsent
      have starts : ¬ statement.startsAt statement.lParamsToBind = true := by
        rw [startsAt]
        simp only [Bool.or_eq_true, decide_eq_true_eq, not_or]
        exact ⟨Nat.ne_of_gt positive, unsent⟩
      obtain ⟨lost, member⟩ := List.exists_mem_of_ne_nil _ (mt clean.empty.mpr starts)
      refine right ⟨lost, ?_, ?_⟩
      · rw [reached]
        exact clean.recorded records array lost member
      · rw [reached]
        exact fun batch sent inside => absurd member (clean.apart batch sent lost inside).2
  · rintro ⟨kept, ends⟩
    refine reported_of_right timeout ?_
    by_cases every : ∀ row < statement.lParamsToBind, statement.Passes answers row
    · have fine : ∀ row < statement.lParamsToBind, statement.Fine answers row := by
        intro row within
        have bound := (every row within).1
        simp only [bindsAt, Bool.and_eq_true, Bool.not_eq_eq_eq_not, Bool.not_true] at bound
        exact kept row within (fun earlier before => every earlier (Nat.lt_trans before within))
          bound.1
      obtain ⟨progress, reached, clean⟩ := clean_turns every fine
      rw [reached]
      refine clean.right ?_
      rw [startsAt, ends every, Bool.or_true]
    · -- the first row at which the loop does not go on cleanly
      classical
      push Not at every
      have first := Nat.find_spec every
      have least := fun row => Nat.find_min (H := every) (m := row)
      generalize Nat.find every = row at first least
      have passes : ∀ earlier < row, statement.Passes answers earlier := by
        intro earlier before
        by_contra stops
        exact least earlier before ⟨Nat.lt_trans before first.1, stops⟩
      have fine : ∀ earlier < row, statement.Fine answers earlier := by
        intro earlier before
        have bound := (passes earlier before).1
        simp only [bindsAt, Bool.and_eq_true, Bool.not_eq_eq_eq_not, Bool.not_true] at bound
        exact kept earlier (Nat.lt_trans before first.1)
          (fun older inside => passes older (Nat.lt_trans inside before)) bound.1
      obtain ⟨progress, reached, clean⟩ := clean_turns passes fine
      exact clean.right_of_stops reached first.2 (kept row first.1 passes) first.1

/-! ## Without an array for the statuses -/

theorem arrayStatus_unrecorded (none : (statement.descRec && statement.arrayStatus) = false)
    (rows : Nat) : (outcome (statement.turns answers rows)).arrayStatus = [] := by
  induction rows with
  | zero => rfl
  | succ rows ih =>
      rw [turns]
      cases reached : statement.turns answers rows with
      | error progress =>
          rw [reached] at ih
          exact ih
      | ok progress =>
          rw [reached] at ih
          obtain ⟨more, statuses, empty⟩ :=
            (turn_adds statement answers rows progress).statuses
          have unset : progress.arrayStatus = [] := ih
          rw [statuses, empty none, unset, List.append_nil]

theorem errorAfter_succ :
    statement.ErrorAfter answers (row + 1) ↔
      statement.sendsAt row = true ∧ statement.seenAt answers row = true ∨
        statement.ErrorAfter answers row ∧
          (statement.sendsAt row = true → statement.resetsAt answers row = false) := by
  constructor
  · rintro ⟨failed, before, sends, seen, since⟩
    rcases Nat.lt_succ_iff_lt_or_eq.mp before with older | rfl
    · exact .inr ⟨⟨failed, older, sends, seen, fun later behind within =>
        since later behind (Nat.lt_succ_of_lt within)⟩, since row older (Nat.lt_succ_self row)⟩
    · exact .inl ⟨sends, seen⟩
  · rintro (⟨sends, seen⟩ | ⟨⟨failed, before, sends, seen, since⟩, stays⟩)
    · exact ⟨row, Nat.lt_succ_self row, sends, seen, fun later behind within =>
        absurd within (Nat.not_lt.mpr behind)⟩
    · refine ⟨failed, Nat.lt_succ_of_lt before, sends, seen, fun later behind within => ?_⟩
      rcases Nat.lt_succ_iff_lt_or_eq.mp within with older | rfl
      · exact since later behind older
      · exact stays

variable (statement answers) in
/-- What the turns have left behind when the loop has not been left. -/
structure After (rows : Nat) (progress : Progress) : Prop where
  waiting : (∃ row < rows, statement.needsAt answers row = true) → progress.rc = .needData
  failed : (∀ row < rows, statement.needsAt answers row = false) →
    statement.ErrorAfter answers rows → progress.rc = .error
  clean : (∀ row < rows, statement.needsAt answers row = false) →
    ¬ statement.ErrorAfter answers rows → progress.rc = .success
  batches : ∀ turn, (∃ batch ∈ progress.batches, batch.turn = turn) ↔
    turn < rows ∧ statement.SentAt answers turn
  prepared : progress.iLastBatchMultiInsertPrepare = true ↔
    ∃ row < rows, statement.SentAt answers row ∧ statement.rePreparesAt row = true

/-- Sending the command of a row that no row before waits for. -/
theorem After.sendTurn (after : After statement answers row progress)
    (ready : ∀ earlier < row, statement.needsAt answers earlier = false)
    (sends : statement.sendsAt row = true) (opens : statement.opensAt answers row = true) :
    (statement.ErrorAfter answers (row + 1) →
        statement.sendTurn answers row (statement.put row progress) =
          .ok { statement.sent row (statement.put row progress) .error with bound := [] }) ∧
      (¬ statement.ErrorAfter answers (row + 1) →
        statement.sendTurn answers row (statement.put row progress) =
          if statement.outFailsAt answers row then
            .error (statement.sent row (statement.put row progress) .error)
          else
            .ok { statement.sent row (statement.put row progress) .success with bound := [] }) := by
  have code : (statement.put row progress).rc = progress.rc := rfl
  have goes : (statement.put row progress).rc ≠ .needData := by
    rw [code]
    by_cases failed : statement.ErrorAfter answers row
    · rw [after.failed ready failed]
      simp
    · rw [after.clean ready failed]
      simp
  rw [sendTurn_opened goes opens, code]
  -- the return code the results are read with
  have start : (if statement.resetsAt answers row then .success else progress.rc) =
      if statement.resetsAt answers row = false ∧ progress.rc = .error then .error
      else SqlReturn.success := by
    cases resets : statement.resetsAt answers row with
    | true => simp
    | false =>
        by_cases failed : statement.ErrorAfter answers row
        · simp [after.failed ready failed]
        · simp [after.clean ready failed]
  rw [start]
  by_cases kept : statement.resetsAt answers row = false ∧ progress.rc = .error
  · have failed : statement.ErrorAfter answers row := by
      by_contra clean
      rw [after.clean ready clean] at kept
      cases kept.2
    rw [if_pos kept]
    have stays := readResults_error statement.streamingCursor statement.iFunctionCall
      (answers.results row)
    refine ⟨fun _ => ?_, fun clean => absurd (errorAfter_succ.mpr (.inr ⟨failed, fun _ => kept.1⟩))
      clean⟩
    dsimp only
    rw [if_neg (by simp [stays]), stays]
  · rw [if_neg kept]
    have seen_iff : statement.ErrorAfter answers (row + 1) ↔ statement.seenAt answers row = true := by
      rw [errorAfter_succ]
      constructor
      · rintro (⟨-, seen⟩ | ⟨failed, stays⟩)
        · exact seen
        · exact absurd ⟨stays sends, after.failed ready failed⟩ kept
      · exact fun seen => .inl ⟨sends, seen⟩
    rw [seen_iff, seenAt, outFailsAt]
    dsimp only
    have cases := readResults_cases statement.streamingCursor statement.iFunctionCall
      (answers.results row)
    generalize readResults statement.streamingCursor .success statement.iFunctionCall
      (answers.results row) = read at cases
    rcases cases with success | failed
    · simp [success]
    · simp [failed]

theorem After.batches_unsent (after : After statement answers row progress)
    (unsent : ¬ statement.SentAt answers row) (turn : Nat) :
    (∃ batch ∈ progress.batches, batch.turn = turn) ↔
      turn < row + 1 ∧ statement.SentAt answers turn := by
  rw [after.batches, Nat.lt_succ_iff_lt_or_eq]
  refine ⟨fun ⟨before, sent⟩ => ⟨.inl before, sent⟩, ?_⟩
  rintro ⟨before | rfl, sent⟩
  · exact ⟨before, sent⟩
  · exact absurd sent unsent

theorem After.prepared_unsent (after : After statement answers row progress)
    (unsent : ¬ statement.SentAt answers row) :
    progress.iLastBatchMultiInsertPrepare = true ↔
      ∃ earlier < row + 1, statement.SentAt answers earlier ∧
        statement.rePreparesAt earlier = true := by
  rw [after.prepared]
  refine ⟨fun ⟨earlier, before, sent⟩ => ⟨earlier, Nat.lt_succ_of_lt before, sent⟩, ?_⟩
  rintro ⟨earlier, before, sent, prepares⟩
  rcases Nat.lt_succ_iff_lt_or_eq.mp before with older | rfl
  · exact ⟨earlier, older, sent, prepares⟩
  · exact absurd sent unsent

/-- A row for which no command is sent. -/
theorem After.of_same (after : After statement answers row progress) {next : Progress}
    (code : next.rc = progress.rc) (batches : next.batches = progress.batches)
    (prepared : next.iLastBatchMultiInsertPrepare = progress.iLastBatchMultiInsertPrepare)
    (ready : statement.needsAt answers row = false)
    (unsent : statement.sendsAt row = false ∨
      ∃ earlier < row, statement.needsAt answers earlier = true) :
    After statement answers (row + 1) next := by
  have not_sent : ¬ statement.SentAt answers row := by
    rintro ⟨sends, every⟩
    rcases unsent with silent | ⟨earlier, before, needs⟩
    · rw [silent] at sends
      cases sends
    · rw [every earlier (Nat.le_of_lt before)] at needs
      cases needs
  have same_error : (∀ row' < row + 1, statement.needsAt answers row' = false) →
      (statement.ErrorAfter answers (row + 1) ↔ statement.ErrorAfter answers row) := by
    intro every
    rcases unsent with silent | ⟨earlier, before, needs⟩
    · rw [errorAfter_succ]
      simp [silent]
    · rw [every earlier (Nat.lt_succ_of_lt before)] at needs
      cases needs
  refine ⟨?_, ?_, ?_, ?_, ?_⟩
  · rintro ⟨earlier, before, needs⟩
    rw [code]
    rcases Nat.lt_succ_iff_lt_or_eq.mp before with older | rfl
    · exact after.waiting ⟨earlier, older, needs⟩
    · rw [ready] at needs
      cases needs
  · intro every failed
    rw [code]
    exact after.failed (fun earlier before => every earlier (Nat.lt_succ_of_lt before))
      ((same_error every).mp failed)
  · intro every clean
    rw [code]
    exact after.clean (fun earlier before => every earlier (Nat.lt_succ_of_lt before))
      (mt (same_error every).mpr clean)
  · rw [batches]
    exact after.batches_unsent not_sent
  · rw [prepared]
    exact after.prepared_unsent not_sent

/-- A row whose command is sent. -/
theorem After.of_sent (after : After statement answers row progress)
    (every : ∀ earlier ≤ row, statement.needsAt answers earlier = false)
    (sends : statement.sendsAt row = true) {rc : SqlReturn}
    (failed : statement.ErrorAfter answers (row + 1) → rc = .error)
    (clean : ¬ statement.ErrorAfter answers (row + 1) → rc = .success) :
    After statement answers (row + 1)
      { statement.sent row (statement.put row progress) rc with bound := [] } := by
  have here : statement.SentAt answers row := ⟨sends, every⟩
  refine ⟨?_, fun _ => failed, fun _ => clean, ?_, ?_⟩
  · rintro ⟨earlier, before, needs⟩
    rw [every earlier (Nat.le_of_lt_succ before)] at needs
    cases needs
  · intro turn
    have old := after.batches turn
    have added : (∃ batch ∈ (statement.sent row (statement.put row progress) rc).batches,
        batch.turn = turn) ↔ (∃ batch ∈ progress.batches, batch.turn = turn) ∨ row = turn := by
      rw [Statement.sent, Statement.put]
      simp [or_and_right, exists_or]
    rw [added, old, Nat.lt_succ_iff_lt_or_eq]
    constructor
    · rintro (⟨before, sent⟩ | rfl)
      · exact ⟨.inl before, sent⟩
      · exact ⟨.inr rfl, here⟩
    · rintro ⟨before | rfl, sent⟩
      · exact .inl ⟨before, sent⟩
      · exact .inr rfl
  · change (statement.rePreparesAt row || progress.iLastBatchMultiInsertPrepare) = true ↔ _
    rw [Bool.or_eq_true, after.prepared]
    constructor
    · rintro (prepares | ⟨earlier, before, sent⟩)
      · exact ⟨row, Nat.lt_succ_self row, here, prepares⟩
      · exact ⟨earlier, Nat.lt_succ_of_lt before, sent⟩
    · rintro ⟨earlier, before, sent, prepares⟩
      rcases Nat.lt_succ_iff_lt_or_eq.mp before with older | rfl
      · exact .inr ⟨earlier, older, sent, prepares⟩
      · exact .inl prepares

/-- A row whose turn goes on, or does not. -/
theorem After.turn (after : After statement answers row progress) :
    (statement.GoesOn answers row → ∃ next, statement.turn answers row progress = .ok next ∧
        After statement answers (row + 1) next) ∧
      (¬ statement.GoesOn answers row →
        ∃ next, statement.turn answers row progress = .error next ∧ next.rc = .error) := by
  cases needs : statement.needsAt answers row with
  | true =>
      have unsent : ¬ statement.SentAt answers row := by
        rintro ⟨-, every⟩
        rw [every row (Nat.le_refl row)] at needs
        cases needs
      refine ⟨fun _ => ⟨_, turn_needs needs, fun _ => rfl, ?_, ?_, ?_, ?_⟩,
        fun stops => absurd (.inl needs) stops⟩
      · intro every
        rw [every row (Nat.lt_succ_self row)] at needs
        cases needs
      · intro every
        rw [every row (Nat.lt_succ_self row)] at needs
        cases needs
      · exact after.batches_unsent unsent
      · exact after.prepared_unsent unsent
  | false =>
      cases bound : statement.bindsAt answers row with
      | false =>
          refine ⟨?_, fun _ => ⟨_, turn_unconverted needs bound, rfl⟩⟩
          rintro (waits | ⟨binds, -⟩)
          · rw [needs] at waits
            cases waits
          · rw [bound] at binds
            cases binds
      | true =>
          rw [turn_bound bound]
          cases sends : statement.sendsAt row with
          | false =>
              exact ⟨fun _ => ⟨_, rfl, after.of_same rfl rfl rfl needs (.inl sends)⟩,
                fun stops => absurd (.inr ⟨bound, .inr (by simp [sends])⟩) stops⟩
          | true =>
              rw [if_pos rfl]
              by_cases waits : ∃ earlier < row, statement.needsAt answers earlier = true
              · have code : (statement.put row progress).rc = .needData := after.waiting waits
                rw [sendTurn_waiting code]
                exact ⟨fun _ => ⟨_, rfl, after.of_same rfl rfl rfl needs (.inr waits)⟩,
                  fun stops => absurd (.inr ⟨bound, .inl waits⟩) stops⟩
              · have ready : ∀ earlier < row, statement.needsAt answers earlier = false := by
                  simpa using waits
                have every : ∀ earlier ≤ row, statement.needsAt answers earlier = false := by
                  intro earlier before
                  rcases Nat.lt_or_eq_of_le before with older | rfl
                  · exact ready earlier older
                  · exact needs
                have goes_iff : statement.GoesOn answers row ↔
                    statement.opensAt answers row = true ∧
                      (statement.outFailsAt answers row = true →
                        statement.ErrorAfter answers (row + 1)) := by
                  simp [GoesOn, needs, bound, waits, sends]
                rw [goes_iff]
                cases opens : statement.opensAt answers row with
                | false =>
                    have goes : (statement.put row progress).rc ≠ .needData := by
                      change progress.rc ≠ _
                      by_cases failed : statement.ErrorAfter answers row
                      · rw [after.failed ready failed]
                        simp
                      · rw [after.clean ready failed]
                        simp
                    obtain ⟨prepare, failed⟩ := sendTurn_unopened goes opens
                    exact ⟨fun opened => absurd opened.1 (by simp), fun _ => ⟨_, failed, rfl⟩⟩
                | true =>
                    obtain ⟨erring, fine⟩ := after.sendTurn ready sends opens
                    by_cases failed : statement.ErrorAfter answers (row + 1)
                    · exact ⟨fun _ => ⟨_, erring failed, after.of_sent every sends (fun _ => rfl)
                        (fun clean => absurd failed clean)⟩,
                          fun stops => absurd ⟨rfl, fun _ => failed⟩ stops⟩
                    · rw [fine failed]
                      cases outFails : statement.outFailsAt answers row with
                      | true =>
                          exact ⟨fun ⟨_, kept⟩ => absurd (kept rfl) failed,
                            fun _ => ⟨_, rfl, rfl⟩⟩
                      | false =>
                          exact ⟨fun _ => ⟨_, rfl, after.of_sent every sends
                            (fun erred => absurd erred failed) (fun _ => rfl)⟩,
                              fun stops => absurd ⟨rfl, nofun⟩ stops⟩

theorem after_turns (goes : ∀ earlier < row, statement.GoesOn answers earlier) :
    ∃ progress, statement.turns answers row = .ok progress ∧
      After statement answers row progress := by
  induction row with
  | zero =>
      refine ⟨_, rfl, ?_, ?_, fun _ _ => rfl, ?_, ?_⟩
      · rintro ⟨earlier, before, -⟩
        exact absurd before (Nat.not_lt_zero _)
      · rintro - ⟨earlier, before, -⟩
        exact absurd before (Nat.not_lt_zero _)
      · simp
      · simp
  | succ row ih =>
      obtain ⟨progress, reached, after⟩ := ih
        fun earlier before => goes earlier (Nat.lt_succ_of_lt before)
      rw [turns, reached]
      exact after.turn.1 (goes row (Nat.lt_succ_self row))

/-- A loop that does not come to its end is left with an error. -/
theorem turns_left (stops : ¬ ∀ earlier < row, statement.GoesOn answers earlier) :
    ∃ progress, statement.turns answers row = .error progress ∧ progress.rc = .error := by
  induction row with
  | zero => exact absurd (fun earlier before => absurd before (Nat.not_lt_zero _)) stops
  | succ row ih =>
      by_cases goes : ∀ earlier < row, statement.GoesOn answers earlier
      · obtain ⟨progress, reached, after⟩ := after_turns goes
        have here : ¬ statement.GoesOn answers row := by
          intro goes_here
          refine stops fun earlier before => ?_
          rcases Nat.lt_succ_iff_lt_or_eq.mp before with older | rfl
          · exact goes earlier older
          · exact goes_here
        rw [turns, reached]
        exact after.turn.2 here
      · obtain ⟨progress, reached, error⟩ := ih goes
        exact ⟨progress, by rw [turns, reached], error⟩

/-- Without an array for the statuses. -/
theorem reported_iff_not_errorLost (timeout : answers.setQueryTimeout = true)
    (none : (statement.descRec && statement.arrayStatus) = false) :
    statement.Reported answers ↔ ¬ statement.ErrorLost answers := by
  have positive := statement.positive
  obtain ⟨-, statuses⟩ := final_eq statement timeout
  rw [arrayStatus_unrecorded none] at statuses
  have reported : statement.Reported answers ↔
      ∀ batch ∈ (statement.libpqExecuteDirectOrPreparedOnThread answers).batches,
        answers.fails batch.turn →
          (statement.libpqExecuteDirectOrPreparedOnThread answers).rc = .error := by
    rw [Reported, statuses]
    simp
  rw [reported, libpqExecuteDirectOrPreparedOnThread, if_pos timeout]
  by_cases goes : ∀ row < statement.lParamsToBind, statement.GoesOn answers row
  · obtain ⟨progress, reached, after⟩ := after_turns goes
    rw [reached]
    dsimp only
    have batches : (answers.finish progress).batches = progress.batches := by
      dsimp only [Answers.finish]
      split_ifs <;> rfl
    have fails : (∀ batch ∈ progress.batches, answers.fails batch.turn →
        (answers.finish progress).rc = .error) ↔
          ((∃ row < statement.lParamsToBind, statement.SentAt answers row ∧ answers.fails row) →
            (answers.finish progress).rc = .error) := by
      constructor
      · rintro every ⟨row, before, sent, failed⟩
        obtain ⟨batch, member, rfl⟩ := (after.batches row).mpr ⟨before, sent⟩
        exact every batch member failed
      · intro every batch member failed
        obtain ⟨before, sent⟩ := (after.batches batch.turn).mp ⟨batch, member, rfl⟩
        exact every ⟨batch.turn, before, sent, failed⟩
    have kept : (answers.finish progress).rc ≠ .error ↔
        (∃ row < statement.lParamsToBind, statement.needsAt answers row = true) ∨
          (if statement.rePreparesAt (statement.lParamsToBind - 1) then
              answers.rePrepareRegular = true
            else ¬ statement.ErrorAfter answers statement.lParamsToBind) ∧
            answers.refCursorError = false := by
      by_cases waits : ∃ row < statement.lParamsToBind, statement.needsAt answers row = true
      · have single : statement.iMultiInsert = 0 := by
          obtain ⟨row, -, needs⟩ := waits
          simp only [needsAt, Bool.and_eq_true, decide_eq_true_eq] at needs
          exact needs.1.2
        have unprepared : progress.iLastBatchMultiInsertPrepare = false := by
          rw [Bool.eq_false_iff]
          intro prepared
          obtain ⟨row, -, -, prepares⟩ := after.prepared.mp prepared
          simp [rePreparesAt, lastBatchAt, single] at prepares
        refine iff_of_true ?_ (.inl waits)
        simp [Answers.finish, unprepared, after.waiting waits]
      · have ready : ∀ row < statement.lParamsToBind, statement.needsAt answers row = false := by
          simpa using waits
        have prepared : progress.iLastBatchMultiInsertPrepare =
            statement.rePreparesAt (statement.lParamsToBind - 1) := by
          rw [Bool.eq_iff_iff, after.prepared]
          constructor
          · rintro ⟨row, -, -, prepares⟩
            have last := prepares
            simp only [rePreparesAt, lastBatchAt, Bool.and_eq_true, decide_eq_true_eq] at last
            rwa [← last.2.2, Nat.add_sub_cancel]
          · intro prepares
            have sends : statement.sendsAt (statement.lParamsToBind - 1) = true := by
              simp only [rePreparesAt, Bool.and_eq_true] at prepares
              simp [sendsAt, prepares.2]
            exact ⟨statement.lParamsToBind - 1, Nat.sub_one_lt (Nat.ne_of_gt positive),
              ⟨sends, fun earlier before => ready earlier (by omega)⟩, prepares⟩
        rw [Answers.finish, prepared]
        cases statement.rePreparesAt (statement.lParamsToBind - 1) with
        | true =>
            cases answers.rePrepareRegular <;> cases answers.refCursorError <;> simp [waits]
        | false =>
            by_cases failed : statement.ErrorAfter answers statement.lParamsToBind
            · simp [after.failed ready failed, failed, waits]
            · have code := after.clean ready failed
              cases cursor : answers.refCursorError <;> simp [code, failed, waits]
    rw [batches, fails, ErrorLost, ← kept]
    constructor
    · rintro error ⟨-, failed, survived⟩
      exact survived (error failed)
    · intro found failed
      by_contra survived
      exact found ⟨goes, failed, survived⟩
  · obtain ⟨progress, left, error⟩ := turns_left goes
    rw [left]
    exact iff_of_true (fun _ _ _ => error) fun lost => goes lost.1

end Statement

/--
The report of an array execution is right exactly when, with an array for the
statuses, nothing fails for a row that has been bound, and, without one, no error of
a failed command is lost.
-/
theorem reported_iff (statement : Statement) (answers : Answers) :
    statement.Reported answers ↔ (answers.setQueryTimeout = true →
      if statement.descRec && statement.arrayStatus then statement.StatusKept answers
      else ¬ statement.ErrorLost answers) := by
  cases timeout : answers.setQueryTimeout with
  | false =>
      have nothing : statement.libpqExecuteDirectOrPreparedOnThread answers =
          ⟨.error, [], [], [], none, false⟩ := by
        rw [Statement.libpqExecuteDirectOrPreparedOnThread, timeout]
        rfl
      refine iff_of_true ?_ nofun
      rw [Statement.Reported, nothing]
      exact ⟨nofun, nofun⟩
  | true =>
      cases recorded : (statement.descRec && statement.arrayStatus) with
      | false => simpa using Statement.reported_iff_not_errorLost timeout recorded
      | true =>
          rw [Bool.and_eq_true] at recorded
          simpa using Statement.reported_iff_statusKept timeout recorded.1 recorded.2

/-- A prepared INSERT with two tuples, and one for the last of three rows. -/
def threeRows : Statement where
  lParamsToBind := 3
  positive := by decide
  iMultiInsert := 2
  iLastBatchMultiInsert := 1
  executePrepared := true
  descRec := true
  iNumBindParams := 1
  unbound := nofun
  arrayStatus := false
  autoCommitOff := false
  iFunctionCall := false
  outParams := false
  streamingCursor := false

def firstFails : Answers where
  setQueryTimeout := true
  needDataAtExec := fun _ => false
  converts := fun _ => true
  rePrepareLastBatch := true
  transactionIdle := fun _ => false
  beginCommand := fun _ => true
  results := fun row => [⟨if row = 1 then .fatalError else .commandOk, false, false⟩]
  updateOutParams := fun _ => true
  rePrepareRegular := true
  refCursorError := false

/-- The re-prepare of the last batch and the one behind the loop hide the failure. -/
theorem reported_wrong :
    ¬ ∀ (statement : Statement) (answers : Answers), statement.Reported answers := by
  intro every
  have error := (every threeRows firstFails).1 ⟨[0, 1], 1, 2, false⟩ (by decide)
    ⟨⟨.fatalError, false, false⟩, by decide, rfl⟩
  have success : (threeRows.libpqExecuteDirectOrPreparedOnThread firstFails).rc = .success := by
    decide
  rw [success] at error
  cases error

end RedshiftOdbc.Execute
