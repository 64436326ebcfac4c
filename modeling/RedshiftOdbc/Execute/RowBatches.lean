import RedshiftOdbc.Execute.Reporting

/-!
# The batches of the loop over the rows

When the last batch has the rows that the others leave, every command is sent
with the rows of one batch in their order: so many at a time, and at the end the
rest.  The loop is left before its end only at a row that something is wrong with.
-/

namespace RedshiftOdbc.Execute

def batchCount (total size : Nat) : Nat := (total + size - 1) / size

def batchRows (total size batch : Nat) : List Nat :=
  List.range' (batch * size) (min size (total - batch * size))

theorem batchRows_mem {total size batch row : Nat} (member : row ∈ batchRows total size batch) :
    row < total := by
  rw [batchRows, List.mem_range'_1] at member
  omega

/-- The first batches have the first rows, each once and in their order. -/
theorem batchRows_first (total size count : Nat) :
    (List.range count).flatMap (batchRows total size) = List.range (min total (count * size)) := by
  induction count with
  | zero => simp
  | succ count ih =>
      rw [List.range_succ, List.flatMap_append, ih, List.flatMap_singleton, batchRows,
        Nat.succ_mul]
      rcases Nat.le_total (count * size) total with inside | beyond
      · have next := @List.range'_append_1 0 (count * size) (min size (total - count * size))
        rw [Nat.zero_add] at next
        rw [Nat.min_eq_right inside, List.range_eq_range', next, List.range_eq_range']
        congr 1
        omega
      · rw [Nat.sub_eq_zero_of_le beyond, Nat.min_zero, List.range'_zero, List.append_nil]
        congr 1
        omega

theorem batchRows_all (total : Nat) {size : Nat} (positive : 0 < size) :
    (List.range (batchCount total size)).flatMap (batchRows total size) = List.range total := by
  have enough : total ≤ batchCount total size * size := by
    have whole := Nat.div_add_mod' (total + size - 1) size
    have below := Nat.mod_lt (total + size - 1) positive
    rw [batchCount]
    omega
  rw [batchRows_first, Nat.min_eq_left enough]

theorem mod_succ (row : Nat) {count : Nat} (positive : 0 < count) :
    (row + 1) % count = if row % count + 1 = count then 0 else row % count + 1 := by
  have below := Nat.mod_lt row positive
  rw [Nat.add_mod]
  split_ifs with full
  · rcases Nat.lt_or_ge 1 count with more | one
    · rw [Nat.mod_eq_of_lt more, full, Nat.mod_self]
    · obtain rfl : count = 1 := by omega
      rw [Nat.mod_one]
  · rw [Nat.mod_eq_of_lt (show 1 < count by omega), Nat.mod_eq_of_lt (by omega)]

namespace Statement

variable {statement : Statement} {answers : Answers} {row : Nat} {progress : Progress}

variable (statement) in
/-- The rows of a batch that is not the last one. -/
def rowsOfBatch : Nat := if statement.iMultiInsert = 0 then 1 else statement.iMultiInsert

variable (statement) in
/-- The last batch has the rows that the others leave. -/
structure Planned : Prop where
  less : statement.iMultiInsert ≠ 0 → statement.iLastBatchMultiInsert < statement.iMultiInsert
  rest : statement.iMultiInsert ≠ 0 →
    statement.lParamsToBind % statement.iMultiInsert = statement.iLastBatchMultiInsert

variable (statement answers) in
/-- A batch ends where its command ends, and all its rows are bound. -/
structure Whole (batch : Batch) : Prop where
  nParams : batch.nParams = statement.iNumBindParams * batch.rows.length
  rows : batch.rows.length =
    if batch.lastBatch then statement.iLastBatchMultiInsert else statement.rowsOfBatch
  last : batch.lastBatch = true → statement.iLastBatchMultiInsert ≠ 0
  bound : ∀ row ∈ batch.rows, statement.bindsAt answers row = true

variable (statement answers) in
/-- The first batches have been sent, each with its rows. -/
structure Sent (count : Nat) (progress : Progress) : Prop where
  whole : ∀ batch ∈ progress.batches, Whole statement answers batch
  rows : progress.batches.map Batch.rows =
    (List.range count).map (batchRows statement.lParamsToBind statement.rowsOfBatch)

variable (statement answers) in
/-- Something is wrong with a row of the next batch, or behind the batch that was sent last. -/
def Ends (count : Nat) : Prop :=
  ∃ row < statement.lParamsToBind,
    row / statement.rowsOfBatch = count ∧
        (statement.needsAt answers row = true ∨ statement.bindsAt answers row = false ∨
          statement.sendsAt row = true ∧ statement.opensAt answers row = false) ∨
      row / statement.rowsOfBatch + 1 = count ∧ statement.outParams = true ∧
        answers.updateOutParams row = false

variable (statement) in
/-- The rows that wait for the command of their batch. -/
def pending (row : Nat) : Nat :=
  if row = statement.lParamsToBind then 0 else row % statement.rowsOfBatch

variable (statement) in
/-- The batches that have been sent when a row is reached. -/
def batchesBefore (row : Nat) : Nat :=
  if row = statement.lParamsToBind then batchCount row statement.rowsOfBatch
  else row / statement.rowsOfBatch

variable (statement answers) in
/-- Behind rows with which nothing was wrong. -/
structure Going (row : Nat) (progress : Progress) : Prop where
  code : progress.rc ≠ .needData
  sent : Sent statement answers (statement.batchesBefore row) progress
  bound : progress.bound = List.range' (row - statement.pending row) (statement.pending row)
  binds : ∀ later ∈ progress.bound, statement.bindsAt answers later = true

variable (statement) in
theorem rowsOfBatch_pos : 0 < statement.rowsOfBatch := by
  rw [rowsOfBatch]
  split_ifs <;> omega

/-! ## Where a command is sent -/

variable (row) in
theorem lastBatchAt_iff (planned : statement.Planned) : statement.lastBatchAt row = true ↔
    row + 1 = statement.lParamsToBind ∧ (row + 1) % statement.rowsOfBatch ≠ 0 := by
  simp only [lastBatchAt, Bool.and_eq_true, decide_eq_true_eq, rowsOfBatch]
  constructor
  · rintro ⟨⟨multi, last⟩, final⟩
    rw [if_neg multi, final, planned.rest multi]
    exact ⟨rfl, last⟩
  · rintro ⟨final, rest⟩
    have multi : statement.iMultiInsert ≠ 0 := by
      intro single
      rw [if_pos single, Nat.mod_one] at rest
      exact rest rfl
    rw [if_neg multi, final, planned.rest multi] at rest
    exact ⟨⟨multi, rest⟩, final⟩

/-- A command is sent behind a row exactly when its batch ends there. -/
theorem sendsAt_iff (planned : statement.Planned) :
    statement.sendsAt row = true ↔
      (row + 1) % statement.rowsOfBatch = 0 ∨ row + 1 = statement.lParamsToBind := by
  have last := lastBatchAt_iff row planned
  simp only [sendsAt, Bool.or_eq_true, decide_eq_true_eq, last]
  by_cases single : statement.iMultiInsert = 0
  · simp [single, rowsOfBatch, Nat.mod_one]
  · rw [rowsOfBatch, if_neg single]
    tauto

/-- The batch that a row belongs to begins with the rows that wait for its command. -/
theorem pending_eq (inside : row < statement.lParamsToBind) :
    statement.pending row = row % statement.rowsOfBatch ∧
      row - statement.pending row = row / statement.rowsOfBatch * statement.rowsOfBatch := by
  have whole := Nat.div_add_mod' row statement.rowsOfBatch
  rw [pending, if_neg (by omega)]
  exact ⟨rfl, by omega⟩

/-- The rows that a command is sent for are those of their batch. -/
theorem pending_full (planned : statement.Planned) (inside : row < statement.lParamsToBind)
    (sends : statement.sendsAt row = true) :
    statement.pending row + 1 =
      min statement.rowsOfBatch
        (statement.lParamsToBind - row / statement.rowsOfBatch * statement.rowsOfBatch) := by
  have positive := statement.rowsOfBatch_pos
  have whole := Nat.div_add_mod' row statement.rowsOfBatch
  have below := Nat.mod_lt row positive
  have next := mod_succ row positive
  rw [sendsAt_iff planned] at sends
  rw [(pending_eq inside).1]
  rcases sends with full | final
  · rw [full] at next
    split_ifs at next
    omega
  · omega

/-- They are as many as the command has tuples. -/
theorem pending_rows (planned : statement.Planned) (inside : row < statement.lParamsToBind)
    (sends : statement.sendsAt row = true) :
    statement.pending row + 1 =
      if statement.lastBatchAt row then statement.iLastBatchMultiInsert
      else statement.rowsOfBatch := by
  have positive := statement.rowsOfBatch_pos
  have last := lastBatchAt_iff row planned
  have next := mod_succ row positive
  have below := Nat.mod_lt row positive
  rw [sendsAt_iff planned] at sends
  rw [(pending_eq inside).1]
  split_ifs with lastBatch
  · obtain ⟨final, left⟩ := last.mp lastBatch
    have multi : statement.iMultiInsert ≠ 0 := by
      intro single
      rw [rowsOfBatch, if_pos single, Nat.mod_one] at left
      exact left rfl
    have rest := planned.rest multi
    rw [rowsOfBatch, if_neg multi] at left next ⊢
    rw [final, rest] at left next
    split_ifs at next <;> omega
  · have full : (row + 1) % statement.rowsOfBatch = 0 := by
      by_contra left
      exact lastBatch (last.mpr ⟨sends.resolve_left left, left⟩)
    rw [full] at next
    split_ifs at next
    omega

/-- Behind a command one batch more has been sent, and no row waits. -/
theorem batchesBefore_sent (planned : statement.Planned) (sends : statement.sendsAt row = true) :
    statement.batchesBefore (row + 1) = row / statement.rowsOfBatch + 1 ∧
      statement.pending (row + 1) = 0 := by
  have positive := statement.rowsOfBatch_pos
  rw [sendsAt_iff planned] at sends
  rw [batchesBefore, pending]
  split_ifs with final
  · refine ⟨?_, rfl⟩
    rw [batchCount, show row + 1 + statement.rowsOfBatch - 1 = row + statement.rowsOfBatch by omega,
      Nat.add_div_right row positive]
  · have full := sends.resolve_right final
    rw [Nat.succ_div, if_pos (Nat.dvd_of_mod_eq_zero full)]
    exact ⟨rfl, full⟩

/-- A row that no command is sent behind waits with the others. -/
theorem batchesBefore_kept (planned : statement.Planned) (inside : row < statement.lParamsToBind)
    (keeps : statement.sendsAt row = false) :
    statement.batchesBefore (row + 1) = statement.batchesBefore row ∧
      statement.pending (row + 1) = statement.pending row + 1 := by
  have positive := statement.rowsOfBatch_pos
  have next := mod_succ row positive
  have open_batch : ¬ ((row + 1) % statement.rowsOfBatch = 0 ∨
      row + 1 = statement.lParamsToBind) := by
    rw [← sendsAt_iff planned, keeps]
    decide
  rw [not_or] at open_batch
  rw [batchesBefore, batchesBefore, pending, if_neg open_batch.2, if_neg (by omega),
    if_neg open_batch.2, (pending_eq inside).1]
  constructor
  · rw [Nat.succ_div, if_neg (fun divides => open_batch.1 (Nat.mod_eq_zero_of_dvd divides)),
      Nat.add_zero]
  · split_ifs at next
    · exact absurd next open_batch.1
    · exact next

/-! ## One turn -/

/-- What is in the buffers when a command is sent are the rows of its batch. -/
theorem Going.batch_rows (planned : statement.Planned) (inside : row < statement.lParamsToBind)
    (going : Going statement answers row progress) (sends : statement.sendsAt row = true) :
    progress.bound ++ [row] =
      batchRows statement.lParamsToBind statement.rowsOfBatch (row / statement.rowsOfBatch) := by
  obtain ⟨waiting, start⟩ := pending_eq inside
  have full := pending_full planned inside sends
  have below : statement.pending row ≤ row := waiting ▸ Nat.mod_le row _
  rw [going.bound, batchRows, ← full, ← start, List.range'_1_concat]
  congr 2
  omega

/-- The batch that is sent is whole. -/
theorem Going.batch (planned : statement.Planned) (inside : row < statement.lParamsToBind)
    (going : Going statement answers row progress)
    (binds : statement.bindsAt answers row = true) (sends : statement.sendsAt row = true) :
    Whole statement answers ⟨progress.bound ++ [row], row, statement.nParamsAt row,
      statement.lastBatchAt row⟩ := by
  have rows := pending_rows planned inside sends
  have last := lastBatchAt_iff row planned
  have length : (progress.bound ++ [row]).length = statement.pending row + 1 := by
    rw [going.bound, List.length_append, List.length_range', List.length_singleton]
  refine ⟨?_, ?_, ?_, ?_⟩
  · dsimp only
    rw [length, rows, nParamsAt, rowsOfBatch]
    split_ifs with single lastBatch
    · rw [lastBatchAt, single] at lastBatch
      cases lastBatch
    · rw [Nat.mul_one]
    · rfl
    · rfl
  · dsimp only
    rw [length, rows]
  · intro lastBatch
    dsimp only at lastBatch
    rw [if_pos lastBatch] at rows
    omega
  · intro earlier member
    rcases List.mem_append.mp member with before | here
    · exact going.binds earlier before
    · rw [List.mem_singleton.mp here]
      exact binds

/-- The batches that have been sent, with the one that is sent now. -/
theorem Going.sent_batch (planned : statement.Planned) (inside : row < statement.lParamsToBind)
    (going : Going statement answers row progress)
    (binds : statement.bindsAt answers row = true) (sends : statement.sendsAt row = true)
    (next : Progress) (batches : next.batches = progress.batches ++
      [⟨progress.bound ++ [row], row, statement.nParamsAt row, statement.lastBatchAt row⟩]) :
    Sent statement answers (row / statement.rowsOfBatch + 1) next := by
  have before : statement.batchesBefore row = row / statement.rowsOfBatch := by
    rw [batchesBefore, if_neg (by omega)]
  refine ⟨?_, ?_⟩
  · intro batch member
    rw [batches, List.mem_append, List.mem_singleton] at member
    rcases member with before | rfl
    · exact going.sent.whole batch before
    · exact going.batch planned inside binds sends
  · rw [batches, List.map_append, going.sent.rows, before, List.range_succ, List.map_append,
      List.map_singleton, List.map_singleton, going.batch_rows planned inside sends]

/-- What a turn leads to: the rows go on, or no command is sent any more. -/
inductive Turned (statement : Statement) (answers : Answers) (row : Nat) :
    Except Progress Progress → Prop
  | going {progress : Progress} (going : Going statement answers row progress) :
      Turned statement answers row (.ok progress)
  | waiting {progress : Progress} {count : Nat} (waits : progress.rc = .needData)
      (sent : Sent statement answers count progress) (ends : Ends statement answers count) :
      Turned statement answers row (.ok progress)
  | left {progress : Progress} {count : Nat} (sent : Sent statement answers count progress)
      (ends : Ends statement answers count) : Turned statement answers row (.error progress)

theorem readResults_ne (streamingCursor iReadOutParamVals : Bool) {rc : SqlReturn}
    (code : rc ≠ .needData) (results : List PgResult) :
    (readResults streamingCursor rc iReadOutParamVals results).1 ≠ .needData := by
  cases rc with
  | success =>
      rcases readResults_cases streamingCursor iReadOutParamVals results with same | same <;>
        simp [same]
  | error => simp [readResults_error]
  | needData => exact absurd rfl code

/-- A row whose command is sent. -/
theorem Going.send (planned : statement.Planned) (inside : row < statement.lParamsToBind)
    (going : Going statement answers row progress)
    (binds : statement.bindsAt answers row = true) (sends : statement.sendsAt row = true)
    (before : statement.batchesBefore row = row / statement.rowsOfBatch) :
    Turned statement answers (row + 1)
      (statement.sendTurn answers row (statement.put row progress)) := by
  have code : (statement.put row progress).rc ≠ .needData := going.code
  cases opens : statement.opensAt answers row with
  | false =>
      obtain ⟨prepare, failed⟩ := sendTurn_unopened code opens
      rw [failed]
      have ends : Ends statement answers (statement.batchesBefore row) :=
        ⟨row, inside, Or.inl ⟨before.symm, Or.inr (Or.inr ⟨sends, opens⟩)⟩⟩
      exact .left ⟨going.sent.whole, going.sent.rows⟩ ends
  | true =>
      obtain ⟨after, none⟩ := batchesBefore_sent planned sends
      rw [sendTurn_opened code opens]
      dsimp only
      have read := readResults_ne statement.streamingCursor statement.iFunctionCall
        (show (if statement.resetsAt answers row then .success else
          (statement.put row progress).rc) ≠ .needData by
            split
            · decide
            · exact code) (answers.results row)
      have sent := going.sent_batch planned inside binds sends
      generalize readResults statement.streamingCursor _ statement.iFunctionCall _ =
        results at read ⊢
      split
      case isTrue failed =>
          simp only [Bool.and_eq_true, Bool.not_eq_true', decide_eq_true_eq] at failed
          exact .left (sent _ rfl) ⟨row, inside, Or.inr ⟨rfl, failed.1.2, failed.2⟩⟩
      case isFalse goes =>
          refine .going ⟨read, ?_, ?_, ?_⟩
          · rw [after]
            exact sent _ rfl
          · rw [none]
            rfl
          · intro later member
            cases member

theorem Going.turn (planned : statement.Planned) (inside : row < statement.lParamsToBind)
    (going : Going statement answers row progress) :
    Turned statement answers (row + 1) (statement.turn answers row progress) := by
  have before : statement.batchesBefore row = row / statement.rowsOfBatch := by
    rw [batchesBefore, if_neg (by omega)]
  have sent := going.sent
  rw [before] at sent
  cases needs : statement.needsAt answers row with
  | true =>
      rw [turn_needs needs]
      exact .waiting rfl ⟨sent.whole, sent.rows⟩ ⟨row, inside, Or.inl ⟨rfl, Or.inl needs⟩⟩
  | false =>
      cases binds : statement.bindsAt answers row with
      | false =>
          rw [turn_unconverted needs binds]
          exact .left ⟨sent.whole, sent.rows⟩ ⟨row, inside, Or.inl ⟨rfl, Or.inr (Or.inl binds)⟩⟩
      | true =>
          rw [turn_bound binds]
          cases sends : statement.sendsAt row with
          | true =>
              rw [if_pos rfl]
              exact going.send planned inside binds sends before
          | false =>
              obtain ⟨same, more⟩ := batchesBefore_kept planned inside sends
              have below : statement.pending row ≤ row :=
                (pending_eq inside).1 ▸ Nat.mod_le row _
              refine .going ⟨going.code, ?_, ?_, ?_⟩
              · rw [same]
                exact ⟨going.sent.whole, going.sent.rows⟩
              · have start : row + 1 - statement.pending (row + 1) =
                    row - statement.pending row := by
                  omega
                have last : row - statement.pending row + statement.pending row = row := by omega
                rw [start, more, List.range'_1_concat, ← going.bound, last]
                rfl
              · intro later member
                rcases List.mem_append.mp member with earlier | here
                · exact going.binds later earlier
                · rw [List.mem_singleton.mp here]
                  exact binds

/-- Behind a row that waits for its data nothing is sent. -/
theorem turn_waiting (waits : progress.rc = .needData) {count : Nat}
    (sent : Sent statement answers count progress) (ends : Ends statement answers count)
    (later : Nat) : Turned statement answers later (statement.turn answers row progress) := by
  cases needs : statement.needsAt answers row with
  | true =>
      rw [turn_needs needs]
      exact .waiting rfl ⟨sent.whole, sent.rows⟩ ends
  | false =>
      cases binds : statement.bindsAt answers row with
      | false =>
          rw [turn_unconverted needs binds]
          exact .left ⟨sent.whole, sent.rows⟩ ends
      | true =>
          have waiting : (statement.put row progress).rc = .needData := waits
          rw [turn_bound binds]
          split
          · rw [sendTurn_waiting waiting]
            exact .waiting waiting ⟨sent.whole, sent.rows⟩ ends
          · exact .waiting waiting ⟨sent.whole, sent.rows⟩ ends

/-! ## The whole loop -/

variable (answers) in
/-- Where the loop stands, or where it has been left, behind its first turns. -/
theorem turned_turns (planned : statement.Planned) (rows : Nat)
    (inside : rows ≤ statement.lParamsToBind) :
    Turned statement answers rows (statement.turns answers rows) := by
  induction rows with
  | zero =>
      have first : statement.batchesBefore 0 = 0 := by
        rw [batchesBefore, if_neg (by have := statement.positive; omega), Nat.zero_div]
      refine .going ⟨by decide, ⟨?_, ?_⟩, ?_, ?_⟩
      · intro batch member
        cases member
      · rw [first]
        rfl
      · rw [pending]
        simp
      · intro row member
        cases member
  | succ row ih =>
      have turned := ih (by omega)
      rw [turns]
      revert turned
      generalize statement.turns answers row = before
      intro turned
      cases turned with
      | going going => exact going.turn planned inside
      | waiting waits sent ends => exact turn_waiting waits sent ends (row + 1)
      | left sent ends => exact .left sent ends

variable (statement answers) in
/-- All batches are sent with their rows, or the first ones up to a row that ends the loop. -/
theorem sent_turns (planned : statement.Planned) :
    ∃ count, Sent statement answers count
        (outcome (statement.turns answers statement.lParamsToBind)) ∧
      (count = batchCount statement.lParamsToBind statement.rowsOfBatch ∨
        Ends statement answers count) := by
  have turned := turned_turns answers planned statement.lParamsToBind (le_refl _)
  revert turned
  generalize statement.turns answers statement.lParamsToBind = final
  intro turned
  cases turned with
  | going going =>
      refine ⟨_, going.sent, Or.inl ?_⟩
      rw [batchesBefore, if_pos rfl]
  | waiting waits sent ends => exact ⟨_, sent, Or.inr ends⟩
  | left sent ends => exact ⟨_, sent, Or.inr ends⟩

end Statement

end RedshiftOdbc.Execute
