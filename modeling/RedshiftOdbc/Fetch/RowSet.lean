import RedshiftOdbc.Fetch.Simulation

/-!
# The report of a row set

One call of `RS_SQLFetchScroll` puts rows into the slots of the bound arrays and
reports their number and a status for each slot.  The report agrees with the
rows exactly when the call goes forward from a row within the row limit, fills
all slots or all but one, and no row fails before the last one.
-/

namespace RedshiftOdbc.Fetch

open RedshiftOdbc.Words RedshiftOdbc.Machine

variable {n : Nat} {batches : BatchFunctions n}

/-- The row under the cursor, if the cursor is at one of the rows in memory. -/
def ResultInfo.row (info : ResultInfo batches) : Option Int :=
  if 0 ≤ info.iCurRow ∧ info.iCurRow < info.iNumberOfRowsInMem then some info.position else none

/-- The rows of the result within the row limit. -/
def Call.limit (call : Call) (n : Nat) : Int :=
  if 0 < call.maxRows ∧ call.maxRows < n then call.maxRows else n

/-- An absolute row number: a spilled result takes it as an `int`. -/
def ResultInfo.absoluteRow (info : ResultInfo batches) (iFetchOffset : Int) : Option Int :=
  let index := if info.csc.isSome then wrap 4 iFetchOffset else iFetchOffset
  if index = 0 then none
  else if index < 0 then (if -(n : Int) ≤ index then some (n + index) else none)
  else if index ≤ n then some (index - 1) else none

/--
The cursor is before the rows in memory and not before the rows of the result.  An
offset that the narrowing to `int` makes zero puts it there.
-/
def ResultInfo.between (info : ResultInfo batches) : Bool :=
  info.iCurRow < 0 && 0 < info.iRowOffset

/-- The row a call asks for first, with the cursor at `position`. -/
def Call.firstRow (call : Call) (info : ResultInfo batches) (position : Int) : Option Int :=
  match call.orientation with
  | .next => if position + 1 < n then some (position + 1) else none
  | .prior =>
      let row := if info.between then position else position - 1
      if 0 ≤ row then some row else none
  | .first => if 0 < n then some 0 else none
  | .last => if 0 < n then some (call.limit n - 1) else none
  | .absolute => info.absoluteRow call.offset
  | .relative =>
      if call.offset = 0 then info.row
      else
        let index := wrap 8 (position + 1 + call.offset)
        if index < 0 then none else info.absoluteRow index
  | .bookmark | .other => none

/-- The call finds a first row within the row limit. -/
def Begins (call : Call) (info : ResultInfo batches) (row : Int) : Prop :=
  call.firstRow info info.position = some row ∧ row < call.limit n ∧
    (call.orientation = .last → ∀ state, info.csc = some state →
      Agrees.LimitInLastBatch batches state call.maxRows)

/-- A result in memory with the cursor at a position. -/
def memoryAt (batches : BatchFunctions n) (position : Int) : ResultInfo batches :=
  ⟨position, n, 0, none⟩

/-- The cursor stands at a position: before the rows, at one of them, or behind them. -/
inductive Stands (info : ResultInfo batches) (position : Int) : Prop where
  | memory (same : info = memoryAt batches position) (lower : -1 ≤ position)
      (upper : position ≤ n)
  | spilled (state : batches.State) (agrees : Agrees info (memoryAt batches position) state)

namespace Stands

variable {info : ResultInfo batches} {position : Int}

theorem lower (stands : Stands info position) : -1 ≤ position := by
  cases stands with
  | memory same lower upper => exact lower
  | spilled state agrees =>
      rcases agrees.memory_row with inside | ⟨before, -⟩ | ⟨behind, -⟩ <;>
        simp only [memoryAt] at * <;> omega

theorem upper (stands : Stands info position) : position ≤ n := by
  cases stands with
  | memory same lower upper => exact upper
  | spilled state agrees =>
      rcases agrees.memory_row with inside | ⟨before, -⟩ | ⟨behind, -⟩ <;>
        simp only [memoryAt] at * <;> omega

theorem position_eq (stands : Stands info position) : info.position = position := by
  cases stands with
  | memory same lower upper => rw [same, ResultInfo.position, memoryAt, zero_add]
  | spilled state agrees => rw [agrees.position, ResultInfo.position, memoryAt, zero_add]

theorem row_eq (stands : Stands info position) :
    info.row = if 0 ≤ position ∧ position < n then some position else none := by
  rw [ResultInfo.row, stands.position_eq]
  refine if_congr ?_ rfl rfl
  cases stands with
  | memory same lower upper => rw [same, memoryAt]
  | spilled state agrees =>
      have fit := batches.window_le state
      have same := agrees.same
      have rows := agrees.rows
      have lower := agrees.lower
      have upper := agrees.upper
      have before := agrees.before
      have behind := agrees.behind
      simp only [memoryAt] at same
      omega

theorem not_between (stands : Stands info position) : info.between = false := by
  cases stands with
  | memory same lower upper => simp [ResultInfo.between, same, memoryAt]
  | spilled state agrees =>
      have lower := agrees.lower
      have before := agrees.before
      rw [ResultInfo.between, agrees.offset, Bool.and_eq_false_iff]
      simp only [decide_eq_false_iff_not]
      omega

end Stands

/-- The cursor stands before a window that is not the first. -/
structure Between (info : ResultInfo batches) (state : batches.State) : Prop where
  csc : info.csc = some state
  rows : info.iNumberOfRowsInMem = batches.len state
  offset : info.iRowOffset = batches.start state
  before : info.iCurRow = -1
  behind : 0 < batches.start state

/-- The places a cursor can be at. -/
inductive Located (info : ResultInfo batches) : Prop where
  | stands (position : Int) (stands : Stands info position)
  | between (state : batches.State) (between : Between info state)

/-! ## One turn -/

/-- An operation that a spilled result simulates does what it does in memory. -/
theorem Stands.transfer {info : ResultInfo batches} {position : Int}
    (stands : Stands info position) (op : ResultInfo batches → SqlReturn × ResultInfo batches)
    (simulates : ∀ state, Agrees info (memoryAt batches position) state →
      (op info).1 = (op (memoryAt batches position)).1 ∧
        ∃ next, Agrees (op info).2 (op (memoryAt batches position)).2 next)
    (code : SqlReturn) (after : Int)
    (memory : op (memoryAt batches position) = (code, memoryAt batches after))
    (lower : -1 ≤ after) (upper : after ≤ n) :
    (op info).1 = code ∧ Stands (op info).2 after := by
  cases stands with
  | memory same _ _ =>
      rw [same, memory]
      exact ⟨rfl, .memory rfl lower upper⟩
  | spilled state agrees =>
      obtain ⟨codes, next, done⟩ := simulates state agrees
      rw [memory] at codes done
      exact ⟨codes, .spilled next done⟩

/-- `SQL_FETCH_NEXT` on a result in memory. -/
theorem memoryAt_fetchNext (batches : BatchFunctions n) {position : Int}
    (lower : -1 ≤ position) (upper : position ≤ n)
    (maxRows : Int) (rc : SqlReturn) :
    (memoryAt batches position).fetchNext maxRows rc =
      if position + 1 ≤ n ∧ ¬ (0 < maxRows ∧ maxRows ≤ position + 1) then
        (if position + 1 < n then rc else .noData, memoryAt batches (position + 1))
      else (.noData, memoryAt batches position) := by
  have stays : ∀ info : ResultInfo batches, info.csc = none →
      info.fetchNext maxRows rc = Agrees.advance info maxRows rc := by
    intro info all
    simp [ResultInfo.fetchNext, Agrees.advance, all]
  rw [stays _ rfl, Agrees.advance]
  change (if -1 ≤ position ∧ position ≤ (n : Int) - 1 then
      if (memoryAt batches position).maxRowsReached maxRows then (.noData, memoryAt batches position)
      else (if (n : Int) ≤ position + 1 then .noData else rc, memoryAt batches (position + 1))
    else (.noData, memoryAt batches position)) = _
  by_cases limited : 0 < maxRows ∧ maxRows ≤ position + 1
  · have reached : (memoryAt batches position).maxRowsReached maxRows = true := by
      simpa [ResultInfo.maxRowsReached, memoryAt] using limited
    rw [reached, if_pos rfl, ite_self, if_neg (fun both => both.2 limited)]
  · have reached : (memoryAt batches position).maxRowsReached maxRows = false := by
      simpa [ResultInfo.maxRowsReached, memoryAt] using limited
    rw [reached, if_neg Bool.false_ne_true]
    by_cases room : position + 1 ≤ n
    · rw [if_pos (show -1 ≤ position ∧ position ≤ (n : Int) - 1 by omega),
        if_pos (And.intro room limited)]
      by_cases more : position + 1 < n
      · rw [if_neg (show ¬ (n : Int) ≤ position + 1 by omega), if_pos more]
      · rw [if_pos (show (n : Int) ≤ position + 1 by omega), if_neg more]
    · rw [if_neg (show ¬ (-1 ≤ position ∧ position ≤ (n : Int) - 1) by omega),
        if_neg (fun both => room both.1)]

namespace Stands

variable {info : ResultInfo batches} {position : Int} {call : Call}

/-- `SQL_FETCH_NEXT` goes to the next row within the row limit, or finds no data. -/
theorem fetchNext (stands : Stands info position) (call : Call) (rc : SqlReturn) :
    (position + 1 < call.limit n → (info.fetchNext call.maxRows rc).1 = rc ∧
        Stands (info.fetchNext call.maxRows rc).2 (position + 1)) ∧
      (¬ position + 1 < call.limit n → (info.fetchNext call.maxRows rc).1 = .noData ∧
        ∃ after, Stands (info.fetchNext call.maxRows rc).2 after ∧
          (after = position ∨ after = n ∧ position + 1 = n)) := by
  have lower := stands.lower
  have upper := stands.upper
  have memory := memoryAt_fetchNext batches lower upper call.maxRows rc
  have transfer := stands.transfer (fun info => info.fetchNext call.maxRows rc)
    (fun state agrees => agrees.fetchNext call.maxRows rc)
  rw [Call.limit]
  constructor
  · intro more
    have inside : position + 1 < n ∧ ¬ (0 < call.maxRows ∧ call.maxRows ≤ position + 1) := by
      split at more <;> omega
    rw [if_pos ⟨by omega, inside.2⟩, if_pos inside.1] at memory
    exact transfer _ _ memory (by omega) (by omega)
  · intro none
    by_cases limited : position + 1 ≤ n ∧ ¬ (0 < call.maxRows ∧ call.maxRows ≤ position + 1)
    · have last : position + 1 = n := by
        split at none <;> omega
      rw [if_pos limited, if_neg (by omega)] at memory
      obtain ⟨code, after⟩ := transfer _ _ memory (by omega) (by omega)
      exact ⟨code, _, after, .inr ⟨last, last⟩⟩
    · rw [if_neg limited] at memory
      obtain ⟨code, after⟩ := transfer _ _ memory lower upper
      exact ⟨code, _, after, .inl rfl⟩

/-- `SQL_FETCH_PRIOR` goes to the row before, or before the first row. -/
theorem fetchPrior (stands : Stands info position) (rc : SqlReturn) :
    (0 < position → (info.fetchPrior rc).1 = rc ∧ Stands (info.fetchPrior rc).2 (position - 1)) ∧
      (¬ 0 < position → (info.fetchPrior rc).1 = .noData ∧ Stands (info.fetchPrior rc).2 (-1)) := by
  have lower := stands.lower
  have upper := stands.upper
  have transfer := stands.transfer (fun info => info.fetchPrior rc)
    (fun state agrees => agrees.fetchPrior rc)
  have memory : (memoryAt batches position).fetchPrior rc =
      if 0 ≤ position then
        (if position - 1 ≤ -1 then .noData else rc, memoryAt batches (position - 1))
      else (.noData, memoryAt batches position) := by
    simp [ResultInfo.fetchPrior, memoryAt, upper]
  constructor
  · intro positive
    rw [if_pos (by omega), if_neg (by omega)] at memory
    exact transfer _ _ memory (by omega) (by omega)
  · intro first
    by_cases at_first : 0 ≤ position
    · have zero : position = 0 := by omega
      subst zero
      exact transfer _ _ (by simpa using memory) (by omega) (by omega)
    · have before : position = -1 := by omega
      subst before
      exact transfer _ _ (by simpa using memory) (by omega) (by omega)

end Stands

theorem memoryAt_beforeFirst (batches : BatchFunctions n) (position : Int) :
    (memoryAt batches position).beforeFirst = memoryAt batches (-1) := by
  simp [ResultInfo.beforeFirst, ResultInfo.setFetchAtFirstRow, memoryAt]

theorem Stands.beforeFirst {info : ResultInfo batches} {position : Int}
    (stands : Stands info position) : Stands info.beforeFirst (-1) := by
  cases stands with
  | memory same lower upper =>
      rw [same, memoryAt_beforeFirst]
      exact .memory rfl (le_refl _) (by omega)
  | spilled state agrees =>
      obtain ⟨next, done⟩ := agrees.beforeFirst
      rw [memoryAt_beforeFirst] at done
      exact .spilled next done

theorem memoryAt_setAbsolute (position iFetchOffset : Int) :
    (memoryAt batches position).setAbsolute iFetchOffset =
      if iFetchOffset = 0 then (.noData, memoryAt batches (-1))
      else if iFetchOffset < 0 then
        if -(n : Int) ≤ iFetchOffset then (.success, memoryAt batches (n + iFetchOffset))
        else (.noData, memoryAt batches (-1))
      else if iFetchOffset ≤ n then (.success, memoryAt batches (iFetchOffset - 1))
      else (.noData, memoryAt batches n) := by
  have before := memoryAt_beforeFirst batches position
  have behind : (memoryAt batches position).afterLast = memoryAt batches n := by
    simp [ResultInfo.afterLast, ResultInfo.setFetchAtLastRow, memoryAt]
  rw [ResultInfo.setAbsolute, before]
  have unread : (memoryAt batches position).csc = none := rfl
  rw [unread]
  dsimp only
  rw [before, behind]
  rfl

/-- Cutting an offset down twice is cutting it down once. -/
theorem wrap_wrap (width : Nat) (value : Int) : wrap width (wrap width value) = wrap width value := by
  simpa using wrap_wrap_add width value 0

namespace Stands

variable {info : ResultInfo batches} {position : Int} {call : Call}

/-- A row number that is inside goes to its row; another finds no data, or no row. -/
theorem setAbsolute (stands : Stands info position) (iFetchOffset : Int) :
    (∀ row, info.absoluteRow iFetchOffset = some row → 0 ≤ row ∧ row < n ∧
        (info.setAbsolute iFetchOffset).1 = .success ∧
        Stands (info.setAbsolute iFetchOffset).2 row) ∧
      (info.absoluteRow iFetchOffset = none → Located (info.setAbsolute iFetchOffset).2 ∧
        ((info.setAbsolute iFetchOffset).1 = .success →
          (info.setAbsolute iFetchOffset).2.row = none)) := by
  -- the row number and the code of a result in memory
  have inside : ∀ index row : Int, (if index = 0 then none
      else if index < 0 then (if -(n : Int) ≤ index then some (n + index) else none)
      else if index ≤ n then some (index - 1) else none) = some row →
        0 ≤ row ∧ row < n ∧
          (memoryAt batches position).setAbsolute index = (.success, memoryAt batches row) := by
    intro index row found
    rw [memoryAt_setAbsolute]
    split_ifs at found ⊢ <;> cases found <;> exact ⟨by omega, by omega, rfl⟩
  have outside : ∀ index : Int, (if index = 0 then none
      else if index < 0 then (if -(n : Int) ≤ index then some (n + index) else none)
      else if index ≤ n then some (index - 1) else none) = none →
        ∃ after : Int, -1 ≤ after ∧ after ≤ n ∧
        (memoryAt batches position).setAbsolute index = (.noData, memoryAt batches after) := by
    intro index missing
    rw [memoryAt_setAbsolute]
    split_ifs at missing ⊢
    · exact ⟨-1, by omega, by omega, rfl⟩
    · exact ⟨-1, by omega, by omega, rfl⟩
    · exact ⟨n, by omega, by omega, rfl⟩
  rw [ResultInfo.absoluteRow]
  cases stands with
  | memory same lower upper =>
      subst same
      simp only [memoryAt, Option.isSome_none, Bool.false_eq_true, if_false]
      rw [← memoryAt]
      constructor
      · intro row found
        obtain ⟨first, last, moved⟩ := inside _ row found
        rw [moved]
        exact ⟨first, last, rfl, .memory rfl (by omega) (by omega)⟩
      · intro missing
        obtain ⟨after, first, last, moved⟩ := outside _ missing
        rw [moved]
        exact ⟨.stands after (.memory rfl first last), fun success => by cases success⟩
  | spilled state agrees =>
      simp only [agrees.csc, Option.isSome_some, if_true]
      by_cases zero : wrap 4 iFetchOffset = 0
      · refine ⟨by simp [zero], fun _ => ?_⟩
        by_cases none : iFetchOffset = 0
        · rw [ResultInfo.setAbsolute, if_pos none]
          exact ⟨.stands (-1) (Stands.spilled state agrees).beforeFirst,
            fun success => by cases success⟩
        · have read := batches.readAbsolute_outside state 0 (by simp)
          have positive := batches.len_pos state
          have rows := agrees.rows
          have moved : info.setAbsolute iFetchOffset = (.success, { info with iCurRow := -1 }) := by
            simp only [ResultInfo.setAbsolute, none, if_false, agrees.csc, zero, read]
            rw [if_neg (by omega), if_pos (by omega)]
            rfl
          rw [moved]
          refine ⟨?_, fun _ => if_neg (by simp)⟩
          by_cases front : batches.start state = 0
          · refine .stands (-1) (.spilled state (Agrees.of_load (-1) agrees.csc agrees.rows
              agrees.offset rfl rfl rfl rfl ?_ (.inr (.inl ⟨rfl, front⟩))))
            simp [memoryAt, front]
          · exact .between state ⟨agrees.csc, agrees.rows, agrees.offset, rfl,
              Nat.pos_of_ne_zero front⟩
      · have nonzero : iFetchOffset ≠ 0 := by
          rintro rfl
          exact zero (by decide)
        have cut : info.setAbsolute iFetchOffset = info.setAbsolute (wrap 4 iFetchOffset) := by
          simp only [ResultInfo.setAbsolute, nonzero, zero, if_false, agrees.csc, wrap_wrap]
        have harmless : NarrowingHarmless n (wrap 4 iFetchOffset) := .inl (wrap_wrap 4 _)
        obtain ⟨codes, next, done⟩ := agrees.setAbsolute harmless
        rw [cut]
        constructor
        · intro row found
          obtain ⟨first, last, moved⟩ := inside _ row found
          rw [moved] at codes done
          exact ⟨first, last, codes, .spilled next done⟩
        · intro missing
          obtain ⟨after, first, last, moved⟩ := outside _ missing
          rw [moved] at codes done
          refine ⟨.stands after (.spilled next done), fun success => ?_⟩
          rw [codes] at success
          cases success

/-- Rows are in memory exactly when the result has rows. -/
theorem filled (stands : Stands info position) : 0 < info.iNumberOfRowsInMem ↔ 0 < n := by
  cases stands with
  | memory same _ _ => simp [same, memoryAt]
  | spilled state agrees =>
      have filled := agrees.filled
      simp only [memoryAt] at filled
      omega

/-- `SQL_FETCH_FIRST` finds the first row of a result that has one. -/
theorem fetchFirst (stands : Stands info position) :
    (0 < n → info.fetchFirst.1 = .success ∧ Stands info.fetchFirst.2 0) ∧
      (¬ 0 < n → info.fetchFirst = (.noData, info)) := by
  have memory : (memoryAt batches position).fetchFirst =
      if 0 < n then (.success, memoryAt batches 0) else (.noData, memoryAt batches position) := by
    simp [ResultInfo.fetchFirst, ResultInfo.setFetchAtFirstRow, memoryAt]
  have transfer := stands.transfer (fun info => info.fetchFirst)
    (fun state agrees => agrees.fetchFirst)
  constructor
  · intro filled
    rw [if_pos filled] at memory
    exact transfer _ _ memory (by omega) (by omega)
  · intro empty
    rw [ResultInfo.fetchFirst, if_neg (fun filled => empty (stands.filled.mp filled))]

/-- `SQL_FETCH_LAST` finds the last row within the limit, or a row beyond it. -/
theorem fetchLast (stands : Stands info position) (call : Call) :
    (0 < n → (∀ state, info.csc = some state →
        Agrees.LimitInLastBatch batches state call.maxRows) →
        (info.fetchLast call.maxRows).1 = .success ∧
          Stands (info.fetchLast call.maxRows).2 (call.limit n - 1)) ∧
      (0 < n → (∃ state, info.csc = some state ∧
        ¬ Agrees.LimitInLastBatch batches state call.maxRows) →
        ∃ row, Stands (info.fetchLast call.maxRows).2 row ∧ row < n ∧ ¬ row < call.limit n) ∧
      (¬ 0 < n → info.fetchLast call.maxRows = (.noData, info)) := by
  have memory : (memoryAt batches position).fetchLast call.maxRows =
      if 0 < n then (.success, memoryAt batches (call.limit n - 1))
      else (.noData, memoryAt batches position) := by
    by_cases filled : 0 < n
    · by_cases limited : 0 < call.maxRows ∧ call.maxRows < n
      · simp [ResultInfo.fetchLast, ResultInfo.setFetchAtLastRow, memoryAt, Call.limit, filled,
          limited]
      · rw [if_pos filled, Call.limit, if_neg limited]
        simp only [ResultInfo.fetchLast, ResultInfo.setFetchAtLastRow, memoryAt, zero_add,
          Option.bind_none]
        rw [if_pos (by omega), if_neg limited]
    · simp [ResultInfo.fetchLast, memoryAt, filled]
  have limit_le : 0 < n → 0 < call.limit n ∧ call.limit n ≤ n := by
    intro filled
    rw [Call.limit]
    split <;> omega
  refine ⟨?_, ?_, ?_⟩
  · intro filled limit
    rw [if_pos filled] at memory
    obtain ⟨positive, within⟩ := limit_le filled
    cases stands with
    | memory same lower upper =>
        rw [same, memory]
        exact ⟨rfl, .memory rfl (by omega) (by omega)⟩
    | spilled state agrees =>
        obtain ⟨codes, next, done⟩ := agrees.fetchLast (limit state agrees.csc)
        rw [memory] at codes done
        exact ⟨codes, .spilled next done⟩
  · rintro filled ⟨state, csc, outside⟩
    cases stands with
    | memory same lower upper =>
        rw [same] at csc
        cases csc
    | spilled inner agrees =>
        obtain ⟨next, last_csc, rows, offset, last, which⟩ := agrees.setFetchAtLastRow
        have same : inner = state := Option.some.inj (agrees.csc.symm.trans csc)
        rw [same] at which
        rw [Agrees.LimitInLastBatch, ← which] at outside
        have moved : (info.fetchLast call.maxRows).2 =
            { info.setFetchAtLastRow with iCurRow := 0 } := by
          rw [ResultInfo.fetchLast, if_pos agrees.filled.1]
          simp only [offset, rows]
          rw [if_pos (by omega), if_neg (by omega)]
        have positive := batches.len_pos next
        refine ⟨batches.start next, ?_, by omega, ?_⟩
        · rw [moved]
          exact .spilled next (Agrees.of_load 0 last_csc rows offset rfl rfl rfl rfl
            (by simp [memoryAt]) (.inl ⟨le_refl 0, by omega⟩))
        · rw [Call.limit, if_pos (by omega)]
          omega
  · intro empty
    rw [ResultInfo.fetchLast, if_neg (fun filled => empty (stands.filled.mp filled))]

/-- `SQL_FETCH_RELATIVE` goes to a row number counted from the cursor. -/
theorem fetchRelative (stands : Stands info position) (iFetchOffset : Int) :
    (iFetchOffset = 0 → 0 ≤ position ∧ position < n →
        info.fetchRelative iFetchOffset = (.success, info)) ∧
      (iFetchOffset = 0 → ¬ (0 ≤ position ∧ position < n) →
        info.fetchRelative iFetchOffset = (.noData, info)) ∧
      (iFetchOffset ≠ 0 → wrap 8 (position + 1 + iFetchOffset) < 0 →
        info.fetchRelative iFetchOffset = (.noData, info.beforeFirst)) ∧
      (iFetchOffset ≠ 0 → ¬ wrap 8 (position + 1 + iFetchOffset) < 0 →
        info.fetchRelative iFetchOffset =
          info.setAbsolute (wrap 8 (position + 1 + iFetchOffset))) := by
  have lower := stands.lower
  have upper := stands.upper
  have index : info.relativeIndex iFetchOffset = wrap 8 (position + 1 + iFetchOffset) := by
    cases stands with
    | memory same _ _ => rw [same, ResultInfo.relativeIndex, memoryAt]
    | spilled state agrees => rw [agrees.relativeIndex, ResultInfo.relativeIndex, memoryAt]
  have outside : (info.isBeforeFirstRow || info.isAfterLastRow) =
      (0 < n && !decide (0 ≤ position ∧ position < n)) := by
    have memory : ((memoryAt batches position).isBeforeFirstRow ||
        (memoryAt batches position).isAfterLastRow) =
          (0 < n && !decide (0 ≤ position ∧ position < n)) := by
      rw [Bool.eq_iff_iff]
      change (decide (0 + position < 0) && decide (0 < (n : Int)) && true ||
        decide ((n : Int) ≤ position) && decide (0 < (n : Int)) && true) = true ↔ _
      simp only [Bool.and_true, Bool.or_eq_true, Bool.and_eq_true, decide_eq_true_eq,
        Bool.not_eq_true', decide_eq_false_iff_not]
      omega
    cases stands with
    | memory same _ _ => rw [same, memory]
    | spilled state agrees => rw [agrees.isBeforeFirstRow, agrees.isAfterLastRow, memory]
  have filled := stands.filled
  refine ⟨?_, ?_, ?_, ?_⟩
  · intro zero inside
    rw [ResultInfo.fetchRelative, if_pos zero, if_neg (by omega), outside, if_neg (by simp [inside])]
  · intro zero away
    rw [ResultInfo.fetchRelative, if_pos zero, outside]
    by_cases empty : info.iNumberOfRowsInMem = 0
    · rw [if_pos empty]
    · by_cases some_row : 0 < n
      · rw [if_neg empty, if_pos (by simp [some_row, away])]
      · have none : info.iNumberOfRowsInMem = 0 := by
          cases stands with
          | memory same _ _ =>
              simp only [same, memoryAt]
              omega
          | spilled state agrees => exact absurd (filled.mp agrees.filled.1) some_row
        exact absurd none empty
  · intro nonzero before
    rw [ResultInfo.fetchRelative, if_neg nonzero]
    simp only [index]
    rw [if_pos before]
  · intro nonzero behind
    rw [ResultInfo.fetchRelative, if_neg nonzero]
    simp only [index]
    rw [if_neg behind]

/-- A row found behind the limit of the call. -/
theorem beyond (stands : Stands info position) (inside : position < n)
    (behind : ¬ position < call.limit n) :
    ∀ row, info.row = some row → 0 < call.maxRows ∧ call.maxRows ≤ row := by
  intro row found
  rw [ResultInfo.row, stands.position_eq] at found
  rw [Call.limit] at behind
  split at found
  · cases found
    split at behind <;> omega
  · cases found

/-- The first turn of a call that begins within the limit. -/
theorem firstTurn (stands : Stands info position) {row : Int}
    (found : call.firstRow info position = some row) (within : row < call.limit n)
    (last : call.orientation = .last → ∀ state, info.csc = some state →
      Agrees.LimitInLastBatch batches state call.maxRows) :
    ∃ next, info.positionCursor call call.orientation .success = some (.success, next) ∧
      Stands next row ∧ 0 ≤ row ∧ row < n := by
  have lower := stands.lower
  have upper := stands.upper
  have limit_le : call.limit n ≤ n := by
    rw [Call.limit]
    split <;> omega
  rw [Call.firstRow] at found
  cases orientation : call.orientation with
  | next =>
      simp only [orientation] at found
      split at found
      · cases found
        obtain ⟨code, after⟩ := (stands.fetchNext call .success).1 within
        exact ⟨_, congrArg some (Prod.ext code rfl), after, by omega, by omega⟩
      · cases found
  | prior =>
      simp only [orientation, stands.not_between, Bool.false_eq_true, if_false] at found
      split at found
      next positive =>
        cases found
        obtain ⟨code, after⟩ := (stands.fetchPrior .success).1 (by omega)
        exact ⟨_, congrArg some (Prod.ext code rfl), after, positive, by omega⟩
      · cases found
  | first =>
      simp only [orientation] at found
      split at found
      next filled =>
        cases found
        obtain ⟨code, after⟩ := stands.fetchFirst.1 filled
        exact ⟨_, congrArg some (Prod.ext code rfl), after, by omega, by omega⟩
      · cases found
  | last =>
      simp only [orientation] at found
      split at found
      next filled =>
        cases found
        obtain ⟨code, after⟩ := (stands.fetchLast call).1 filled (last orientation)
        have lowest := after.lower
        refine ⟨_, congrArg some (Prod.ext code rfl), after, ?_, by omega⟩
        rw [Call.limit]
        split <;> omega
      · cases found
  | absolute =>
      simp only [orientation] at found
      obtain ⟨first, inside, code, after⟩ := (stands.setAbsolute call.offset).1 row found
      exact ⟨_, congrArg some (Prod.ext code rfl), after, first, inside⟩
  | relative =>
      simp only [orientation] at found
      rw [ResultInfo.positionCursor]
      split at found
      next zero =>
        rw [stands.row_eq] at found
        split at found
        next inside =>
          cases found
          rw [(stands.fetchRelative call.offset).1 zero inside]
          exact ⟨info, rfl, stands, inside⟩
        · cases found
      next nonzero =>
        split at found
        · cases found
        next behind =>
          rw [(stands.fetchRelative call.offset).2.2.2 nonzero behind]
          obtain ⟨first, inside, code, after⟩ := (stands.setAbsolute _).1 row found
          exact ⟨_, congrArg some (Prod.ext code rfl), after, first, inside⟩
  | bookmark => simp [orientation] at found
  | other => simp [orientation] at found

/-- A move to an absolute row that is not within the limit. -/
theorem absolute_beyond (stands : Stands info position) {index : Int}
    (away : ∀ row, info.absoluteRow index = some row → ¬ row < call.limit n)
    {next : ResultInfo batches} (moved : info.setAbsolute index = (.success, next)) :
    ∀ row, next.row = some row → 0 < call.maxRows ∧ call.maxRows ≤ row := by
  intro row found
  cases target : info.absoluteRow index with
  | none =>
      have nowhere := ((stands.setAbsolute index).2 target).2
      rw [moved] at nowhere
      rw [nowhere rfl] at found
      cases found
  | some reached =>
      obtain ⟨first, inside, code, after⟩ := (stands.setAbsolute index).1 reached target
      rw [moved] at after
      exact after.beyond inside (away reached target) row found

/-- Any other first turn finds no row, or one beyond the limit. -/
theorem firstTurn_beyond (stands : Stands info position)
    (outside : ∀ row, call.firstRow info position = some row → row < call.limit n →
      call.orientation = .last ∧ ∃ state, info.csc = some state ∧
        ¬ Agrees.LimitInLastBatch batches state call.maxRows)
    {next : ResultInfo batches}
    (moved : info.positionCursor call call.orientation .success = some (.success, next)) :
    ∀ row, next.row = some row → 0 < call.maxRows ∧ call.maxRows ≤ row := by
  have lower := stands.lower
  have upper := stands.upper
  rw [Call.firstRow] at outside
  cases orientation : call.orientation with
  | next =>
      simp only [orientation, reduceCtorEq, false_and, imp_false] at outside
      rw [orientation, ResultInfo.positionCursor, Option.some_inj] at moved
      have behind : ¬ position + 1 < call.limit n := by
        intro within
        refine outside (position + 1) (if_pos ?_) within
        rw [Call.limit] at within
        split at within <;> omega
      have code := ((stands.fetchNext call .success).2 behind).1
      rw [moved] at code
      cases code
  | prior =>
      simp only [orientation, stands.not_between, Bool.false_eq_true, if_false, reduceCtorEq,
        false_and, imp_false] at outside
      rw [orientation, ResultInfo.positionCursor, Option.some_inj] at moved
      by_cases positive : 0 < position
      · obtain ⟨code, after⟩ := (stands.fetchPrior .success).1 positive
        rw [moved] at after
        exact after.beyond (by omega) (outside _ (if_pos (by omega)))
      · have code := ((stands.fetchPrior .success).2 positive).1
        rw [moved] at code
        cases code
  | first =>
      simp only [orientation, reduceCtorEq, false_and, imp_false] at outside
      rw [orientation, ResultInfo.positionCursor, Option.some_inj] at moved
      by_cases filled : 0 < n
      · refine absurd ?_ (outside 0 (if_pos filled))
        rw [Call.limit]
        split <;> omega
      · rw [stands.fetchFirst.2 filled] at moved
        cases moved
  | last =>
      simp only [orientation, true_and] at outside
      rw [orientation, ResultInfo.positionCursor, Option.some_inj] at moved
      by_cases filled : 0 < n
      · obtain ⟨reached, after, inside, behind⟩ :=
          (stands.fetchLast call).2.1 filled (outside _ (if_pos filled) (by omega))
        rw [moved] at after
        exact after.beyond inside behind
      · rw [(stands.fetchLast call).2.2 filled] at moved
        cases moved
  | absolute =>
      simp only [orientation, reduceCtorEq, false_and, imp_false] at outside
      rw [orientation, ResultInfo.positionCursor, Option.some_inj] at moved
      exact stands.absolute_beyond outside moved
  | relative =>
      simp only [orientation, reduceCtorEq, false_and, imp_false] at outside
      rw [orientation, ResultInfo.positionCursor, Option.some_inj] at moved
      obtain ⟨inside_stays, outside_none, before_none, behind_moves⟩ :=
        stands.fetchRelative call.offset
      by_cases zero : call.offset = 0
      · simp only [zero, if_true] at outside
        by_cases inside : 0 ≤ position ∧ position < n
        · rw [inside_stays zero inside] at moved
          cases moved
          exact stands.beyond inside.2 (outside position (stands.row_eq.trans (if_pos inside)))
        · rw [outside_none zero inside] at moved
          cases moved
      · simp only [zero, if_false] at outside
        by_cases before : wrap 8 (position + 1 + call.offset) < 0
        · rw [before_none zero before] at moved
          cases moved
        · rw [behind_moves zero before] at moved
          simp only [before, if_false] at outside
          exact stands.absolute_beyond outside moved
  | bookmark =>
      rw [orientation] at moved
      cases moved
  | other =>
      rw [orientation] at moved
      cases moved

end Stands

/-! ## Between two windows -/

namespace ResultInfo

theorem beforeFirst_row (info : ResultInfo batches) (row : Int) :
    { info with iCurRow := row }.beforeFirst = info.beforeFirst := by
  simp only [beforeFirst, setFetchAtFirstRow]
  split
  · split <;> rfl
  · rfl

theorem afterLast_row (info : ResultInfo batches) (row : Int) :
    { info with iCurRow := row }.afterLast = info.afterLast := by
  simp only [afterLast, setFetchAtLastRow]
  split <;> rfl

/-- An absolute move does not depend on the row it comes from. -/
theorem setAbsolute_row (info : ResultInfo batches) (row iFetchOffset : Int) :
    { info with iCurRow := row }.setAbsolute iFetchOffset = info.setAbsolute iFetchOffset := by
  have before := beforeFirst_row info row
  have behind := afterLast_row info row
  rcases info with ⟨cur, rows, offset, _ | state⟩
  · simp only at before behind
    simp only [setAbsolute, before, behind]
  · simp only at before behind
    rcases read : batches.readAbsolute state (wrap 4 iFetchOffset) with ⟨_ | next, iNewIndex⟩
    · simp only [setAbsolute, read, before, behind]
    · have loaded_before := beforeFirst_row (load ⟨cur, rows, offset, some state⟩ next cur) row
      have loaded_behind := afterLast_row (load ⟨cur, rows, offset, some state⟩ next cur) row
      simp only [load] at loaded_before loaded_behind
      simp only [setAbsolute, read, load, before, loaded_before, loaded_behind]

theorem fetchFirst_row (info : ResultInfo batches) (row : Int)
    (filled : 0 < info.iNumberOfRowsInMem) :
    { info with iCurRow := row }.fetchFirst = info.fetchFirst := by
  rw [fetchFirst, fetchFirst, if_pos filled, if_pos filled]
  rcases read : info.csc.bind batches.readFirst with _ | next
  · simp only [setFetchAtFirstRow, read, ite_self]
  · simp only [setFetchAtFirstRow, read, filled, if_true, load]

theorem fetchLast_row (info : ResultInfo batches) (row maxRows : Int)
    (filled : 0 < info.iNumberOfRowsInMem) :
    { info with iCurRow := row }.fetchLast maxRows = info.fetchLast maxRows := by
  rw [fetchLast, fetchLast, if_pos filled, if_pos filled]
  rcases read : info.csc.bind batches.readLast with _ | next
  · simp only [setFetchAtLastRow, read]
  · simp only [setFetchAtLastRow, read, load]

end ResultInfo

namespace Between

variable {info : ResultInfo batches} {state : batches.State} {call : Call}

theorem position_eq (between : Between info state) : info.position = batches.start state - 1 := by
  rw [ResultInfo.position, between.offset, between.before]
  rfl

theorem is_between (between : Between info state) : info.between = true := by
  have behind := between.behind
  simp [ResultInfo.between, between.before, between.offset, behind]

theorem row_eq (between : Between info state) : info.row = none := by
  rw [ResultInfo.row, if_neg (by rw [between.before]; omega)]

theorem filled (between : Between info state) : 0 < info.iNumberOfRowsInMem := by
  have positive := batches.len_pos state
  rw [between.rows]
  omega

/-- One row on is the first row of the window. -/
theorem firstOfWindow (between : Between info state) :
    Stands { info with iCurRow := 0 } (batches.start state) := by
  have positive := batches.len_pos state
  exact .spilled state (Agrees.of_load 0 between.csc between.rows between.offset rfl rfl rfl rfl
    (by simp [memoryAt]) (.inl ⟨le_refl 0, by omega⟩))

theorem fetchNext (between : Between info state) (call : Call) (rc : SqlReturn) :
    ((batches.start state : Int) < call.limit n → (info.fetchNext call.maxRows rc).1 = rc ∧
        Stands (info.fetchNext call.maxRows rc).2 (batches.start state)) ∧
      (¬ (batches.start state : Int) < call.limit n →
        info.fetchNext call.maxRows rc = (.noData, info)) := by
  have positive := batches.len_pos state
  have fit := batches.window_le state
  have filled := between.filled
  have stays : info.fetchNext call.maxRows rc = Agrees.advance info call.maxRows rc := by
    have inside : ¬ info.iNumberOfRowsInMem ≤ info.iCurRow + 1 := by
      rw [between.before]
      omega
    simp only [ResultInfo.fetchNext, Agrees.advance, inside, decide_false, Bool.false_and,
      Bool.false_eq_true, if_false]
  have reached : info.maxRowsReached call.maxRows =
      decide (¬ (batches.start state : Int) < call.limit n) := by
    rw [ResultInfo.maxRowsReached, between.before, between.offset, Call.limit, Bool.eq_iff_iff]
    simp only [Bool.and_eq_true, decide_eq_true_eq]
    split <;> omega
  rw [stays, Agrees.advance, if_pos (by rw [between.before]; omega), reached]
  constructor
  · intro within
    rw [if_neg (by simpa using within), between.before, if_neg (by omega)]
    exact ⟨rfl, between.firstOfWindow⟩
  · intro behind
    rw [if_pos (by simpa using behind)]

theorem fetchPrior (between : Between info state) (rc : SqlReturn) :
    (info.fetchPrior rc).1 = rc ∧ Stands (info.fetchPrior rc).2 (batches.start state - 1) := by
  cases read : batches.readPrevious state with
  | none =>
      have first := batches.readPrevious_none state read
      have behind := between.behind
      omega
  | some next =>
      have before := batches.readPrevious_some state next read
      have positive := batches.len_pos next
      have moved : info.fetchPrior rc = (rc,
          { info with
            iNumberOfRowsInMem := batches.len next
            iRowOffset := info.iRowOffset - batches.len next
            iCurRow := batches.len next - 1
            csc := some next }) := by
        have outside : info.iCurRow - 1 < 0 := by
          rw [between.before]
          decide
        simp only [ResultInfo.fetchPrior, between.csc, Option.bind_some, read, outside, if_true]
        rw [if_pos (by omega), if_neg (by omega)]
      have offset := between.offset
      rw [moved]
      refine ⟨rfl, .spilled next (Agrees.of_load (batches.len next - 1) rfl rfl ?_ rfl rfl rfl rfl
        ?_ (.inl ⟨by omega, by omega⟩))⟩
      · simp only
        omega
      · simp only [memoryAt]
        omega

theorem fetchRelative (between : Between info state) (iFetchOffset : Int) :
    (iFetchOffset = 0 → info.fetchRelative iFetchOffset = (.success, info)) ∧
      (iFetchOffset ≠ 0 → wrap 8 (batches.start state + iFetchOffset) < 0 →
        info.fetchRelative iFetchOffset = (.noData, info.beforeFirst)) ∧
      (iFetchOffset ≠ 0 → ¬ wrap 8 (batches.start state + iFetchOffset) < 0 →
        info.fetchRelative iFetchOffset =
          info.setAbsolute (wrap 8 (batches.start state + iFetchOffset))) := by
  have filled := between.filled
  have behind := between.behind
  have index : info.relativeIndex iFetchOffset = wrap 8 (batches.start state + iFetchOffset) := by
    simp only [ResultInfo.relativeIndex, between.csc, wrap_wrap_add, between.before,
      between.offset]
    congr 1
    omega
  refine ⟨?_, ?_, ?_⟩
  · intro zero
    rw [ResultInfo.fetchRelative, if_pos zero, if_neg (by omega), if_neg]
    rw [ResultInfo.isBeforeFirstRow, ResultInfo.isAfterLastRow, between.csc, between.before]
    simp only [Bool.or_eq_true, Bool.and_eq_true, decide_eq_true_eq]
    omega
  · intro nonzero before
    rw [ResultInfo.fetchRelative, if_neg nonzero]
    simp only [index]
    rw [if_pos before]
  · intro nonzero inside
    rw [ResultInfo.fetchRelative, if_neg nonzero]
    simp only [index]
    rw [if_neg inside]

/-- A move to the first, the last or an absolute row does not depend on the row it comes from. -/
theorem sameTurn (between : Between info state)
    (which : call.orientation = .first ∨ call.orientation = .last ∨
      call.orientation = .absolute) :
    call.firstRow { info with iCurRow := 0 } (batches.start state) =
        call.firstRow info (batches.start state - 1) ∧
      info.positionCursor call call.orientation .success =
        { info with iCurRow := 0 }.positionCursor call call.orientation .success := by
  rw [Call.firstRow, Call.firstRow]
  rcases which with which | which | which <;> rw [which]
  · exact ⟨rfl, congrArg some (info.fetchFirst_row 0 between.filled).symm⟩
  · exact ⟨rfl, congrArg some (info.fetchLast_row 0 call.maxRows between.filled).symm⟩
  · exact ⟨rfl, congrArg some (info.setAbsolute_row 0 call.offset).symm⟩

/-- The first turn of a call from between two windows. -/
theorem firstTurn (between : Between info state) {row : Int}
    (found : call.firstRow info (batches.start state - 1) = some row) (within : row < call.limit n)
    (last : call.orientation = .last → ∀ state, info.csc = some state →
      Agrees.LimitInLastBatch batches state call.maxRows) :
    ∃ next, info.positionCursor call call.orientation .success = some (.success, next) ∧
      Stands next row ∧ 0 ≤ row ∧ row < n := by
  have filled := between.filled
  have behind := between.behind
  have fit := batches.window_le state
  have positive := batches.len_pos state
  have window := between.firstOfWindow
  have moves : call.orientation = .first ∨ call.orientation = .last ∨
      call.orientation = .absolute → ∃ next,
        info.positionCursor call call.orientation .success = some (.success, next) ∧
          Stands next row ∧ 0 ≤ row ∧ row < n := by
    intro which
    obtain ⟨same, turn⟩ := between.sameTurn which
    rw [turn]
    exact window.firstTurn (same.trans found) within last
  cases orientation : call.orientation with
  | next =>
      rw [Call.firstRow] at found
      simp only [orientation, sub_add_cancel] at found
      rw [if_pos (by omega)] at found
      cases found
      obtain ⟨code, after⟩ := (between.fetchNext call .success).1 within
      exact ⟨_, congrArg some (Prod.ext code rfl), after, by omega, by omega⟩
  | prior =>
      rw [Call.firstRow] at found
      simp only [orientation, between.is_between, if_true] at found
      rw [if_pos (by omega)] at found
      cases found
      obtain ⟨code, after⟩ := between.fetchPrior .success
      exact ⟨_, congrArg some (Prod.ext code rfl), after, by omega, by omega⟩
  | first =>
      rw [orientation] at moves
      exact moves (.inl rfl)
  | last =>
      rw [orientation] at moves
      exact moves (.inr (.inl rfl))
  | absolute =>
      rw [orientation] at moves
      exact moves (.inr (.inr rfl))
  | relative =>
      rw [Call.firstRow] at found
      simp only [orientation, sub_add_cancel, between.row_eq] at found
      rw [ResultInfo.positionCursor]
      split at found
      · cases found
      next nonzero =>
        split at found
        · cases found
        next inside =>
          rw [(between.fetchRelative call.offset).2.2 nonzero inside, ← info.setAbsolute_row 0]
          obtain ⟨first, reached, code, after⟩ := (window.setAbsolute _).1 row found
          exact ⟨_, congrArg some (Prod.ext code rfl), after, first, reached⟩
  | bookmark => simp [Call.firstRow, orientation] at found
  | other => simp [Call.firstRow, orientation] at found

/-- Any other first turn from between two windows finds no row, or one beyond the limit. -/
theorem firstTurn_beyond (between : Between info state)
    (outside : ∀ row, call.firstRow info (batches.start state - 1) = some row →
      row < call.limit n → call.orientation = .last ∧ ∃ state, info.csc = some state ∧
        ¬ Agrees.LimitInLastBatch batches state call.maxRows)
    {next : ResultInfo batches}
    (moved : info.positionCursor call call.orientation .success = some (.success, next)) :
    ∀ row, next.row = some row → 0 < call.maxRows ∧ call.maxRows ≤ row := by
  have filled := between.filled
  have behind := between.behind
  have fit := batches.window_le state
  have positive := batches.len_pos state
  have window := between.firstOfWindow
  have moves : call.orientation = .first ∨ call.orientation = .last ∨
      call.orientation = .absolute →
        ∀ row, next.row = some row → 0 < call.maxRows ∧ call.maxRows ≤ row := by
    intro which
    obtain ⟨same, turn⟩ := between.sameTurn which
    rw [turn] at moved
    rw [← same] at outside
    exact window.firstTurn_beyond outside moved
  cases orientation : call.orientation with
  | next =>
      rw [Call.firstRow] at outside
      simp only [orientation, sub_add_cancel, reduceCtorEq, false_and, imp_false] at outside
      rw [if_pos (by omega)] at outside
      rw [orientation, ResultInfo.positionCursor, (between.fetchNext call .success).2 (outside _ rfl)]
        at moved
      cases moved
  | prior =>
      rw [Call.firstRow] at outside
      simp only [orientation, between.is_between, if_true, reduceCtorEq, false_and, imp_false]
        at outside
      rw [if_pos (by omega)] at outside
      rw [orientation, ResultInfo.positionCursor, Option.some_inj] at moved
      obtain ⟨-, after⟩ := between.fetchPrior .success
      rw [moved] at after
      exact after.beyond (by omega) (outside _ rfl)
  | first => exact moves (.inl orientation)
  | last => exact moves (.inr (.inl orientation))
  | absolute => exact moves (.inr (.inr orientation))
  | relative =>
      rw [Call.firstRow] at outside
      simp only [orientation, sub_add_cancel, between.row_eq, reduceCtorEq, false_and, imp_false]
        at outside
      rw [orientation, ResultInfo.positionCursor, Option.some_inj] at moved
      obtain ⟨stays, before_none, moves_to⟩ := between.fetchRelative call.offset
      by_cases zero : call.offset = 0
      · rw [stays zero] at moved
        cases moved
        intro row found
        rw [between.row_eq] at found
        cases found
      · by_cases before : wrap 8 (batches.start state + call.offset) < 0
        · rw [before_none zero before] at moved
          cases moved
        · rw [if_neg zero, if_neg before] at outside
          rw [moves_to zero before, ← info.setAbsolute_row 0] at moved
          exact window.absolute_beyond outside moved
  | bookmark =>
      rw [orientation] at moved
      cases moved
  | other =>
      rw [orientation] at moved
      cases moved

end Between

/-! ## The rows loop -/

namespace Located

variable {info : ResultInfo batches} {call : Call}

theorem firstTurn (located : Located info) {row : Int} (begins : Begins call info row) :
    ∃ next, info.positionCursor call call.orientation .success = some (.success, next) ∧
      Stands next row ∧ 0 ≤ row ∧ row < n := by
  obtain ⟨found, within, last⟩ := begins
  cases located with
  | stands position stands =>
      rw [stands.position_eq] at found
      exact stands.firstTurn found within last
  | between state between =>
      rw [between.position_eq] at found
      exact between.firstTurn found within last

theorem firstTurn_beyond (located : Located info) (outside : ∀ row, ¬ Begins call info row)
    {next : ResultInfo batches}
    (moved : info.positionCursor call call.orientation .success = some (.success, next)) :
    ∀ row, next.row = some row → 0 < call.maxRows ∧ call.maxRows ≤ row := by
  have away : ∀ row, call.firstRow info info.position = some row → row < call.limit n →
      call.orientation = .last ∧ ∃ state, info.csc = some state ∧
        ¬ Agrees.LimitInLastBatch batches state call.maxRows := by
    intro row found within
    by_contra harmless
    refine outside row ⟨found, within, fun last state csc => ?_⟩
    by_contra limit
    exact harmless ⟨last, state, csc, limit⟩
  cases located with
  | stands position stands =>
      rw [stands.position_eq] at away
      exact stands.firstTurn_beyond away moved
  | between state between =>
      rw [between.position_eq] at away
      exact between.firstTurn_beyond away moved

end Located

namespace Stands

variable {info : ResultInfo batches} {position : Int}

theorem located_setAbsolute (stands : Stands info position) (iFetchOffset : Int) :
    Located (info.setAbsolute iFetchOffset).2 := by
  cases target : info.absoluteRow iFetchOffset with
  | none => exact ((stands.setAbsolute iFetchOffset).2 target).1
  | some row => exact .stands row ((stands.setAbsolute iFetchOffset).1 row target).2.2.2

theorem located_fetchLast (stands : Stands info position) (call : Call) :
    Located (info.fetchLast call.maxRows).2 := by
  obtain ⟨within, behind, none⟩ := stands.fetchLast call
  by_cases filled : 0 < n
  · by_cases limit : ∀ state, info.csc = some state →
        Agrees.LimitInLastBatch batches state call.maxRows
    · exact .stands _ (within filled limit).2
    · push Not at limit
      obtain ⟨row, after, -⟩ := behind filled limit
      exact .stands row after
  · rw [none filled]
    exact .stands position stands

/-- Every turn leaves the cursor at one of its places. -/
theorem located_positionCursor (stands : Stands info position) (call : Call)
    (orientation : Orientation) (rc : SqlReturn) {result : SqlReturn × ResultInfo batches}
    (moved : info.positionCursor call orientation rc = some result) : Located result.2 := by
  cases orientation with
  | next =>
      cases moved
      by_cases more : position + 1 < call.limit n
      · exact .stands _ ((stands.fetchNext call rc).1 more).2
      · obtain ⟨-, after, stays, -⟩ := (stands.fetchNext call rc).2 more
        exact .stands after stays
  | prior =>
      cases moved
      by_cases positive : 0 < position
      · exact .stands _ ((stands.fetchPrior rc).1 positive).2
      · exact .stands _ ((stands.fetchPrior rc).2 positive).2
  | first =>
      cases moved
      by_cases filled : 0 < n
      · exact .stands 0 (stands.fetchFirst.1 filled).2
      · rw [stands.fetchFirst.2 filled]
        exact .stands position stands
  | last =>
      cases moved
      exact stands.located_fetchLast call
  | absolute =>
      cases moved
      exact stands.located_setAbsolute call.offset
  | relative =>
      cases moved
      obtain ⟨inside_stays, outside_stays, before, behind⟩ := stands.fetchRelative call.offset
      by_cases zero : call.offset = 0
      · by_cases inside : 0 ≤ position ∧ position < n
        · rw [inside_stays zero inside]
          exact .stands position stands
        · rw [outside_stays zero inside]
          exact .stands position stands
      · by_cases negative : wrap 8 (position + 1 + call.offset) < 0
        · rw [before zero negative]
          exact .stands (-1) stands.beforeFirst
        · rw [behind zero negative]
          exact stands.located_setAbsolute _
  | bookmark => cases moved
  | other => cases moved

end Stands

theorem Between.located_positionCursor {info : ResultInfo batches} {state : batches.State}
    (between : Between info state) (call : Call) (orientation : Orientation) (rc : SqlReturn)
    {result : SqlReturn × ResultInfo batches}
    (moved : info.positionCursor call orientation rc = some result) : Located result.2 := by
  have window := between.firstOfWindow
  cases orientation with
  | next =>
      cases moved
      obtain ⟨within, behind⟩ := between.fetchNext call rc
      by_cases more : (batches.start state : Int) < call.limit n
      · exact .stands _ (within more).2
      · rw [behind more]
        exact .between state between
  | prior =>
      cases moved
      exact .stands _ (between.fetchPrior rc).2
  | first =>
      rw [ResultInfo.positionCursor, ← info.fetchFirst_row 0 between.filled] at moved
      exact window.located_positionCursor call .first rc moved
  | last =>
      rw [ResultInfo.positionCursor, ← info.fetchLast_row 0 call.maxRows between.filled] at moved
      exact window.located_positionCursor call .last rc moved
  | absolute =>
      rw [ResultInfo.positionCursor, ← info.setAbsolute_row 0 call.offset] at moved
      exact window.located_positionCursor call .absolute rc moved
  | relative =>
      cases moved
      obtain ⟨stays, before, behind⟩ := between.fetchRelative call.offset
      by_cases zero : call.offset = 0
      · rw [stays zero]
        exact .between state between
      · by_cases negative : wrap 8 (batches.start state + call.offset) < 0
        · rw [before zero negative, ← info.beforeFirst_row 0]
          exact .stands (-1) window.beforeFirst
        · rw [behind zero negative, ← info.setAbsolute_row 0]
          exact window.located_setAbsolute _
  | bookmark => cases moved
  | other => cases moved

namespace Located

variable {info : ResultInfo batches}

theorem positionCursor (located : Located info) (call : Call) (orientation : Orientation)
    (rc : SqlReturn) {result : SqlReturn × ResultInfo batches}
    (moved : info.positionCursor call orientation rc = some result) : Located result.2 := by
  cases located with
  | stands position stands => exact stands.located_positionCursor call orientation rc moved
  | between state between => exact between.located_positionCursor call orientation rc moved

theorem fetchRows (call : Call) (left : Nat) :
    ∀ (lRowFetched : Nat) (orientation : Orientation) (info : ResultInfo batches) (report : Report),
      Located info → Located (fetchRows call left lRowFetched orientation info report).2 := by
  induction left with
  | zero =>
      intro lRowFetched orientation info report located
      exact located
  | succ left ih =>
      intro lRowFetched orientation info report located
      rcases moved : info.positionCursor call orientation report.rc with _ | ⟨rc, next⟩
      · rw [Fetch.fetchRows, moved]
        exact located
      · have after : Located next := located.positionCursor call orientation report.rc moved
        rw [Fetch.fetchRows, moved]
        cases rc with
        | success =>
            dsimp only
            split
            · split
              · exact after
              · exact ih _ _ next _ after
              · exact ih _ _ next _ after
            · exact ih _ _ next _ after
        | noData => exact after
        | error => exact after

end Located

/-- A result before its first row, as it is when the statement has been executed. -/
inductive Executed (info : ResultInfo batches) : Prop where
  | inMemory (same : info = ResultInfo.inMemory batches)
  | spilled (state : batches.State) (first : batches.start state = 0)
      (same : info = ResultInfo.spilled state)

theorem Executed.located {info : ResultInfo batches} (executed : Executed info) :
    Located info := by
  cases executed with
  | inMemory same =>
      rw [same]
      exact .stands (-1) (.memory rfl (le_refl _) (by omega))
  | spilled state first same =>
      rw [same]
      exact .stands (-1) (.spilled state (agrees_start first))

def afterCall (info : ResultInfo batches) (call : Call) : Option (ResultInfo batches) :=
  some (sqlFetchScroll call info).2

end RedshiftOdbc.Fetch
