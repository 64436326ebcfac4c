import RedshiftOdbc.Fetch.Scroll
import RedshiftOdbc.Library.Machine
import Mathlib.Tactic.IntervalCases

/-!
# Spilled and in-memory results

A cursor on a spilled result and one on the same result in memory are stepped
together.  They agree when the spilled cursor's window offset and row add up to
the in-memory row and when it stands outside its window only at an end of the
result.  Every orientation keeps the agreement unless an offset is changed by
the narrowing to `int`, or the row limit ends before the last batch begins.
-/

namespace RedshiftOdbc.Fetch

open RedshiftOdbc.Words RedshiftOdbc.Machine

variable {n : Nat} {batches : BatchFunctions n}

/-- A spilled cursor and an in-memory cursor at one position of the result. -/
structure Agrees (spilled memory : ResultInfo batches) (state : batches.State) : Prop where
  csc : spilled.csc = some state
  rows : spilled.iNumberOfRowsInMem = batches.len state
  offset : spilled.iRowOffset = batches.start state
  all : memory.csc = none
  memory_rows : memory.iNumberOfRowsInMem = n
  memory_offset : memory.iRowOffset = 0
  same : memory.iCurRow = batches.start state + spilled.iCurRow
  lower : -1 ≤ spilled.iCurRow
  upper : spilled.iCurRow ≤ batches.len state
  before : spilled.iCurRow = -1 → batches.start state = 0
  behind : spilled.iCurRow = batches.len state → batches.start state + batches.len state = n

namespace Agrees

variable {spilled memory : ResultInfo batches} {state : batches.State}

/-- A window with both cursors at one of its rows, or at an end of the result. -/
theorem of_load {info : ResultInfo batches} {state : batches.State} (row : Int)
    (csc : info.csc = some state) (rows : info.iNumberOfRowsInMem = batches.len state)
    (offset : info.iRowOffset = batches.start state) (cur : info.iCurRow = row)
    (all : memory.csc = none) (memory_rows : memory.iNumberOfRowsInMem = n)
    (memory_offset : memory.iRowOffset = 0)
    (same : memory.iCurRow = batches.start state + row)
    (range : (0 ≤ row ∧ row < batches.len state) ∨ (row = -1 ∧ batches.start state = 0) ∨
      (row = batches.len state ∧ batches.start state + batches.len state = n)) :
    Agrees info memory state := by
  have positive := batches.len_pos state
  refine ⟨csc, rows, offset, all, memory_rows, memory_offset, by rw [cur, same], ?_, ?_, ?_, ?_⟩ <;>
    rw [cur] <;> omega

theorem beforeFirst (agrees : Agrees spilled memory state) :
    ∃ next, Agrees spilled.beforeFirst memory.beforeFirst next := by
  have positive := batches.len_pos state
  have filled : 0 < spilled.iNumberOfRowsInMem := by
    rw [agrees.rows]
    omega
  have stay : memory.setFetchAtFirstRow = memory := by
    simp [ResultInfo.setFetchAtFirstRow, agrees.all]
  cases read : batches.readFirst state with
  | none =>
      have first := batches.readFirst_none state read
      have here : spilled.setFetchAtFirstRow = spilled := by
        simp [ResultInfo.setFetchAtFirstRow, agrees.csc, read]
      refine ⟨state, ?_⟩
      rw [ResultInfo.beforeFirst, ResultInfo.beforeFirst, here, stay]
      exact of_load _ agrees.csc agrees.rows agrees.offset rfl agrees.all agrees.memory_rows
        agrees.memory_offset (by simp [first]) (.inr (.inl ⟨rfl, first⟩))
  | some next =>
      have first := batches.readFirst_some state next read
      have moved : spilled.setFetchAtFirstRow = spilled.load next 0 := by
        simp [ResultInfo.setFetchAtFirstRow, filled, agrees.csc, read]
      refine ⟨next, ?_⟩
      rw [ResultInfo.beforeFirst, ResultInfo.beforeFirst, moved, stay]
      exact of_load _ rfl rfl rfl rfl agrees.all agrees.memory_rows agrees.memory_offset
        (by simp [first]) (.inr (.inl ⟨rfl, first⟩))

/-- `setFetchAtLastRow` brings the last window. -/
theorem setFetchAtLastRow (agrees : Agrees spilled memory state) :
    ∃ next, spilled.setFetchAtLastRow.csc = some next ∧
      spilled.setFetchAtLastRow.iNumberOfRowsInMem = batches.len next ∧
      spilled.setFetchAtLastRow.iRowOffset = batches.start next ∧
      batches.start next + batches.len next = n ∧
      next = (batches.readLast state).getD state := by
  cases read : batches.readLast state with
  | none =>
      have last := batches.readLast_none state read
      have here : spilled.setFetchAtLastRow = spilled := by
        simp [ResultInfo.setFetchAtLastRow, agrees.csc, read]
      rw [here]
      exact ⟨state, agrees.csc, agrees.rows, agrees.offset, last, rfl⟩
  | some next =>
      have last := batches.readLast_some state next read
      have moved : spilled.setFetchAtLastRow = spilled.load next (batches.len next - 1) := by
        simp [ResultInfo.setFetchAtLastRow, agrees.csc, read]
      rw [moved]
      exact ⟨next, rfl, rfl, rfl, last, rfl⟩

theorem memory_setFetchAtLastRow (agrees : Agrees spilled memory state) :
    memory.setFetchAtLastRow = memory := by
  simp [ResultInfo.setFetchAtLastRow, agrees.all]

theorem afterLast (agrees : Agrees spilled memory state) :
    ∃ next, Agrees spilled.afterLast memory.afterLast next := by
  obtain ⟨next, csc, rows, offset, last, -⟩ := agrees.setFetchAtLastRow
  refine ⟨next, ?_⟩
  rw [ResultInfo.afterLast, ResultInfo.afterLast, agrees.memory_setFetchAtLastRow]
  refine of_load _ csc rows offset rfl agrees.all agrees.memory_rows agrees.memory_offset ?_
    (.inr (.inr ⟨rows, last⟩))
  simp only [rows, agrees.memory_rows]
  omega

end Agrees

/--
Cutting an offset down to an `int` does not matter: it stays what it is, or both
values lie behind the result, or both before it.
-/
def NarrowingHarmless (n : Nat) (iFetchOffset : Int) : Prop :=
  wrap 4 iFetchOffset = iFetchOffset ∨ ((n : Int) < iFetchOffset ∧ (n : Int) < wrap 4 iFetchOffset) ∨
    (iFetchOffset < -(n : Int) ∧ wrap 4 iFetchOffset < -(n : Int))

namespace Agrees

variable {spilled memory : ResultInfo batches} {state : batches.State}

/-- An offset of a row of the result brings that row in memory. -/
theorem memory_setAbsolute (agrees : Agrees spilled memory state) {iFetchOffset : Int}
    (nonzero : ¬ iFetchOffset = 0) {row : Nat} (within : row < n)
    (resolved : (if iFetchOffset < 0 then n + iFetchOffset + 1 else iFetchOffset) =
      ((row + 1 : Nat) : Int)) :
    memory.setAbsolute iFetchOffset = (.success, { memory with iCurRow := (row : Int) }) := by
  by_cases negative : iFetchOffset < 0
  · have reach : -memory.iNumberOfRowsInMem ≤ iFetchOffset := by
      rw [agrees.memory_rows]
      split at resolved <;> omega
    have place : memory.iNumberOfRowsInMem + iFetchOffset = row := by
      rw [agrees.memory_rows]
      split at resolved <;> omega
    simp only [ResultInfo.setAbsolute, nonzero, if_false, agrees.all, negative, if_true, reach,
      place]
  · have reach : iFetchOffset ≤ memory.iNumberOfRowsInMem := by
      rw [agrees.memory_rows]
      split at resolved <;> omega
    have place : iFetchOffset - 1 = row := by
      split at resolved <;> omega
    simp only [ResultInfo.setAbsolute, nonzero, if_false, agrees.all, negative, reach, if_true,
      place]

/-- An offset of a row of the result brings the window of that row. -/
theorem setAbsolute_inside (agrees : Agrees spilled memory state) {iFetchOffset : Int}
    (nonzero : ¬ iFetchOffset = 0) (narrow : wrap 4 iFetchOffset = iFetchOffset) {row : Nat}
    (within : row < n)
    (resolved : (if iFetchOffset < 0 then n + iFetchOffset + 1 else iFetchOffset) =
      ((row + 1 : Nat) : Int)) :
    (spilled.setAbsolute iFetchOffset).1 = (memory.setAbsolute iFetchOffset).1 ∧
      ∃ next, Agrees (spilled.setAbsolute iFetchOffset).2 (memory.setAbsolute iFetchOffset).2
        next := by
  have spec := batches.readAbsolute_inside state iFetchOffset row within resolved
  rw [agrees.memory_setAbsolute nonzero within resolved]
  rcases read : batches.readAbsolute state iFetchOffset with ⟨got, index⟩
  rw [read] at spec
  obtain ⟨lower, upper, reported⟩ := spec
  simp only at reported lower upper
  have forward : ¬ index < 0 := by omega
  cases got with
  | none =>
      simp only [Option.getD_none] at lower upper reported
      have reach : index ≤ spilled.iNumberOfRowsInMem := by
        rw [agrees.rows]
        omega
      have spilled_position : spilled.setAbsolute iFetchOffset =
          (.success, { spilled with iCurRow := index - 1 }) := by
        simp only [ResultInfo.setAbsolute, nonzero, if_false, agrees.csc, narrow, read, forward,
          reach, if_true]
      rw [spilled_position]
      refine ⟨rfl, state, of_load (index - 1) agrees.csc agrees.rows agrees.offset rfl
        agrees.all agrees.memory_rows agrees.memory_offset ?_ (.inl ?_)⟩
      · simp only
        omega
      · omega
  | some next =>
      simp only [Option.getD_some] at lower upper reported
      have reach : index ≤ (batches.len next : Int) := by omega
      have spilled_position : spilled.setAbsolute iFetchOffset =
          (.success, { spilled.load next spilled.iCurRow with iCurRow := index - 1 }) := by
        simp only [ResultInfo.setAbsolute, nonzero, if_false, agrees.csc, narrow, read, forward]
        rw [if_pos (by simpa [ResultInfo.load] using reach)]
      rw [spilled_position]
      refine ⟨rfl, next, of_load (index - 1) rfl rfl rfl rfl agrees.all
        agrees.memory_rows agrees.memory_offset ?_ (.inl ?_)⟩
      · simp only
        omega
      · omega

/-- An offset behind the result or before it, in both models alike. -/
theorem setAbsolute_outside (agrees : Agrees spilled memory state) {iFetchOffset : Int}
    (nonzero : ¬ iFetchOffset = 0)
    (outside : (n : Int) < iFetchOffset ∧ (n : Int) < wrap 4 iFetchOffset ∨
      iFetchOffset < -(n : Int) ∧ wrap 4 iFetchOffset < -(n : Int)) :
    (spilled.setAbsolute iFetchOffset).1 = (memory.setAbsolute iFetchOffset).1 ∧
      ∃ next, Agrees (spilled.setAbsolute iFetchOffset).2 (memory.setAbsolute iFetchOffset).2
        next := by
  generalize narrow : wrap 4 iFetchOffset = narrowed at outside
  have read := batches.readAbsolute_outside state narrowed (by split <;> omega)
  rcases outside with ⟨high, far⟩ | ⟨low, far⟩
  · have above : ¬ iFetchOffset < 0 := by omega
    have positive : ¬ narrowed < 0 := by omega
    have out : ¬ narrowed ≤ spilled.iNumberOfRowsInMem := by
      have fit := batches.window_le state
      rw [agrees.rows]
      omega
    have memory_out : ¬ iFetchOffset ≤ memory.iNumberOfRowsInMem := by
      rw [agrees.memory_rows]
      omega
    simp only [ResultInfo.setAbsolute, nonzero, if_false, agrees.csc, agrees.all, narrow, read,
      positive, above, out, memory_out]
    exact ⟨trivial, agrees.afterLast⟩
  · have below : iFetchOffset < 0 := by omega
    have negative : narrowed < 0 := by omega
    have out : ¬ -spilled.iNumberOfRowsInMem ≤ narrowed := by
      have fit := batches.window_le state
      rw [agrees.rows]
      omega
    have memory_out : ¬ -memory.iNumberOfRowsInMem ≤ iFetchOffset := by
      rw [agrees.memory_rows]
      omega
    simp only [ResultInfo.setAbsolute, nonzero, if_false, agrees.csc, agrees.all, narrow, read,
      negative, below, if_true, out, memory_out]
    exact ⟨trivial, agrees.beforeFirst⟩

theorem setAbsolute (agrees : Agrees spilled memory state) {iFetchOffset : Int}
    (harmless : NarrowingHarmless n iFetchOffset) :
    (spilled.setAbsolute iFetchOffset).1 = (memory.setAbsolute iFetchOffset).1 ∧
      ∃ next, Agrees (spilled.setAbsolute iFetchOffset).2 (memory.setAbsolute iFetchOffset).2
        next := by
  by_cases zero : iFetchOffset = 0
  · simp only [ResultInfo.setAbsolute, zero, if_true]
    exact ⟨trivial, agrees.beforeFirst⟩
  · by_cases outside : (n : Int) < iFetchOffset ∧ (n : Int) < wrap 4 iFetchOffset ∨
        iFetchOffset < -(n : Int) ∧ wrap 4 iFetchOffset < -(n : Int)
    · exact agrees.setAbsolute_outside zero outside
    · -- a row of the result, so nothing was cut off
      have exact : wrap 4 iFetchOffset = iFetchOffset := harmless.resolve_right outside
      rw [exact] at outside
      obtain ⟨row, within, resolved⟩ : ∃ row : Nat, row < n ∧
          (if iFetchOffset < 0 then n + iFetchOffset + 1 else iFetchOffset) =
            ((row + 1 : Nat) : Int) := by
        refine ⟨((if iFetchOffset < 0 then n + iFetchOffset + 1 else iFetchOffset) - 1).toNat, ?_⟩
        split <;> omega
      exact agrees.setAbsolute_inside zero exact within resolved

theorem memory_row (agrees : Agrees spilled memory state) :
    0 ≤ memory.iCurRow ∧ memory.iCurRow < n ∨ memory.iCurRow = -1 ∧ spilled.iCurRow = -1 ∨
      memory.iCurRow = n ∧ spilled.iCurRow = batches.len state := by
  have fit := batches.window_le state
  have lower := agrees.lower
  have upper := agrees.upper
  have before := agrees.before
  have behind := agrees.behind
  have same := agrees.same
  omega

theorem maxRowsReached (agrees : Agrees spilled memory state) (maxRows : Int) :
    memory.maxRowsReached maxRows = spilled.maxRowsReached maxRows := by
  rw [ResultInfo.maxRowsReached, ResultInfo.maxRowsReached, agrees.same, agrees.offset,
    agrees.memory_offset]
  congr 2
  simp only [eq_iff_iff]
  omega

/-- What `SQL_FETCH_NEXT` does once the next batch, if any, is in memory. -/
def advance (info : ResultInfo batches) (maxRows : Int) (rc : SqlReturn) :
    SqlReturn × ResultInfo batches :=
  if -1 ≤ info.iCurRow ∧ info.iCurRow ≤ info.iNumberOfRowsInMem - 1 then
    if info.maxRowsReached maxRows then (.noData, info)
    else
      (if info.iNumberOfRowsInMem ≤ info.iCurRow + 1 then .noData else rc,
        { info with iCurRow := info.iCurRow + 1 })
  else (.noData, info)

theorem memory_fetchNext (agrees : Agrees spilled memory state) (maxRows : Int) (rc : SqlReturn) :
    memory.fetchNext maxRows rc = advance memory maxRows rc := by
  simp [ResultInfo.fetchNext, advance, agrees.all]

/-- Without a further batch both cursors go on alike. -/
theorem advance_same (agrees : Agrees spilled memory state) (maxRows : Int) (rc : SqlReturn)
    (last : spilled.iNumberOfRowsInMem ≤ spilled.iCurRow + 1 →
      spilled.maxRowsReached maxRows = true ∨ batches.start state + batches.len state = n) :
    (advance spilled maxRows rc).1 = (advance memory maxRows rc).1 ∧
      ∃ next, Agrees (advance spilled maxRows rc).2 (advance memory maxRows rc).2 next := by
  have fit := batches.window_le state
  have lower := agrees.lower
  have upper := agrees.upper
  have before := agrees.before
  have behind := agrees.behind
  have same := agrees.same
  have rows := agrees.rows
  have memory_rows := agrees.memory_rows
  have limit := agrees.maxRowsReached maxRows
  by_cases inside : spilled.iCurRow ≤ spilled.iNumberOfRowsInMem - 1
  · have spilled_in : -1 ≤ spilled.iCurRow ∧ spilled.iCurRow ≤ spilled.iNumberOfRowsInMem - 1 :=
      ⟨lower, inside⟩
    have memory_in : -1 ≤ memory.iCurRow ∧ memory.iCurRow ≤ memory.iNumberOfRowsInMem - 1 := by
      omega
    cases reached : spilled.maxRowsReached maxRows with
    | true =>
        rw [reached] at limit
        simp only [advance, spilled_in, memory_in, and_self, if_true, reached, limit]
        exact ⟨trivial, state, agrees⟩
    | false =>
        rw [reached] at limit last
        simp only [advance, spilled_in, memory_in, and_self, if_true, reached, limit,
          Bool.false_eq_true, if_false]
        have border : spilled.iNumberOfRowsInMem ≤ spilled.iCurRow + 1 ↔
            memory.iNumberOfRowsInMem ≤ memory.iCurRow + 1 := by
          constructor
          · intro full
            have finish := (last full).resolve_left (by simp)
            omega
          · intro full
            omega
        refine ⟨by simp only [border], state, of_load (spilled.iCurRow + 1) agrees.csc
          agrees.rows agrees.offset rfl agrees.all agrees.memory_rows agrees.memory_offset ?_ ?_⟩
        · simp only
          omega
        · by_cases full : spilled.iNumberOfRowsInMem ≤ spilled.iCurRow + 1
          · have finish := (last full).resolve_left (by simp)
            exact .inr (.inr ⟨by omega, finish⟩)
          · exact .inl ⟨by omega, by omega⟩
  · have spilled_out : ¬ (-1 ≤ spilled.iCurRow ∧
        spilled.iCurRow ≤ spilled.iNumberOfRowsInMem - 1) := fun range => inside range.2
    have memory_out : ¬ (-1 ≤ memory.iCurRow ∧
        memory.iCurRow ≤ memory.iNumberOfRowsInMem - 1) := by
      omega
    simp only [advance, spilled_out, memory_out, if_false]
    exact ⟨trivial, state, agrees⟩

theorem fetchNext (agrees : Agrees spilled memory state) (maxRows : Int) (rc : SqlReturn) :
    (spilled.fetchNext maxRows rc).1 = (memory.fetchNext maxRows rc).1 ∧
      ∃ next, Agrees (spilled.fetchNext maxRows rc).2 (memory.fetchNext maxRows rc).2 next := by
  rw [agrees.memory_fetchNext]
  by_cases border : spilled.iNumberOfRowsInMem ≤ spilled.iCurRow + 1 ∧
      spilled.maxRowsReached maxRows = false
  · cases read : batches.readNext state with
    | none =>
        have stay : spilled.fetchNext maxRows rc = advance spilled maxRows rc := by
          simp [ResultInfo.fetchNext, advance, agrees.csc, read]
        rw [stay]
        exact agrees.advance_same maxRows rc (fun _ => .inr (batches.readNext_none state read))
    | some next =>
        -- the first row of the next batch on one side, the next row on the other
        have follows := batches.readNext_some state next read
        have positive := batches.len_pos next
        have fit := batches.window_le next
        have upper := agrees.upper
        have behind := agrees.behind
        have same := agrees.same
        have rows := agrees.rows
        have limit := agrees.maxRowsReached maxRows
        rw [border.2] at limit
        have current : spilled.iCurRow = batches.len state - 1 := by omega
        let moved : ResultInfo batches :=
          { iCurRow := -1
            iNumberOfRowsInMem := batches.len next
            iRowOffset := spilled.iRowOffset + spilled.iNumberOfRowsInMem
            csc := some next }
        have step : spilled.fetchNext maxRows rc = advance moved maxRows rc := by
          simp [ResultInfo.fetchNext, advance, agrees.csc, read, border, moved]
        have offset : moved.iRowOffset = batches.start next := by
          simp only [moved, agrees.offset, agrees.rows]
          omega
        have unreached : moved.maxRowsReached maxRows = false := by
          rw [← limit, ResultInfo.maxRowsReached, ResultInfo.maxRowsReached, offset,
            agrees.memory_offset]
          congr 2
          simp only [eq_iff_iff, moved]
          omega
        have spilled_step : advance moved maxRows rc = (rc, { moved with iCurRow := 0 }) := by
          have inside : -1 ≤ moved.iCurRow ∧ moved.iCurRow ≤ moved.iNumberOfRowsInMem - 1 := by
            simp only [moved]
            omega
          have more : ¬ moved.iNumberOfRowsInMem ≤ moved.iCurRow + 1 := by
            simp only [moved]
            omega
          simp only [advance, inside, and_self, if_true, unreached, Bool.false_eq_true, if_false,
            more]
          rfl
        have memory_step : advance memory maxRows rc =
            (rc, { memory with iCurRow := memory.iCurRow + 1 }) := by
          have inside : -1 ≤ memory.iCurRow ∧ memory.iCurRow ≤ memory.iNumberOfRowsInMem - 1 := by
            rw [agrees.memory_rows]
            omega
          have more : ¬ memory.iNumberOfRowsInMem ≤ memory.iCurRow + 1 := by
            rw [agrees.memory_rows]
            omega
          simp only [advance, inside, and_self, if_true, limit, Bool.false_eq_true, if_false, more]
        rw [step, spilled_step, memory_step]
        refine ⟨rfl, next, of_load 0 rfl rfl offset rfl agrees.all agrees.memory_rows
          agrees.memory_offset ?_ (.inl ⟨by omega, by omega⟩)⟩
        simp only
        omega
  · have stay : spilled.fetchNext maxRows rc = advance spilled maxRows rc := by
      have closed : (decide (spilled.iNumberOfRowsInMem ≤ spilled.iCurRow + 1) &&
          !spilled.maxRowsReached maxRows) = false := by
        rw [Bool.and_eq_false_iff]
        by_cases full : spilled.iNumberOfRowsInMem ≤ spilled.iCurRow + 1
        · right
          simpa [full] using border
        · left
          simpa using full
      simp only [ResultInfo.fetchNext, closed, Bool.false_eq_true, if_false, advance]
    rw [stay]
    refine agrees.advance_same maxRows rc ?_
    intro full
    left
    simpa [full] using border

theorem fetchPrior (agrees : Agrees spilled memory state) (rc : SqlReturn) :
    (spilled.fetchPrior rc).1 = (memory.fetchPrior rc).1 ∧
      ∃ next, Agrees (spilled.fetchPrior rc).2 (memory.fetchPrior rc).2 next := by
  have fit := batches.window_le state
  have lower := agrees.lower
  have upper := agrees.upper
  have before := agrees.before
  have behind := agrees.behind
  have same := agrees.same
  have rows := agrees.rows
  have memory_step : memory.fetchPrior rc =
      if 0 ≤ memory.iCurRow ∧ memory.iCurRow ≤ memory.iNumberOfRowsInMem then
        (if memory.iCurRow - 1 ≤ -1 then .noData else rc,
          { memory with iCurRow := memory.iCurRow - 1 })
      else (.noData, memory) := by
    simp [ResultInfo.fetchPrior, agrees.all]
  by_cases stays : 0 < spilled.iCurRow ∨ batches.readPrevious state = none
  · have spilled_step : spilled.fetchPrior rc =
        if 0 ≤ spilled.iCurRow ∧ spilled.iCurRow ≤ spilled.iNumberOfRowsInMem then
          (if spilled.iCurRow - 1 ≤ -1 then .noData else rc,
            { spilled with iCurRow := spilled.iCurRow - 1 })
        else (.noData, spilled) := by
      rcases stays with above | none
      · have far : ¬ spilled.iCurRow - 1 < 0 := by omega
        simp only [ResultInfo.fetchPrior, far, if_false]
      · simp [ResultInfo.fetchPrior, agrees.csc, none]
    have zero : spilled.iCurRow ≤ 0 → batches.start state = 0 := by
      intro low
      rcases stays with above | none
      · omega
      · exact batches.readPrevious_none state none
    rw [spilled_step, memory_step]
    by_cases inside : 0 ≤ spilled.iCurRow
    · have spilled_in : 0 ≤ spilled.iCurRow ∧ spilled.iCurRow ≤ spilled.iNumberOfRowsInMem := by
        omega
      have memory_in : 0 ≤ memory.iCurRow ∧ memory.iCurRow ≤ memory.iNumberOfRowsInMem := by
        rw [agrees.memory_rows]
        omega
      rw [if_pos spilled_in, if_pos memory_in]
      have border : spilled.iCurRow - 1 ≤ -1 ↔ memory.iCurRow - 1 ≤ -1 := by
        constructor
        · intro low
          have first := zero (by omega)
          omega
        · intro low
          omega
      refine ⟨by simp only [border], state, of_load (spilled.iCurRow - 1) agrees.csc
        agrees.rows agrees.offset rfl agrees.all agrees.memory_rows agrees.memory_offset ?_ ?_⟩
      · simp only
        omega
      · by_cases low : spilled.iCurRow ≤ 0
        · exact .inr (.inl ⟨by omega, zero low⟩)
        · exact .inl ⟨by omega, by omega⟩
    · have memory_out : ¬ (0 ≤ memory.iCurRow ∧ memory.iCurRow ≤ memory.iNumberOfRowsInMem) := by
        omega
      rw [if_neg (fun range => inside range.1), if_neg memory_out]
      exact ⟨rfl, state, agrees⟩
  · rw [not_or] at stays
    obtain ⟨next, read⟩ := Option.ne_none_iff_exists'.mp stays.2
    -- the last row of the batch before on one side, the row before on the other
    have leads := batches.readPrevious_some state next read
    have positive := batches.len_pos next
    have border : spilled.iCurRow - 1 < 0 := by omega
    have row : spilled.iCurRow = 0 := by omega
    have spilled_step : spilled.fetchPrior rc =
        (rc, { iCurRow := (batches.len next : Int) - 1
               iNumberOfRowsInMem := batches.len next
               iRowOffset := spilled.iRowOffset - batches.len next
               csc := some next }) := by
      have inside : (0 : Int) ≤ batches.len next ∧ (batches.len next : Int) ≤ batches.len next := by
        omega
      have more : ¬ (batches.len next : Int) - 1 ≤ -1 := by omega
      simp only [ResultInfo.fetchPrior, border, if_true, agrees.csc, Option.bind_some, read, inside,
        and_self, more, if_false]
    have memory_in : 0 ≤ memory.iCurRow ∧ memory.iCurRow ≤ memory.iNumberOfRowsInMem := by
      rw [agrees.memory_rows]
      omega
    have more : ¬ memory.iCurRow - 1 ≤ -1 := by omega
    rw [spilled_step, memory_step, if_pos memory_in, if_neg more]
    refine ⟨rfl, next, of_load ((batches.len next : Int) - 1) rfl rfl ?_ rfl agrees.all
      agrees.memory_rows agrees.memory_offset ?_ (.inl ⟨by omega, by omega⟩)⟩
    · simp only [agrees.offset]
      omega
    · simp only
      omega

theorem filled (agrees : Agrees spilled memory state) :
    0 < spilled.iNumberOfRowsInMem ∧ 0 < memory.iNumberOfRowsInMem := by
  have fit := batches.window_le state
  have positive := batches.len_pos state
  rw [agrees.rows, agrees.memory_rows]
  omega

theorem fetchFirst (agrees : Agrees spilled memory state) :
    spilled.fetchFirst.1 = memory.fetchFirst.1 ∧
      ∃ next, Agrees spilled.fetchFirst.2 memory.fetchFirst.2 next := by
  obtain ⟨next, first⟩ := agrees.beforeFirst
  have zero := first.before rfl
  have positive := batches.len_pos next
  simp only [ResultInfo.fetchFirst, agrees.filled.1, agrees.filled.2, if_true]
  refine ⟨trivial, next, of_load 0 first.csc first.rows first.offset rfl first.all
    first.memory_rows first.memory_offset ?_ (.inl ⟨by omega, by omega⟩)⟩
  simp [zero]

/-- The row limit does not end before the last batch begins. -/
def LimitInLastBatch (batches : BatchFunctions n) (state : batches.State) (maxRows : Int) : Prop :=
  maxRows ≤ 0 ∨ n ≤ maxRows ∨ batches.start ((batches.readLast state).getD state) < maxRows

theorem fetchLast (agrees : Agrees spilled memory state) {maxRows : Int}
    (limit : LimitInLastBatch batches state maxRows) :
    (spilled.fetchLast maxRows).1 = (memory.fetchLast maxRows).1 ∧
      ∃ next, Agrees (spilled.fetchLast maxRows).2 (memory.fetchLast maxRows).2 next := by
  obtain ⟨next, csc, rows, offset, last, which⟩ := agrees.setFetchAtLastRow
  rw [LimitInLastBatch, ← which] at limit
  have positive := batches.len_pos next
  have window : spilled.setFetchAtLastRow.iRowOffset +
      spilled.setFetchAtLastRow.iNumberOfRowsInMem = n := by
    rw [offset, rows]
    omega
  have memory_window : memory.iRowOffset + memory.iNumberOfRowsInMem = n := by
    rw [agrees.memory_offset, agrees.memory_rows]
    omega
  rw [ResultInfo.fetchLast, ResultInfo.fetchLast, if_pos agrees.filled.1, if_pos agrees.filled.2]
  simp only [agrees.memory_setFetchAtLastRow, window, memory_window]
  by_cases bounded : 0 < maxRows ∧ maxRows < (n : Int)
  · have begins : spilled.setFetchAtLastRow.iRowOffset < maxRows := by omega
    have memory_begins : memory.iRowOffset < maxRows := by
      rw [agrees.memory_offset]
      exact bounded.1
    rw [if_pos bounded, if_pos bounded, if_pos begins, if_pos memory_begins]
    refine ⟨rfl, next, of_load (maxRows - batches.start next - 1) csc rows offset
      (by simp only [offset]) agrees.all agrees.memory_rows agrees.memory_offset ?_
      (.inl ⟨by omega, by omega⟩)⟩
    simp only [agrees.memory_offset]
    omega
  · rw [if_neg bounded, if_neg bounded]
    refine ⟨rfl, next, of_load ((batches.len next : Int) - 1) csc rows offset
      (by simp only [rows]) agrees.all agrees.memory_rows agrees.memory_offset ?_
      (.inl ⟨by omega, by omega⟩)⟩
    simp only [agrees.memory_rows]
    omega

theorem isBeforeFirstRow (agrees : Agrees spilled memory state) :
    spilled.isBeforeFirstRow = memory.isBeforeFirstRow := by
  have before := agrees.before
  have lower := agrees.lower
  have same := agrees.same
  have filled := agrees.filled
  rw [Bool.eq_iff_iff]
  simp only [ResultInfo.isBeforeFirstRow, agrees.csc, agrees.all, agrees.offset,
    agrees.memory_offset, filled.1, filled.2, decide_true, Bool.and_true, Bool.and_eq_true,
    decide_eq_true_eq]
  omega

theorem isAfterLastRow (agrees : Agrees spilled memory state) :
    spilled.isAfterLastRow = memory.isAfterLastRow := by
  have fit := batches.window_le state
  have behind := agrees.behind
  have upper := agrees.upper
  have same := agrees.same
  have filled := agrees.filled
  have rows := agrees.rows
  have memory_rows := agrees.memory_rows
  rw [Bool.eq_iff_iff]
  simp only [ResultInfo.isAfterLastRow, agrees.csc, agrees.all, filled.1, filled.2, decide_true,
    Bool.and_true, Bool.and_eq_true, decide_eq_true_eq]
  omega

/-- The index of a relative move is the same, whatever overflows on the way. -/
theorem relativeIndex (agrees : Agrees spilled memory state) (iFetchOffset : Int) :
    spilled.relativeIndex iFetchOffset = memory.relativeIndex iFetchOffset := by
  simp only [ResultInfo.relativeIndex, agrees.csc, agrees.all, wrap_wrap_add, agrees.offset,
    agrees.same]
  congr 1
  omega

theorem fetchRelative (agrees : Agrees spilled memory state) {iFetchOffset : Int}
    (harmless : iFetchOffset ≠ 0 → 0 ≤ memory.relativeIndex iFetchOffset →
      NarrowingHarmless n (memory.relativeIndex iFetchOffset)) :
    (spilled.fetchRelative iFetchOffset).1 = (memory.fetchRelative iFetchOffset).1 ∧
      ∃ next, Agrees (spilled.fetchRelative iFetchOffset).2 (memory.fetchRelative iFetchOffset).2
        next := by
  by_cases zero : iFetchOffset = 0
  · have spilled_rows : ¬ spilled.iNumberOfRowsInMem = 0 := by
      have := agrees.filled.1
      omega
    have memory_rows : ¬ memory.iNumberOfRowsInMem = 0 := by
      have := agrees.filled.2
      omega
    simp only [ResultInfo.fetchRelative, zero, if_true, spilled_rows, memory_rows, if_false,
      agrees.isBeforeFirstRow, agrees.isAfterLastRow]
    split <;> exact ⟨rfl, state, agrees⟩
  · simp only [ResultInfo.fetchRelative, zero, if_false, agrees.relativeIndex]
    by_cases negative : memory.relativeIndex iFetchOffset < 0
    · simp only [negative, if_true]
      exact ⟨trivial, agrees.beforeFirst⟩
    · simp only [negative, if_false]
      exact agrees.setAbsolute (harmless zero (by omega))

end Agrees

/--
The step does not depend on the division into batches: an absolute or relative
target survives the narrowing to `int`, and the row limit of a move to the last
row does not end before the last batch begins.
-/
def StepHarmless (batches : BatchFunctions n) (state : batches.State) (memory : ResultInfo batches)
    (call : Call) : Orientation → Prop
  | .last => Agrees.LimitInLastBatch batches state call.maxRows
  | .absolute => NarrowingHarmless n call.offset
  | .relative => call.offset ≠ 0 → 0 ≤ memory.relativeIndex call.offset →
      NarrowingHarmless n (memory.relativeIndex call.offset)
  | _ => True

namespace Agrees

variable {spilled memory : ResultInfo batches} {state : batches.State}

/-- One turn of the switch gives the same code and keeps the agreement. -/
theorem positionCursor (agrees : Agrees spilled memory state) (call : Call)
    (orientation : Orientation) (rc : SqlReturn)
    (harmless : StepHarmless batches state memory call orientation) :
    (spilled.positionCursor call orientation rc = none ∧
        memory.positionCursor call orientation rc = none) ∨
      ∃ code spilled' memory' next,
        spilled.positionCursor call orientation rc = some (code, spilled') ∧
        memory.positionCursor call orientation rc = some (code, memory') ∧
        Agrees spilled' memory' next := by
  have step : ∀ first second : SqlReturn × ResultInfo batches,
      (first.1 = second.1 ∧ ∃ next, Agrees first.2 second.2 next) →
      ∃ code spilled' memory' next, some first = some (code, spilled') ∧
        some second = some (code, memory') ∧ Agrees spilled' memory' next := by
    rintro ⟨code, spilled'⟩ ⟨other, memory'⟩ ⟨rfl, next, done⟩
    exact ⟨code, spilled', memory', next, rfl, rfl, done⟩
  cases orientation with
  | next => exact .inr (step _ _ (agrees.fetchNext call.maxRows rc))
  | prior => exact .inr (step _ _ (agrees.fetchPrior rc))
  | first => exact .inr (step _ _ agrees.fetchFirst)
  | last => exact .inr (step _ _ (agrees.fetchLast harmless))
  | absolute => exact .inr (step _ _ (agrees.setAbsolute harmless))
  | relative => exact .inr (step _ _ (agrees.fetchRelative harmless))
  | bookmark => exact .inl ⟨rfl, rfl⟩
  | other => exact .inl ⟨rfl, rfl⟩

theorem position (agrees : Agrees spilled memory state) : spilled.position = memory.position := by
  rw [ResultInfo.position, ResultInfo.position, agrees.offset, agrees.memory_offset, agrees.same]
  omega

/-- Behind the first row of a block cursor only steps to the next or prior row remain. -/
theorem orientationAfter_harmless (call : Call) (orientation : Orientation)
    (block : 1 < call.arraySize) (next : batches.State) (memory : ResultInfo batches) :
    StepHarmless batches next memory call (call.orientationAfter orientation .success) := by
  cases orientation <;> simp [Call.orientationAfter, StepHarmless, block]

/-- The rows loop reports the same and keeps the agreement. -/
theorem fetchRows (left : Nat) (agrees : Agrees spilled memory state) (call : Call)
    (lRowFetched : Nat) (orientation : Orientation) (report : Report)
    (harmless : 0 < left → StepHarmless batches state memory call orientation)
    (block : left ≤ 1 ∨ 1 < call.arraySize) :
    (Fetch.fetchRows call left lRowFetched orientation spilled report).1 =
        (Fetch.fetchRows call left lRowFetched orientation memory report).1 ∧
      ∃ next, Agrees (Fetch.fetchRows call left lRowFetched orientation spilled report).2
        (Fetch.fetchRows call left lRowFetched orientation memory report).2 next := by
  induction left generalizing spilled memory state lRowFetched orientation report with
  | zero => exact ⟨rfl, state, agrees⟩
  | succ left ih =>
      rcases agrees.positionCursor call orientation report.rc (harmless (Nat.succ_pos left)) with
        ⟨none, memory_none⟩ | ⟨code, spilled', memory', next, moved, memory_moved, done⟩
      · simp only [Fetch.fetchRows, none, memory_none]
        exact ⟨trivial, state, agrees⟩
      · simp only [Fetch.fetchRows, moved, memory_moved]
        have rest : ∀ report, _ := fun report => ih done (lRowFetched + 1)
          (call.orientationAfter orientation .success) report
          (fun more => orientationAfter_harmless call orientation
            (block.resolve_left (by omega)) next memory')
          (by omega)
        cases code with
        | noData => exact ⟨rfl, next, done⟩
        | error => exact ⟨rfl, next, done⟩
        | success =>
            simp only
            rw [done.position]
            split
            · split
              · exact ⟨rfl, next, done⟩
              · exact rest _
              · exact rest _
            · exact rest _

/-- One call gives the same report and leaves both cursors at the same position. -/
theorem sqlFetchScroll (agrees : Agrees spilled memory state) (call : Call)
    (harmless : StepHarmless batches state memory call call.orientation) :
    (Fetch.sqlFetchScroll call spilled).1 = (Fetch.sqlFetchScroll call memory).1 ∧
      ∃ next, Agrees (Fetch.sqlFetchScroll call spilled).2 (Fetch.sqlFetchScroll call memory).2
        next := by
  refine agrees.fetchRows _ call 0 call.orientation ⟨.success, none, []⟩ (fun _ => harmless) ?_
  split <;> omega

end Agrees

/-! ## Whole runs -/

/-- The same call on a spilled result and on one in memory. -/
def callBoth (pair : ResultInfo batches × ResultInfo batches) (call : Call) :
    Option (ResultInfo batches × ResultInfo batches) :=
  some ((sqlFetchScroll call pair.1).2, (sqlFetchScroll call pair.2).2)

/-- The first turn of a call does not depend on the division into batches. -/
def CallHarmless (pair : ResultInfo batches × ResultInfo batches) (call : Call) : Prop :=
  ∀ state, pair.1.csc = some state → StepHarmless batches state pair.2 call call.orientation

/-- Both results before their first row. -/
theorem agrees_start {state : batches.State} (first : batches.start state = 0) :
    Agrees (ResultInfo.spilled state) (ResultInfo.inMemory batches) state := by
  refine Agrees.of_load (-1) rfl rfl ?_ rfl rfl rfl rfl ?_ (.inr (.inl ⟨rfl, first⟩))
  · simp [ResultInfo.spilled, first]
  · simp [ResultInfo.inMemory, first]

/-- Harmless calls keep both results at one position of the result. -/
theorem agrees_of_calls {state : batches.State} (first : batches.start state = 0)
    {calls : List Call} (harmless : Guarded callBoth CallHarmless
      (ResultInfo.spilled state, ResultInfo.inMemory batches) calls) :
    ∀ pair ∈ visited callBoth (ResultInfo.spilled state, ResultInfo.inMemory batches) calls,
      ∃ next, Agrees pair.1 pair.2 next := by
  refine visited_safe (fun pair => ∃ state, Agrees pair.1 pair.2 state) ?_
    ⟨state, agrees_start first⟩ harmless
  rintro pair call next ⟨state, agrees⟩ guard step
  cases step
  exact (agrees.sqlFetchScroll call (guard state agrees.csc)).2

/--
In every sequence of harmless calls a spilled result stands at the row at which
the result in memory stands, and the next harmless call reports the same.
-/
theorem sqlFetchScroll_like_memory {n : Nat} (batches : BatchFunctions n) (state : batches.State)
    (first : batches.start state = 0) (calls : List Call)
    (harmless : Guarded callBoth CallHarmless
      (ResultInfo.spilled state, ResultInfo.inMemory batches) calls) :
    ∀ pair ∈ visited callBoth (ResultInfo.spilled state, ResultInfo.inMemory batches) calls,
      pair.1.position = pair.2.position ∧ ∀ call, CallHarmless pair call →
        (sqlFetchScroll call pair.1).1 = (sqlFetchScroll call pair.2).1 := by
  intro pair member
  obtain ⟨state, agrees⟩ := agrees_of_calls first harmless pair member
  exact ⟨agrees.position, fun call guard => (agrees.sqlFetchScroll call (guard state agrees.csc)).1⟩

/-- Two rows spilled into windows of one row. -/
def twoWindows : BatchFunctions 2 where
  State := Bool
  start := fun second => if second then 1 else 0
  len := fun _ => 1
  len_pos := by decide
  window_le := by decide
  readNext := fun second => if second then none else some true
  readNext_some := by decide
  readNext_none := by decide
  readPrevious := fun second => if second then some false else none
  readPrevious_some := by decide
  readPrevious_none := by decide
  readFirst := fun second => if second then some false else none
  readFirst_some := by decide
  readFirst_none := by decide
  readLast := fun second => if second then none else some true
  readLast_some := by decide
  readLast_none := by decide
  readAbsolute := fun _ indexBuf =>
    let row := if indexBuf < 0 then 2 + indexBuf + 1 else indexBuf
    if row = 1 then (some false, 1) else if row = 2 then (some true, 1) else (none, indexBuf)
  readAbsolute_inside := by
    intro state indexBuf row inside resolved
    simp only [Nat.cast_ofNat] at resolved
    interval_cases row <;> simp [resolved]
  readAbsolute_outside := by
    intro state indexBuf outside
    simp only [Nat.cast_ofNat] at outside
    have first : ¬ (if indexBuf < 0 then 2 + indexBuf + 1 else indexBuf) = 1 := by omega
    have second : ¬ (if indexBuf < 0 then 2 + indexBuf + 1 else indexBuf) = 2 := by omega
    simp only [first, second, if_false]

/-- A call for one row of a result whose rows all fit the bound buffers. -/
def fetchOne (orientation : Orientation) (offset : Int) : Call where
  orientation := orientation
  offset := offset
  arraySize := 1
  maxRows := 0
  retrieveData := true
  bind := fun _ => .stored

/-- To the first row, to the last row from the end, and to the last row. -/
def threeCalls : List Call := [fetchOne .next 0, fetchOne .absolute (-1), fetchOne .last 0]

theorem sqlFetchScroll_like_memory_twoWindows :
    Guarded callBoth CallHarmless
        (@ResultInfo.spilled 2 twoWindows false, ResultInfo.inMemory twoWindows) threeCalls ∧
      ∀ pair ∈ visited callBoth
          (@ResultInfo.spilled 2 twoWindows false, ResultInfo.inMemory twoWindows) threeCalls,
        pair.1.position = pair.2.position ∧ ∀ call, CallHarmless pair call →
          (sqlFetchScroll call pair.1).1 = (sqlFetchScroll call pair.2).1 := by
  have harmless : Guarded callBoth CallHarmless
      (@ResultInfo.spilled 2 twoWindows false, ResultInfo.inMemory twoWindows) threeCalls := by
    refine ⟨?_, ?_, ?_, trivial⟩
    · intro state _
      trivial
    · intro state _
      exact .inl (by decide)
    · intro state _
      exact .inl (by decide)
  exact ⟨harmless, sqlFetchScroll_like_memory twoWindows false rfl threeCalls harmless⟩

/-- Row `2 ^ 32 + 1` is the first row of a spilled result and no row of one in memory. -/
theorem sqlFetchScroll_like_memory_wrong :
    ¬ ∀ (n : Nat) (batches : BatchFunctions n) (state : batches.State),
      batches.start state = 0 → ∀ (calls : List Call),
        ∀ pair ∈ visited callBoth (ResultInfo.spilled state, ResultInfo.inMemory batches) calls,
          pair.1.position = pair.2.position ∧ ∀ call,
            (sqlFetchScroll call pair.1).1 = (sqlFetchScroll call pair.2).1 := by
  intro every
  have same := (every 2 twoWindows false rfl [] _ (mem_visited_start _ _)).2
    (fetchOne .absolute (2 ^ 32 + 1))
  revert same
  decide

end RedshiftOdbc.Fetch
