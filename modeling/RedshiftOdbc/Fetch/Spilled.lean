import RedshiftOdbc.Csc.Window
import RedshiftOdbc.Fetch.Simulation

/-!
# Scrolling through the files

The batch functions of a `ClientSideCursorResult` meet what scrolling expects of
them as long as every row number can be looked up, so a cursor on the files of a
spilled result behaves like one on the rows in memory.
-/

namespace RedshiftOdbc.Fetch

open RedshiftOdbc.Csc RedshiftOdbc.Csc.ClientSideCursorResult RedshiftOdbc.Machine

/-- The reading side of a spilled result while its window is sound. -/
structure SpilledState (result : Result) where
  csc : ClientSideCursorResult
  sound : ∃ start len, csc.Window result start len

namespace SpilledState

variable {result : Result} (state : SpilledState result)

/-- The rows before the window. -/
def start : Nat := (state.csc.firstRowNumberInMem - 1).toNat

/-- The rows of the window. -/
def len : Nat := (state.csc.lastRowNumberInMem - state.csc.firstRowNumberInMem + 1).toNat

theorem eq_of_window {csc : ClientSideCursorResult} {from_row read : Nat}
    (window : csc.Window result from_row read) (h : ∃ start len, csc.Window result start len) :
    start ⟨csc, h⟩ = from_row ∧ len ⟨csc, h⟩ = read := by
  simp only [start, len, window.first, window.last]
  omega

theorem window : state.csc.Window result state.start state.len := by
  obtain ⟨csc, from_row, read, window⟩ := state
  obtain ⟨first, length⟩ := eq_of_window window ⟨from_row, read, window⟩
  rw [first, length]
  exact window

/-- With few enough rows every lookup is near. -/
theorem near (few : result.rows.length ≤ lookupMax) (move : Move) : NearMove state.csc move := by
  have window := state.window
  have inside := window.inside
  intro row looked
  cases move with
  | next => cases looked
  | first => cases looked
  | previous =>
      cases looked
      rw [window.first]
      omega
  | last =>
      rw [lookedUpRow] at looked
      split at looked
      · cases looked
        rw [window.total]
        omega
      · cases looked
  | absolute indexBuf =>
      simp only [lookedUpRow] at looked
      split at looked
      · next range =>
          have total := range.1.2
          cases looked
          rw [window.total] at total
          omega
      · cases looked

/-- The state behind a move. -/
def move (few : result.rows.length ≤ lookupMax) (move : Move) : SpilledState result :=
  ⟨state.csc.move move, (move_window state.window move (state.near few move)).1⟩

/-- An absolute row in the window is found there, and nothing is read. -/
theorem absoluteIndex_inside {indexBuf : Int} {row : Nat}
    (resolved : state.csc.absoluteRow indexBuf = (row + 1 : Nat))
    (here : state.start ≤ row ∧ row < state.start + state.len) :
    state.csc.absoluteIndex indexBuf = ((row - state.start + 1 : Nat) : Int) := by
  have window := state.window
  have inside := window.inside
  have range : (0 : Int) < (row + 1 : Nat) ∧ ((row + 1 : Nat) : Int) ≤ state.csc.totalRows := by
    rw [window.total]
    omega
  have stay : ¬ (((row + 1 : Nat) : Int) < state.csc.firstRowNumberInMem ∨
      state.csc.lastRowNumberInMem < (row + 1 : Nat)) := by
    rw [window.first, window.last]
    omega
  simp only [ClientSideCursorResult.absoluteIndex,
    ClientSideCursorResult.readAbsoluteBatchOfRowsCsc, resolved, range, and_self, if_true, stay,
    if_false]
  rw [window.first]
  omega

end SpilledState

open SpilledState

/--
The batch functions on the files.  A function whose guard says that there is
nothing to read leaves the rows in memory.
-/
def spilledBatches (result : Result) (few : result.rows.length ≤ lookupMax) :
    BatchFunctions result.rows.length where
  State := SpilledState result
  start := start
  len := len
  len_pos := fun state => state.window.positive
  window_le := fun state => state.window.inside
  readNext := fun state =>
    if state.csc.lastRowNumberInMem < state.csc.totalRows then some (state.move few .next) else none
  readNext_some := by
    intro state next read
    have window := state.window
    split at read
    · next more =>
        cases read
        rw [window.last, window.total] at more
        obtain ⟨length, moved⟩ := next_window window (by omega)
        exact (eq_of_window moved _).1
    · cases read
  readNext_none := by
    intro state read
    have window := state.window
    have inside := window.inside
    split at read
    · cases read
    · next done =>
        rw [window.last, window.total] at done
        omega
  readPrevious := fun state =>
    if 1 < state.csc.firstRowNumberInMem then some (state.move few .previous) else none
  readPrevious_some := by
    intro state next read
    have window := state.window
    have inside := window.inside
    split at read
    · next before =>
        cases read
        rw [window.first] at before
        obtain ⟨earlier, le, moved⟩ := previous_window window (by omega) (by omega)
        obtain ⟨first, length⟩ := eq_of_window moved (state.move few .previous).sound
        simp only [SpilledState.move] at first length ⊢
        omega
    · cases read
  readPrevious_none := by
    intro state read
    have window := state.window
    split at read
    · cases read
    · next first =>
        rw [window.first] at first
        omega
  readFirst := fun state =>
    if 1 < state.csc.firstRowNumberInMem then some (state.move few .first) else none
  readFirst_some := by
    intro state next read
    have window := state.window
    split at read
    · next before =>
        cases read
        rw [window.first] at before
        obtain ⟨length, moved⟩ := first_window window (by omega)
        exact (eq_of_window moved _).1
    · cases read
  readFirst_none := by
    intro state read
    have window := state.window
    split at read
    · cases read
    · next first =>
        rw [window.first] at first
        omega
  readLast := fun state =>
    if state.csc.lastRowNumberInMem < state.csc.totalRows then some (state.move few .last) else none
  readLast_some := by
    intro state next read
    have window := state.window
    split at read
    · next more =>
        cases read
        rw [window.last, window.total] at more
        obtain ⟨earlier, le, moved⟩ := last_window window (by omega) few
        obtain ⟨first, length⟩ := eq_of_window moved (state.move few .last).sound
        simp only [SpilledState.move] at first length ⊢
        omega
    · cases read
  readLast_none := by
    intro state read
    have window := state.window
    have inside := window.inside
    split at read
    · cases read
    · next done =>
        rw [window.last, window.total] at done
        omega
  readAbsolute := fun state indexBuf =>
    let row := state.csc.absoluteRow indexBuf
    (if (0 < row ∧ row ≤ state.csc.totalRows) ∧
        (row < state.csc.firstRowNumberInMem ∨ state.csc.lastRowNumberInMem < row) then
      some (state.move few (.absolute indexBuf))
    else none, state.csc.absoluteIndex indexBuf)
  readAbsolute_inside := by
    intro state indexBuf row inside resolved
    have window := state.window
    rw [← window.total] at resolved
    change state.csc.absoluteRow indexBuf = _ at resolved
    have range : (0 : Int) < (row + 1 : Nat) ∧ ((row + 1 : Nat) : Int) ≤ state.csc.totalRows := by
      rw [window.total]
      omega
    simp only [resolved, range, and_self, true_and]
    split
    · obtain ⟨from_row, read, moved, lower, upper, index⟩ :=
        absolute_window window resolved inside (.inr (by omega))
      obtain ⟨first, length⟩ := eq_of_window moved (state.move few (.absolute indexBuf)).sound
      simp only [SpilledState.move, Option.getD_some] at first length ⊢
      rw [first, length]
      exact ⟨lower, upper, index⟩
    · next stay =>
        rw [window.first, window.last] at stay
        have here : state.start ≤ row ∧ row < state.start + state.len := by omega
        exact ⟨here.1, here.2, state.absoluteIndex_inside resolved here⟩
  readAbsolute_outside := by
    intro state indexBuf outside
    have window := state.window
    rw [← window.total] at outside
    change ¬ (0 < state.csc.absoluteRow indexBuf ∧ state.csc.absoluteRow indexBuf ≤ _) at outside
    simp only [outside, false_and, if_false]
    rw [((move_window_unchanged window).2.2 indexBuf outside).2]

/--
Harmless calls on a result spilled to files report what they report on the same
result in memory, in every sequence and with any memory threshold.
-/
theorem sqlFetchScroll_files_like_memory {threshold : Int} {result : Result}
    {csc : ClientSideCursorResult} (spill : spilled threshold result = some csc)
    (fits : FirstRowFits threshold result) (few : result.rows.length ≤ lookupMax) :
    ∃ state : (spilledBatches result few).State, state.csc = csc ∧ ∀ calls : List Call,
      Guarded callBoth CallHarmless
        (ResultInfo.spilled state, ResultInfo.inMemory (spilledBatches result few)) calls →
      ∀ pair ∈ visited callBoth
          (ResultInfo.spilled state, ResultInfo.inMemory (spilledBatches result few)) calls,
        ∃ next, Agrees pair.1 pair.2 next := by
  obtain ⟨length, window⟩ := (spilled_window spill).mpr fits
  refine ⟨⟨csc, 0, length, window⟩, rfl, fun calls harmless => ?_⟩
  exact agrees_of_calls (eq_of_window window _).1 harmless

end RedshiftOdbc.Fetch
