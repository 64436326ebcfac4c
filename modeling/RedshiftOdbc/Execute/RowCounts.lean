import RedshiftOdbc.Execute.ResultList

/-!
# The row count of an array execution

The counts of the commands of an array execution are added to the first result
while that result has a positive count.
-/

namespace RedshiftOdbc.ResultList

open RedshiftOdbc.Words RedshiftOdbc.Scanf
open RedshiftOdbc.Execute (ExecStatus SqlReturn)

/-! ## Counts -/

theorem strtol_toDigits (count : Nat) :
    strtol (Nat.toDigits 10 count) = min (count : Int) (2 ^ 63 - 1) := by
  have digits : ∀ character ∈ Nat.toDigits 10 count, character.isDigit = true :=
    fun _ member => Nat.isDigit_of_mem_toDigits (by decide) (by decide) member
  have value : decimal (Nat.toDigits 10 count) = count := by
    rw [decimal, ← Nat.ofDigitChars_eq_foldl, Nat.ofDigitChars_ten_toDigits]
  have read : scanInt (Nat.toDigits 10 count).length (Nat.toDigits 10 count ++ []) =
      some ((decimal (Nat.toDigits 10 count) : Int), []) :=
    scanInt_digits Nat.toDigits_ne_nil digits (Nat.le_refl _) (.inl rfl)
  rw [List.append_nil, value] at read
  rw [strtol, read]
  simp only
  omega

namespace DataModel

variable (model : DataModel)

theorem longMax_pos : 0 < model.longMax := by
  cases model <;> decide

theorem longMax_le : model.longMax ≤ 2 ^ 63 - 1 := by
  cases model <;> decide

theorem range : ((256 ^ model.longBytes : Nat) : Int) = 2 * (model.longMax + 1) := by
  cases model <;> decide

/-- A count as a `long` keeps it. -/
def capped (count : Nat) : Int := min (count : Int) model.longMax

variable {model}

theorem capped_nonneg (count : Nat) : 0 ≤ model.capped count :=
  le_min_iff.mpr ⟨Int.natCast_nonneg _, Int.le_of_lt model.longMax_pos⟩

theorem capped_le (count : Nat) : model.capped count ≤ model.longMax := min_le_right ..

theorem wrap_inside {value : Int} (lower : 0 ≤ value) (upper : value ≤ model.longMax) :
    wrap model.longBytes value = value := by
  have range := model.range
  exact wrap_of_range (by omega) (by omega)

/-- A sum of two counts beyond the limit comes out negative. -/
theorem wrap_beyond {value : Int} (beyond : model.longMax < value)
    (upper : value ≤ 2 * model.longMax) : wrap model.longBytes value < 0 := by
  have range := model.range
  have same : wrap model.longBytes value =
      wrap model.longBytes (value - (256 ^ model.longBytes : Nat)) :=
    wrap_congr (Int.sub_emod_right ..).symm
  rw [same, wrap_of_range (by omega) (by omega)]
  omega

end DataModel

/-- The answer to a command that affected so many rows. -/
def Reports (answer : PgResult) (count : Nat) : Prop :=
  answer.pqRc = .commandOk ∧ PQcmdTuples answer = Nat.toDigits 10 count

namespace Settings

variable {settings : Settings}

theorem lRowsUpdated_of_reports {answer : PgResult} {count : Nat} (reports : Reports answer count) :
    settings.lRowsUpdated answer = settings.model.capped count := by
  have positive := settings.model.longMax_pos
  have below := settings.model.longMax_le
  have counted : rowsUpdated settings.model answer = settings.model.capped count := by
    rw [rowsUpdated, reports.2, strtol_toDigits, DataModel.capped]
    split <;> omega
  rw [lRowsUpdated, counted]
  exact DataModel.wrap_inside (DataModel.capped_nonneg count) (DataModel.capped_le count)

/-- The result of a command in a list of its own. -/
def commandNode (settings : Settings) (answer : PgResult) (count : Nat) : Result :=
  { createResultObject answer with lRowsUpdated := settings.model.capped count }

theorem node_of_reports {answer : PgResult} {count : Nat} (reports : Reports answer count) :
    settings.node answer = settings.commandNode answer count := by
  rw [node, reports.1]
  simp only [lRowsUpdated_of_reports reports]
  rfl

/-! ## Steps -/

theorem readResults_single (list : StmtResults) (answer : PgResult) :
    settings.readResults list [answer] = settings.setResultInStmt list answer := by
  rw [readResults, readResults]
  split
  · rfl
  split
  · rfl
  · exact ite_self _

theorem execute_singles (list : StmtResults) (answers : List PgResult) :
    settings.execute list (answers.map fun answer => [answer]) =
      answers.foldl settings.setResultInStmt list := by
  rw [execute, List.foldl_map]
  simp only [readResults_single]

variable {rc : SqlReturn} {head : Result} {tail : List Result} {answer : PgResult} {count : Nat}

theorem setResultInStmt_command (list : StmtResults) (reports : Reports answer count) :
    settings.setResultInStmt list answer =
      ⟨list.rc, if settings.accumulates list.results answer then
        list.results.modifyHead (settings.accumulate answer)
      else list.results ++ [settings.commandNode answer count]⟩ := by
  have ok : answer.pqRc.ok = true := by
    rw [reports.1]
    rfl
  rw [setResultInStmt, Execute.setResultInStmt, if_pos ok, if_pos ok, addResult,
    node_of_reports reports]

theorem setResultInStmt_first (reports : Reports answer count) :
    settings.setResultInStmt ⟨rc, []⟩ answer = ⟨rc, [settings.commandNode answer count]⟩ := by
  have apart : settings.accumulates [] answer = false := by
    rw [accumulates, List.head?_nil, Option.any_none, Bool.and_false]
  rw [setResultInStmt_command _ reports, apart, if_neg Bool.false_ne_true, List.nil_append]

/-- Behind a first result without a positive count the answer gets a node. -/
theorem setResultInStmt_behind (reports : Reports answer count) (none : head.lRowsUpdated ≤ 0) :
    settings.setResultInStmt ⟨rc, head :: tail⟩ answer =
      ⟨rc, head :: (tail ++ [settings.commandNode answer count])⟩ := by
  have apart : settings.accumulates (head :: tail) answer = false := by
    rw [accumulates, List.head?_cons, Option.any_some, decide_eq_false (Int.not_lt.mpr none),
      Bool.and_false]
  rw [setResultInStmt_command _ reports, apart, if_neg Bool.false_ne_true, List.cons_append]

/-- A first result with a positive count takes the count of the answer. -/
theorem setResultInStmt_adds (array : settings.iArrayBinding = true)
    (reports : Reports answer count) (positive : 0 < head.lRowsUpdated) :
    settings.setResultInStmt ⟨rc, head :: tail⟩ answer =
      ⟨rc, { head with
        lRowsUpdated := wrap settings.model.longBytes
          (head.lRowsUpdated + settings.model.capped count) } :: tail⟩ := by
  have adds : settings.accumulates (head :: tail) answer = true := by
    rw [accumulates, List.head?_cons, Option.any_some, array, reports.1]
    simpa using positive
  rw [setResultInStmt_command _ reports, adds, if_pos rfl, List.modifyHead_cons, accumulate,
    lRowsUpdated_of_reports reports]

/-! ## Runs -/

variable {answers : List PgResult} {counts : List Nat}

def cappedSum (settings : Settings) (counts : List Nat) : Int :=
  (counts.map settings.model.capped).sum

theorem cappedSum_nonneg (counts : List Nat) : 0 ≤ settings.cappedSum counts := by
  induction counts with
  | nil => exact Int.le_refl 0
  | cons count counts ih =>
      have first : 0 ≤ settings.model.capped count := DataModel.capped_nonneg count
      rw [cappedSum, List.map_cons, List.sum_cons, ← cappedSum]
      omega

/-- Every answer behind such a first result gets a node. -/
theorem foldl_behind (reports : List.Forall₂ Reports answers counts)
    (none : head.lRowsUpdated ≤ 0) :
    ∃ nodes, nodes.length = answers.length ∧
      answers.foldl settings.setResultInStmt ⟨rc, head :: tail⟩ = ⟨rc, head :: (tail ++ nodes)⟩ := by
  induction reports generalizing tail with
  | nil => exact ⟨[], rfl, by rw [List.append_nil]; rfl⟩
  | @cons answer count answers counts first later ih =>
      obtain ⟨nodes, length, run⟩ := @ih (tail ++ [settings.commandNode answer count])
      refine ⟨settings.commandNode answer count :: nodes, by rw [List.length_cons, length]; rfl, ?_⟩
      rw [List.foldl_cons, setResultInStmt_behind first none, run, List.append_assoc]
      rfl

/-- The counts add up until the sum passes the limit, and then the first count is negative. -/
theorem foldl_adds (array : settings.iArrayBinding = true)
    (reports : List.Forall₂ Reports answers counts) (positive : 0 < head.lRowsUpdated)
    (small : head.lRowsUpdated ≤ settings.model.longMax) :
    (head.lRowsUpdated + settings.cappedSum counts ≤ settings.model.longMax →
      answers.foldl settings.setResultInStmt ⟨rc, [head]⟩ =
        ⟨rc, [{ head with lRowsUpdated := head.lRowsUpdated + settings.cappedSum counts }]⟩) ∧
    (settings.model.longMax < head.lRowsUpdated + settings.cappedSum counts →
      ∃ first nodes, answers.foldl settings.setResultInStmt ⟨rc, [head]⟩ = ⟨rc, first :: nodes⟩ ∧
        first.lRowsUpdated < 0) := by
  induction reports generalizing head with
  | nil =>
      rw [cappedSum, List.map_nil, List.sum_nil, Int.add_zero]
      exact ⟨fun _ => rfl, fun beyond => absurd small (by omega)⟩
  | @cons answer count answers counts first later ih =>
      let summed : Result :=
        { head with
          lRowsUpdated := wrap settings.model.longBytes
            (head.lRowsUpdated + settings.model.capped count) }
      have step : settings.setResultInStmt ⟨rc, [head]⟩ answer = ⟨rc, [summed]⟩ :=
        setResultInStmt_adds array first positive
      have nonneg : 0 ≤ settings.model.capped count := DataModel.capped_nonneg count
      have limit : settings.model.capped count ≤ settings.model.longMax := DataModel.capped_le count
      have rest : 0 ≤ settings.cappedSum counts := cappedSum_nonneg counts
      have sum : settings.cappedSum (count :: counts) =
          settings.model.capped count + settings.cappedSum counts := List.sum_cons
      rw [List.foldl_cons, step, sum, ← Int.add_assoc]
      by_cases fits : head.lRowsUpdated + settings.model.capped count ≤ settings.model.longMax
      · have value : summed.lRowsUpdated = head.lRowsUpdated + settings.model.capped count :=
          DataModel.wrap_inside (by omega) fits
        have further := @ih summed (by omega) (by omega)
        rw [value] at further
        exact further
      · have negative : summed.lRowsUpdated < 0 :=
          DataModel.wrap_beyond (Int.not_le.mp fits) (by omega)
        obtain ⟨nodes, -, run⟩ := foldl_behind later (Int.le_of_lt negative)
        exact ⟨fun small => by omega, fun _ => ⟨summed, _, run, negative⟩⟩

/-- The statement has one result, with the sum of the counts as far as a `long` holds it. -/
def ReportsSum (settings : Settings) (answers : List PgResult) (counts : List Nat) : Prop :=
  ∃ result, (settings.execute ⟨.success, []⟩ (answers.map fun answer => [answer])).results =
      [result] ∧ result.lRowsUpdated = min (counts.sum : Int) settings.model.longMax

/-- Capping the counts changes nothing while the sum of what is left is within the limit. -/
theorem min_sum_eq (counts : List Nat)
    (fits : settings.cappedSum counts ≤ settings.model.longMax) :
    min (counts.sum : Int) settings.model.longMax = settings.cappedSum counts := by
  induction counts with
  | nil => exact min_eq_left (Int.le_of_lt settings.model.longMax_pos)
  | cons count counts ih =>
      have sum : settings.cappedSum (count :: counts) =
          settings.model.capped count + settings.cappedSum counts := List.sum_cons
      have rest : 0 ≤ settings.cappedSum counts := cappedSum_nonneg counts
      have nonneg : 0 ≤ settings.model.capped count := DataModel.capped_nonneg count
      have inner := ih (by omega)
      rw [sum] at fits ⊢
      rw [DataModel.capped] at fits nonneg ⊢
      rw [List.sum_cons, Nat.cast_add]
      omega

theorem execute_reportsSum (array : settings.iArrayBinding = true) {first : PgResult}
    {firstCount : Nat} (one : Reports first firstCount)
    (more : List.Forall₂ Reports answers counts) :
    settings.ReportsSum (first :: answers) (firstCount :: counts) ↔
      counts = [] ∨ (0 < firstCount ∧
        settings.cappedSum (firstCount :: counts) ≤ settings.model.longMax) := by
  let head : Result := settings.commandNode first firstCount
  have positive := settings.model.longMax_pos
  have value : head.lRowsUpdated = min (firstCount : Int) settings.model.longMax := rfl
  have sum : settings.cappedSum (firstCount :: counts) =
      head.lRowsUpdated + settings.cappedSum counts := List.sum_cons
  have run : settings.execute ⟨.success, []⟩ ((first :: answers).map fun answer => [answer]) =
      answers.foldl settings.setResultInStmt ⟨.success, [head]⟩ := by
    rw [execute_singles, List.foldl_cons, setResultInStmt_first one]
  rw [ReportsSum, run]
  by_cases single : counts = []
  · subst single
    cases more
    refine iff_of_true ⟨head, rfl, ?_⟩ (.inl rfl)
    rw [value, List.sum_singleton]
  by_cases none : firstCount = 0
  · have zero : head.lRowsUpdated ≤ 0 := by omega
    obtain ⟨nodes, length, result⟩ := @foldl_behind settings .success head [] _ _ more zero
    rw [result]
    refine iff_of_false ?_ ?_
    · rintro ⟨other, same, -⟩
      have some := List.length_pos_iff.mpr fun empty : answers = [] => single (by
        subst empty
        cases more
        rfl)
      have lengths := congrArg List.length same
      rw [List.nil_append, List.length_cons, length, List.length_singleton] at lengths
      omega
    · rintro (empty | ⟨some, -⟩)
      · exact single empty
      · exact absurd none (Nat.ne_of_gt some)
  · have adds := @foldl_adds settings .success head _ _ array more (by omega) (by omega)
    by_cases fits : settings.cappedSum (firstCount :: counts) ≤ settings.model.longMax
    · rw [adds.1 (by omega)]
      refine iff_of_true ⟨_, rfl, ?_⟩ (.inr ⟨Nat.pos_of_ne_zero none, fits⟩)
      rw [min_sum_eq _ fits, sum]
    · obtain ⟨result, nodes, same, negative⟩ := adds.2 (by omega)
      rw [same]
      refine iff_of_false ?_ ?_
      · rintro ⟨other, alone, count⟩
        obtain ⟨rfl, -⟩ := List.cons.inj alone
        omega
      · rintro (empty | ⟨-, small⟩)
        · exact single empty
        · exact fits small

end Settings

/-! ## Two commands -/

/-- The answer to an `UPDATE` of so many rows. -/
def updateAnswer (digits : List Char) : PgResult :=
  { pqRc := .commandOk, cmdStatus := "UPDATE ".toList ++ digits, ftypes := [], tuples := [],
    connectionBad := false, cscThreadCreated := false }

def arraySettings : Settings :=
  { model := .lp64, iFetchRefCursor := false, iArrayBinding := true, streamingCursor := false }

theorem execute_reportsSum_two :
    arraySettings.ReportsSum [updateAnswer ['2'], updateAnswer ['0']] [2, 0] :=
  (Settings.execute_reportsSum rfl ⟨rfl, by decide⟩
    (.cons ⟨rfl, by decide⟩ .nil)).mpr (.inr ⟨by decide, by decide⟩)

/-- A first count of zero is never added to, and a sum beyond the limit comes out negative. -/
theorem execute_reportsSum_wrong :
    ¬ arraySettings.ReportsSum [updateAnswer ['0'], updateAnswer ['3']] [0, 3] ∧
      ¬ { arraySettings with model := .llp64 }.ReportsSum
        [updateAnswer "2147483647".toList, updateAnswer ['1']] [2147483647, 1] := by
  constructor <;> rintro ⟨result, same, count⟩
  · have nodes := congrArg List.length same
    rw [List.length_singleton] at nodes
    exact absurd nodes (by decide)
  · have counted := congrArg (fun results => results.map Result.lRowsUpdated) same
    simp only [List.map_cons, List.map_nil, count] at counted
    exact absurd counted (by decide)

end RedshiftOdbc.ResultList
