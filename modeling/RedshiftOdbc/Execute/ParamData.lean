import RedshiftOdbc.Execute.PutData
import Mathlib.Data.List.Nodup
import Mathlib.Logic.Function.Basic

/-!
# Asking for data at execution

An execution that meets a parameter without its data remembers the parameter and
its row and goes on to the next row.  `SQLParamData` asks for the parameters of
the remembered row one after another and then executes again from the first row.
-/

namespace RedshiftOdbc.DataAtExec

/-! ## Parameters -/

def sqlChar : Int := 1
def sqlVarchar : Int := 12
def sqlCChar : Int := 1
def sqlCWchar : Int := -8
def sqlDataAtExec : Int := -2
def sqlLenDataAtExecOffset : Int := -100

/--
`RS_DESC_REC` of a parameter.  The indicator of a row is the element `pcbLenInd + row`,
where `needDataAtExec` looks for it in every orientation; the indicators that a row-wise
array or a bind offset puts elsewhere are not modelled.
-/
structure DescRec where
  hRecNumber : Nat
  hType : Int
  hParamSQLType : Int
  pcbLenInd : Option (Nat → Int)

/-- The types `needDataAtExec` looks at. -/
def DescRec.isCharacter (rec : DescRec) : Bool :=
  rec.hParamSQLType = sqlChar || rec.hParamSQLType = sqlVarchar || rec.hType = sqlCChar ||
    rec.hType = sqlCWchar

/-- The indicator of the row says that the data comes at execution. -/
def DescRec.atExec (rec : DescRec) (row : Nat) : Bool :=
  rec.pcbLenInd.any fun pcbLenInd =>
    pcbLenInd row = sqlDataAtExec || pcbLenInd row ≤ sqlLenDataAtExecOffset

/-- `SQL_CHAR` to `SQL_LONGVARBINARY`. -/
def isFixedLengthDataType (sqlType : Int) : Bool :=
  !([1, 12, -1, -8, -9, -10, -2, -3, -4].contains sqlType)

/-- A statement with its parameters, their data by their places, and what `SQLParamData` resumes. -/
structure Stmt where
  recs : List DescRec
  iNoOfParams : Nat
  lParamsToBind : Nat
  /-- The array size is at least one. -/
  positive : 0 < lParamsToBind
  iMultiInsert : Nat
  data : Nat → Option Data
  pAPDRecDataAtExec : Option Nat
  lParamProcessedDataAtExec : Nat

namespace Stmt

variable (stmt : Stmt)

/-- The parameter at the place waits for its data at the row. -/
def waits (row place : Nat) : Bool :=
  stmt.recs[place]?.any fun rec =>
    rec.isCharacter && rec.hRecNumber ≤ stmt.iNoOfParams && rec.atExec row &&
      (stmt.data place).isNone

def needDataAtExec (row : Nat) : Option Nat :=
  (List.range stmt.recs.length).find? (stmt.waits row)

def resetAndReleaseDataAtExec : Stmt :=
  { stmt with data := fun _ => none, pAPDRecDataAtExec := none, lParamProcessedDataAtExec := 0 }

/-- The loop over the rows: the statement, whether data is needed, and the rows that were sent. -/
structure Execution where
  stmt : Stmt
  needData : Bool
  sent : List Nat

/-- A row is remembered, or sent unless an earlier one needs data. -/
def turn (execution : Execution) (row : Nat) : Execution :=
  match if execution.stmt.iMultiInsert = 0 then execution.stmt.needDataAtExec row else none with
  | some place =>
      { execution with
        stmt := { execution.stmt with
          pAPDRecDataAtExec := some place, lParamProcessedDataAtExec := row }
        needData := true }
  | none =>
      if execution.needData then execution
      else { execution with sent := execution.sent ++ [row] }

/-- `libpqExecuteDirectOrPrepared`, when nothing fails. -/
def execute : Execution :=
  (List.range stmt.lParamsToBind).foldl turn ⟨stmt, false, []⟩

def SQLExecute : Execution := stmt.resetAndReleaseDataAtExec.execute

/-- Pieces of a type that is sent in one piece are refused behind the first one. -/
def SQLPutData (piece : Piece) : Option Stmt :=
  match stmt.pAPDRecDataAtExec with
  | none => some stmt
  | some place =>
      match stmt.data place with
      | none =>
          (allocateAndSetDataAtExec piece).map fun data =>
            { stmt with data := Function.update stmt.data place (some data) }
      | some data =>
          if stmt.recs[place]?.any fun rec => isFixedLengthDataType rec.hParamSQLType then some stmt
          else
            (appendDataAtExec data piece).map fun data =>
              { stmt with data := Function.update stmt.data place (some data) }

/-- What `SQLParamData` returns. -/
inductive Reply where
  | needData (place : Nat) (stmt : Stmt)
  | executed (execution : Execution)
  | sequenceError

def SQLParamData : Reply :=
  match stmt.pAPDRecDataAtExec with
  | none => .sequenceError
  | some place =>
      if (stmt.data place).isNone then .needData place stmt
      else
        match stmt.needDataAtExec stmt.lParamProcessedDataAtExec with
        | some place => .needData place { stmt with pAPDRecDataAtExec := some place }
        | none => .executed stmt.execute

/-! ## Who waits -/

def waitingAt (row : Nat) : List Nat := (List.range stmt.recs.length).filter (stmt.waits row)

def pending (row : Nat) : List Nat := if stmt.iMultiInsert = 0 then stmt.waitingAt row else []

variable {stmt}

theorem needDataAtExec_eq (row : Nat) : stmt.needDataAtExec row = (stmt.waitingAt row).head? :=
  List.head?_filter.symm

theorem waits_iff {row place : Nat} : stmt.waits row place = true ↔
    ∃ rec, stmt.recs[place]? = some rec ∧ rec.isCharacter = true ∧
      rec.hRecNumber ≤ stmt.iNoOfParams ∧ rec.atExec row = true ∧ stmt.data place = none := by
  rw [waits, Option.any_eq_true]
  simp only [Bool.and_eq_true, decide_eq_true_eq, Option.isNone_iff_eq_none, and_assoc]

theorem mem_waitingAt {row place : Nat} :
    place ∈ stmt.waitingAt row ↔ stmt.waits row place = true := by
  rw [waitingAt, List.mem_filter, List.mem_range]
  refine ⟨fun both => both.2, fun waiting => ⟨?_, waiting⟩⟩
  obtain ⟨rec, known, -⟩ := waits_iff.mp waiting
  exact (List.getElem?_eq_some_iff.mp known).1

theorem mem_pending {row place : Nat} :
    place ∈ stmt.pending row ↔ stmt.iMultiInsert = 0 ∧ stmt.waits row place = true := by
  rw [pending]
  by_cases single : stmt.iMultiInsert = 0
  · rw [if_pos single, mem_waitingAt]
    exact ⟨fun waiting => ⟨single, waiting⟩, fun both => both.2⟩
  · rw [if_neg single]
    exact iff_of_false List.not_mem_nil fun both => single both.1

theorem waitingAt_nodup (row : Nat) : (stmt.waitingAt row).Nodup := List.nodup_range.filter _

/-- With its data a parameter does not wait any more, and all others do as before. -/
theorem waitingAt_update {row place : Nat} {others : List Nat} {data : Data}
    (first : stmt.waitingAt row = place :: others) :
    ({ stmt with data := Function.update stmt.data place (some data) }).waitingAt row = others := by
  have distinct := stmt.waitingAt_nodup row
  rw [first] at distinct
  have step : ({ stmt with data := Function.update stmt.data place (some data) }).waits row =
      fun other => decide (other ≠ place) && stmt.waits row other := by
    funext other
    rw [Bool.eq_iff_iff, Bool.and_eq_true, waits_iff, waits_iff, decide_eq_true_iff]
    by_cases same : other = place
    · subst same
      simp
    · simp [same]
  rw [waitingAt, step, ← List.filter_filter, ← waitingAt, first, List.filter_cons_of_neg (by simp)]
  refine List.filter_eq_self.mpr fun other member => ?_
  rw [decide_eq_true_iff]
  rintro rfl
  exact (List.nodup_cons.mp distinct).1 member

/-! ## Executions -/

/-- What the first turns of an execution have come to. -/
inductive Ran (stmt : Stmt) (count : Nat) : Execution → Prop where
  | sentAll (none : ∀ row < count, stmt.pending row = []) : Ran stmt count
      ⟨stmt, false, List.range count⟩
  | remembered {last place : Nat} {others sent : List Nat} (inside : last < count)
      (waiting : stmt.pending last = place :: others)
      (behind : ∀ row < count, last < row → stmt.pending row = [])
      (nothing : sent = [] ↔ stmt.pending 0 ≠ []) : Ran stmt count
      ⟨{ stmt with pAPDRecDataAtExec := some place, lParamProcessedDataAtExec := last }, true, sent⟩

theorem turn_eq (execution : Execution) (row : Nat) :
    turn execution row =
      match (execution.stmt.pending row).head? with
      | some place =>
          { execution with
            stmt := { execution.stmt with
              pAPDRecDataAtExec := some place, lParamProcessedDataAtExec := row }
            needData := true }
      | none =>
          if execution.needData then execution
          else { execution with sent := execution.sent ++ [row] } := by
  rw [turn, pending, needDataAtExec_eq]
  by_cases single : execution.stmt.iMultiInsert = 0
  · rw [if_pos single, if_pos single]
  · rw [if_neg single, if_neg single, List.head?_nil]

theorem ran (stmt : Stmt) (count : Nat) :
    Ran stmt count ((List.range count).foldl turn ⟨stmt, false, []⟩) := by
  induction count with
  | zero => exact .sentAll fun _ below => absurd below (Nat.not_lt_zero _)
  | succ count ih =>
      rw [List.range_succ, List.foldl_append, List.foldl_cons, List.foldl_nil, turn_eq]
      generalize (List.range count).foldl turn ⟨stmt, false, []⟩ = execution at ih
      cases ih with
      | sentAll none =>
          cases waiting : stmt.pending count with
          | nil =>
              have all : ∀ row < count + 1, stmt.pending row = [] := fun row below =>
                (Nat.lt_succ_iff_lt_or_eq.mp below).elim (none row) (fun same => same ▸ waiting)
              simp only [List.head?_nil, Bool.false_eq_true, if_false]
              rw [← List.range_succ]
              exact .sentAll all
          | cons place others =>
              refine .remembered (Nat.lt_succ_self _) waiting
                (fun row below behind => absurd below (by omega)) ?_
              rw [List.range_eq_nil]
              constructor
              · rintro rfl
                rw [waiting]
                exact List.cons_ne_nil _ _
              · intro first
                by_contra positive
                exact first (none 0 (Nat.pos_of_ne_zero positive))
      | @remembered last early rest sent inside waiting behind nothing =>
          have same : Stmt.pending { stmt with
              pAPDRecDataAtExec := some early, lParamProcessedDataAtExec := last } count =
            stmt.pending count := rfl
          cases further : stmt.pending count with
          | nil =>
              simp only [same, further, List.head?_nil, if_true]
              refine .remembered (Nat.lt_succ_of_lt inside) waiting (fun row below after => ?_) nothing
              rcases Nat.lt_succ_iff_lt_or_eq.mp below with earlier | rfl
              · exact behind row earlier after
              · exact further
          | cons place others =>
              simp only [same, further, List.head?_cons]
              exact .remembered (Nat.lt_succ_self _) further
                (fun row below after => absurd below (by omega)) nothing

theorem execute_needData (stmt : Stmt) : stmt.execute.needData = true ↔
    ∃ row < stmt.lParamsToBind, stmt.pending row ≠ [] := by
  have run := ran stmt stmt.lParamsToBind
  rw [← execute] at run
  generalize stmt.execute = execution at run
  cases run with
  | sentAll none =>
      refine iff_of_false Bool.false_ne_true ?_
      rintro ⟨row, inside, some⟩
      exact some (none row inside)
  | @remembered last place others sent inside waiting behind nothing =>
      exact iff_of_true rfl ⟨last, inside, by rw [waiting]; exact List.cons_ne_nil _ _⟩

/-! ## Conversations -/

def received (stmt : Stmt) (place : Nat) (first : Piece) (rest : List Piece) : Option Data :=
  if stmt.recs[place]?.any fun rec => isFixedLengthDataType rec.hParamSQLType then
    allocateAndSetDataAtExec first
  else putAll first rest

def store (stmt : Stmt) (place : Nat) (data : Data) : Stmt :=
  { stmt with data := Function.update stmt.data place (some data) }

theorem store_store (stmt : Stmt) (place : Nat) (data other : Data) :
    (stmt.store place data).store place other = stmt.store place other := by
  rw [store, store, store, Function.update_idem]

theorem store_data (stmt : Stmt) (place : Nat) (data : Data) :
    (stmt.store place data).data place = some data := Function.update_self ..

theorem SQLPutData_first {place : Nat} (current : stmt.pAPDRecDataAtExec = some place)
    (none : stmt.data place = none) (piece : Piece) :
    stmt.SQLPutData piece = (allocateAndSetDataAtExec piece).map (stmt.store place) := by
  unfold SQLPutData
  split
  case h_1 absent => exact absurd (absent.symm.trans current) (Option.some_ne_none _).symm
  case h_2 other known =>
    obtain rfl := Option.some.inj (known.symm.trans current)
    split
    case h_1 => rfl
    case h_2 data some => exact absurd (some.symm.trans none) (Option.some_ne_none _)

theorem SQLPutData_further {place : Nat} {data : Data}
    (current : stmt.pAPDRecDataAtExec = some place) (known : stmt.data place = some data)
    (piece : Piece) :
    stmt.SQLPutData piece =
      if stmt.recs[place]?.any fun rec => isFixedLengthDataType rec.hParamSQLType then some stmt
      else (appendDataAtExec data piece).map (stmt.store place) := by
  unfold SQLPutData
  split
  case h_1 absent => exact absurd (absent.symm.trans current) (Option.some_ne_none _).symm
  case h_2 other same =>
    obtain rfl := Option.some.inj (same.symm.trans current)
    split
    case h_1 none => exact absurd (none.symm.trans known) (Option.some_ne_none _).symm
    case h_2 value some =>
      obtain rfl := Option.some.inj (some.symm.trans known)
      rfl

theorem putRest {place : Nat} (current : stmt.pAPDRecDataAtExec = some place) (data : Data)
    (rest : List Piece) :
    rest.foldlM SQLPutData (stmt.store place data) =
      (if stmt.recs[place]?.any fun rec => isFixedLengthDataType rec.hParamSQLType then some data
        else rest.foldlM appendDataAtExec data).map (stmt.store place) := by
  induction rest generalizing data with
  | nil =>
      rw [List.foldlM_nil, List.foldlM_nil]
      split <;> rfl
  | cons piece rest ih =>
      have step : (stmt.store place data).SQLPutData piece =
          if stmt.recs[place]?.any fun rec => isFixedLengthDataType rec.hParamSQLType then
            some (stmt.store place data)
          else (appendDataAtExec data piece).map (stmt.store place) := by
        have here : (stmt.store place data).pAPDRecDataAtExec = some place := current
        rw [SQLPutData_further here (store_data stmt place data)]
        have stores : (stmt.store place data).store place = stmt.store place :=
          funext fun other => store_store stmt place data other
        rw [stores]
        rfl
      rw [List.foldlM_cons, step, List.foldlM_cons]
      by_cases fixed : (stmt.recs[place]?.any
          fun rec => isFixedLengthDataType rec.hParamSQLType) = true
      · have further := ih data
        rw [if_pos fixed] at further ⊢
        rw [if_pos fixed]
        exact further
      · rw [if_neg fixed, if_neg fixed]
        cases one : appendDataAtExec data piece with
        | none => rfl
        | some other =>
            have further := ih other
            rw [if_neg fixed] at further
            exact further

/-- The pieces of the parameter that is asked for. -/
theorem putPieces {place : Nat} (current : stmt.pAPDRecDataAtExec = some place)
    (none : stmt.data place = none) (first : Piece) (rest : List Piece) :
    (first :: rest).foldlM SQLPutData stmt =
      (stmt.received place first rest).map (stmt.store place) := by
  rw [List.foldlM_cons, SQLPutData_first current none, received, putAll]
  cases allocateAndSetDataAtExec first with
  | none => split <;> rfl
  | some data =>
      refine (putRest current data rest).trans ?_
      split <;> rfl

structure Outcome where
  asked : List Nat
  needData : Bool
  data : Nat → Option Data

/-- The application answers every request with all pieces of the parameter. -/
def converse (script : Nat → Piece × List Piece) : Nat → Stmt → List Nat → Option Outcome
  | 0, _, _ => none
  | turns + 1, stmt, asked =>
      match stmt.SQLParamData with
      | .needData place stmt =>
          (((script place).1 :: (script place).2).foldlM SQLPutData stmt).bind fun stmt =>
            converse script turns stmt (asked ++ [place])
      | .executed execution => some ⟨asked, execution.needData, stmt.data⟩
      | .sequenceError => none

/-- The next request is for the first of these parameters. -/
structure Ready (stmt : Stmt) (waiting : List Nat) : Prop where
  single : stmt.iMultiInsert = 0
  remembered : ∃ place, stmt.pAPDRecDataAtExec = some place ∧
    (stmt.data place = none → waiting.head? = some place)
  waiting : stmt.waitingAt stmt.lParamProcessedDataAtExec = waiting

theorem Ready.asks {place : Nat} {others : List Nat} (ready : stmt.Ready (place :: others)) :
    stmt.SQLParamData = .needData place { stmt with pAPDRecDataAtExec := some place } := by
  obtain ⟨current, known, head⟩ := ready.remembered
  rw [SQLParamData, known]
  by_cases none : stmt.data current = none
  · obtain rfl := Option.some.inj (head none)
    simp only [none, Option.isNone_none, if_true]
    rw [← known]
  · simp only [Option.isNone_iff_eq_none, none, if_false, needDataAtExec_eq, ready.waiting,
      List.head?_cons]

theorem Ready.executes (ready : stmt.Ready []) : stmt.SQLParamData = .executed stmt.execute := by
  obtain ⟨current, known, head⟩ := ready.remembered
  rw [SQLParamData, known]
  have some : stmt.data current ≠ none := fun none =>
    Option.some_ne_none _ (head none).symm
  simp only [Option.isNone_iff_eq_none, some, if_false, needDataAtExec_eq, ready.waiting,
    List.head?_nil]

theorem Ready.next {place : Nat} {others : List Nat} (ready : stmt.Ready (place :: others))
    (data : Data) :
    (Stmt.store { stmt with pAPDRecDataAtExec := some place } place data).Ready others := by
  refine ⟨ready.single, ⟨place, rfl, fun none => ?_⟩, ?_⟩
  · rw [store_data] at none
    exact absurd none (Option.some_ne_none _)
  · exact @waitingAt_update { stmt with pAPDRecDataAtExec := some place } _ _ _ _ ready.waiting

/-- The pieces of the parameter that is asked for first. -/
theorem Ready.puts {place : Nat} {others : List Nat} (ready : stmt.Ready (place :: others))
    (first : Piece) (rest : List Piece) :
    (first :: rest).foldlM SQLPutData { stmt with pAPDRecDataAtExec := some place } =
      (stmt.received place first rest).map
        (Stmt.store { stmt with pAPDRecDataAtExec := some place } place) := by
  have member : place ∈ stmt.waitingAt stmt.lParamProcessedDataAtExec := by
    rw [ready.waiting]
    exact List.mem_cons_self ..
  obtain ⟨rec, -, -, -, -, none⟩ := waits_iff.mp (mem_waitingAt.mp member)
  exact @putPieces { stmt with pAPDRecDataAtExec := some place } place rfl none first rest

/-- The data of the parameters that were asked for, and of the others. -/
def filled (stmt : Stmt) (script : Nat → Piece × List Piece) (asked : List Nat) (place : Nat) :
    Option Data :=
  if place ∈ asked then stmt.received place (script place).1 (script place).2
  else stmt.data place

theorem filled_store {script : Nat → Piece × List Piece} {place : Nat} {data : Data}
    {others : List Nat}
    (got : stmt.received place (script place).1 (script place).2 = some data)
    (distinct : place ∉ others) :
    (Stmt.store { stmt with pAPDRecDataAtExec := some place } place data).filled script others =
      stmt.filled script (place :: others) := by
  funext other
  rw [filled, filled]
  by_cases same : other = place
  · subst same
    rw [if_neg distinct, if_pos (List.mem_cons_self ..), store_data, got]
  · have unchanged : (Stmt.store { stmt with pAPDRecDataAtExec := some place } place data).data
        other = stmt.data other := Function.update_of_ne same ..
    simp only [List.mem_cons, same, false_or, unchanged]
    rfl

def supplied (stmt : Stmt) (script : Nat → Piece × List Piece) (asked : List Nat) : Stmt :=
  { stmt with data := stmt.filled script asked }

/-- A conversation asks for all that wait, in their order, and then executes. -/
theorem Ready.converse_some {script : Nat → Piece × List Piece} {waiting : List Nat}
    (ready : stmt.Ready waiting) (asked : List Nat) {turns : Nat} (enough : waiting.length < turns)
    (all : ∀ place ∈ waiting, ∃ data,
      stmt.received place (script place).1 (script place).2 = some data) :
    ∃ outcome, converse script turns stmt asked = some outcome ∧
      outcome.asked = asked ++ waiting ∧ outcome.data = stmt.filled script waiting ∧
      (outcome.needData = true ↔
        ∃ row < stmt.lParamsToBind, (stmt.supplied script waiting).pending row ≠ []) := by
  induction waiting generalizing stmt asked turns with
  | nil =>
      obtain ⟨turns, rfl⟩ : ∃ less, turns = less + 1 := ⟨turns - 1, by omega⟩
      have same : stmt.filled script [] = stmt.data := by
        funext place
        exact if_neg List.not_mem_nil
      refine ⟨⟨asked, stmt.execute.needData, stmt.data⟩, ?_, (List.append_nil _).symm, same.symm, ?_⟩
      · rw [converse, ready.executes]
      · rw [execute_needData, supplied, same]
  | cons place others ih =>
      obtain ⟨turns, rfl⟩ : ∃ less, turns = less + 1 := ⟨turns - 1, by omega⟩
      obtain ⟨data, got⟩ := all place (List.mem_cons_self ..)
      have distinct : place ∉ others := by
        have nodup := stmt.waitingAt_nodup stmt.lParamProcessedDataAtExec
        rw [ready.waiting] at nodup
        exact (List.nodup_cons.mp nodup).1
      have put := ready.puts (script place).1 (script place).2
      rw [got, Option.map_some] at put
      obtain ⟨outcome, run, names, values, more⟩ := ih (ready.next data) (asked ++ [place])
        (Nat.lt_of_succ_lt_succ enough)
        (fun other member => all other (List.mem_cons_of_mem _ member))
      rw [supplied, filled_store got distinct] at more
      rw [filled_store got distinct] at values
      refine ⟨outcome, ?_, ?_, values, more⟩
      · rw [converse, ready.asks]
        simp only [put, Option.bind_some]
        exact run
      · rw [names, List.append_assoc]
        rfl

/-- A piece that is written outside of its buffer ends the conversation. -/
theorem Ready.converse_none {script : Nat → Piece × List Piece} {waiting asked : List Nat}
    (ready : stmt.Ready waiting) (turns : Nat)
    (fault : ∃ place ∈ waiting, stmt.received place (script place).1 (script place).2 = none) :
    converse script turns stmt asked = none := by
  induction waiting generalizing stmt asked turns with
  | nil =>
      obtain ⟨place, member, -⟩ := fault
      exact absurd member List.not_mem_nil
  | cons place others ih =>
      cases turns with
      | zero => rfl
      | succ turns =>
          rw [converse, ready.asks]
          simp only [ready.puts]
          cases got : stmt.received place (script place).1 (script place).2 with
          | none => rfl
          | some data =>
              obtain ⟨other, member, absent⟩ := fault
              refine ih (ready.next data) turns ⟨other, ?_, absent⟩
              rcases List.mem_cons.mp member with rfl | later
              · exact absurd (got.symm.trans absent) (Option.some_ne_none _)
              · exact later

/-! ## Whole executions -/

variable (stmt)

/-- An execution from its call on, with the rows that were sent before the conversation. -/
def run (script : Nat → Piece × List Piece) : Option (Outcome × List Nat) :=
  let execution := stmt.SQLExecute
  if execution.needData then
    (converse script (stmt.recs.length + 1) execution.stmt []).map fun outcome =>
      (outcome, execution.sent)
  else some (⟨[], false, fun _ => none⟩, [])

/--
A parameter of the statement whose indicator at the row asks for data at execution, the
indicators being an array of their own.
-/
def AtExecAt (row place : Nat) : Prop :=
  ∃ rec, stmt.recs[place]? = some rec ∧ rec.hRecNumber ≤ stmt.iNoOfParams ∧ rec.atExec row = true

def AtExec (place : Nat) : Prop := ∃ row < stmt.lParamsToBind, stmt.AtExecAt row place

/-- The parameter is of a type that is sent in one piece. -/
def fixedAt (place : Nat) : Bool :=
  stmt.recs[place]?.any fun rec => isFixedLengthDataType rec.hParamSQLType

/--
Every data-at-execution parameter is asked for once, before anything is sent, the
execution behind the conversation needs no more data, and it has all pieces.
-/
def Supplies (script : Nat → Piece × List Piece) : Prop :=
  ∃ outcome, stmt.run script = some (outcome, []) ∧ outcome.asked.Nodup ∧
    (∀ place, place ∈ outcome.asked ↔ stmt.AtExec place) ∧ outcome.needData = false ∧
    ∀ place, stmt.AtExec place → stmt.fixedAt place = false →
      ∃ data, outcome.data place = some data ∧ data.Holds ((script place).1 :: (script place).2)

structure Askable : Prop where
  single : stmt.iMultiInsert = 0
  seen : ∀ place rec, stmt.AtExec place → stmt.recs[place]? = some rec → rec.isCharacter = true
  /-- The first row has such a parameter. -/
  first : ∃ place, stmt.AtExecAt 0 place
  /-- The last row that has such a parameter has all of them. -/
  last : ∃ row < stmt.lParamsToBind, (∀ place, stmt.AtExec place → stmt.AtExecAt row place) ∧
    ∀ later < stmt.lParamsToBind, row < later → ∀ place, ¬ stmt.AtExecAt later place

/-- The pieces of the parameter can be stored. -/
def Pieces (script : Nat → Piece × List Piece) (place : Nat) : Prop :=
  if stmt.fixedAt place then (script place).1.Ended
  else Storable (script place).1 (script place).2

variable {stmt}

theorem mem_pending_reset {row place : Nat} :
    place ∈ stmt.resetAndReleaseDataAtExec.pending row ↔
      stmt.iMultiInsert = 0 ∧ stmt.AtExecAt row place ∧
        ∃ rec, stmt.recs[place]? = some rec ∧ rec.isCharacter = true := by
  rw [mem_pending, waits_iff]
  constructor
  · rintro ⟨single, rec, known, character, number, row, -⟩
    exact ⟨single, ⟨rec, known, number, row⟩, rec, known, character⟩
  · rintro ⟨single, ⟨rec, known, number, row⟩, other, same, character⟩
    obtain rfl := Option.some.inj (known.symm.trans same)
    exact ⟨single, rec, known, character, number, row, rfl⟩

theorem received_of_pieces {script : Nat → Piece × List Piece} {place : Nat}
    (pieces : stmt.Pieces script place) :
    ∃ data, stmt.received place (script place).1 (script place).2 = some data := by
  rw [Pieces] at pieces
  rw [received, ← fixedAt]
  by_cases fixed : stmt.fixedAt place = true
  · rw [if_pos fixed] at pieces ⊢
    exact (allocate_isSome_iff _).mpr pieces
  · rw [if_neg fixed] at pieces ⊢
    obtain ⟨data, put, -⟩ := (putAll_holds_iff _ _).mpr pieces
    exact ⟨data, put⟩

section
variable {last place : Nat} {others : List Nat}
  (inside : last < stmt.lParamsToBind)
  (waiting : stmt.resetAndReleaseDataAtExec.pending last = place :: others)
  (behind : ∀ row < stmt.lParamsToBind, last < row →
    stmt.resetAndReleaseDataAtExec.pending row = [])

include waiting in
theorem mem_waiting {other : Nat} : other ∈ place :: others ↔
    stmt.iMultiInsert = 0 ∧ stmt.AtExecAt last other ∧
      ∃ rec, stmt.recs[other]? = some rec ∧ rec.isCharacter = true := by
  rw [← waiting, mem_pending_reset]

include waiting in
theorem ready_of_pending : Ready { stmt.resetAndReleaseDataAtExec with
    pAPDRecDataAtExec := some place, lParamProcessedDataAtExec := last } (place :: others) := by
  have single : stmt.iMultiInsert = 0 := ((mem_waiting waiting).mp (List.mem_cons_self ..)).1
  refine ⟨single, ⟨place, rfl, fun _ => rfl⟩, ?_⟩
  rw [pending] at waiting
  exact (if_pos single).symm.trans waiting

include inside waiting behind in
/-- The remembered row has all that there is to ask for, exactly when the conditions hold. -/
theorem askable_iff :
    stmt.Askable ↔ stmt.resetAndReleaseDataAtExec.pending 0 ≠ [] ∧
      ∀ other, other ∈ place :: others ↔ stmt.AtExec other := by
  have single : stmt.iMultiInsert = 0 := ((mem_waiting waiting).mp (List.mem_cons_self ..)).1
  have atPlace := ((mem_waiting waiting).mp (List.mem_cons_self ..)).2.1
  constructor
  · intro askable
    have pends {row other : Nat} (within : row < stmt.lParamsToBind)
        (atExec : stmt.AtExecAt row other) :
        other ∈ stmt.resetAndReleaseDataAtExec.pending row := by
      obtain ⟨rec, known, -⟩ := id atExec
      exact mem_pending_reset.mpr ⟨single, atExec, rec, known,
        askable.seen other rec ⟨row, within, atExec⟩ known⟩
    obtain ⟨other, atFirst⟩ := askable.first
    obtain ⟨row, within, all, later⟩ := askable.last
    have same : row = last := by
      have member := pends within (all place ⟨last, inside, atPlace⟩)
      rcases Nat.lt_trichotomy row last with less | rfl | more
      · exact absurd atPlace (later last inside less place)
      · rfl
      · rw [behind row within more] at member
        exact absurd member List.not_mem_nil
    subst same
    refine ⟨List.ne_nil_of_mem (pends stmt.positive atFirst), fun other => ?_⟩
    rw [← waiting]
    exact ⟨fun member => ⟨row, within, (mem_pending_reset.mp member).2.1⟩,
      fun atExec => pends within (all other atExec)⟩
  · rintro ⟨first, names⟩
    have seen {other : Nat} (atExec : stmt.AtExec other) :=
      (mem_waiting waiting).mp ((names other).mpr atExec)
    obtain ⟨earliest, member⟩ := List.exists_mem_of_ne_nil _ first
    refine ⟨single, fun other rec atExec known => ?_,
      ⟨earliest, (mem_pending_reset.mp member).2.1⟩, last, inside,
      fun other atExec => (seen atExec).2.1, fun later within after other atExec => ?_⟩
    · obtain ⟨same, known', character⟩ := (seen atExec).2.2
      obtain rfl := Option.some.inj (known.symm.trans known')
      exact character
    · have character := (seen ⟨later, within, atExec⟩).2.2
      have member := mem_pending_reset.mpr ⟨single, atExec, character⟩
      rw [behind later within after] at member
      exact absurd member List.not_mem_nil

end

theorem pieces_of_received {script : Nat → Piece × List Piece} {place : Nat} {data : Data}
    (got : stmt.received place (script place).1 (script place).2 = some data)
    (holds : stmt.fixedAt place = false →
      data.Holds ((script place).1 :: (script place).2)) : stmt.Pieces script place := by
  rw [received, ← fixedAt] at got
  rw [Pieces]
  by_cases fixed : stmt.fixedAt place = true
  · rw [if_pos fixed] at got ⊢
    exact (allocate_isSome_iff _).mp ⟨data, got⟩
  · rw [if_neg fixed] at got ⊢
    exact (putAll_holds_iff _ _).mp ⟨data, got, holds (Bool.not_eq_true _ ▸ fixed)⟩

theorem holds_of_pieces {script : Nat → Piece × List Piece} {place : Nat} {data : Data}
    (got : stmt.received place (script place).1 (script place).2 = some data)
    (pieces : stmt.Pieces script place) (fixed : stmt.fixedAt place = false) :
    data.Holds ((script place).1 :: (script place).2) := by
  have notFixed : ¬ stmt.fixedAt place = true := by
    rw [fixed]
    exact Bool.false_ne_true
  rw [received, ← fixedAt, if_neg notFixed] at got
  rw [Pieces, if_neg notFixed] at pieces
  obtain ⟨other, put, holds⟩ := (putAll_holds_iff _ _).mpr pieces
  obtain rfl := Option.some.inj (got.symm.trans put)
  exact holds

theorem supplies_iff (stmt : Stmt) (script : Nat → Piece × List Piece) :
    stmt.Supplies script ↔ (∀ place, ¬ stmt.AtExec place) ∨
      (stmt.Askable ∧ ∀ place, stmt.AtExec place → stmt.Pieces script place) := by
  have ran := ran stmt.resetAndReleaseDataAtExec stmt.lParamsToBind
  have start : (List.range stmt.lParamsToBind).foldl turn ⟨stmt.resetAndReleaseDataAtExec, false, []⟩
      = stmt.SQLExecute := rfl
  rw [start] at ran
  rw [Supplies]
  simp only [run]
  generalize stmt.SQLExecute = execution at ran
  cases ran with
  | sentAll none =>
      simp only [Bool.false_eq_true, if_false, Option.some.injEq, Prod.mk.injEq]
      constructor
      · rintro ⟨outcome, ⟨rfl, -⟩, -, names, -⟩
        exact .inl fun place atExec => List.not_mem_nil ((names place).mpr atExec)
      · rintro (absent | ⟨askable, -⟩)
        · exact ⟨_, ⟨rfl, trivial⟩, List.nodup_nil,
            fun place => iff_of_false List.not_mem_nil (absent place), rfl,
            fun place atExec => absurd atExec (absent place)⟩
        · obtain ⟨place, atFirst⟩ := askable.first
          obtain ⟨rec, known, -⟩ := id atFirst
          have member := mem_pending_reset.mpr ⟨askable.single, atFirst, rec, known,
            askable.seen place rec ⟨0, stmt.positive, atFirst⟩ known⟩
          rw [none 0 stmt.positive] at member
          exact absurd member List.not_mem_nil
  | @remembered last place others sent inside waiting behind nothing =>
      have atPlace := ((mem_waiting waiting).mp (List.mem_cons_self ..)).2.1
      have asks : ¬ ∀ place, ¬ stmt.AtExec place := fun none => none place ⟨last, inside, atPlace⟩
      have ready := ready_of_pending waiting
      have enough : (place :: others).length < stmt.recs.length + 1 := by
        rw [← ready.waiting, waitingAt]
        have shorter := List.length_filter_le
          (waits { stmt.resetAndReleaseDataAtExec with
            pAPDRecDataAtExec := some place, lParamProcessedDataAtExec := last } last)
          (List.range stmt.recs.length)
        rw [List.length_range] at shorter
        exact Nat.lt_succ_of_le shorter
      simp only [if_true, asks, false_or, askable_iff inside waiting behind, and_assoc]
      by_cases all : ∀ other ∈ place :: others, ∃ data,
          stmt.received other (script other).1 (script other).2 = some data
      · obtain ⟨outcome, run, names, values, more⟩ := ready.converse_some [] enough all
        rw [List.nil_append] at names
        rw [run]
        simp only [Option.map_some, Option.some.injEq, Prod.mk.injEq]
        have valued {other : Nat} {data : Data} (member : other ∈ place :: others)
            (got : stmt.received other (script other).1 (script other).2 = some data) :
            outcome.data other = some data := by
          rw [values, filled, if_pos member]
          exact got
        constructor
        · rintro ⟨_, ⟨rfl, early⟩, -, same, -, holds⟩
          rw [names] at same
          refine ⟨nothing.mp early, same, fun other atExec => ?_⟩
          obtain ⟨data, got⟩ := all other ((same other).mpr atExec)
          refine pieces_of_received got fun fixed => ?_
          obtain ⟨stored, known, whole⟩ := holds other atExec fixed
          rw [valued ((same other).mpr atExec) got, Option.some.injEq] at known
          rw [known]
          exact whole
        · rintro ⟨first, same, pieces⟩
          refine ⟨outcome, ⟨rfl, nothing.mpr first⟩, ?_, by rw [names]; exact same, ?_,
            fun other atExec fixed => ?_⟩
          · rw [names, ← ready.waiting]
            exact waitingAt_nodup _
          · rw [Bool.eq_false_iff, ne_eq, more]
            rintro ⟨row, within, waits⟩
            obtain ⟨other, member⟩ := List.exists_mem_of_ne_nil _ waits
            obtain ⟨rec, known, -, number, atExec, absent⟩ :=
              waits_iff.mp (mem_pending.mp member).2
            have asked := (same other).mpr ⟨row, within, rec, known, number, atExec⟩
            obtain ⟨data, got⟩ := all other asked
            have empty : stmt.received other (script other).1 (script other).2 = none :=
              (if_pos asked).symm.trans absent
            exact absurd (got.symm.trans empty) (Option.some_ne_none _)
          · obtain ⟨data, got⟩ := all other ((same other).mpr atExec)
            exact ⟨data, valued ((same other).mpr atExec) got,
              holds_of_pieces got (pieces other atExec) fixed⟩
      · refine iff_of_false ?_ fun askable => all fun other member =>
          received_of_pieces (askable.2.2 other ((askable.2.1 other).mp member))
        have fault : ∃ other ∈ place :: others,
            stmt.received other (script other).1 (script other).2 = none := by
          by_contra none
          refine all fun other member => Option.ne_none_iff_exists'.mp fun absent => ?_
          exact none ⟨other, member, absent⟩
        rw [ready.converse_none _ fault]
        rintro ⟨outcome, run, -⟩
        simp only [Option.map_none, reduceCtorEq] at run

/-! ## One parameter -/

/-- A statement with one parameter of these types, whose data comes at execution. -/
def one (hType hParamSQLType : Int) : Stmt where
  recs := [⟨1, hType, hParamSQLType, some fun _ => sqlDataAtExec⟩]
  iNoOfParams := 1
  lParamsToBind := 1
  positive := Nat.zero_lt_one
  iMultiInsert := 0
  data := fun _ => none
  pAPDRecDataAtExec := none
  lParamProcessedDataAtExec := 0

/-- The bytes `a`, zero and `b` in one piece. -/
def zeroInside : Piece := .sized (some [97, 0, 98]) 3 (Nat.le_refl 3)

theorem one_atExec (hType hParamSQLType : Int) : (one hType hParamSQLType).AtExec 0 :=
  ⟨0, Nat.zero_lt_one, _, rfl, Nat.le_refl 1, rfl⟩

/-- What follows a zero of the first piece is lost, and a binary parameter is not asked for. -/
theorem supplies_wrong :
    ¬ (one sqlCChar sqlVarchar).Supplies (fun _ => (zeroInside, [])) ∧
      ¬ (one (-2) (-3)).Supplies (fun _ => (zeroInside, [])) := by
  constructor
  · rintro ⟨outcome, run, -, -, -, values⟩
    obtain ⟨data, known, counted, -⟩ := values 0 (one_atExec _ _) rfl
    have stored : ((one sqlCChar sqlVarchar).run fun _ => (zeroInside, [])).map
        (fun result => result.1.data 0) = some (some ⟨some [97, 0, 98, 0], 1⟩) := by
      decide
    rw [run, Option.map_some, Option.some.injEq, known, Option.some.injEq] at stored
    rw [stored] at counted
    exact absurd counted (by decide)
  · rintro ⟨outcome, run, -, names, -⟩
    have asked : ((one (-2) (-3)).run fun _ => (zeroInside, [])).map
        (fun result => result.1.asked) = some [] := by
      decide
    rw [run, Option.map_some, Option.some.injEq] at asked
    have member := (names 0).mpr (one_atExec _ _)
    rw [asked] at member
    exact absurd member List.not_mem_nil

end Stmt

end RedshiftOdbc.DataAtExec
