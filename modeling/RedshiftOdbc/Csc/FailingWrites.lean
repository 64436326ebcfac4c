import RedshiftOdbc.Csc.RowFile

/-!
# Failing writes of a row

Every write of `writeRowCsc` assigns its own result to `m_ioe`, and so does the thread
that reads.  What becomes of a write, and what the other thread assigns behind it, is
given for each step of the row.  A row that finds the file full is refused without any.
-/

namespace RedshiftOdbc.Csc

/-- What becomes of a step: the bytes that are kept, and what `fflush` and `fsync` do. -/
structure Fate where
  kept : Nat
  flushed : Bool
  synced : Bool
  deriving DecidableEq, Repr

/-- A step of the writer and what the reader assigns to `m_ioe` behind it. -/
structure Turn where
  fate : Fate
  other : Option Bool
  deriving DecidableEq, Repr

/-- The bytes a step hands to `fwrite`. -/
def WriteOp.size : WriteOp → Nat
  | .offset => 8
  | .short _ => 2
  | .int _ => 4
  | .bytes value => value.length
  | _ => 0

/-- Some of the bytes are not written, or a file is not flushed. -/
def WriteOp.failed (forwardOnly : Bool) (op : WriteOp) (fate : Fate) : Bool :=
  match op with
  | .offset | .short _ | .int _ | .bytes _ => fate.kept < op.size
  | .position | .flushOffset => !fate.flushed
  | .flush => forwardOnly && !(fate.flushed && fate.synced)
  | _ => false

/-- What `fwrite` or `fsync` returns is an error: a word is one item, the bytes of a value many. -/
def WriteOp.refused (forwardOnly : Bool) (op : WriteOp) (fate : Fate) : Bool :=
  match op with
  | .offset | .short _ | .int _ => fate.kept < op.size
  | .bytes _ => fate.kept = 0
  | .flush => forwardOnly && !fate.synced
  | _ => false

/-- What a step assigns to `m_ioe`. -/
def WriteOp.result (forwardOnly : Bool) (op : WriteOp) (fate : Fate) : Option Bool :=
  match op with
  | .offset | .short _ | .int _ | .bytes _ | .flush => some (op.refused forwardOnly fate)
  | _ => none

/-- A step of a row with what becomes of it. -/
structure WriteStep where
  op : WriteOp
  turn : Turn
  deriving DecidableEq, Repr

namespace WriteStep

variable (forwardOnly : Bool) (step : WriteStep)

def failed : Bool := step.op.failed forwardOnly step.turn.fate

/-- What `m_ioe` is assigned in a step, last by the reader. -/
def assigned : Option Bool := step.turn.other.or (step.op.result forwardOnly step.turn.fate)

end WriteStep

def ioeAfter (forwardOnly : Bool) (ioe : Bool) (steps : List WriteStep) : Bool :=
  steps.foldl (fun ioe step => (step.assigned forwardOnly).getD ioe) ioe

/-- The file has room for a row. -/
def HasRoom (maxFileSize : Nat) (writer : Writer) : Prop :=
  maxFileSize = 0 ∨ writer.written < maxFileSize

instance (maxFileSize : Nat) (writer : Writer) : Decidable (HasRoom maxFileSize writer) :=
  inferInstanceAs (Decidable (_ ∨ _))

/-- The steps of `writeRowCsc` for a row; none of them is taken when the file is full. -/
def rowSteps (maxFileSize : Nat) (writer : Writer) (cols : List Column) (turns : Nat → Turn) :
    List WriteStep :=
  if HasRoom maxFileSize writer then
    (writeRowCsc writer.forwardOnly writer.totalRows cols).mapIdx fun place op => ⟨op, turns place⟩
  else []

/-- What `writeRowCsc` returns: a full file is an error. -/
def writeRowResult (maxFileSize : Nat) (writer : Writer) (cols : List Column)
    (turns : Nat → Turn) (ioe : Bool) : Bool :=
  if HasRoom maxFileSize writer then
    ioeAfter writer.forwardOnly ioe (rowSteps maxFileSize writer cols turns)
  else true

/-- A row of which something was not written is reported. -/
def RowReported (maxFileSize : Nat) (writer : Writer) (cols : List Column) (turns : Nat → Turn)
    (ioe : Bool) : Prop :=
  (∃ step ∈ rowSteps maxFileSize writer cols turns, step.failed writer.forwardOnly = true) →
    writeRowResult maxFileSize writer cols turns ioe = true

/-! ## The last call of a row -/

/-- The last call of a column: its value, or its length when there is nothing to store. -/
def lastOfColumn (column : Column) : WriteOp :=
  if 0 < Column.len column then .bytes (Column.stored column) else .int (Column.len column)

/--
The last file call of a row whose result is kept: the flush of a full batch, else the last
column, else the column count.
-/
def lastCall (totalRows : Nat) (cols : List Column) : WriteOp :=
  if (totalRows + 1) % batchSizeToProcess = 0 then .flush
  else (cols.getLast?.map lastOfColumn).getD (.short 0)

/-- The place of that call among the steps of the row: one step comes behind it. -/
def lastPlace (forwardOnly : Bool) (totalRows : Nat) (cols : List Column) : Nat :=
  (writeRowCsc forwardOnly totalRows cols).length - 2

/--
The last call of the row is refused, unless the reader assigned something behind it, which
then has to be an error.
-/
def LastRefused (writer : Writer) (cols : List Column) (turns : Nat → Turn) : Prop :=
  let place := lastPlace writer.forwardOnly writer.totalRows cols
  (turns (place + 1)).other.getD ((turns place).other.getD
    ((lastCall writer.totalRows cols).refused writer.forwardOnly (turns place).fate)) = true

instance (writer : Writer) (cols : List Column) (turns : Nat → Turn) :
    Decidable (LastRefused writer cols turns) := inferInstanceAs (Decidable (_ = true))

section
variable {forwardOnly : Bool} {totalRows : Nat}

theorem ioeAfter_append (ioe : Bool) (front behind : List WriteStep) :
    ioeAfter forwardOnly ioe (front ++ behind) =
      ioeAfter forwardOnly (ioeAfter forwardOnly ioe front) behind :=
  List.foldl_append

/-- The steps of a column end in its last call. -/
theorem writeColumn_ends (column : Column) :
    ∃ front, writeColumn column = front ++ [lastOfColumn column] := by
  by_cases stores : 0 < Column.len column
  · exact ⟨[.int (Column.len column)], by simp [writeColumn, lastOfColumn, stores]⟩
  · exact ⟨[], by simp [writeColumn, lastOfColumn, stores]⟩

/-- The count and the columns end in the last column, or in the count. -/
theorem writeColumns_ends (cols : List Column) :
    ∃ front, .short cols.length :: cols.flatMap writeColumn =
      front ++ [(cols.getLast?.map lastOfColumn).getD (.short 0)] := by
  rcases List.eq_nil_or_concat cols with none | ⟨before, column, ends⟩
  · rw [none]
    exact ⟨[], rfl⟩
  · obtain ⟨front, column_ends⟩ := writeColumn_ends column
    refine ⟨.short cols.length :: before.flatMap writeColumn ++ front, ?_⟩
    simp [ends, column_ends]

/-- The last call of a row is followed by one step that is none. -/
theorem writeRowCsc_ends (cols : List Column) :
    ∃ front behind, writeRowCsc forwardOnly totalRows cols =
      front ++ [lastCall totalRows cols, behind] ∧
      ∀ fate, behind.result forwardOnly fate = none := by
  by_cases full : (totalRows + 1) % batchSizeToProcess = 0
  · refine ⟨(if forwardOnly then [] else [.position, .offset, .flushOffset]) ++
      .short cols.length :: cols.flatMap writeColumn ++ [.countRow, .commit], .signal, ?_,
      fun _ => rfl⟩
    simp [writeRowCsc, lastCall, full]
  · obtain ⟨front, columns⟩ := writeColumns_ends cols
    refine ⟨(if forwardOnly then [] else [.position, .offset, .flushOffset]) ++ front,
      .countRow, ?_, fun _ => rfl⟩
    rw [writeRowCsc, if_neg full, columns, lastCall, if_neg full]
    simp

/-- The last call is one whose result is kept. -/
theorem result_lastCall (cols : List Column) (fate : Fate) :
    (lastCall totalRows cols).result forwardOnly fate =
      some ((lastCall totalRows cols).refused forwardOnly fate) := by
  rw [lastCall]
  split
  · rfl
  · cases cols.getLast? with
    | none => rfl
    | some column =>
        rw [Option.map_some, Option.getD_some, lastOfColumn]
        split <;> rfl

/-- A row that finds room leaves in `m_ioe` what came last. -/
theorem writeRowResult_eq {maxFileSize : Nat} {writer : Writer}
    (room : HasRoom maxFileSize writer) (cols : List Column) (turns : Nat → Turn) (ioe : Bool) :
    writeRowResult maxFileSize writer cols turns ioe = true ↔ LastRefused writer cols turns := by
  obtain ⟨front, behind, steps, none⟩ :=
    @writeRowCsc_ends writer.forwardOnly writer.totalRows cols
  have place : lastPlace writer.forwardOnly writer.totalRows cols = front.length := by
    rw [lastPlace, steps, List.length_append]
    rfl
  rw [writeRowResult, if_pos room, rowSteps, if_pos room, steps, List.mapIdx_append,
    ioeAfter_append, LastRefused, place]
  generalize ioeAfter writer.forwardOnly ioe (front.mapIdx _) = before
  have last : ioeAfter writer.forwardOnly before
      ([lastCall writer.totalRows cols, behind].mapIdx
        fun index op => ⟨op, turns (index + front.length)⟩) =
      ((turns (1 + front.length)).other.or (behind.result writer.forwardOnly
        (turns (1 + front.length)).fate)).getD
      (((turns (0 + front.length)).other.or ((lastCall writer.totalRows cols).result
        writer.forwardOnly (turns (0 + front.length)).fate)).getD before) := rfl
  rw [last, none, result_lastCall, Option.or_none, Nat.zero_add, Nat.add_comm 1]
  cases (turns front.length).other <;> rfl

/--
For every row, whatever becomes of its file calls and whatever the reader assigns meanwhile:
a row of which something was not written is reported exactly when no call failed or the last
one is refused.
-/
theorem rowReported_iff (maxFileSize : Nat) (writer : Writer) (cols : List Column)
    (turns : Nat → Turn) (ioe : Bool) :
    RowReported maxFileSize writer cols turns ioe ↔
      ((∀ step ∈ rowSteps maxFileSize writer cols turns,
          step.failed writer.forwardOnly = false) ∨
        LastRefused writer cols turns) := by
  by_cases room : HasRoom maxFileSize writer
  · rw [RowReported, writeRowResult_eq room]
    constructor
    · intro reported
      by_cases failing : ∃ step ∈ rowSteps maxFileSize writer cols turns,
          step.failed writer.forwardOnly = true
      · exact .inr (reported failing)
      · refine .inl fun step inside => ?_
        exact Bool.eq_false_of_not_eq_true fun failed => failing ⟨step, inside, failed⟩
    · rintro (worked | last)
      · rintro ⟨step, inside, failed⟩
        rw [worked step inside] at failed
        cases failed
      · exact fun _ => last
  · have nothing : rowSteps maxFileSize writer cols turns = [] := if_neg room
    have error : writeRowResult maxFileSize writer cols turns ioe = true := if_neg room
    refine iff_of_true (fun _ => error) (.inl ?_)
    rw [nothing]
    exact fun step inside => absurd inside List.not_mem_nil

end

end RedshiftOdbc.Csc
