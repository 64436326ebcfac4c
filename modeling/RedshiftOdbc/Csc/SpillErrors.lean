import RedshiftOdbc.Csc.FailingReads
import RedshiftOdbc.Csc.FailingWrites

/-!
# Errors of a spilled result

Each write, seek and read assigns its own result to the one `m_ioe` of a cursor.  Here it
is put together which errors come out of a row that is written, of a later pass and of a
batch.
-/

namespace RedshiftOdbc.Csc

open RedshiftOdbc.Words

/-- A batch in which an access fails reports an error. -/
def BatchReported (csc : ClientSideCursorResult) (fates : List ReadFate) (move : Move) : Prop :=
  (∃ access ∈ (Run.batch ⟨csc, fates, []⟩ move).2.disk.log, access.failed = true) →
    (Run.batch ⟨csc, fates, []⟩ move).2.csc.ioe = true

/--
For every row and whatever becomes of its file calls, what `writeRowCsc` returns is an error
when a call failed, exactly when the last call of the row is refused (or the reader assigned
an error behind it).  For every state the writes leave, a pass reports an error exactly where
the file itself does.  A lookup of an offset reports what fails in it unless its seek fails
and its read does not.  A batch in which no seek of its lookups is lost so reports every
access that fails, and one that loses a seek has dropped it.
-/
theorem spillErrors_iff (csc : ClientSideCursorResult) :
    (∀ (maxFileSize : Nat) (writer : Writer) (cols : List Column) (turns : Nat → Turn)
      (ioe : Bool),
      RowReported maxFileSize writer cols turns ioe ↔
      ((∀ step ∈ rowSteps maxFileSize writer cols turns,
          step.failed writer.forwardOnly = false) ∨
        LastRefused writer cols turns)) ∧
    (∀ (rows : List Row) (more : Nat),
      ClientSideCursorResult.PassReports rows (csc.readAhead (csc.left + 1 + more)) ↔
        if csc.endOfInputStream then csc.ioe = true
        else FileReports rows csc.left csc.nextStream) ∧
    (∀ (disk : Disk) (stream : InputStream) (ioe : Bool) (rowNumber : Int), 0 < rowNumber →
      (LookupReported disk stream ioe rowNumber ↔
        (SeekLost stream.feof disk.fates rowNumber → stream.error = true))) ∧
    (∀ (fates : List ReadFate) (move : Move),
      (SeeksKept csc fates move → BatchReported csc fates move) ∧
      (¬SeeksKept csc fates move → (Run.batch ⟨csc, fates, []⟩ move).2.Dropped)) := by
  refine ⟨fun maxFileSize writer cols turns ioe => rowReported_iff maxFileSize writer cols turns
      ioe, fun rows more => csc.readAhead_reports_iff rows more,
    fun disk stream ioe rowNumber valid => lookupReported_iff disk stream ioe valid, ?_⟩
  refine fun fates move => ⟨fun kept => ?_, Run.batch_drops⟩
  rintro ⟨access, among, failed⟩
  obtain ⟨made, log, told⟩ := Run.batch_told kept
  rw [log, List.nil_append] at among
  exact told access among failed

/-- Two rows of one empty string, none of which is in memory. -/
def emptyRows : ClientSideCursorResult where
  file := [1, 0, 0, 0, 0, 0, 1, 0, 0, 0, 0, 0]
  offsetFile := little 8 0 ++ little 8 6
  threshold := 0
  cscInputStream := none
  cscOffsetInputStream := none
  firstReadFromFileOffset := 0
  firstRowNumberInMem := 1
  lastRowNumberInMem := 0
  totalRows := 2
  cols := 1
  inMemoryResultSizeFromFile := 0
  endOfInputStream := false
  ioe := false
  tuples := []

def emptyRow : Row := ⟨[some []], by decide, by decide, by simp [intMax]⟩

/-- One call of a row is lost, and the others are written. -/
def lostAt (lost place : Nat) : Turn := ⟨⟨if place = lost then 0 else 8, true, true⟩, none⟩

/--
A refused length word and an offset that is not read are reported, and a seek that fails in
front of a working read is dropped.
-/
theorem spillErrors_reported :
    RowReported 0 (.created false) emptyRow.cols (lostAt 4) false ∧
      LookupReported ⟨[.works, .fails 3], []⟩ (.opened emptyRows.offsetFile) false 1 ∧
      BatchReported emptyRows [.works, .fails 3] .last ∧
      (Run.batch ⟨emptyRows, [.fails 0], []⟩ .last).2.Dropped := by
  obtain ⟨rows, -, lookups, batches⟩ := spillErrors_iff emptyRows
  refine ⟨(rows 0 (.created false) emptyRow.cols (lostAt 4) false).mpr (.inr (by decide)),
    (lookups ⟨[.works, .fails 3], []⟩ (.opened emptyRows.offsetFile) false 1 (by decide)).mpr
      fun lost => absurd lost (by decide),
    (batches [.works, .fails 3] .last).1 (by decide), (batches [.fails 0] .last).2 (by decide)⟩

/-- What is left in the file of the row without its count. -/
def withoutCount : ClientSideCursorResult where
  file := [0, 0, 0, 0]
  offsetFile := little 8 0
  threshold := 0
  cscInputStream := none
  cscOffsetInputStream := none
  firstReadFromFileOffset := 0
  firstRowNumberInMem := 1
  lastRowNumberInMem := 0
  totalRows := 1
  cols := 1
  inMemoryResultSizeFromFile := 0
  endOfInputStream := false
  ioe := true
  tuples := []

/-- The lost count is not returned, and a pass comes to its normal end behind another row. -/
theorem spillErrors_wrong :
    ¬RowReported 0 (.created false) emptyRow.cols (lostAt 3) false ∧
      withoutCount.readAhead 2 = ([[]], false) ∧
      ¬ClientSideCursorResult.PassReports [emptyRow] (withoutCount.readAhead 2) := by
  refine ⟨fun reported => ?_, by decide, fun reports => ?_⟩
  · have lost : writeRowResult 0 (.created false) emptyRow.cols (lostAt 3) false = false := by
      decide
    have failing : ∃ step ∈ rowSteps 0 (.created false) emptyRow.cols (lostAt 3),
        step.failed false = true :=
      ⟨⟨.short 1, lostAt 3 3⟩, by decide, by decide⟩
    rw [reported failing] at lost
    cases lost
  · have silent : (withoutCount.readAhead 2).2 = false := by decide
    rw [reports.2] at silent
    cases silent

end RedshiftOdbc.Csc
