import RedshiftOdbc.Csc.OffsetFile
import RedshiftOdbc.Library.Machine

/-!
# Committed rows

The thread that reads the socket writes rows while the application reads them.
A system state holds the writer with the rest of its current call and the rows
still to come, and the reader with its place in the row file.  The reader asks
for a row only when `m_totalCommitedRows` or the full-read signal allows it.
-/

namespace RedshiftOdbc.Csc

open RedshiftOdbc.Words RedshiftOdbc.Machine

/-- The writing thread and the reading thread. -/
structure System where
  writer : Writer
  ops : List WriteOp
  rows : List Row
  closed : Bool
  reader : InputStream
  offsetReader : InputStream
  lastRowNumberInMem : Nat
  deriving DecidableEq

/--
One step of either thread.  `call` begins `writeRowCsc` for the next row or,
behind the last one, `closeOutputFileCsc`; `write` takes the next step of that
call; `spill` is the C library emptying a part of its buffer.
-/
inductive Event where
  | call
  | write
  | spill (count : Nat)
  | read
  | first
  | absolute (row : Nat)
  deriving DecidableEq, Repr

namespace System

/-- The first `loaded` rows of a scrollable result are in memory when the reader starts. -/
def start (forwardOnly : Bool) (result : Result) (loaded : Nat) : System :=
  let inMem := if forwardOnly then 0 else min loaded result.rows.length
  { writer := .created forwardOnly
    ops := []
    rows := result.rows
    closed := false
    reader := { InputStream.opened [] with pos := rowOffset result.rows inMem }
    offsetReader := .opened []
    lastRowNumberInMem := inMem }

/-- The row numbers the committed count or the full-read signal makes available. -/
def allows (system : System) (row : Nat) : Bool :=
  row ≤ system.writer.totalCommitedRows ||
    system.writer.fullRead && row ≤ system.writer.totalRows

/-- The reader may go on; only a forward-only cursor runs into the end of the file. -/
def asks (system : System) : Bool :=
  system.allows (system.lastRowNumberInMem + 1) ||
    system.writer.fullRead && system.writer.forwardOnly

def input (system : System) : InputStream :=
  { system.reader with file := system.writer.data.visible }

def offsetInput (system : System) : InputStream :=
  { system.offsetReader with file := system.writer.offsets.visible }

def step (system : System) : Event → Option System
  | .call =>
      match system.ops, system.rows with
      | [], row :: rest =>
          some { system with
            ops := writeRowCsc system.writer.forwardOnly system.writer.totalRows row.cols
            rows := rest }
      | [], [] =>
          if system.closed then none
          else some { system with ops := closeOutputFileCsc, closed := true }
      | _ :: _, _ => none
  | .write =>
      match system.ops with
      | [] => none
      | op :: rest => some { system with writer := system.writer.exec op, ops := rest }
  | .spill count =>
      some { system with
        writer := { system.writer with data := system.writer.data.spill count } }
  | .read =>
      if system.asks then
        let (read, stream) := readRowCsc system.input
        some { system with
          reader := stream
          lastRowNumberInMem := system.lastRowNumberInMem + if read.counted then 1 else 0 }
      else none
  | .first =>
      if system.writer.forwardOnly then none
      else
        let (_, stream) := system.input.seekCscInputStream 0
        some { system with reader := stream, lastRowNumberInMem := 0 }
  | .absolute row =>
      if system.writer.forwardOnly = false ∧ 0 < row ∧ system.allows row then
        let (rowOffset, _, offsets) := readDataFileOffsetCsc system.offsetInput false row
        let (_, stream) := system.input.seekCscInputStream rowOffset
        some { system with
          reader := stream
          offsetReader := offsets
          lastRowNumberInMem := row - 1 }
      else none

end System

/-- Every row numbered at most `m_totalCommitedRows` is completely in the file. -/
def CommittedInFile (result : Result) (system : System) : Prop :=
  encodeRows (result.rows.take system.writer.totalCommitedRows) <+: system.writer.data.visible

/--
A reader that may ask for the next row is given that row, and the end of the
file only behind the last row.
-/
def ReadsRight (result : Result) (system : System) : Prop :=
  system.asks = true →
    (readRowCsc system.input).1 =
      match result.rows[system.lastRowNumberInMem]? with
      | some row => ⟨some row.tuple, false, false⟩
      | none => ⟨none, false, true⟩

/-- A commit is taken while no written byte is still in the stdio buffer. -/
def QuietCommit (system : System) : Event → Prop
  | .write => system.ops.head? = some .commit → system.writer.data.pending = []
  | _ => True

/-- The row number is one whose offset `readDataFileOffsetCsc` finds. -/
def NearRow : Event → Prop
  | .absolute row => row ≤ lookupMax
  | _ => True

instance (system : System) : (event : Event) → Decidable (QuietCommit system event)
  | .write => inferInstanceAs (Decidable (_ → _))
  | .call | .spill _ | .read | .first | .absolute _ => isTrue trivial

instance : (event : Event) → Decidable (NearRow event)
  | .absolute row => inferInstanceAs (Decidable (row ≤ lookupMax))
  | .call | .write | .spill _ | .read | .first => isTrue trivial

/-! ## The writer's steps in their order -/

/--
What stands behind a step of a call: nothing is stored or counted behind a
commit, a row's offset is written and flushed before its bytes, and the
full-read signal is the last step.
-/
def Ordered : List WriteOp → Prop
  | [] => True
  | op :: rest =>
      (op = .commit → rest.flatMap WriteOp.stored = [] ∧ (rest.map WriteOp.counted).sum = 0) ∧
        (op.stored ≠ [] ∨ op = .countRow → .offset ∉ rest ∧ .flushOffset ∉ rest) ∧
        (op = .offset → .offset ∉ rest ∧ .flushOffset ∈ rest) ∧
        (op = .signalFull → rest = []) ∧ Ordered rest

theorem mem_writeColumns {op : WriteOp} {cols : List Column}
    (member : op ∈ cols.flatMap writeColumn) :
    (∃ value, op = .int value) ∨ ∃ value, op = .bytes value := by
  obtain ⟨column, -, inside⟩ := List.mem_flatMap.mp member
  rw [writeColumn, List.mem_cons] at inside
  rcases inside with rfl | inside
  · exact .inl ⟨_, rfl⟩
  · split at inside
    · exact .inr ⟨_, List.mem_singleton.mp inside⟩
    · cases inside

/-- Steps that store a column keep their place before anything without offsets. -/
theorem ordered_columns {ops rest : List WriteOp}
    (columns : ∀ op ∈ ops, (∃ value, op = .int value) ∨ ∃ value, op = .bytes value)
    (offset : .offset ∉ rest) (flushed : .flushOffset ∉ rest) (ordered : Ordered rest) :
    Ordered (ops ++ rest) := by
  induction ops with
  | nil => exact ordered
  | cons op others ih =>
      have tail := ih (fun op member => columns op (List.mem_cons_of_mem _ member))
      have none : ∀ target, target = .offset ∨ target = .flushOffset → target ∉ others ++ rest := by
        intro target kind member
        rcases List.mem_append.mp member with early | late
        · rcases columns target (List.mem_cons_of_mem _ early) with ⟨_, same⟩ | ⟨_, same⟩ <;>
            rcases kind with rfl | rfl <;> cases same
        · rcases kind with rfl | rfl
          · exact offset late
          · exact flushed late
      refine ⟨?_, fun _ => ⟨none _ (.inl rfl), none _ (.inr rfl)⟩, ?_, ?_, tail⟩ <;>
        intro same <;>
        rcases columns op List.mem_cons_self with ⟨_, kind⟩ | ⟨_, kind⟩ <;>
        rw [kind] at same <;> cases same

/-- The last steps of `writeRowCsc`. -/
def rowEnd (totalRows : Nat) : List WriteOp :=
  .countRow :: if (totalRows + 1) % batchSizeToProcess = 0 then [.commit, .flush, .signal] else []

theorem writeRowCsc_eq (forwardOnly : Bool) (totalRows : Nat) (cols : List Column) :
    writeRowCsc forwardOnly totalRows cols =
      (if forwardOnly then [] else [.position, .offset, .flushOffset]) ++
        (.short cols.length :: (cols.flatMap writeColumn ++ rowEnd totalRows)) := by
  simp [writeRowCsc, rowEnd]

theorem mem_rowEnd {op : WriteOp} {totalRows : Nat} (member : op ∈ rowEnd totalRows) :
    op = .countRow ∨ op = .commit ∨ op = .flush ∨ op = .signal := by
  rw [rowEnd, List.mem_cons] at member
  rcases member with rfl | member
  · exact .inl rfl
  · split at member
    · simpa using Or.inr member
    · cases member

theorem not_mem_rowBytes {op : WriteOp} (totalRows : Nat) (cols : List Column)
    (kind : op = .offset ∨ op = .flushOffset ∨ op = .signalFull) :
    op ∉ cols.flatMap writeColumn ++ rowEnd totalRows := by
  intro member
  rcases List.mem_append.mp member with early | late
  · rcases mem_writeColumns early with ⟨_, same⟩ | ⟨_, same⟩ <;>
      rcases kind with rfl | rfl | rfl <;> cases same
  · rcases mem_rowEnd late with same | same | same | same <;>
      rcases kind with rfl | rfl | rfl <;> cases same

theorem ordered_rowEnd (totalRows : Nat) : Ordered (rowEnd totalRows) := by
  rw [rowEnd]
  split <;> simp [Ordered, WriteOp.stored, WriteOp.counted]

theorem ordered_writeRowCsc (forwardOnly : Bool) (totalRows : Nat) (cols : List Column) :
    Ordered (writeRowCsc forwardOnly totalRows cols) := by
  have offset := not_mem_rowBytes totalRows cols (.inl rfl)
  have flushed := not_mem_rowBytes totalRows cols (.inr (.inl rfl))
  have bytes : Ordered (cols.flatMap writeColumn ++ rowEnd totalRows) := by
    refine ordered_columns (fun op => mem_writeColumns) ?_ ?_ (ordered_rowEnd totalRows)
    · exact fun member => offset (List.mem_append_right _ member)
    · exact fun member => flushed (List.mem_append_right _ member)
  have row : Ordered (.short cols.length :: (cols.flatMap writeColumn ++ rowEnd totalRows)) :=
    ⟨by simp, fun _ => ⟨offset, flushed⟩, by simp, by simp, bytes⟩
  rw [writeRowCsc_eq]
  cases forwardOnly with
  | true => exact row
  | false =>
      have noOffset : WriteOp.offset ∉
          WriteOp.short cols.length :: (cols.flatMap writeColumn ++ rowEnd totalRows) := by
        simp only [List.mem_cons, reduceCtorEq, false_or]
        exact offset
      have noFlush : WriteOp.flushOffset ∉
          WriteOp.short cols.length :: (cols.flatMap writeColumn ++ rowEnd totalRows) := by
        simp only [List.mem_cons, reduceCtorEq, false_or]
        exact flushed
      simp only [Bool.false_eq_true, if_false, List.cons_append, List.nil_append]
      refine ⟨by simp, by simp [WriteOp.stored], by simp, by simp, ?_⟩
      refine ⟨by simp, by simp [WriteOp.stored], fun _ => ⟨?_, by simp⟩, by simp, ?_⟩
      · simp only [List.mem_cons, reduceCtorEq, false_or] at noOffset ⊢
        exact noOffset
      · exact ⟨by simp, by simp [WriteOp.stored], by simp, by simp, row⟩

theorem ordered_closeOutputFileCsc : Ordered closeOutputFileCsc := by
  simp [closeOutputFileCsc, Ordered, WriteOp.stored, WriteOp.counted]

theorem offset_mem_writeRowCsc (forwardOnly : Bool) (totalRows : Nat) (cols : List Column) :
    WriteOp.offset ∈ writeRowCsc forwardOnly totalRows cols ↔ forwardOnly = false := by
  have none := not_mem_rowBytes totalRows cols (.inl rfl)
  rw [writeRowCsc_eq]
  cases forwardOnly <;> simp_all

theorem signalFull_not_mem_writeRowCsc (forwardOnly : Bool) (totalRows : Nat)
    (cols : List Column) : WriteOp.signalFull ∉ writeRowCsc forwardOnly totalRows cols := by
  have none := not_mem_rowBytes totalRows cols (.inr (.inr rfl))
  rw [writeRowCsc_eq]
  cases forwardOnly <;> simp_all

namespace Writer

theorem totalCommitedRows_exec (writer : Writer) {op : WriteOp} (other : op ≠ .commit) :
    (writer.exec op).totalCommitedRows = writer.totalCommitedRows := by
  cases op <;> simp [exec, put] at other ⊢
  split <;> rfl

theorem fullRead_exec (writer : Writer) {op : WriteOp} (other : op ≠ .signalFull) :
    (writer.exec op).fullRead = writer.fullRead := by
  cases op <;> simp [exec, put] at other ⊢
  split <;> rfl

theorem offsets_exec (writer : Writer) {op : WriteOp}
    (other : op ≠ .offset ∧ op ≠ .flushOffset ∧ op ≠ .closeOffset) :
    (writer.exec op).offsets = writer.offsets := by
  cases op <;> simp [exec, put] at other ⊢
  split <;> rfl

theorem visible_exec (writer : Writer) (op : WriteOp) :
    writer.data.visible <+: (writer.exec op).data.visible := by
  cases op <;> simp [exec, put, OutputStream.fwrite, OutputStream.fflush]
  split <;> simp

theorem offsets_visible_exec (writer : Writer) (op : WriteOp) :
    writer.offsets.visible <+: (writer.exec op).offsets.visible := by
  cases op <;> simp [exec, put, OutputStream.fwrite, OutputStream.fflush]
  split <;> simp

end Writer

/-! ## What holds in every run -/

namespace System

/-- The rows for which `writeRowCsc` has been called. -/
def begun (system : System) : Nat :=
  system.writer.totalRows + (system.ops.map WriteOp.counted).sum

end System

/-- How the files, the counters and the rest of the current call fit together. -/
structure Shape (result : Result) (system : System) : Prop where
  ordered : Ordered system.ops
  begun_le : system.begun ≤ result.rows.length
  rows_eq : system.rows = result.rows.drop system.begun
  total : system.writer.data.total ++ system.ops.flatMap WriteOp.stored =
    encodeRows (result.rows.take system.begun)
  committed_le : system.writer.totalCommitedRows ≤ system.writer.totalRows
  closing : system.closed = true → system.ops <:+ closeOutputFileCsc ∧ system.rows = []
  running : system.closed = false →
    .signalFull ∉ system.ops ∧ system.writer.fullRead = false
  full : system.writer.fullRead = true → system.ops = []
  offsets : system.writer.forwardOnly = false →
    system.writer.offsets.total ++
        (if .offset ∈ system.ops then little 8 (rowOffset result.rows (system.begun - 1)) else []) =
      encodeOffsets 0 (result.rows.take system.begun)
  offset_place : .offset ∈ system.ops →
    system.writer.data.total = encodeRows (result.rows.take (system.begun - 1))
  offset_flush : .flushOffset ∈ system.ops ∨ system.writer.offsets.pending = []
  offset_visible : system.writer.forwardOnly = false →
    encodeOffsets 0 (result.rows.take system.writer.totalRows) <+:
      system.writer.offsets.visible

theorem shape_start (forwardOnly : Bool) (result : Result) (loaded : Nat) :
    Shape result (.start forwardOnly result loaded) := by
  constructor <;>
    simp [System.start, System.begun, Ordered, Writer.created, OutputStream.created,
      OutputStream.total, encodeRows, encodeOffsets]

theorem encodeOffsets_take_isPrefix (rows : List Row) {fewer more : Nat} (le : fewer ≤ more) :
    encodeOffsets 0 (rows.take fewer) <+: encodeOffsets 0 (rows.take more) := by
  have parts : rows.take more = rows.take fewer ++ (rows.take more).drop fewer := by
    conv_lhs => rw [← List.take_append_drop fewer (rows.take more)]
    rw [List.take_take, Nat.min_eq_left le]
  rw [parts, encodeOffsets_append]
  exact List.prefix_append _ _

/-- Beginning a row. -/
theorem shape_row {result : Result} {system : System} {row : Row} {rest : List Row}
    (shape : Shape result system) (idle : system.ops = []) (next : system.rows = row :: rest) :
    Shape result { system with
      ops := writeRowCsc system.writer.forwardOnly system.writer.totalRows row.cols
      rows := rest } := by
  have before : system.begun = system.writer.totalRows := by simp [System.begun, idle]
  have rows := shape.rows_eq
  rw [before, next] at rows
  have inside : system.writer.totalRows < result.rows.length := by
    by_contra behind
    rw [List.drop_eq_nil_of_le (Nat.le_of_not_lt behind)] at rows
    cases rows
  rw [List.drop_eq_getElem_cons inside] at rows
  obtain ⟨rfl, rfl⟩ := List.cons.inj rows
  have total := shape.total
  rw [before, idle, List.flatMap_nil, List.append_nil] at total
  have after : System.begun { system with
      ops := writeRowCsc system.writer.forwardOnly system.writer.totalRows
        (result.rows[system.writer.totalRows]).cols
      rows := result.rows.drop (system.writer.totalRows + 1) } =
        system.writer.totalRows + 1 := by
    simp [System.begun, counted_writeRowCsc]
  refine ⟨ordered_writeRowCsc _ _ _, ?_, ?_, ?_, shape.committed_le, ?_, ?_, ?_, ?_, ?_, ?_,
    shape.offset_visible⟩
  · rw [after]
    exact inside
  · rw [after]
  · rw [after, ← List.take_append_getElem inside, encodeRows_append, stored_writeRowCsc, total]
    simp [encodeRows]
  · intro closed
    rw [(shape.closing closed).2] at next
    cases next
  · exact fun running => ⟨signalFull_not_mem_writeRowCsc _ _ _, (shape.running running).2⟩
  · intro full
    cases closed : system.closed with
    | false =>
        have unread := (shape.running closed).2
        rw [unread] at full
        cases full
    | true =>
        rw [(shape.closing closed).2] at next
        cases next
  · intro scrollable
    have offsets := shape.offsets scrollable
    rw [before, idle] at offsets
    rw [after, if_pos ((offset_mem_writeRowCsc _ _ _).mpr scrollable),
      encodeOffsets_take_succ inside, Nat.add_sub_cancel]
    simp only [List.not_mem_nil, if_false, List.append_nil] at offsets
    rw [← offsets]
  · intro _
    rw [after, Nat.add_sub_cancel]
    exact total
  · refine .inr ?_
    rcases shape.offset_flush with waiting | flushed
    · rw [idle] at waiting
      cases waiting
    · exact flushed

/-- Beginning to close the files. -/
theorem shape_close {result : Result} {system : System} (shape : Shape result system)
    (idle : system.ops = []) (last : system.rows = []) (open_file : system.closed = false) :
    Shape result { system with ops := closeOutputFileCsc, closed := true } := by
  have before : system.begun = system.writer.totalRows := by simp [System.begun, idle]
  have after : System.begun { system with ops := closeOutputFileCsc, closed := true } =
      system.begun := by
    rw [before]
    rfl
  have flushed : system.writer.offsets.pending = [] := by
    rcases shape.offset_flush with waiting | flushed
    · rw [idle] at waiting
      cases waiting
    · exact flushed
  refine ⟨ordered_closeOutputFileCsc, ?_, ?_, ?_, shape.committed_le, ?_, ?_, ?_, ?_, ?_,
    .inr flushed, shape.offset_visible⟩
  · rw [after]
    exact shape.begun_le
  · rw [after]
    exact shape.rows_eq
  · rw [after, ← shape.total, idle]
    rfl
  · exact fun _ => ⟨List.suffix_refl _, last⟩
  · intro closed
    cases closed
  · intro full
    have unread := (shape.running open_file).2
    rw [unread] at full
    cases full
  · intro scrollable
    rw [after, ← shape.offsets scrollable, idle]
    simp [closeOutputFileCsc]
  · simp [closeOutputFileCsc]

section Write

variable {result : Result} {system : System} {op : WriteOp} {rest : List WriteOp}

theorem begun_write (next : system.ops = op :: rest) :
    System.begun { system with writer := system.writer.exec op, ops := rest } = system.begun := by
  simp only [System.begun, next, Writer.totalRows_exec, List.map_cons, List.sum_cons,
    Nat.add_assoc]

/-- The offsets go on with the one of the row that is being written. -/
theorem offsets_write (shape : Shape result system) (next : system.ops = op :: rest)
    (scrollable : system.writer.forwardOnly = false)
    (last : op = .offset → WriteOp.offset ∉ rest) :
    (system.writer.exec op).offsets.total ++
        (if WriteOp.offset ∈ rest then little 8 (rowOffset result.rows (system.begun - 1)) else []) =
      encodeOffsets 0 (result.rows.take system.begun) := by
  have offsets := shape.offsets scrollable
  rw [← offsets, next]
  by_cases offset : op = .offset
  · have place := shape.offset_place (by simp [next, offset])
    have written : rowOffset result.rows (system.begun - 1) = system.writer.data.total.length := by
      rw [rowOffset, place]
    rw [if_neg (last offset), offset, if_pos List.mem_cons_self, written]
    simp [Writer.exec]
  · have mem : WriteOp.offset ∈ op :: rest ↔ WriteOp.offset ∈ rest := by
      simp [Ne.symm offset]
    simp only [mem]
    congr 1
    by_cases flush : op = .flushOffset ∨ op = .closeOffset
    · rcases flush with rfl | rfl <;> simp [Writer.exec]
    · rw [not_or] at flush
      simp only [Writer.offsets_exec _ ⟨offset, flush.1, flush.2⟩]

/-- Offsets that are not flushed wait for their flush. -/
theorem offset_flush_write (shape : Shape result system) (next : system.ops = op :: rest)
    (flushes : op = .offset → WriteOp.flushOffset ∈ rest) :
    WriteOp.flushOffset ∈ rest ∨ (system.writer.exec op).offsets.pending = [] := by
  by_cases flush : op = .flushOffset ∨ op = .closeOffset
  · refine .inr ?_
    rcases flush with rfl | rfl <;> rfl
  · rw [not_or] at flush
    by_cases offset : op = .offset
    · exact .inl (flushes offset)
    · simp only [Writer.offsets_exec _ ⟨offset, flush.1, flush.2⟩]
      have before := shape.offset_flush
      rw [next, List.mem_cons] at before
      rcases before with (here | later) | flushed
      · exact absurd here.symm flush.1
      · exact .inl later
      · exact .inr flushed

/-- A row's offset was written and flushed before the row is counted. -/
theorem offset_visible_write (shape : Shape result system) (next : system.ops = op :: rest)
    (scrollable : system.writer.forwardOnly = false)
    (counting : op = .countRow → WriteOp.offset ∉ rest ∧ WriteOp.flushOffset ∉ rest) :
    encodeOffsets 0 (result.rows.take (system.writer.exec op).totalRows) <+:
      (system.writer.exec op).offsets.visible := by
  by_cases count : op = .countRow
  · obtain ⟨noOffset, noFlush⟩ := counting count
    have flushed : system.writer.offsets.pending = [] := by
      rcases shape.offset_flush with waiting | flushed
      · rw [next, count] at waiting
        simp only [List.mem_cons, reduceCtorEq, false_or] at waiting
        exact absurd waiting noFlush
      · exact flushed
    have offsets := shape.offsets scrollable
    rw [if_neg (by rw [next, count]; simpa using noOffset), List.append_nil,
      OutputStream.total, flushed, List.append_nil] at offsets
    have le : system.writer.totalRows + 1 ≤ system.begun := by
      simp only [System.begun, next, count, List.map_cons, List.sum_cons, WriteOp.counted]
      omega
    rw [count]
    change encodeOffsets 0 (result.rows.take (system.writer.totalRows + 1)) <+:
      system.writer.offsets.visible
    rw [offsets]
    exact encodeOffsets_take_isPrefix _ le
  · have uncounted : op.counted = 0 := by
      cases op <;> first | rfl | exact absurd rfl count
    simp only [Writer.totalRows_exec, uncounted, Nat.add_zero]
    exact (shape.offset_visible scrollable).trans (Writer.offsets_visible_exec _ _)

/-- Taking the next step of the current call. -/
theorem shape_write (shape : Shape result system) (next : system.ops = op :: rest) :
    Shape result { system with writer := system.writer.exec op, ops := rest } := by
  have ordered := shape.ordered
  rw [next, Ordered] at ordered
  obtain ⟨-, storing, atOffset, atSignal, tail⟩ := ordered
  have same := begun_write next
  refine ⟨tail, ?_, ?_, ?_, ?_, ?_, ?_, ?_, ?_, ?_,
    offset_flush_write shape next fun offset => (atOffset offset).2, ?_⟩
  · rw [same]
    exact shape.begun_le
  · rw [same]
    exact shape.rows_eq
  · have total := shape.total
    rw [next, List.flatMap_cons, ← List.append_assoc] at total
    rw [same, Writer.total_exec]
    exact total
  · by_cases commit : op = .commit
    · rw [commit]
      exact Nat.le_refl _
    · simp only [Writer.totalCommitedRows_exec _ commit, Writer.totalRows_exec]
      exact shape.committed_le.trans (Nat.le_add_right _ _)
  · intro closed
    obtain ⟨suffix, none⟩ := shape.closing closed
    rw [next] at suffix
    exact ⟨(List.suffix_cons op rest).trans suffix, none⟩
  · intro running
    obtain ⟨absent, unread⟩ := shape.running running
    rw [next, List.mem_cons, not_or] at absent
    refine ⟨absent.2, ?_⟩
    simp only [Writer.fullRead_exec _ (Ne.symm absent.1)]
    exact unread
  · intro full
    by_cases signal : op = .signalFull
    · exact atSignal signal
    · simp only [Writer.fullRead_exec _ signal] at full
      have finished := shape.full full
      rw [next] at finished
      cases finished
  · intro scrollable
    simp only [Writer.forwardOnly_exec] at scrollable
    rw [same]
    exact offsets_write shape next scrollable fun offset => (atOffset offset).1
  · intro waiting
    have silent : op.stored = [] := by
      by_contra bytes
      exact (storing (.inl bytes)).1 waiting
    rw [same, ← shape.offset_place (by simp [next, waiting])]
    simp only [Writer.total_exec, silent, List.append_nil]
  · intro scrollable
    simp only [Writer.forwardOnly_exec] at scrollable
    exact offset_visible_write shape next scrollable fun count => storing (.inr count)

end Write

/-- The reader touches nothing of the writer's. -/
theorem shape_reader {result : Result} {system : System} (shape : Shape result system)
    (reader offsetReader : InputStream) (row : Nat) :
    Shape result { system with
      reader := reader, offsetReader := offsetReader, lastRowNumberInMem := row } :=
  ⟨shape.ordered, shape.begun_le, shape.rows_eq, shape.total, shape.committed_le, shape.closing,
    shape.running, shape.full, shape.offsets, shape.offset_place, shape.offset_flush,
    shape.offset_visible⟩

theorem shape_step {result : Result} (system : System) (event : Event) (next : System)
    (shape : Shape result system) (move : system.step event = some next) :
    Shape result next := by
  cases event with
  | call =>
      simp only [System.step] at move
      split at move
      · next idle rows =>
          cases move
          exact shape_row shape idle rows
      · next idle rows =>
          split at move
          · cases move
          · next running =>
              cases move
              exact shape_close shape idle rows (by simpa using running)
      · cases move
  | write =>
      simp only [System.step] at move
      split at move
      · cases move
      · next ops =>
          cases move
          exact shape_write shape ops
  | spill count =>
      cases move
      obtain ⟨ordered, le, rows, total, committed, closing, running, full, offsets, place, flush,
        visible⟩ := shape
      refine ⟨ordered, le, rows, ?_, committed, closing, running, full, offsets, ?_, flush, visible⟩
      · simp only [OutputStream.total_spill]
        exact total
      · simp only [OutputStream.total_spill]
        exact place
  | read =>
      simp only [System.step] at move
      split at move
      · cases move
        exact shape_reader shape _ _ _
      · cases move
  | first =>
      simp only [System.step] at move
      split at move
      · cases move
      · cases move
        exact shape_reader shape _ _ _
  | absolute row =>
      simp only [System.step] at move
      split at move
      · cases move
        exact shape_reader shape _ _ _
      · cases move

/-- A commit announces all bytes written. -/
theorem Shape.at_commit {result : Result} {system : System} {rest : List WriteOp}
    (shape : Shape result system) (ops : system.ops = .commit :: rest) :
    system.writer.data.total = encodeRows (result.rows.take system.writer.totalRows) := by
  have ordered := shape.ordered
  rw [ops, Ordered] at ordered
  obtain ⟨stored, counted⟩ := ordered.1 rfl
  have begun : system.begun = system.writer.totalRows := by
    simp [System.begun, ops, WriteOp.counted, counted]
  have total := shape.total
  rw [begun, ops, List.flatMap_cons, stored, List.append_nil] at total
  simpa [WriteOp.stored] using total

/--
A commit breaks the promise unless the buffer is empty: what is pending then
belongs to rows that have just been announced.
-/
theorem committed_exact {result : Result} (system : System) (event : Event) (next : System)
    (shape : Shape result system) (loud : ¬ QuietCommit system event)
    (move : system.step event = some next) : ¬ CommittedInFile result next := by
  cases event with
  | write =>
      simp only [QuietCommit, Classical.not_imp] at loud
      obtain ⟨head, pending⟩ := loud
      simp only [System.step] at move
      split at move
      · cases move
      · next op rest ops =>
          cases move
          rw [ops] at head
          cases head
          intro inFile
          have whole : system.writer.data.total <+: system.writer.data.visible := by
            rw [shape.at_commit ops]
            exact inFile
          have length := whole.length_le
          rw [OutputStream.total, List.length_append] at length
          exact pending (List.length_eq_zero_iff.mp (by omega))
  | _ => exact absurd trivial loud

/-! ## What holds in runs with quiet commits -/

/-- The reader stands at the start of a row and has met neither end nor error. -/
structure AtRow (result : Result) (system : System) : Prop where
  inside : system.lastRowNumberInMem ≤ result.rows.length
  place : system.reader.pos = rowOffset result.rows system.lastRowNumberInMem
  sound : system.reader.Sound

/-- A forward-only reader has read everything and met the end of the file. -/
structure AtEnd (result : Result) (system : System) : Prop where
  last : system.lastRowNumberInMem = result.rows.length
  feof : system.reader.feof = true
  full : system.writer.fullRead = true
  forwardOnly : system.writer.forwardOnly = true

structure Safe (result : Result) (system : System) : Prop where
  shape : Shape result system
  committed : CommittedInFile result system
  drained : system.closed = true → .close ∈ system.ops ∨ system.writer.data.pending = []
  reader : AtRow result system ∨ AtEnd result system
  calm : system.offsetReader.error = false

/-- With the full-read signal all rows are counted and in the file. -/
theorem Safe.full {result : Result} {system : System} (safe : Safe result system)
    (full : system.writer.fullRead = true) :
    system.writer.totalRows = result.rows.length ∧
      system.writer.data.visible = encodeRows result.rows := by
  have closed : system.closed = true := by
    by_contra running
    have unread := (safe.shape.running (by simpa using running)).2
    rw [unread] at full
    cases full
  have idle := safe.shape.full full
  have begun : system.begun = system.writer.totalRows := by simp [System.begun, idle]
  have none := (safe.shape.closing closed).2
  have rows := safe.shape.rows_eq
  rw [none, begun] at rows
  have all : system.writer.totalRows = result.rows.length := by
    have le := safe.shape.begun_le
    have ge := List.drop_eq_nil_iff.mp rows.symm
    omega
  have pending : system.writer.data.pending = [] := by
    rcases safe.drained closed with waiting | drained
    · rw [idle] at waiting
      cases waiting
    · exact drained
  have total := safe.shape.total
  rw [idle, List.flatMap_nil, List.append_nil, begun, all, List.take_length, OutputStream.total,
    pending, List.append_nil] at total
  exact ⟨all, total⟩

/-- A row that may be asked for is in the file. -/
theorem Safe.allowed {result : Result} {system : System} (safe : Safe result system) {row : Nat}
    (allowed : system.allows row = true) :
    row ≤ system.writer.totalRows ∧ row ≤ result.rows.length ∧
      encodeRows (result.rows.take row) <+: system.writer.data.visible := by
  have counted : system.writer.totalRows ≤ result.rows.length :=
    (Nat.le_add_right _ _).trans safe.shape.begun_le
  simp only [System.allows, Bool.or_eq_true, Bool.and_eq_true, decide_eq_true_eq] at allowed
  rcases allowed with committed | ⟨full, inside⟩
  · have le := committed.trans safe.shape.committed_le
    exact ⟨le, le.trans counted,
      (encodeRows_take_isPrefix result.rows committed).trans safe.committed⟩
  · obtain ⟨-, visible⟩ := safe.full full
    refine ⟨inside, inside.trans counted, ?_⟩
    have prefixes := encodeRows_take_isPrefix result.rows (inside.trans counted)
    rw [List.take_length] at prefixes
    rw [visible]
    exact prefixes

/-- From the start of a row that is in the file the reader sees that row. -/
theorem AtRow.rest {result : Result} {system : System} (atRow : AtRow result system)
    (inside : system.lastRowNumberInMem < result.rows.length)
    (visible : encodeRows (result.rows.take (system.lastRowNumberInMem + 1)) <+:
      system.writer.data.visible) :
    ∃ tail, system.input.rest =
      encodeRow (result.rows[system.lastRowNumberInMem]).cols ++ tail := by
  obtain ⟨tail, whole⟩ := visible
  refine ⟨tail, ?_⟩
  rw [← List.take_append_getElem inside, encodeRows_append, List.append_assoc] at whole
  rw [InputStream.rest, System.input]
  simp only [← whole, atRow.place, rowOffset, List.drop_left]
  simp [encodeRows]

theorem AtRow.input_sound {result : Result} {system : System} (atRow : AtRow result system) :
    system.input.Sound := ⟨atRow.sound.feof, atRow.sound.eof, atRow.sound.error⟩

/-- What a read that is allowed gives, and where it leaves the reader. -/
theorem Safe.read {result : Result} {system : System} (safe : Safe result system)
    (asks : system.asks = true) :
    (∃ inside : system.lastRowNumberInMem < result.rows.length,
        readRowCsc system.input =
          (⟨some (result.rows[system.lastRowNumberInMem]).tuple, false, false⟩,
            { system.input with pos := rowOffset result.rows (system.lastRowNumberInMem + 1) }) ∧
        system.input.Sound) ∨
      (system.lastRowNumberInMem = result.rows.length ∧
        (readRowCsc system.input).1 = ⟨none, false, true⟩ ∧
        (readRowCsc system.input).2.feof = true ∧
        system.writer.fullRead = true ∧ system.writer.forwardOnly = true) := by
  rcases safe.reader with atRow | atEnd
  · by_cases inside : system.lastRowNumberInMem < result.rows.length
    · have visible : encodeRows (result.rows.take (system.lastRowNumberInMem + 1)) <+:
          system.writer.data.visible := by
        rw [System.asks, Bool.or_eq_true, Bool.and_eq_true] at asks
        rcases asks with allowed | ⟨full, -⟩
        · exact (safe.allowed allowed).2.2
        · have prefixes := encodeRows_take_isPrefix result.rows (Nat.succ_le_of_lt inside)
          rw [List.take_length] at prefixes
          rw [(safe.full full).2]
          exact prefixes
      obtain ⟨tail, rest⟩ := atRow.rest inside visible
      refine .inl ⟨inside, ?_, atRow.input_sound⟩
      rw [readRowCsc_written atRow.input_sound rest, rowOffset_succ inside, ← atRow.place]
      rfl
    · have last : system.lastRowNumberInMem = result.rows.length :=
        Nat.le_antisymm atRow.inside (Nat.le_of_not_lt inside)
      rw [System.asks, Bool.or_eq_true, Bool.and_eq_true] at asks
      rcases asks with allowed | ⟨full, forwardOnly⟩
      · have bound := (safe.allowed allowed).2.1
        omega
      · have empty : system.input.rest = [] := by
          rw [InputStream.rest, System.input]
          simp only [(safe.full full).2, atRow.place, last, drop_encodeRows, List.drop_length]
          rfl
        have ended := readRowCsc_atEnd atRow.input_sound (by rw [empty]; decide)
        exact .inr ⟨last, ended.1, ended.2, full, forwardOnly⟩
  · have ended := @readRowCsc_ended system.input atEnd.feof
    exact .inr ⟨atEnd.last, ended.1, ended.2, atEnd.full, atEnd.forwardOnly⟩

theorem Safe.readsRight {result : Result} {system : System} (safe : Safe result system) :
    ReadsRight result system := by
  intro asks
  rcases safe.read asks with ⟨inside, read, -⟩ | ⟨last, read, -⟩
  · rw [read, List.getElem?_eq_getElem inside]
  · rw [read, last, List.getElem?_eq_none (Nat.le_refl _)]

theorem safe_start (forwardOnly : Bool) (result : Result) (loaded : Nat) :
    Safe result (.start forwardOnly result loaded) := by
  refine ⟨shape_start forwardOnly result loaded, ?_, by simp [System.start], .inl ⟨?_, rfl, ?_⟩, rfl⟩
  · simp [CommittedInFile, System.start, Writer.created, encodeRows]
  · simp only [System.start]
    split <;> omega
  · exact ⟨rfl, rfl, rfl⟩

/-- The committed rows stay in the file over every step but a commit with a filled buffer. -/
theorem committed_step {result : Result} {system next : System} {event : Event}
    (shape : Shape result system) (committed : CommittedInFile result system)
    (quiet : QuietCommit system event) (move : system.step event = some next) :
    CommittedInFile result next := by
  cases event with
  | call =>
      simp only [System.step] at move
      split at move
      · cases move
        exact committed
      · split at move <;> cases move
        exact committed
      · cases move
  | write =>
      simp only [System.step] at move
      split at move
      · cases move
      · next op rest ops =>
          cases move
          by_cases commit : op = .commit
          · subst commit
            have total := shape.at_commit ops
            rw [OutputStream.total, quiet (by simp [ops]), List.append_nil] at total
            change encodeRows (result.rows.take system.writer.totalRows) <+:
              system.writer.data.visible
            exact ⟨[], by rw [total, List.append_nil]⟩
          · rw [CommittedInFile]
            simp only [Writer.totalCommitedRows_exec _ commit]
            exact committed.trans (Writer.visible_exec _ _)
  | spill count =>
      cases move
      exact committed.trans (OutputStream.visible_spill _ _)
  | read =>
      simp only [System.step] at move
      split at move <;> cases move
      exact committed
  | first =>
      simp only [System.step] at move
      split at move <;> cases move
      exact committed
  | absolute row =>
      simp only [System.step] at move
      split at move <;> cases move
      exact committed

/-- Nothing comes into an empty buffer by a step that stores nothing. -/
theorem pending_exec {writer : Writer} {op : WriteOp} (empty : writer.data.pending = [])
    (silent : op.stored = []) : (writer.exec op).data.pending = [] := by
  cases op <;>
    simp_all [Writer.exec, Writer.put, OutputStream.fwrite, OutputStream.fflush, WriteOp.stored]
  split <;> simp_all

/-- Once the row file is closed, nothing is left in its buffer. -/
theorem drained_step {result : Result} {system next : System} {event : Event}
    (shape : Shape result system)
    (drained : system.closed = true → .close ∈ system.ops ∨ system.writer.data.pending = [])
    (move : system.step event = some next) :
    next.closed = true → .close ∈ next.ops ∨ next.writer.data.pending = [] := by
  cases event with
  | call =>
      simp only [System.step] at move
      split at move
      · next rows =>
          cases move
          intro closed
          rw [(shape.closing closed).2] at rows
          cases rows
      · split at move <;> cases move
        exact fun _ => .inl (by simp [closeOutputFileCsc])
      · cases move
  | write =>
      simp only [System.step] at move
      split at move
      · cases move
      · next op rest ops =>
          cases move
          intro closed
          have suffix := (shape.closing closed).1
          rw [ops] at suffix
          have member : op ∈ closeOutputFileCsc := suffix.subset List.mem_cons_self
          have silent : op.stored = [] := by
            simp only [closeOutputFileCsc, List.mem_cons, List.not_mem_nil, or_false] at member
            rcases member with rfl | rfl | rfl | rfl <;> rfl
          rcases drained closed with waiting | empty
          · rw [ops, List.mem_cons] at waiting
            rcases waiting with rfl | later
            · exact .inr rfl
            · exact .inl later
          · exact .inr (pending_exec empty silent)
  | spill count =>
      cases move
      intro closed
      rcases drained closed with waiting | empty
      · exact .inl waiting
      · exact .inr (by simp [OutputStream.spill, empty])
  | read =>
      simp only [System.step] at move
      split at move <;> cases move
      exact drained
  | first =>
      simp only [System.step] at move
      split at move <;> cases move
      exact drained
  | absolute row =>
      simp only [System.step] at move
      split at move <;> cases move
      exact drained

/-- The writer's steps leave the reader where it is. -/
theorem reader_of_writer {result : Result} {system next : System} (safe : Safe result system)
    (reader : next.reader = system.reader)
    (row : next.lastRowNumberInMem = system.lastRowNumberInMem)
    (kind : next.writer.forwardOnly = system.writer.forwardOnly)
    (full : system.writer.fullRead = true → next.writer.fullRead = true) :
    AtRow result next ∨ AtEnd result next := by
  rcases safe.reader with atRow | atEnd
  · exact .inl ⟨by rw [row]; exact atRow.inside, by rw [reader, row]; exact atRow.place,
      by rw [reader]; exact atRow.sound⟩
  · exact .inr ⟨by rw [row]; exact atEnd.last, by rw [reader]; exact atEnd.feof,
      full atEnd.full, by rw [kind]; exact atEnd.forwardOnly⟩

/-- Looking up an allowed row of a scrollable cursor puts the reader at its start. -/
theorem Safe.lookup {result : Result} {system : System} (safe : Safe result system) {row : Nat}
    (scrollable : system.writer.forwardOnly = false) (positive : 0 < row)
    (allowed : system.allows row = true) (near : row ≤ lookupMax) :
    ∃ offsets, readDataFileOffsetCsc system.offsetInput false row =
        ((rowOffset result.rows (row - 1) : Int), false, offsets) ∧ offsets.error = false := by
  obtain ⟨counted, inside, -⟩ := safe.allowed allowed
  obtain ⟨count, rfl⟩ : ∃ count, row = count + 1 := ⟨row - 1, by omega⟩
  have file : encodeOffsets 0 (result.rows.take (count + 1)) <+: system.offsetInput.file :=
    (encodeOffsets_take_isPrefix result.rows counted).trans (safe.shape.offset_visible scrollable)
  obtain ⟨offsets, read, calm, -⟩ := @readDataFileOffsetCsc_written system.offsetInput
    _ _ safe.calm inside near file false
  exact ⟨offsets, read, calm⟩

theorem safe_step {result : Result} (system : System) (event : Event) (next : System)
    (safe : Safe result system) (guard : QuietCommit system event ∧ NearRow event)
    (move : system.step event = some next) : Safe result next := by
  have shape := shape_step system event next safe.shape move
  have committed := committed_step safe.shape safe.committed guard.1 move
  have drained := drained_step safe.shape safe.drained move
  suffices reader : (AtRow result next ∨ AtEnd result next) ∧ next.offsetReader.error = false from
    ⟨shape, committed, drained, reader.1, reader.2⟩
  cases event with
  | call =>
      simp only [System.step] at move
      split at move
      · cases move
        exact ⟨reader_of_writer safe rfl rfl rfl id, safe.calm⟩
      · split at move <;> cases move
        exact ⟨reader_of_writer safe rfl rfl rfl id, safe.calm⟩
      · cases move
  | write =>
      simp only [System.step] at move
      split at move
      · cases move
      · next op rest ops =>
          cases move
          refine ⟨reader_of_writer safe rfl rfl (Writer.forwardOnly_exec _ _) ?_, safe.calm⟩
          intro full
          have idle := safe.shape.full full
          rw [ops] at idle
          cases idle
  | spill count =>
      cases move
      exact ⟨reader_of_writer safe rfl rfl rfl id, safe.calm⟩
  | read =>
      simp only [System.step] at move
      split at move
      · next asks =>
          cases move
          refine ⟨?_, safe.calm⟩
          rcases safe.read asks with ⟨inside, read, sound⟩ | ⟨last, read, feof, full, kind⟩
          · rw [read]
            exact .inl ⟨inside, rfl, sound.feof, sound.eof, sound.error⟩
          · exact .inr ⟨by simp [read, RowRead.counted, last], feof, full, kind⟩
      · cases move
  | first =>
      simp only [System.step] at move
      split at move
      · cases move
      · next scrollable =>
          cases move
          refine ⟨.inl ⟨Nat.zero_le _, rfl, ?_⟩, safe.calm⟩
          rcases safe.reader with atRow | atEnd
          · exact ⟨rfl, atRow.sound.eof, atRow.sound.error⟩
          · exact absurd atEnd.forwardOnly scrollable
  | absolute row =>
      simp only [System.step] at move
      split at move
      · next possible =>
          obtain ⟨scrollable, positive, allowed⟩ := possible
          obtain ⟨offsets, read, calm⟩ := safe.lookup scrollable positive allowed guard.2
          rw [read] at move
          cases move
          have inside := (safe.allowed allowed).2.1
          have seek : system.input.seekCscInputStream (rowOffset result.rows (row - 1) : Int) =
              (false, { system.input with pos := rowOffset result.rows (row - 1), feof := false }) := by
            have positive : ¬ (rowOffset result.rows (row - 1) : Int) < 0 := by omega
            simp only [InputStream.seekCscInputStream, positive, if_false, Int.toNat_natCast]
          refine ⟨.inl ⟨?_, ?_, ?_⟩, calm⟩
          · simp only
            omega
          · simp only [seek]
          · rcases safe.reader with atRow | atEnd
            · simp only [seek]
              exact ⟨rfl, atRow.sound.eof, atRow.sound.error⟩
            · have kind := atEnd.forwardOnly
              rw [scrollable] at kind
              cases kind
      · cases move

/--
Along a run the announced rows are in the file exactly when every commit is
taken with an empty buffer; a reader that keeps to what is announced is then
given every row whole, and the end of the file only behind the last row.
-/
theorem committed_rows_in_file (forwardOnly : Bool) (result : Result) (loaded : Nat)
    (events : List Event) :
    ((∀ system ∈ visited System.step (.start forwardOnly result loaded) events,
        CommittedInFile result system) ↔
      Guarded System.step QuietCommit (.start forwardOnly result loaded) events) ∧
    (Guarded System.step (fun system event => QuietCommit system event ∧ NearRow event)
        (.start forwardOnly result loaded) events →
      ∀ system ∈ visited System.step (.start forwardOnly result loaded) events,
        CommittedInFile result system ∧ ReadsRight result system) := by
  refine ⟨⟨?_, ?_⟩, ?_⟩
  · exact guarded_of_visited shape_step committed_exact (shape_start forwardOnly result loaded)
  · intro quiet system member
    have both := visited_safe
      (fun system => Shape result system ∧ CommittedInFile result system)
      (fun system event next safe quiet move =>
        ⟨shape_step system event next safe.1 move, committed_step safe.1 safe.2 quiet move⟩)
      ⟨shape_start forwardOnly result loaded, (safe_start forwardOnly result loaded).committed⟩
      quiet system member
    exact both.2
  · intro guarded system member
    have safe := visited_safe (Safe result) safe_step (safe_start forwardOnly result loaded)
      guarded system member
    exact ⟨safe.committed, safe.readsRight⟩

/-- One row of one column, the letter `A`. -/
def oneRow : Result where
  rows := [⟨[some [65]], by decide, by decide, by simp [intMax]⟩]
  count_le := by decide
  fits := by decide

/-- A row that the buffer gave up before it was announced is read, and then the end of the file. -/
theorem committed_rows_in_file_spilled :
    ∀ system ∈ visited System.step (.start true oneRow 0)
        [.call, .write, .write, .write, .write, .spill 7, .call, .write, .write, .write, .write,
          .read, .read],
      CommittedInFile oneRow system ∧ ReadsRight oneRow system :=
  (committed_rows_in_file true oneRow 0 _).2 (by decide)

/-- The closing commit announces a row that is still in the buffer; the reader finds no row. -/
theorem committed_rows_in_file_wrong :
    ¬ ∀ (forwardOnly : Bool) (result : Result) (loaded : Nat) (events : List Event),
      ∀ system ∈ visited System.step (.start forwardOnly result loaded) events,
        CommittedInFile result system ∧ ReadsRight result system := by
  intro every
  let events : List Event := [.call, .write, .write, .write, .write, .call, .write]
  obtain ⟨last, reached, asks, wrong⟩ :
      ∃ last ∈ visited System.step (.start true oneRow 0) events,
        last.asks = true ∧ (readRowCsc last.input).1 = ⟨none, false, true⟩ ∧
          last.lastRowNumberInMem = 0 := by
    decide
  have right := (every true oneRow 0 events last reached).2 asks
  rw [wrong.1, wrong.2] at right
  cases right

end RedshiftOdbc.Csc
