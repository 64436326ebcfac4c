import RedshiftOdbc.Csc.Stream

/-!
# The row format of the spill file

A row is written as a two-byte column count and, for each column, a four-byte
length followed by the value: length -1 is NULL, length 0 the empty string.
`writeRowCsc` is the list of steps the writer takes, so that the same list can
be run at once or interleaved with a reader.  `readRowCsc` reads one row back.
-/

namespace RedshiftOdbc.Csc

open RedshiftOdbc.Words

def batchSizeToProcess : Nat := 1000

def intMax : Nat := 2147483647

abbrev Column := Option (List UInt8)

/-- One `PGresAttValue` in memory. -/
structure Attr where
  len : Int
  value : Option (List UInt8)
  deriving DecidableEq, Repr

def Column.len : Column → Int
  | none => -1
  | some value => value.length

def Column.stored : Column → List UInt8
  | none => []
  | some value => value

/-- A column as it lies in memory. -/
def Column.attr (column : Column) : Attr := ⟨Column.len column, column⟩

/--
A row of a result.  The count fits the two-byte word and no length reaches the
last `int`, since a row arrives in one message with a four-byte length.
-/
structure Row where
  cols : List Column
  cols_pos : 0 < cols.length
  cols_le : cols.length ≤ 32767
  len_lt : ∀ value, some value ∈ cols → value.length < intMax
  deriving DecidableEq

def Row.tuple (row : Row) : List Attr := row.cols.map Column.attr

/-! ## Writing -/

/-- One step of the writer on its streams and counters. -/
inductive WriteOp where
  | position
  | offset
  | flushOffset
  | short (value : Int)
  | int (value : Int)
  | bytes (value : List UInt8)
  | countRow
  | commit
  | flush
  | signal
  | close
  | closeOffset
  | signalFull
  deriving DecidableEq, Repr

/-- The bytes a step appends to the data file. -/
def WriteOp.stored : WriteOp → List UInt8
  | .short value => little 2 (unsigned 2 value)
  | .int value => little 4 (unsigned 4 value)
  | .bytes value => value
  | _ => []

/-- The rows a step adds to `m_totalRows`. -/
def WriteOp.counted : WriteOp → Nat
  | .countRow => 1
  | _ => 0

/-- The writer's side of a `ClientSideCursorResult`. -/
structure Writer where
  forwardOnly : Bool
  data : OutputStream
  offsets : OutputStream
  written : Nat
  totalRows : Nat
  totalCommitedRows : Nat
  fullRead : Bool
  deriving DecidableEq, Repr

namespace Writer

/-- `createFileCsc` before any row is written. -/
def created (forwardOnly : Bool) : Writer :=
  ⟨forwardOnly, .created, .created, 0, 0, 0, false⟩

/-- `fwrite` to the data file, with the count `incCountCscOutputStream` keeps. -/
def put (writer : Writer) (bytes : List UInt8) : Writer :=
  { writer with data := writer.data.fwrite bytes, written := writer.written + bytes.length }

def exec (writer : Writer) : WriteOp → Writer
  | .position => { writer with data := writer.data.fflush }
  | .offset =>
      { writer with offsets := writer.offsets.fwrite (little 8 writer.data.total.length) }
  | .flushOffset => { writer with offsets := writer.offsets.fflush }
  | .short value => writer.put (WriteOp.short value).stored
  | .int value => writer.put (WriteOp.int value).stored
  | .bytes value => writer.put (WriteOp.bytes value).stored
  | .countRow => { writer with totalRows := writer.totalRows + 1 }
  | .commit => { writer with totalCommitedRows := writer.totalRows }
  | .flush => if writer.forwardOnly then { writer with data := writer.data.fflush } else writer
  | .signal => writer
  | .close => { writer with data := writer.data.fflush }
  | .closeOffset => { writer with offsets := writer.offsets.fflush }
  | .signalFull => { writer with fullRead := true }

def execAll (writer : Writer) (ops : List WriteOp) : Writer := ops.foldl exec writer

end Writer

/-- The length word and, when there is something to store, the value. -/
def writeColumn (column : Column) : List WriteOp :=
  .int (Column.len column) ::
    if 0 < Column.len column then [.bytes (Column.stored column)] else []

/-- `writeRowCsc`: the steps taken for one row when `totalRows` rows precede it. -/
def writeRowCsc (forwardOnly : Bool) (totalRows : Nat) (cols : List Column) : List WriteOp :=
  (if forwardOnly then [] else [.position, .offset, .flushOffset]) ++
    .short cols.length :: cols.flatMap writeColumn ++
    .countRow ::
      if (totalRows + 1) % batchSizeToProcess = 0 then [.commit, .flush, .signal] else []

/-- `closeOutputFileCsc`, then the signal that the full result was read. -/
def closeOutputFileCsc : List WriteOp := [.commit, .close, .closeOffset, .signalFull]

/--
Rows written one after the other.  A file that has reached its size limit
refuses the row, which is the write error `m_ioe`.
-/
def writeRows (maxFileSize : Nat) : Writer → List Row → Option Writer
  | writer, [] => some writer
  | writer, row :: rest =>
      if maxFileSize = 0 ∨ writer.written < maxFileSize then
        writeRows maxFileSize
          (writer.execAll (writeRowCsc writer.forwardOnly writer.totalRows row.cols)) rest
      else none

def encodeColumn (column : Column) : List UInt8 :=
  little 4 (unsigned 4 (Column.len column)) ++ Column.stored column

def encodeRow (cols : List Column) : List UInt8 :=
  little 2 (unsigned 2 cols.length) ++ cols.flatMap encodeColumn

def encodeRows (rows : List Row) : List UInt8 := rows.flatMap fun row => encodeRow row.cols

theorem stored_writeColumn (column : Column) :
    (writeColumn column).flatMap WriteOp.stored = encodeColumn column := by
  cases column with
  | none => simp [writeColumn, Column.len, Column.stored, WriteOp.stored, encodeColumn]
  | some value =>
      cases value with
      | nil => simp [writeColumn, Column.len, Column.stored, WriteOp.stored, encodeColumn]
      | cons byte rest =>
          have positive : 0 < Column.len (some (byte :: rest)) := by
            simp only [Column.len, List.length_cons]
            omega
          simp [writeColumn, positive, Column.stored, WriteOp.stored, encodeColumn]

theorem stored_writeColumns (cols : List Column) :
    (cols.flatMap writeColumn).flatMap WriteOp.stored = cols.flatMap encodeColumn := by
  simp [List.flatMap_assoc, stored_writeColumn]

theorem counted_writeColumns (cols : List Column) :
    ((cols.flatMap writeColumn).map WriteOp.counted).sum = 0 := by
  induction cols with
  | nil => rfl
  | cons column rest ih =>
      have here : ((writeColumn column).map WriteOp.counted).sum = 0 := by
        rw [writeColumn]
        split <;> rfl
      rw [List.flatMap_cons, List.map_append, List.sum_append, here, ih]

/-- The steps for a row store exactly the row. -/
theorem stored_writeRowCsc (forwardOnly : Bool) (totalRows : Nat) (cols : List Column) :
    (writeRowCsc forwardOnly totalRows cols).flatMap WriteOp.stored = encodeRow cols := by
  have start : (if forwardOnly then [] else [WriteOp.position, .offset, .flushOffset]).flatMap
      WriteOp.stored = [] := by
    cases forwardOnly <;> rfl
  have finish : (if (totalRows + 1) % batchSizeToProcess = 0 then
      [WriteOp.commit, .flush, .signal] else []).flatMap WriteOp.stored = [] := by
    split <;> rfl
  simp only [writeRowCsc, List.flatMap_append, List.flatMap_cons, start, finish,
    stored_writeColumns, WriteOp.stored, encodeRow, List.nil_append, List.append_nil]

theorem counted_writeRowCsc (forwardOnly : Bool) (totalRows : Nat) (cols : List Column) :
    ((writeRowCsc forwardOnly totalRows cols).map WriteOp.counted).sum = 1 := by
  have start : ((if forwardOnly then [] else [WriteOp.position, .offset, .flushOffset]).map
      WriteOp.counted).sum = 0 := by
    cases forwardOnly <;> rfl
  have finish : ((if (totalRows + 1) % batchSizeToProcess = 0 then
      [WriteOp.commit, .flush, .signal] else []).map WriteOp.counted).sum = 0 := by
    split <;> rfl
  simp only [writeRowCsc, List.map_append, List.map_cons, List.sum_append, List.sum_cons, start,
    finish, counted_writeColumns, WriteOp.counted]

namespace Writer

theorem total_exec (writer : Writer) (op : WriteOp) :
    (writer.exec op).data.total = writer.data.total ++ op.stored := by
  cases op <;> simp [exec, put, WriteOp.stored]
  split <;> simp

theorem totalRows_exec (writer : Writer) (op : WriteOp) :
    (writer.exec op).totalRows = writer.totalRows + op.counted := by
  cases op <;> simp [exec, put, WriteOp.counted]
  split <;> rfl

theorem forwardOnly_exec (writer : Writer) (op : WriteOp) :
    (writer.exec op).forwardOnly = writer.forwardOnly := by
  cases op <;> simp [exec, put]
  split <;> rfl

theorem total_execAll (writer : Writer) (ops : List WriteOp) :
    (writer.execAll ops).data.total = writer.data.total ++ ops.flatMap WriteOp.stored := by
  induction ops generalizing writer with
  | nil => simp [execAll]
  | cons op rest ih =>
      rw [execAll, List.foldl_cons, ← execAll, ih, total_exec, List.flatMap_cons,
        List.append_assoc]

theorem total_writeRows {maxFileSize : Nat} {writer last : Writer} {rows : List Row}
    (done : writeRows maxFileSize writer rows = some last) :
    last.data.total = writer.data.total ++ encodeRows rows := by
  induction rows generalizing writer with
  | nil =>
      cases Option.some.inj done
      simp [encodeRows]
  | cons row rest ih =>
      rw [writeRows] at done
      split at done
      · have tail := ih done
        rw [total_execAll, stored_writeRowCsc] at tail
        simpa [encodeRows] using tail
      · cases done

end Writer

/-! ## Reading -/

/--
One turn of the column loop of `readRowCsc`.  A value that is shorter than its
length word ends the row, which is `none`; the length word itself is believed
as it is read.
-/
def readColumn (stream : InputStream) : Option Attr × InputStream :=
  let (len, stream) := stream.readIntCscInputStream
  if len = -1 then (some ⟨len, none⟩, stream)
  else if 0 < len then
    let (value, actualRead, stream) := stream.readCscInputStream len.toNat
    if (actualRead : Int) ≠ len then (none, stream) else (some ⟨len, some value⟩, stream)
  else
    -- `rs_calloc` of one byte is the empty string, of a negative size nothing
    (some ⟨len, if len = 0 then some [] else none⟩, stream)

/-- The column loop of `readRowCsc`. -/
def readColumns : Nat → InputStream → Option (List Attr) × InputStream
  | 0, stream => (some [], stream)
  | count + 1, stream =>
      match readColumn stream with
      | (none, stream) => (none, stream)
      | (some attr, stream) =>
          let (rest, stream) := readColumns count stream
          (rest.map (attr :: ·), stream)

/-- What `readRowCsc` hands back. -/
structure RowRead where
  tuple : Option (List Attr)
  error : Bool
  eof : Bool
  deriving DecidableEq, Repr

/-- A row that neither an error nor the end of the file came with is counted. -/
def RowRead.counted (read : RowRead) : Bool := !read.error && !read.eof

/--
`readRowCsc`.  The end of the file is looked for before the row and at the
column count, never again behind the columns.
-/
def readRowCsc (stream : InputStream) : RowRead × InputStream :=
  let (eof, stream) := stream.feofCscInputStream
  if eof then (⟨none, false, true⟩, stream)
  else
    let (noOfCols, stream) := stream.readShortCscInputStreamForNumberOfCols
    if 0 < noOfCols then
      match readColumns noOfCols.toNat stream with
      | (none, stream) => (⟨none, true, false⟩, stream)
      | (some tuple, stream) =>
          let (error, stream) := stream.getIOErrorCsc
          (⟨some tuple, error, false⟩, stream)
    else
      let (eof, stream) := stream.feofCscInputStream
      let (error, stream) := stream.getIOErrorCsc
      (⟨none, error, eof⟩, stream)

/-- How a series of `readRowCsc` calls ended. -/
inductive Outcome where
  | endOfFile
  | ioError
  | more
  deriving DecidableEq, Repr

/-- Up to `calls` calls of `readRowCsc`, ended by the first error or end of file. -/
def readRows : Nat → InputStream → List (List Attr) × Outcome
  | 0, _ => ([], .more)
  | calls + 1, stream =>
      let (read, stream) := readRowCsc stream
      if read.error then ([], .ioError)
      else if read.eof then ([], .endOfFile)
      else
        let (rest, outcome) := readRows calls stream
        (read.tuple.getD [] :: rest, outcome)

theorem readIntCscInputStream_written {stream : InputStream} {value : Int} {tail : List UInt8}
    (sound : stream.Sound) (lower : -(2 ^ 31) ≤ value) (upper : value < 2 ^ 31)
    (shape : stream.rest = little 4 (unsigned 4 value) ++ tail) :
    stream.readIntCscInputStream = (value, { stream with pos := stream.pos + 4 }) := by
  have read := stream.freadCsc_full 4 1 sound.feof shape (by simp) (by decide)
    (by decide)
  have same : signed 4 (ofLittle (little 4 (unsigned 4 value))) = value := by
    rw [ofLittle_little (unsigned_lt 4 value)]
    exact signed_unsigned (by norm_num; omega) (by norm_num; omega)
  simp only [InputStream.readIntCscInputStream, read, same]

/-- A column that is wholly in the file is read back as it was written. -/
theorem readColumn_written {stream : InputStream} {column : Column} {tail : List UInt8}
    (sound : stream.Sound) (fits : ∀ value, column = some value → value.length < intMax)
    (shape : stream.rest = encodeColumn column ++ tail) :
    readColumn stream = (some (Column.attr column),
      { stream with pos := stream.pos + (encodeColumn column).length }) := by
  have range : -(2 ^ 31) ≤ Column.len column ∧ Column.len column < 2 ^ 31 := by
    cases column with
    | none => decide
    | some value =>
        have small := fits value rfl
        rw [intMax] at small
        simp only [Column.len]
        omega
  rw [encodeColumn, List.append_assoc] at shape
  have length := readIntCscInputStream_written sound range.1 range.2 shape
  have behind := InputStream.rest_advance shape (little_length 4 _)
  have still := InputStream.sound_advance sound 4
  cases column with
  | none =>
      simp [readColumn, length, encodeColumn, Column.len, Column.stored, Column.attr]
  | some value =>
      cases value with
      | nil => simp [readColumn, length, encodeColumn, Column.len, Column.stored, Column.attr]
      | cons byte rest =>
          have filled : ¬ Column.len (some (byte :: rest)) = -1 := by
            simp only [Column.len]
            omega
          have positive : 0 < Column.len (some (byte :: rest)) := by
            simp only [Column.len, List.length_cons]
            omega
          have value := InputStream.freadCsc_full _ 1 (byte :: rest).length still.feof behind
            (by simp [Column.stored]) (by decide) (by simp)
          have count : (Column.len (some (byte :: rest))).toNat = (byte :: rest).length := rfl
          simp only [readColumn, length, filled, positive, if_true, if_false, count,
            InputStream.readCscInputStream, value]
          simp [Column.len, Column.stored, Column.attr, encodeColumn, Nat.add_assoc]

theorem readColumns_written {stream : InputStream} {cols : List Column} {tail : List UInt8}
    (sound : stream.Sound) (fits : ∀ value, some value ∈ cols → value.length < intMax)
    (shape : stream.rest = cols.flatMap encodeColumn ++ tail) :
    readColumns cols.length stream = (some (cols.map Column.attr),
      { stream with pos := stream.pos + (cols.flatMap encodeColumn).length }) := by
  induction cols generalizing stream with
  | nil => simp [readColumns]
  | cons column rest ih =>
      rw [List.flatMap_cons, List.append_assoc] at shape
      have head : ∀ value, column = some value → value.length < intMax := by
        intro value same
        exact fits value (by simp [same])
      have tailFits : ∀ value, some value ∈ rest → value.length < intMax := by
        intro value member
        exact fits value (by simp [member])
      have first := readColumn_written sound head shape
      have others := ih (InputStream.sound_advance sound _) tailFits
        (InputStream.rest_advance shape rfl)
      simp [readColumns, first, others, Nat.add_assoc]

theorem readShortCscInputStreamForNumberOfCols_written {stream : InputStream} {count : Nat}
    {tail : List UInt8} (sound : stream.Sound) (fits : count ≤ 32767)
    (shape : stream.rest = little 2 (unsigned 2 (count : Int)) ++ tail) :
    stream.readShortCscInputStreamForNumberOfCols =
      ((count : Int), { stream with pos := stream.pos + 2 }) := by
  have read := stream.freadCsc_full 2 1 sound.feof shape (by simp) (by decide)
    (by decide)
  have same : signed 2 (ofLittle (little 2 (unsigned 2 (count : Int)))) = count := by
    rw [ofLittle_little (unsigned_lt 2 _)]
    exact signed_unsigned (by norm_num; omega) (by norm_num; omega)
  have still := InputStream.sound_advance sound 2
  simp only [InputStream.readShortCscInputStreamForNumberOfCols, read, Nat.mul_one,
    still.feofCscInputStream, same, Bool.false_eq_true, if_false]

/-- A row that is wholly in the file is read back as it was written. -/
theorem readRowCsc_written {stream : InputStream} {row : Row} {tail : List UInt8}
    (sound : stream.Sound) (shape : stream.rest = encodeRow row.cols ++ tail) :
    readRowCsc stream = (⟨some row.tuple, false, false⟩,
      { stream with pos := stream.pos + (encodeRow row.cols).length }) := by
  rw [encodeRow, List.append_assoc] at shape
  have short := readShortCscInputStreamForNumberOfCols_written sound row.cols_le shape
  have still := InputStream.sound_advance sound 2
  have columns := readColumns_written still row.len_lt
    (InputStream.rest_advance shape (little_length 2 _))
  have after := InputStream.sound_advance still (row.cols.flatMap encodeColumn).length
  have positive : 0 < (row.cols.length : Int) := by exact_mod_cast row.cols_pos
  simp only [readRowCsc, sound.feofCscInputStream, short, positive, Int.toNat_natCast, columns,
    after.getIOErrorCsc, Bool.false_eq_true, if_false, if_true]
  simp [Row.tuple, encodeRow, Nat.add_assoc]

/-- Once the end of the file was met, `readRowCsc` reports just that. -/
theorem readRowCsc_ended {stream : InputStream} (ended : stream.feof = true) :
    (readRowCsc stream).1 = ⟨none, false, true⟩ ∧ (readRowCsc stream).2.feof = true := by
  simp [readRowCsc, InputStream.feofCscInputStream, ended]

/-- A file that ends before or inside a column count holds no further row. -/
theorem readRowCsc_atEnd {stream : InputStream} (sound : stream.Sound)
    (short : stream.rest.length < 2) :
    (readRowCsc stream).1 = ⟨none, false, true⟩ ∧ (readRowCsc stream).2.feof = true := by
  have count := InputStream.freadCsc_short sound short
  simp only [readRowCsc, sound.feofCscInputStream, Bool.false_eq_true, if_false,
    InputStream.readShortCscInputStreamForNumberOfCols, count]
  simp [InputStream.feofCscInputStream, InputStream.getIOErrorCsc, sound.error]

end RedshiftOdbc.Csc
