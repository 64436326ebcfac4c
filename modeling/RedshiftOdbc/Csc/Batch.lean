import RedshiftOdbc.Csc.OffsetFile

/-!
# Batches of a scrollable cursor

A scrollable cursor keeps the rows `m_firstRowNumberInMem` to
`m_lastRowNumberInMem` of a spilled result in memory.  The functions here move
that window over a result that has been fully written, so that nothing waits
for the writer: forward until the memory threshold is reached, backward through
the offset file, or to a given row.
-/

namespace RedshiftOdbc.Csc

open RedshiftOdbc.Words

/-- The reading side of a `ClientSideCursorResult` and the rows of its `PGresult`. -/
structure ClientSideCursorResult where
  file : List UInt8
  offsetFile : List UInt8
  threshold : Int
  cscInputStream : Option InputStream
  cscOffsetInputStream : Option InputStream
  firstReadFromFileOffset : Int
  firstRowNumberInMem : Int
  lastRowNumberInMem : Int
  totalRows : Int
  cols : Int
  inMemoryResultSizeFromFile : Int
  endOfInputStream : Bool
  ioe : Bool
  tuples : List (List Attr)
  deriving DecidableEq

/--
`checkForThresholdLimitReachCsc`: whether the limit is reached, and the size
with the row added.  The part that depends on the columns is an `int`.
-/
def checkForThresholdLimitReachCsc (threshold inMemoryResultSize cols rawRowLength : Int) :
    Bool × Int :=
  if 0 < threshold then
    let inMemoryResultSize := if inMemoryResultSize = 0 then 40 else inMemoryResultSize
    let rowSize := wrap 4 (12 + 4 * cols) + rawRowLength + wrap 4 (12 + 4 * cols)
    let inMemoryResultSize := inMemoryResultSize + 4 + rowSize
    (threshold ≤ inMemoryResultSize, inMemoryResultSize)
  else (false, inMemoryResultSize)

/-- `m_rawRowLengthFromFile` after a row was read. -/
def rawRowLength (tuple : List Attr) : Int :=
  (tuple.map fun attr => if attr.len = -1 then 0 else attr.len).sum

/-- `tuple->len`, which is the length of the first column. -/
def firstLength (tuple : List Attr) : Int := (tuple.head?.map Attr.len).getD 0

namespace ClientSideCursorResult

/-- `readRowCsc` with the members it sets. -/
def readRow (csc : ClientSideCursorResult) : Option (List Attr) × ClientSideCursorResult :=
  match csc.cscInputStream with
  | none => (none, { csc with ioe := false, endOfInputStream := false })
  | some stream =>
      let (read, stream) := readRowCsc stream
      (read.tuple, { csc with
        cscInputStream := some stream
        ioe := read.error
        endOfInputStream := read.eof
        lastRowNumberInMem := csc.lastRowNumberInMem + if read.counted then 1 else 0 })

/-- `readDataFileOffsetCsc` with the members it sets; the file is opened on the first call. -/
def readDataFileOffset (csc : ClientSideCursorResult) (rowNumber : Int) :
    Int × ClientSideCursorResult :=
  let stream := csc.cscOffsetInputStream.getD (.opened csc.offsetFile)
  let (dataOffset, ioe, stream) := readDataFileOffsetCsc stream csc.ioe rowNumber
  (dataOffset, { csc with cscOffsetInputStream := some stream, ioe := ioe })

/-- `seekCscInputStream` on the row file, whose result is `m_ioe`. -/
def seek (csc : ClientSideCursorResult) (offset : Int) : ClientSideCursorResult :=
  match csc.cscInputStream with
  | none => csc
  | some stream =>
      let (rc, stream) := stream.seekCscInputStream offset
      { csc with cscInputStream := some stream, ioe := rc }

/-- `checkAndOpenInputStreamCsc`, whose result is `m_ioe`. -/
def checkAndOpenInputStreamCsc (csc : ClientSideCursorResult) (seekForNext : Bool) :
    ClientSideCursorResult :=
  match csc.cscInputStream with
  | some _ => { csc with ioe := false }
  | none =>
      let csc := { csc with cscInputStream := some (.opened csc.file), ioe := false }
      if 0 < csc.firstReadFromFileOffset then
        let csc := if seekForNext then csc.seek csc.firstReadFromFileOffset else csc
        { csc with firstReadFromFileOffset := 0 }
      else csc

/-- The loop of `readNextBatchOfRowsUntilThresholdCsc` while `left` rows are left to be read. -/
def readUntilThreshold : Nat → ClientSideCursorResult →
    List (List Attr) × ClientSideCursorResult
  | 0, csc => ([], csc)
  | left + 1, csc =>
      if csc.ioe then ([], csc)
      else
        let (tuple, csc) := csc.readRow
        if csc.endOfInputStream || csc.ioe then ([], csc)
        else
          let tuple := tuple.getD []
          let (reachedThreshold, size) := checkForThresholdLimitReachCsc csc.threshold
            csc.inMemoryResultSizeFromFile (firstLength tuple) (rawRowLength tuple)
          let csc := { csc with inMemoryResultSizeFromFile := size }
          if reachedThreshold then ([tuple], csc)
          else
            let (rest, csc) := readUntilThreshold left csc
            (tuple :: rest, csc)

def readNextBatchOfRowsUntilThresholdCsc (csc : ClientSideCursorResult) :
    List (List Attr) × ClientSideCursorResult :=
  if csc.endOfInputStream then ([], csc)
  else
    match csc.cscInputStream with
    | none => ([], { csc with endOfInputStream := true })
    | some _ =>
        readUntilThreshold (csc.totalRows - csc.lastRowNumberInMem).toNat
          { csc with inMemoryResultSizeFromFile := 0 }

/-- The loop of `readNextBatchOfRowsFromOffsetCsc`. -/
def readNumberOfRows : Nat → ClientSideCursorResult → List (List Attr) × ClientSideCursorResult
  | 0, csc => ([], csc)
  | rows + 1, csc =>
      if csc.totalRows ≤ csc.lastRowNumberInMem then ([], csc)
      else if csc.ioe then ([], csc)
      else
        match csc.readRow with
        | (none, csc) => ([], csc)
        | (some tuple, csc) =>
            if csc.endOfInputStream || csc.ioe then ([], csc)
            else
              let (rest, csc) := readNumberOfRows rows csc
              (tuple :: rest, csc)

def readNextBatchOfRowsFromOffsetCsc (csc : ClientSideCursorResult) (startRowOffset : Int)
    (startRowNumber : Int) (rows : Nat) : List (List Attr) × ClientSideCursorResult :=
  if csc.endOfInputStream then ([], csc)
  else
    match csc.cscInputStream with
    | none => ([], { csc with endOfInputStream := true })
    | some _ =>
        readNumberOfRows rows { csc.seek startRowOffset with
          firstRowNumberInMem := startRowNumber
          lastRowNumberInMem := startRowNumber - 1 }

structure Backward where
  rowNumber : Int
  rows : Nat
  startRowOffset : Int
  deriving DecidableEq, Repr

/--
The loop of `readPreviousBatchOfRowsFromRowNumberCsc`, at `rowNumber` with
`rows` rows behind it.  The row number that was one too low is undone.
-/
def readBackward : Nat → Nat → Int → ClientSideCursorResult → Backward × ClientSideCursorResult
  | 0, rows, curRowOffset, csc => (⟨0, rows, curRowOffset⟩, csc)
  | rowNumber + 1, rows, curRowOffset, csc =>
      if rowNumber ≤ 1 then (⟨rowNumber + 1, rows + 1, curRowOffset⟩, csc)
      else
        let nextRowOffset := curRowOffset
        let (curRowOffset, csc) := csc.readDataFileOffset rowNumber
        let (reachThresholdLimit, size) :=
          if curRowOffset ≠ -1 then
            checkForThresholdLimitReachCsc csc.threshold csc.inMemoryResultSizeFromFile csc.cols
              (nextRowOffset - curRowOffset)
          else (false, csc.inMemoryResultSizeFromFile)
        let csc := { csc with inMemoryResultSizeFromFile := size }
        if curRowOffset < 0 || reachThresholdLimit then
          (⟨rowNumber + 1, rows + 1, nextRowOffset⟩, csc)
        else readBackward rowNumber (rows + 1) curRowOffset csc

def readPreviousBatchOfRowsFromRowNumberCsc (csc : ClientSideCursorResult) (rowNumber : Int) :
    List (List Attr) × ClientSideCursorResult :=
  if 0 < rowNumber then
    let (curRowOffset, csc) := csc.readDataFileOffset rowNumber
    if csc.ioe then ([], csc)
    else
      let csc := { csc with inMemoryResultSizeFromFile := 0 }
      let (found, csc) :=
        if 0 ≤ curRowOffset then readBackward rowNumber.toNat 0 curRowOffset csc
        else (⟨rowNumber, 0, curRowOffset⟩, csc)
      if csc.ioe then ([], csc)
      else csc.readNextBatchOfRowsFromOffsetCsc found.startRowOffset found.rowNumber found.rows
  else ([], csc)

def readNextBatchOfRowsCsc (csc : ClientSideCursorResult) :
    List (List Attr) × ClientSideCursorResult :=
  if csc.endOfInputStream then ([], csc)
  else
    let csc := csc.checkAndOpenInputStreamCsc true
    if csc.ioe then ([], csc)
    else if csc.lastRowNumberInMem < csc.totalRows then
      { csc with
        firstRowNumberInMem := csc.lastRowNumberInMem + 1 }.readNextBatchOfRowsUntilThresholdCsc
    else
      let lastRowNumberInMem := csc.lastRowNumberInMem
      let (tuples, csc) := csc.readNextBatchOfRowsUntilThresholdCsc
      if lastRowNumberInMem ≠ 0 ∧ tuples ≠ [] then
        (tuples, { csc with firstRowNumberInMem := lastRowNumberInMem + 1 })
      else (tuples, csc)

def readPreviousBatchOfRowsCsc (csc : ClientSideCursorResult) :
    List (List Attr) × ClientSideCursorResult :=
  if 1 < csc.firstRowNumberInMem then
    csc.readPreviousBatchOfRowsFromRowNumberCsc (csc.firstRowNumberInMem - 1)
  else ([], csc)

def readFirstBatchOfRowsCsc (csc : ClientSideCursorResult) :
    List (List Attr) × ClientSideCursorResult :=
  if 1 < csc.firstRowNumberInMem then
    let csc := csc.checkAndOpenInputStreamCsc false
    if csc.ioe then ([], csc)
    else
      { csc.seek 0 with
        firstRowNumberInMem := 1, lastRowNumberInMem := 0 }.readNextBatchOfRowsUntilThresholdCsc
  else ([], csc)

def readLastBatchOfRowsCsc (csc : ClientSideCursorResult) :
    List (List Attr) × ClientSideCursorResult :=
  if csc.lastRowNumberInMem < csc.totalRows then
    let rowNumber := csc.totalRows
    let csc := csc.checkAndOpenInputStreamCsc false
    if csc.ioe then ([], csc) else csc.readPreviousBatchOfRowsFromRowNumberCsc rowNumber
  else ([], csc)

def absoluteRow (csc : ClientSideCursorResult) (rowNumber : Int) : Int :=
  if rowNumber < 0 then csc.totalRows + rowNumber + 1 else rowNumber

/-- `readAbsoluteBatchOfRowsCsc`, with the value it leaves in `*indexBuf`. -/
def readAbsoluteBatchOfRowsCsc (csc : ClientSideCursorResult) (indexBuf : Int) :
    List (List Attr) × Int × ClientSideCursorResult :=
  let rowNumber := csc.absoluteRow indexBuf
  if 0 < rowNumber ∧ rowNumber ≤ csc.totalRows then
    if rowNumber < csc.firstRowNumberInMem ∨ csc.lastRowNumberInMem < rowNumber then
      let csc := csc.checkAndOpenInputStreamCsc false
      if csc.ioe then ([], rowNumber - csc.firstRowNumberInMem + 1, csc)
      else
        let (rowOffset, csc) := csc.readDataFileOffset rowNumber
        if rowOffset ≠ -1 then
          let csc := { csc.seek rowOffset with
            firstRowNumberInMem := rowNumber, lastRowNumberInMem := rowNumber - 1 }
          if csc.ioe then ([], indexBuf, csc)
          else
            let (tuples, csc) := csc.readNextBatchOfRowsUntilThresholdCsc
            (tuples, rowNumber - csc.firstRowNumberInMem + 1, csc)
        else ([], rowNumber - csc.firstRowNumberInMem + 1, csc)
    else ([], rowNumber - csc.firstRowNumberInMem + 1, csc)
  else ([], indexBuf, csc)

/-- The `pgRead…BatchOfRowsCsc` wrappers: a batch with rows replaces the rows in memory. -/
def install (read : List (List Attr) × ClientSideCursorResult) : ClientSideCursorResult :=
  { read.2 with
    ioe := false
    tuples := if read.1 = [] then read.2.tuples else read.1 }

end ClientSideCursorResult

/-- One call of a `pgRead…BatchOfRowsCsc` function. -/
inductive Move where
  | next
  | previous
  | first
  | last
  | absolute (rowNumber : Int)
  deriving DecidableEq, Repr

namespace ClientSideCursorResult

def move (csc : ClientSideCursorResult) : Move → ClientSideCursorResult
  | .next => install csc.readNextBatchOfRowsCsc
  | .previous => install csc.readPreviousBatchOfRowsCsc
  | .first => install csc.readFirstBatchOfRowsCsc
  | .last => install csc.readLastBatchOfRowsCsc
  | .absolute rowNumber =>
      let (tuples, _, csc) := csc.readAbsoluteBatchOfRowsCsc rowNumber
      install (tuples, csc)

/-- `*indexBuf` after an absolute read. -/
def absoluteIndex (csc : ClientSideCursorResult) (rowNumber : Int) : Int :=
  (csc.readAbsoluteBatchOfRowsCsc rowNumber).2.1

end ClientSideCursorResult

/-! ## The result as it is spilled -/

/--
The rows in memory when the threshold is first reached, which happens before the
row that reaches it is added.  The raw length is that of the row's message.
-/
def rowsUntilThreshold (threshold : Int) : Int → List Row → Option Nat
  | _, [] => none
  | size, row :: rest =>
      let (reached, size) :=
        checkForThresholdLimitReachCsc threshold size 0 (encodeRow row.cols).length
      if reached then some 0 else (rowsUntilThreshold threshold size rest).map (· + 1)

/-- The writer of a scrollable cursor once all rows are written and the files closed. -/
def spilledWriter (rows : List Row) : Writer :=
  (rows.foldl (fun writer row =>
      writer.execAll (writeRowCsc writer.forwardOnly writer.totalRows row.cols))
    (Writer.created false)).execAll closeOutputFileCsc

/--
A scrollable result after `createFileCsc` and everything behind it; `none` when
the threshold is never reached and no file is created.
-/
def spilled (threshold : Int) (result : Result) : Option ClientSideCursorResult :=
  (rowsUntilThreshold threshold 0 result.rows).map fun loaded =>
    let writer := spilledWriter result.rows
    { file := writer.data.visible
      offsetFile := writer.offsets.visible
      threshold := threshold
      cscInputStream := none
      cscOffsetInputStream := none
      firstReadFromFileOffset := rowOffset result.rows loaded
      firstRowNumberInMem := 1
      lastRowNumberInMem := loaded
      totalRows := writer.totalRows
      cols := if loaded = 0 then 0 else ((result.rows.head?.map fun row => row.cols.length).getD 0 : Nat)
      inMemoryResultSizeFromFile := 0
      endOfInputStream := false
      ioe := false
      tuples := (result.rows.take loaded).map Row.tuple }

end RedshiftOdbc.Csc
