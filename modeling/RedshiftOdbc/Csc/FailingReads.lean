import RedshiftOdbc.Csc.BrokenFile

/-!
# Failing seeks and reads

The batches of a scrollable cursor over a disk whose seeks and reads can fail.  Every
function is that of a working disk with what becomes of its accesses, which are written
down as they are made.
-/

namespace RedshiftOdbc.Csc

open RedshiftOdbc.Words

/-- What becomes of a seek or a read; a failed read has moved some bytes. -/
inductive ReadFate where
  | works
  | fails (kept : Nat)
  deriving DecidableEq, Repr

/-- The accesses of a batch: a lookup of an offset is a seek and a read. -/
inductive Access where
  | lookup (seekFailed readFailed : Bool)
  | seek (failed : Bool)
  | read (failed : Bool)
  deriving DecidableEq, Repr

namespace Access

def failed : Access → Bool
  | lookup seekFailed readFailed => seekFailed || readFailed
  | seek failed => failed
  | read failed => failed

end Access

/-- What becomes of the accesses to come, and those that were made; the others work. -/
structure Disk where
  fates : List ReadFate
  log : List Access
  deriving DecidableEq, Repr

namespace Disk

def next (disk : Disk) : ReadFate × Disk :=
  (disk.fates.headD .works, { disk with fates := disk.fates.tail })

def note (disk : Disk) (access : Access) : Disk := { disk with log := disk.log ++ [access] }

/-- `freadCsc`, and whether the read failed; behind the end of the file nothing is read. -/
def freadCsc (disk : Disk) (stream : InputStream) (size count : Nat) :
    (List UInt8 × Nat × InputStream) × Bool × Disk :=
  if stream.feof then (stream.freadCsc size count, false, disk)
  else
    match disk.next with
    | (.works, disk) => (stream.freadCsc size count, false, disk)
    | (.fails kept, disk) =>
        let moved := (stream.file.drop stream.pos).take (min kept (size * count - 1))
        let rc := moved.length / size
        let next := { stream with pos := stream.pos + moved.length }
        ((moved, rc, if rc = 0 then { next with error := true } else next), true, disk)

def read (disk : Disk) (stream : InputStream) (size count : Nat) :
    (List UInt8 × Nat × InputStream) × Disk :=
  let (result, failed, disk) := disk.freadCsc stream size count
  (result, disk.note (.read failed))

/-- `readIntCscInputStream`. -/
def readInt (disk : Disk) (stream : InputStream) : Int × InputStream × Disk :=
  let ((moved, _, next), disk) := disk.read stream 4 1
  (signed 4 (ofLittle moved), next, disk)

/-- `readShortCscInputStreamForNumberOfCols`. -/
def readShortForNumberOfCols (disk : Disk) (stream : InputStream) : Int × InputStream × Disk :=
  let ((moved, _, next), disk) := disk.read stream 2 1
  let (eof, next) := next.feofCscInputStream
  (if eof then 0 else signed 2 (ofLittle moved), next, disk)

/-- One turn of the column loop of `readRowCsc`. -/
def readColumn (disk : Disk) (stream : InputStream) : Option Attr × InputStream × Disk :=
  let (len, stream, disk) := disk.readInt stream
  if len = -1 then (some ⟨len, none⟩, stream, disk)
  else if 0 < len then
    let ((value, actualRead, stream), disk) := disk.read stream 1 len.toNat
    if (actualRead : Int) ≠ len then (none, stream, disk)
    else (some ⟨len, some value⟩, stream, disk)
  else (some ⟨len, if len = 0 then some [] else none⟩, stream, disk)

/-- The column loop of `readRowCsc`. -/
def readColumns : Nat → Disk → InputStream → Option (List Attr) × InputStream × Disk
  | 0, disk, stream => (some [], stream, disk)
  | count + 1, disk, stream =>
      match disk.readColumn stream with
      | (none, stream, disk) => (none, stream, disk)
      | (some attr, stream, disk) =>
          let (rest, stream, disk) := readColumns count disk stream
          (rest.map (attr :: ·), stream, disk)

def readRowCsc (disk : Disk) (stream : InputStream) : RowRead × InputStream × Disk :=
  let (eof, stream) := stream.feofCscInputStream
  if eof then (⟨none, false, true⟩, stream, disk)
  else
    let (noOfCols, stream, disk) := disk.readShortForNumberOfCols stream
    if 0 < noOfCols then
      match readColumns noOfCols.toNat disk stream with
      | (none, stream, disk) => (⟨none, true, false⟩, stream, disk)
      | (some tuple, stream, disk) =>
          let (error, stream) := stream.getIOErrorCsc
          (⟨some tuple, error, false⟩, stream, disk)
    else
      let (eof, stream) := stream.feofCscInputStream
      let (error, stream) := stream.getIOErrorCsc
      (⟨none, error, eof⟩, stream, disk)

/-- `seekCscInputStream`; a failed seek stays where it is. -/
def seekCscInputStream (disk : Disk) (stream : InputStream) (offset : Int) :
    Bool × InputStream × Disk :=
  match disk.next with
  | (.works, disk) =>
      let (rc, stream) := stream.seekCscInputStream offset
      (rc, stream, disk)
  | (.fails _, disk) => (true, stream, disk)

def readDataFileOffsetCsc (disk : Disk) (stream : InputStream) (ioe : Bool) (rowNumber : Int) :
    Int × Bool × InputStream × Disk :=
  if 0 < rowNumber then
    let offset := wrap 4 ((rowNumber - 1) * 8)
    -- the result of the seek is overwritten by that of the read
    let (seekFailed, stream, disk) := disk.seekCscInputStream stream offset
    let ((moved, _, stream), readFailed, disk) := disk.freadCsc stream 8 1
    let (ioe, stream) := stream.getIOErrorCsc
    (if ioe then -1 else signed 8 (ofLittle moved), ioe, stream,
      disk.note (.lookup seekFailed readFailed))
  else (-1, ioe, stream, disk)

end Disk

/-! ## Batches -/

/-- A cursor and the disk that its files are on. -/
structure Run where
  csc : ClientSideCursorResult
  disk : Disk
  deriving DecidableEq

abbrev Tuples := List (List Attr)

namespace Run

/-- `readRowCsc` with the members it sets. -/
def readRow (run : Run) : Option (List Attr) × Run :=
  match run.csc.cscInputStream with
  | none => (none, { run with csc := { run.csc with ioe := false, endOfInputStream := false } })
  | some stream =>
      let (read, stream, disk) := run.disk.readRowCsc stream
      (read.tuple, ⟨{ run.csc with
        cscInputStream := some stream
        ioe := read.error
        endOfInputStream := read.eof
        lastRowNumberInMem := run.csc.lastRowNumberInMem + if read.counted then 1 else 0 }, disk⟩)

/-- `readDataFileOffsetCsc` with the members it sets. -/
def readDataFileOffset (run : Run) (rowNumber : Int) : Int × Run :=
  let stream := run.csc.cscOffsetInputStream.getD (.opened run.csc.offsetFile)
  let (dataOffset, ioe, stream, disk) :=
    run.disk.readDataFileOffsetCsc stream run.csc.ioe rowNumber
  (dataOffset, ⟨{ run.csc with cscOffsetInputStream := some stream, ioe := ioe }, disk⟩)

/-- `seekCscInputStream` on the row file, whose result is `m_ioe`. -/
def seek (run : Run) (offset : Int) : Run :=
  match run.csc.cscInputStream with
  | none => run
  | some stream =>
      let (rc, stream, disk) := run.disk.seekCscInputStream stream offset
      ⟨{ run.csc with cscInputStream := some stream, ioe := rc }, disk.note (.seek rc)⟩

/-- `checkAndOpenInputStreamCsc`, whose result is `m_ioe`. -/
def checkAndOpenInputStreamCsc (run : Run) (seekForNext : Bool) : Run :=
  match run.csc.cscInputStream with
  | some _ => { run with csc := { run.csc with ioe := false } }
  | none =>
      let run := { run with csc := { run.csc with
        cscInputStream := some (.opened run.csc.file), ioe := false } }
      if 0 < run.csc.firstReadFromFileOffset then
        let run := if seekForNext then run.seek run.csc.firstReadFromFileOffset else run
        { run with csc := { run.csc with firstReadFromFileOffset := 0 } }
      else run

/-- The loop of `readNextBatchOfRowsUntilThresholdCsc`. -/
def readUntilThreshold : Nat → Run → Tuples × Run
  | 0, run => ([], run)
  | left + 1, run =>
      if run.csc.ioe then ([], run)
      else
        let (tuple, run) := run.readRow
        if run.csc.endOfInputStream || run.csc.ioe then ([], run)
        else
          let tuple := tuple.getD []
          let (reachedThreshold, size) := checkForThresholdLimitReachCsc run.csc.threshold
            run.csc.inMemoryResultSizeFromFile (firstLength tuple) (rawRowLength tuple)
          let run := { run with csc := { run.csc with inMemoryResultSizeFromFile := size } }
          if reachedThreshold then ([tuple], run)
          else
            let (rest, run) := readUntilThreshold left run
            (tuple :: rest, run)

def readNextBatchOfRowsUntilThresholdCsc (run : Run) : Tuples × Run :=
  if run.csc.endOfInputStream then ([], run)
  else
    match run.csc.cscInputStream with
    | none => ([], { run with csc := { run.csc with endOfInputStream := true } })
    | some _ =>
        readUntilThreshold (run.csc.totalRows - run.csc.lastRowNumberInMem).toNat
          { run with csc := { run.csc with inMemoryResultSizeFromFile := 0 } }

/-- The loop of `readNextBatchOfRowsFromOffsetCsc`. -/
def readNumberOfRows : Nat → Run → Tuples × Run
  | 0, run => ([], run)
  | rows + 1, run =>
      if run.csc.totalRows ≤ run.csc.lastRowNumberInMem then ([], run)
      else if run.csc.ioe then ([], run)
      else
        match run.readRow with
        | (none, run) => ([], run)
        | (some tuple, run) =>
            if run.csc.endOfInputStream || run.csc.ioe then ([], run)
            else
              let (rest, run) := readNumberOfRows rows run
              (tuple :: rest, run)

/-- The row numbers of the rows in memory. -/
def place (run : Run) (firstRowNumberInMem lastRowNumberInMem : Int) : Run :=
  { run with csc := { run.csc with
    firstRowNumberInMem := firstRowNumberInMem, lastRowNumberInMem := lastRowNumberInMem } }

def readNextBatchOfRowsFromOffsetCsc (run : Run) (startRowOffset startRowNumber : Int)
    (rows : Nat) : Tuples × Run :=
  if run.csc.endOfInputStream then ([], run)
  else
    match run.csc.cscInputStream with
    | none => ([], { run with csc := { run.csc with endOfInputStream := true } })
    | some _ =>
        readNumberOfRows rows
          ((run.seek startRowOffset).place startRowNumber (startRowNumber - 1))

/-- The loop of `readPreviousBatchOfRowsFromRowNumberCsc`. -/
def readBackward : Nat → Nat → Int → Run → ClientSideCursorResult.Backward × Run
  | 0, rows, curRowOffset, run => (⟨0, rows, curRowOffset⟩, run)
  | rowNumber + 1, rows, curRowOffset, run =>
      if rowNumber ≤ 1 then (⟨rowNumber + 1, rows + 1, curRowOffset⟩, run)
      else
        let nextRowOffset := curRowOffset
        let (curRowOffset, run) := run.readDataFileOffset rowNumber
        let (reachThresholdLimit, size) :=
          if curRowOffset ≠ -1 then
            checkForThresholdLimitReachCsc run.csc.threshold run.csc.inMemoryResultSizeFromFile
              run.csc.cols (nextRowOffset - curRowOffset)
          else (false, run.csc.inMemoryResultSizeFromFile)
        let run := { run with csc := { run.csc with inMemoryResultSizeFromFile := size } }
        if curRowOffset < 0 || reachThresholdLimit then
          (⟨rowNumber + 1, rows + 1, nextRowOffset⟩, run)
        else readBackward rowNumber (rows + 1) curRowOffset run

def readPreviousBatchOfRowsFromRowNumberCsc (run : Run) (rowNumber : Int) : Tuples × Run :=
  if 0 < rowNumber then
    let (curRowOffset, run) := run.readDataFileOffset rowNumber
    if run.csc.ioe then ([], run)
    else
      let run := { run with csc := { run.csc with inMemoryResultSizeFromFile := 0 } }
      let (found, run) :=
        if 0 ≤ curRowOffset then readBackward rowNumber.toNat 0 curRowOffset run
        else (⟨rowNumber, 0, curRowOffset⟩, run)
      if run.csc.ioe then ([], run)
      else run.readNextBatchOfRowsFromOffsetCsc found.startRowOffset found.rowNumber found.rows
  else ([], run)

def readNextBatchOfRowsCsc (run : Run) : Tuples × Run :=
  if run.csc.endOfInputStream then ([], run)
  else
    let run := run.checkAndOpenInputStreamCsc true
    if run.csc.ioe then ([], run)
    else if run.csc.lastRowNumberInMem < run.csc.totalRows then
      (run.place (run.csc.lastRowNumberInMem + 1)
        run.csc.lastRowNumberInMem).readNextBatchOfRowsUntilThresholdCsc
    else
      let lastRowNumberInMem := run.csc.lastRowNumberInMem
      let (tuples, run) := run.readNextBatchOfRowsUntilThresholdCsc
      if lastRowNumberInMem ≠ 0 ∧ tuples ≠ [] then
        (tuples, run.place (lastRowNumberInMem + 1) run.csc.lastRowNumberInMem)
      else (tuples, run)

def readPreviousBatchOfRowsCsc (run : Run) : Tuples × Run :=
  if 1 < run.csc.firstRowNumberInMem then
    run.readPreviousBatchOfRowsFromRowNumberCsc (run.csc.firstRowNumberInMem - 1)
  else ([], run)

def readFirstBatchOfRowsCsc (run : Run) : Tuples × Run :=
  if 1 < run.csc.firstRowNumberInMem then
    let run := run.checkAndOpenInputStreamCsc false
    if run.csc.ioe then ([], run)
    else ((run.seek 0).place 1 0).readNextBatchOfRowsUntilThresholdCsc
  else ([], run)

def readLastBatchOfRowsCsc (run : Run) : Tuples × Run :=
  if run.csc.lastRowNumberInMem < run.csc.totalRows then
    let rowNumber := run.csc.totalRows
    let run := run.checkAndOpenInputStreamCsc false
    if run.csc.ioe then ([], run) else run.readPreviousBatchOfRowsFromRowNumberCsc rowNumber
  else ([], run)

def readAbsoluteBatchOfRowsCsc (run : Run) (indexBuf : Int) : Tuples × Run :=
  let rowNumber := run.csc.absoluteRow indexBuf
  if 0 < rowNumber ∧ rowNumber ≤ run.csc.totalRows then
    if rowNumber < run.csc.firstRowNumberInMem ∨ run.csc.lastRowNumberInMem < rowNumber then
      let run := run.checkAndOpenInputStreamCsc false
      if run.csc.ioe then ([], run)
      else
        let (rowOffset, run) := run.readDataFileOffset rowNumber
        if rowOffset ≠ -1 then
          let run := (run.seek rowOffset).place rowNumber (rowNumber - 1)
          if run.csc.ioe then ([], run) else run.readNextBatchOfRowsUntilThresholdCsc
        else ([], run)
    else ([], run)
  else ([], run)

/-- A batch before its error is handed out. -/
def batch (run : Run) : Move → Tuples × Run
  | .next => run.readNextBatchOfRowsCsc
  | .previous => run.readPreviousBatchOfRowsCsc
  | .first => run.readFirstBatchOfRowsCsc
  | .last => run.readLastBatchOfRowsCsc
  | .absolute rowNumber => run.readAbsoluteBatchOfRowsCsc rowNumber

end Run

/-! ## Accesses that are noted -/

/-- Of the accesses made behind `start` none failed, unless an error is noted. -/
def Noted (start log : List Access) (noted : Bool) : Prop :=
  ∃ made, log = start ++ made ∧ ∀ access ∈ made, access.failed = true → noted = true

section
variable {start log : List Access} {noted still : Bool}

theorem Noted.refl (noted : Bool) : Noted start start noted :=
  ⟨[], (List.append_nil start).symm, fun _ among => absurd among List.not_mem_nil⟩

theorem Noted.of_true (behind : start <+: log) : Noted start log true := by
  obtain ⟨made, log⟩ := behind
  exact ⟨made, log.symm, fun _ _ _ => rfl⟩

theorem Noted.starts (sofar : Noted start log noted) : start <+: log := by
  obtain ⟨made, log, -⟩ := sofar
  exact ⟨made, log.symm⟩

theorem Noted.weaken (sofar : Noted start log false) : Noted start log noted := by
  obtain ⟨made, log, works⟩ := sofar
  exact ⟨made, log, fun access among failed =>
    absurd (works access among failed) Bool.false_ne_true⟩

/-- An access more, which does not fail or is noted. -/
theorem Noted.append (sofar : Noted start log noted) (keeps : noted = true → still = true)
    {access : Access} (last : access.failed = true → still = true) :
    Noted start (log ++ [access]) still := by
  obtain ⟨made, log, told⟩ := sofar
  refine ⟨made ++ [access], by rw [log, List.append_assoc], ?_⟩
  intro other among failed
  rcases List.mem_append.mp among with before | here
  · exact keeps (told other before failed)
  · rw [List.mem_singleton.mp here] at failed
    exact last failed

end

namespace Disk

section
variable {start : List Access} (disk : Disk) (stream : InputStream)

/-- A read works as on a working disk, or it fails short of its bytes and says so. -/
theorem freadCsc_cases (size count : Nat) :
    ∃ result failed after, disk.freadCsc stream size count = (result, failed, after) ∧
      after.log = disk.log ∧ (stream.error = true → result.2.2.error = true) ∧
      (failed = true → ∃ moved ≤ size * count - 1, result.2.1 = moved / size ∧
        (moved / size = 0 → result.2.2.error = true)) := by
  by_cases ended : stream.feof = true
  · have read : disk.freadCsc stream size count = (stream.freadCsc size count, false, disk) :=
      if_pos ended
    exact ⟨_, _, _, read, rfl, fun error => freadCsc_error error size count,
      fun failed => absurd failed Bool.false_ne_true⟩
  · cases fate : disk.fates.headD .works with
    | works =>
        have read : disk.freadCsc stream size count =
            (stream.freadCsc size count, false, { disk with fates := disk.fates.tail }) := by
          simp only [freadCsc, if_neg ended, next, fate]
        exact ⟨_, _, _, read, rfl, fun error => freadCsc_error error size count,
          fun failed => absurd failed Bool.false_ne_true⟩
    | fails kept =>
        generalize bytes : (stream.file.drop stream.pos).take (min kept (size * count - 1)) = moved
        have fewer : moved.length ≤ size * count - 1 := by
          rw [← bytes, List.length_take]
          omega
        have read : disk.freadCsc stream size count = ((moved, moved.length / size,
            if moved.length / size = 0 then
              { stream with pos := stream.pos + moved.length, error := true }
            else { stream with pos := stream.pos + moved.length }), true,
            { disk with fates := disk.fates.tail }) := by
          simp only [freadCsc, if_neg ended, next, fate, bytes]
        refine ⟨_, _, _, read, rfl, fun error => ?_, fun _ =>
          ⟨moved.length, fewer, rfl, fun none => ?_⟩⟩
        · split
          · rfl
          · exact error
        · rw [if_pos none]

/-- A read of one element notes in the stream that it failed. -/
theorem read_word (size : Nat) (positive : 0 < size) (sofar : Noted start disk.log stream.error) :
    Noted start (disk.read stream size 1).2.log (disk.read stream size 1).1.2.2.error := by
  obtain ⟨result, failed, after, read, log, keeps, short⟩ := freadCsc_cases disk stream size 1
  simp only [Disk.read, read, note, log]
  refine sofar.append keeps fun fails => ?_
  obtain ⟨moved, fewer, -, error⟩ := short fails
  exact error (Nat.div_eq_of_lt (by omega))

/-- A read of bytes that failed has not all of them. -/
theorem read_bytes {len : Nat} (positive : 0 < len) (sofar : Noted start disk.log stream.error) :
    Noted start (disk.read stream 1 len).2.log (disk.read stream 1 len).1.2.2.error ∨
      (disk.read stream 1 len).1.2.1 ≠ len := by
  obtain ⟨result, failed, after, read, log, keeps, short⟩ := freadCsc_cases disk stream 1 len
  simp only [Disk.read, read, note, log]
  cases failed with
  | true =>
      obtain ⟨moved, fewer, items, -⟩ := short rfl
      refine .inr ?_
      rw [items, Nat.div_one]
      omega
  | false => exact .inl (sofar.append keeps fun failed => absurd failed Bool.false_ne_true)

/-- A column that is read has its failures noted in the stream. -/
theorem readColumn_noted (sofar : Noted start disk.log stream.error) {attr : Attr}
    {after : InputStream} {left : Disk}
    (column : disk.readColumn stream = (some attr, after, left)) : Noted start left.log after.error := by
  have word := read_word disk stream 4 (by decide) sofar
  rcases int : disk.readInt stream with ⟨len, behind, disk'⟩
  have same : disk' = (disk.read stream 4 1).2 ∧ behind = (disk.read stream 4 1).1.2.2 := by
    simp only [readInt, Prod.mk.injEq] at int
    exact ⟨int.2.2.symm, int.2.1.symm⟩
  rw [← same.1, ← same.2] at word
  simp only [readColumn, int] at column
  split_ifs at column with null positive cut
  · cases column
    exact word
  · cases column
  · rcases read_bytes disk' behind (show 0 < len.toNat by omega) word with noted | short
    · cases column
      exact noted
    · exact absurd (congrArg Int.toNat (not_not.mp cut)) short
  · cases column
    exact word
  · cases column
    exact word

theorem read_log (size count : Nat) : disk.log <+: (disk.read stream size count).2.log := by
  obtain ⟨result, failed, after, read, log, -, -⟩ := freadCsc_cases disk stream size count
  simp only [Disk.read, read, note, log]
  exact List.prefix_append _ _

theorem readColumn_log : disk.log <+: (disk.readColumn stream).2.2.log := by
  have word := read_log disk stream 4 1
  rcases int : disk.readInt stream with ⟨len, behind, disk'⟩
  have same : disk' = (disk.read stream 4 1).2 := by
    simp only [readInt, Prod.mk.injEq] at int
    exact int.2.2.symm
  rw [← same] at word
  have value := read_log disk' behind 1 len.toNat
  simp only [readColumn, int]
  split_ifs
  · exact word
  · exact word.trans value
  · exact word.trans value
  · exact word
  · exact word

theorem readColumns_log (count : Nat) (disk : Disk) (stream : InputStream) :
    disk.log <+: (readColumns count disk stream).2.2.log := by
  induction count generalizing disk stream with
  | zero => exact List.prefix_rfl
  | succ count ih =>
      have first := readColumn_log disk stream
      rw [readColumns]
      rcases column : disk.readColumn stream with ⟨_ | attr, behind, disk'⟩
      · rw [column] at first
        exact first
      · rw [column] at first
        exact first.trans (ih disk' behind)

theorem readColumns_noted (count : Nat) {disk : Disk} {stream : InputStream}
    (sofar : Noted start disk.log stream.error) {attrs : List Attr} {after : InputStream} {left : Disk}
    (columns : readColumns count disk stream = (some attrs, after, left)) :
    Noted start left.log after.error := by
  induction count generalizing disk stream attrs with
  | zero =>
      cases columns
      exact sofar
  | succ count ih =>
      rw [readColumns] at columns
      rcases column : disk.readColumn stream with ⟨_ | attr, behind, disk'⟩
      · rw [column] at columns
        cases columns
      · rw [column] at columns
        have first := readColumn_noted disk stream sofar column
        rcases rest : readColumns count disk' behind with ⟨_ | rest', last, end_⟩
        · simp only [rest] at columns
          cases columns
        · simp only [rest] at columns
          cases columns
          exact ih first rest

/-- What fails while a row is read is the error of the row. -/
theorem readRowCsc_noted (sofar : Noted start disk.log false) :
    Noted start (disk.readRowCsc stream).2.2.log (disk.readRowCsc stream).1.error := by
  rw [readRowCsc]
  by_cases ended : stream.feofCscInputStream.1 = true
  · simp only [if_pos ended]
    exact sofar
  · have word := read_word disk stream.feofCscInputStream.2 2 (by decide) sofar.weaken
    rcases short : disk.readShortForNumberOfCols stream.feofCscInputStream.2 with
      ⟨noOfCols, behind, disk'⟩
    have same : disk' = (disk.read stream.feofCscInputStream.2 2 1).2 ∧
        behind.error = (disk.read stream.feofCscInputStream.2 2 1).1.2.2.error := by
      simp only [readShortForNumberOfCols, Prod.mk.injEq] at short
      refine ⟨short.2.2.symm, ?_⟩
      rw [← short.2.1]
      rfl
    rw [← same.1, ← same.2] at word
    simp only [if_neg ended, short]
    by_cases positive : 0 < noOfCols
    · rcases columns : readColumns noOfCols.toNat disk' behind with ⟨_ | attrs, last, left⟩
      · have made := readColumns_log noOfCols.toNat disk' behind
        rw [columns] at made
        simp only [if_pos positive]
        exact Noted.of_true (word.starts.trans made)
      · simp only [if_pos positive]
        exact readColumns_noted noOfCols.toNat word columns
    · simp only [if_neg positive]
      exact word

/-- The result of a seek says whether it failed. -/
theorem seekCscInputStream_log (offset : Int) :
    (disk.seekCscInputStream stream offset).2.2.log = disk.log := by
  rw [seekCscInputStream]
  cases fate : disk.fates.headD .works with
  | works => simp only [next, fate]
  | fails kept => simp only [next, fate]

end

end Disk

/-! ## Lookups -/

/-- The place of the offset of a row in its file, which is an `int`. -/
def offsetPlace (rowNumber : Int) : Int := wrap 4 ((rowNumber - 1) * 8)

/-- The offset of a row as the file has it. -/
def offsetIn (file : List UInt8) (rowNumber : Int) : Int :=
  signed 8 (ofLittle ((file.drop (offsetPlace rowNumber).toNat).take 8))

/-- The seek of a lookup fails; a negative place is refused as well. -/
def SeekFails (fates : List ReadFate) (rowNumber : Int) : Prop :=
  fates.headD .works ≠ .works ∨ offsetPlace rowNumber < 0

instance (fates : List ReadFate) (rowNumber : Int) : Decidable (SeekFails fates rowNumber) :=
  inferInstanceAs (Decidable (_ ∨ _))

/-- The read of a lookup fails; a stream that is left at the end of its file is not read. -/
def ReadFails (ended : Bool) (fates : List ReadFate) (rowNumber : Int) : Prop :=
  fates.tail.headD .works ≠ .works ∧ ¬(SeekFails fates rowNumber ∧ ended = true)

instance (ended : Bool) (fates : List ReadFate) (rowNumber : Int) :
    Decidable (ReadFails ended fates rowNumber) := inferInstanceAs (Decidable (_ ∧ _))

/-- The seek of a lookup fails and its read does not. -/
def SeekLost (ended : Bool) (fates : List ReadFate) (rowNumber : Int) : Prop :=
  SeekFails fates rowNumber ∧ ¬ReadFails ended fates rowNumber

instance (ended : Bool) (fates : List ReadFate) (rowNumber : Int) :
    Decidable (SeekLost ended fates rowNumber) := inferInstanceAs (Decidable (_ ∧ _))

namespace Disk

section
variable (disk : Disk) (stream : InputStream)

/-- A failed seek stays where it is, and one that works leaves the end of the file. -/
theorem seekCscInputStream_place (rowNumber : Int) :
    ∃ there, disk.seekCscInputStream stream (offsetPlace rowNumber) =
        (decide (SeekFails disk.fates rowNumber), there, { disk with fates := disk.fates.tail }) ∧
      there = if SeekFails disk.fates rowNumber then stream
        else { stream with pos := (offsetPlace rowNumber).toNat, feof := false } := by
  refine ⟨_, ?_, rfl⟩
  cases fate : disk.fates.headD .works with
  | works =>
      by_cases negative : offsetPlace rowNumber < 0
      · simp only [seekCscInputStream, next, fate, InputStream.seekCscInputStream, negative,
          SeekFails, or_true, decide_true, if_true]
      · simp only [seekCscInputStream, next, fate, InputStream.seekCscInputStream, negative,
          SeekFails, ne_eq, not_true_eq_false, or_false, decide_false, if_false]
  | fails kept =>
      simp only [seekCscInputStream, next, fate, SeekFails, ne_eq, reduceCtorEq,
        not_false_eq_true, true_or, decide_true, if_true]

end

end Disk

/-- A read of one element that works meets the end of the file or has it whole. -/
theorem freadCsc_word_works {stream : InputStream} {size : Nat} (positive : 0 < size)
    (ready : stream.feof = false) :
    ∃ rc eof, stream.freadCsc size 1 = ((stream.file.drop stream.pos).take size, rc,
      { stream with
        pos := stream.pos + ((stream.file.drop stream.pos).take size).length
        feof := decide (((stream.file.drop stream.pos).take size).length < size)
        eof := eof }) := by
  by_cases short : ((stream.file.drop stream.pos).take size).length < size
  · have none : ((stream.file.drop stream.pos).take size).length / size = 0 :=
      Nat.div_eq_of_lt short
    refine ⟨0, true, ?_⟩
    simp only [InputStream.freadCsc, InputStream.fread, ready, Nat.mul_one, none, short,
      decide_true, Bool.or_true, if_true, Bool.false_eq_true, if_false]
  · have whole : ((stream.file.drop stream.pos).take size).length / size ≠ 0 :=
      Nat.div_ne_zero_iff.mpr ⟨Nat.ne_of_gt positive, Nat.not_lt.mp short⟩
    refine ⟨((stream.file.drop stream.pos).take size).length / size, stream.eof, ?_⟩
    simp only [InputStream.freadCsc, InputStream.fread, ready, Nat.mul_one, whole, short,
      decide_false, Bool.or_false, if_false, Bool.false_eq_true]

/-- A read of one element leaves an error exactly when it fails. -/
theorem Disk.freadCsc_word (disk : Disk) (stream : InputStream) (size : Nat)
    (positive : 0 < size) :
    ∃ result after, disk.freadCsc stream size 1 =
        (result, decide (disk.fates.headD .works ≠ .works ∧ stream.feof = false), after) ∧
      after.log = disk.log ∧ result.2.2.error = (stream.error ||
        decide (disk.fates.headD .works ≠ .works ∧ stream.feof = false)) := by
  by_cases ended : stream.feof = true
  · have read : disk.freadCsc stream size 1 =
        (([], 0, { stream with eof := true }), false, disk) := by
      rw [freadCsc, if_pos ended, InputStream.freadCsc_ended ended]
    refine ⟨([], 0, { stream with eof := true }), disk, ?_, rfl, ?_⟩
    · simp [read, ended]
    · simp [ended]
  · have ready := Bool.eq_false_of_not_eq_true ended
    cases fate : disk.fates.headD .works with
    | works =>
        obtain ⟨rc, eof, works⟩ := freadCsc_word_works positive ready
        refine ⟨stream.freadCsc size 1, { disk with fates := disk.fates.tail }, ?_, rfl, ?_⟩
        · simp only [freadCsc, if_neg ended, next, fate]
          rfl
        · simp [works]
    | fails kept =>
        have short : ((stream.file.drop stream.pos).take (min kept (size * 1 - 1))).length / size =
            0 := by
          rw [List.length_take]
          exact Nat.div_eq_of_lt (by omega)
        refine ⟨((stream.file.drop stream.pos).take (min kept (size * 1 - 1)), 0, { stream with
              pos := stream.pos +
                ((stream.file.drop stream.pos).take (min kept (size * 1 - 1))).length
              error := true }), { disk with fates := disk.fates.tail }, ?_, rfl, ?_⟩
        · simp only [freadCsc, next, fate, short, ready, Bool.false_eq_true, if_false, if_true,
            ne_eq, reduceCtorEq, not_false_eq_true, and_self, decide_true]
        · simp only [ne_eq, reduceCtorEq, not_false_eq_true, ready, and_self, decide_true,
            Bool.or_true]

namespace Disk

section
variable {start : List Access} (disk : Disk) (stream : InputStream) (ioe : Bool) {rowNumber : Int}

/-- What `readDataFileOffsetCsc` returns is whether its read failed. -/
theorem readDataFileOffsetCsc_result (valid : 0 < rowNumber) :
    (disk.readDataFileOffsetCsc stream ioe rowNumber).2.2.2.log = disk.log ++
        [.lookup (decide (SeekFails disk.fates rowNumber))
          (decide (ReadFails stream.feof disk.fates rowNumber))] ∧
      (disk.readDataFileOffsetCsc stream ioe rowNumber).2.1 =
        (stream.error || decide (ReadFails stream.feof disk.fates rowNumber)) := by
  obtain ⟨there, sought, place⟩ := disk.seekCscInputStream_place stream rowNumber
  obtain ⟨result, after, read, log, error⟩ :=
    ({ disk with fates := disk.fates.tail } : Disk).freadCsc_word there 8 (by decide)
  have kept : there.error = stream.error := by
    rw [place]
    split <;> rfl
  have ends : there.feof = (stream.feof && decide (SeekFails disk.fates rowNumber)) := by
    by_cases fails : SeekFails disk.fates rowNumber
    · rw [place, if_pos fails]
      simp [fails]
    · rw [place, if_neg fails]
      simp [fails]
  have same : decide (disk.fates.tail.headD .works ≠ .works ∧ there.feof = false) =
      decide (ReadFails stream.feof disk.fates rowNumber) := by
    by_cases fails : SeekFails disk.fates rowNumber <;> simp [ends, ReadFails, fails]
  rw [kept] at error
  simp only [same] at read error
  rw [offsetPlace] at sought
  simp only [readDataFileOffsetCsc, if_pos valid, sought, read, note, log,
    InputStream.getIOErrorCsc]
  exact ⟨True.intro, error⟩

/-- A lookup that works has the offset of its row. -/
theorem readDataFileOffsetCsc_works (valid : 0 < rowNumber) (clear : stream.error = false)
    (seek : ¬SeekFails disk.fates rowNumber)
    (read : ¬ReadFails stream.feof disk.fates rowNumber) :
    ∃ pos eof log, disk.readDataFileOffsetCsc stream ioe rowNumber =
      (offsetIn stream.file rowNumber, false,
        { stream with
          pos := pos
          feof := decide (((stream.file.drop (offsetPlace rowNumber).toNat).take 8).length < 8)
          eof := eof },
        ⟨disk.fates.tail.tail, log⟩) := by
  obtain ⟨there, sought, place⟩ := disk.seekCscInputStream_place stream rowNumber
  rw [if_neg seek] at place
  have second : disk.fates.tail.headD .works = .works := by
    by_contra fails
    exact read ⟨fails, fun both => seek both.1⟩
  obtain ⟨rc, eof, whole⟩ := @freadCsc_word_works
    { stream with pos := (offsetPlace rowNumber).toNat, feof := false } 8 (by decide) rfl
  rw [offsetPlace] at sought
  simp only [clear] at place whole
  refine ⟨(offsetPlace rowNumber).toNat +
      ((stream.file.drop (offsetPlace rowNumber).toNat).take 8).length, eof,
    disk.log ++ [.lookup (decide (SeekFails disk.fates rowNumber)) false], ?_⟩
  simp only [readDataFileOffsetCsc, if_pos valid, sought, place, freadCsc, next, second, whole,
    InputStream.getIOErrorCsc, clear, note, Bool.false_eq_true, if_false, offsetIn]

/-- A lookup notes what fails in it, unless its seek is lost. -/
theorem readDataFileOffsetCsc_noted (sofar : Noted start disk.log false)
    (kept : 0 < rowNumber → stream.error = true ∨ ¬SeekLost stream.feof disk.fates rowNumber) :
    Noted start (disk.readDataFileOffsetCsc stream ioe rowNumber).2.2.2.log
      (disk.readDataFileOffsetCsc stream ioe rowNumber).2.1 := by
  by_cases valid : 0 < rowNumber
  · obtain ⟨log, result⟩ := readDataFileOffsetCsc_result disk stream ioe valid
    rw [log, result]
    refine sofar.append (fun noted => absurd noted Bool.false_ne_true) fun fails => ?_
    rcases kept valid with error | found
    · rw [error, Bool.true_or]
    · rw [Access.failed, Bool.or_eq_true, decide_eq_true_eq, decide_eq_true_eq] at fails
      have unread : ReadFails stream.feof disk.fates rowNumber := by
        by_contra works
        exact found ⟨fails.resolve_right works, works⟩
      rw [decide_eq_true unread, Bool.or_true]
  · rw [readDataFileOffsetCsc, if_neg valid]
    exact sofar.weaken

end

end Disk

/-- A lookup in which a call fails is reported by it. -/
def LookupReported (disk : Disk) (stream : InputStream) (ioe : Bool) (rowNumber : Int) : Prop :=
  SeekFails disk.fates rowNumber ∨ ReadFails stream.feof disk.fates rowNumber →
    (disk.readDataFileOffsetCsc stream ioe rowNumber).2.1 = true

theorem lookupReported_iff (disk : Disk) (stream : InputStream) (ioe : Bool) {rowNumber : Int}
    (valid : 0 < rowNumber) :
    LookupReported disk stream ioe rowNumber ↔
      (SeekLost stream.feof disk.fates rowNumber → stream.error = true) := by
  rw [LookupReported, (disk.readDataFileOffsetCsc_result stream ioe valid).2, SeekLost]
  by_cases seek : SeekFails disk.fates rowNumber <;>
    by_cases read : ReadFails stream.feof disk.fates rowNumber <;>
    simp [seek, read]

/-! ## The lookups of a batch -/

/--
The rows before a row whose offsets a batch needs: those that find room under the threshold
and the one that no longer does.
-/
def rowsBack (threshold cols : Int) (file : List UInt8) : Nat → Int → Int → List Int
  | 0, _, _ => []
  | rowNumber + 1, size, behind =>
      if rowNumber ≤ 1 then []
      else
        let offset := offsetIn file rowNumber
        let limit :=
          if offset ≠ -1 then checkForThresholdLimitReachCsc threshold size cols (behind - offset)
          else (false, size)
        (rowNumber : Int) ::
          if offset < 0 || limit.1 then []
          else rowsBack threshold cols file rowNumber limit.2 offset

namespace ClientSideCursorResult

/-- The stream of the offset file, which is opened on the first call. -/
def offsetStream (csc : ClientSideCursorResult) : InputStream :=
  csc.cscOffsetInputStream.getD (.opened csc.offsetFile)

/-- The rows whose offsets are needed to go back from a row. -/
def backFrom (csc : ClientSideCursorResult) (rowNumber : Int) : List Int :=
  if 0 < rowNumber then
    let offset := offsetIn csc.offsetStream.file rowNumber
    rowNumber :: if 0 ≤ offset then
      rowsBack csc.threshold csc.cols csc.offsetStream.file rowNumber.toNat 0 offset else []
  else []

/-- The rows whose offsets a batch needs. -/
def needed (csc : ClientSideCursorResult) : Move → List Int
  | .next | .first => []
  | .previous =>
      if 1 < csc.firstRowNumberInMem then csc.backFrom (csc.firstRowNumberInMem - 1) else []
  | .last => if csc.lastRowNumberInMem < csc.totalRows then csc.backFrom csc.totalRows else []
  | .absolute indexBuf =>
      let rowNumber := csc.absoluteRow indexBuf
      if 0 < rowNumber ∧ rowNumber ≤ csc.totalRows ∧
          (rowNumber < csc.firstRowNumberInMem ∨ csc.lastRowNumberInMem < rowNumber) then
        [rowNumber]
      else []

end ClientSideCursorResult

/-- Looking up some rows, no seek is lost before a call is reported. -/
def Sought (file : List UInt8) : Bool → List ReadFate → List Int → Prop
  | _, _, [] => True
  | ended, fates, rowNumber :: rest =>
      ¬SeekLost ended fates rowNumber ∧
        (SeekFails fates rowNumber ∨ ReadFails ended fates rowNumber ∨
          Sought file (decide (((file.drop (offsetPlace rowNumber).toNat).take 8).length < 8))
            fates.tail.tail rest)

instance Sought.decidable (file : List UInt8) (ended : Bool) (fates : List ReadFate) :
    (rows : List Int) → Decidable (Sought file ended fates rows)
  | [] => inferInstanceAs (Decidable True)
  | rowNumber :: rest =>
      have := Sought.decidable file
        (decide (((file.drop (offsetPlace rowNumber).toNat).take 8).length < 8))
        fates.tail.tail rest
      inferInstanceAs (Decidable (_ ∧ (_ ∨ _ ∨ _)))

/--
The calls on the offset file that a batch needs: no seek fails whose read works, before the
first call that is reported.
-/
def SeeksKept (csc : ClientSideCursorResult) (fates : List ReadFate) (move : Move) : Prop :=
  csc.offsetStream.error = true ∨
    Sought csc.offsetStream.file csc.offsetStream.feof fates (csc.needed move)

instance (csc : ClientSideCursorResult) (fates : List ReadFate) (move : Move) :
    Decidable (SeeksKept csc fates move) := inferInstanceAs (Decidable (_ ∨ _))

/-! ## What a batch reports -/

namespace Run

/-- Nothing failed, or the cursor has an error. -/
def Told (run : Run) (start : List Access) : Prop := Noted start run.disk.log run.csc.ioe

/-- Nothing failed. -/
def Quiet (run : Run) (start : List Access) : Prop := Noted start run.disk.log false

variable {start : List Access}

theorem Told.quiet {run : Run} (told : run.Told start) (calm : ¬run.csc.ioe = true) :
    run.Quiet start := by
  rw [Told, Bool.eq_false_of_not_eq_true calm] at told
  exact told

theorem Quiet.told {run : Run} (quiet : run.Quiet start) : run.Told start := Noted.weaken quiet

variable {run : Run}

theorem readRow_told (quiet : run.Quiet start) : run.readRow.2.Told start := by
  rw [readRow]
  cases input : run.csc.cscInputStream with
  | none => exact quiet
  | some stream => exact Disk.readRowCsc_noted run.disk stream quiet

theorem readDataFileOffset_told (quiet : run.Quiet start) {rowNumber : Int}
    (kept : run.csc.offsetStream.error = true ∨
      ¬SeekLost run.csc.offsetStream.feof run.disk.fates rowNumber) :
    (run.readDataFileOffset rowNumber).2.Told start :=
  run.disk.readDataFileOffsetCsc_noted run.csc.offsetStream run.csc.ioe quiet fun _ => kept

/-- A lookup that works finds the offset its file has, and leaves the file as it was. -/
theorem readDataFileOffset_works {rowNumber : Int} (valid : 0 < rowNumber)
    (clear : run.csc.offsetStream.error = false)
    (works : ¬(SeekFails run.disk.fates rowNumber ∨
      ReadFails run.csc.offsetStream.feof run.disk.fates rowNumber)) :
    ∃ behind log, run.readDataFileOffset rowNumber =
        (offsetIn run.csc.offsetStream.file rowNumber,
          ⟨{ run.csc with cscOffsetInputStream := some behind, ioe := false },
            ⟨run.disk.fates.tail.tail, log⟩⟩) ∧
      behind.file = run.csc.offsetStream.file ∧ behind.error = false ∧
      behind.feof = decide (((run.csc.offsetStream.file.drop
        (offsetPlace rowNumber).toNat).take 8).length < 8) := by
  obtain ⟨seek, read⟩ := not_or.mp works
  obtain ⟨pos, eof, log, found⟩ := run.disk.readDataFileOffsetCsc_works run.csc.offsetStream
    run.csc.ioe valid clear seek read
  refine ⟨{ run.csc.offsetStream with
      pos := pos
      feof := decide (((run.csc.offsetStream.file.drop
        (offsetPlace rowNumber).toNat).take 8).length < 8)
      eof := eof }, log, ?_, rfl, clear, rfl⟩
  have looked : run.readDataFileOffset rowNumber =
      ((run.disk.readDataFileOffsetCsc run.csc.offsetStream run.csc.ioe rowNumber).1,
        ⟨{ run.csc with
            cscOffsetInputStream := some
              (run.disk.readDataFileOffsetCsc run.csc.offsetStream run.csc.ioe rowNumber).2.2.1
            ioe := (run.disk.readDataFileOffsetCsc run.csc.offsetStream run.csc.ioe
              rowNumber).2.1 },
          (run.disk.readDataFileOffsetCsc run.csc.offsetStream run.csc.ioe
            rowNumber).2.2.2⟩) := rfl
  rw [looked, found]

/-- A lookup that loses no seek and leaves no error has worked. -/
theorem readDataFileOffset_calm {rowNumber : Int} (valid : 0 < rowNumber)
    (kept : run.csc.offsetStream.error = true ∨
      ¬SeekLost run.csc.offsetStream.feof run.disk.fates rowNumber)
    (calm : ¬(run.readDataFileOffset rowNumber).2.csc.ioe = true) :
    run.csc.offsetStream.error = false ∧ ¬(SeekFails run.disk.fates rowNumber ∨
      ReadFails run.csc.offsetStream.feof run.disk.fates rowNumber) := by
  have result := (run.disk.readDataFileOffsetCsc_result run.csc.offsetStream run.csc.ioe valid).2
  have error : (run.readDataFileOffset rowNumber).2.csc.ioe =
      (run.csc.offsetStream.error ||
        decide (ReadFails run.csc.offsetStream.feof run.disk.fates rowNumber)) := result
  rw [error, Bool.or_eq_true, decide_eq_true_eq, not_or] at calm
  have seek : ¬SeekFails run.disk.fates rowNumber := fun fails =>
    (kept.resolve_left calm.1) ⟨fails, calm.2⟩
  exact ⟨Bool.eq_false_of_not_eq_true calm.1, not_or.mpr ⟨seek, calm.2⟩⟩

theorem seek_told (quiet : run.Quiet start) (offset : Int) : (run.seek offset).Told start := by
  rw [seek]
  cases input : run.csc.cscInputStream with
  | none => exact quiet.told
  | some stream =>
      have kept := Disk.seekCscInputStream_log run.disk stream offset
      rcases sought : run.disk.seekCscInputStream stream offset with ⟨rc, there, disk⟩
      rw [sought] at kept
      simp only at kept
      simp only [sought, Told, Disk.note, kept]
      exact Noted.append quiet (fun noted => absurd noted Bool.false_ne_true) id

theorem checkAndOpenInputStreamCsc_told (quiet : run.Quiet start) (seekForNext : Bool) :
    (run.checkAndOpenInputStreamCsc seekForNext).Told start := by
  rw [checkAndOpenInputStreamCsc]
  split
  · exact quiet
  · have opened : Quiet { run with csc := { run.csc with
        cscInputStream := some (.opened run.csc.file), ioe := false } } start := quiet
    simp only
    split
    · cases seekForNext with
      | true => exact seek_told opened run.csc.firstReadFromFileOffset
      | false => exact quiet
    · exact quiet

theorem readUntilThreshold_told (left : Nat) {run : Run} (told : run.Told start) :
    (readUntilThreshold left run).2.Told start := by
  induction left generalizing run with
  | zero => exact told
  | succ left ih =>
      rw [readUntilThreshold]
      by_cases error : run.csc.ioe = true
      · rw [if_pos error]
        exact told
      · have row := readRow_told (told.quiet error)
        rcases read : run.readRow with ⟨tuple, behind⟩
        rw [read] at row
        simp only [if_neg error]
        split
        · exact row
        · split
          · exact row
          · exact ih row

theorem readNextBatchOfRowsUntilThresholdCsc_told {run : Run} (told : run.Told start) :
    run.readNextBatchOfRowsUntilThresholdCsc.2.Told start := by
  rw [readNextBatchOfRowsUntilThresholdCsc]
  split
  · exact told
  · split
    · exact told
    · exact readUntilThreshold_told _ told

theorem readNumberOfRows_told (rows : Nat) {run : Run} (told : run.Told start) :
    (readNumberOfRows rows run).2.Told start := by
  induction rows generalizing run with
  | zero => exact told
  | succ rows ih =>
      rw [readNumberOfRows]
      split
      · exact told
      · by_cases error : run.csc.ioe = true
        · rw [if_pos error]
          exact told
        · have row := readRow_told (told.quiet error)
          rw [if_neg error]
          rcases read : run.readRow with ⟨_ | tuple, behind⟩
          · rw [read] at row
            exact row
          · rw [read] at row
            simp only
            split
            · exact row
            · exact ih row

theorem readNextBatchOfRowsFromOffsetCsc_told (told : run.Quiet start)
    (startRowOffset startRowNumber : Int) (rows : Nat) :
    (run.readNextBatchOfRowsFromOffsetCsc startRowOffset startRowNumber rows).2.Told start := by
  rw [readNextBatchOfRowsFromOffsetCsc]
  split
  · exact told.told
  · split
    · exact told.told
    · have sought := seek_told told startRowOffset
      exact readNumberOfRows_told rows sought

/-- A lookup with an error has no offset. -/
theorem readDataFileOffset_error (run : Run) (rowNumber : Int)
    (error : (run.readDataFileOffset rowNumber).2.csc.ioe = true) :
    (run.readDataFileOffset rowNumber).1 = -1 := by
  simp only [readDataFileOffset, Disk.readDataFileOffsetCsc] at error ⊢
  split at error
  · rw [if_pos ‹0 < rowNumber›]
    exact if_pos error
  · rw [if_neg ‹¬0 < rowNumber›]

/--
Going back is told.  The lookups that are left are those of `rowsBack`, since one that is
told without an error has found the offset its file has.
-/
theorem readBackward_told (rowNumber rows : Nat) (curRowOffset : Int) {run : Run}
    (quiet : run.Quiet start) (clear : run.csc.offsetStream.error = false)
    (kept : Sought run.csc.offsetStream.file run.csc.offsetStream.feof run.disk.fates
      (rowsBack run.csc.threshold run.csc.cols run.csc.offsetStream.file rowNumber
        run.csc.inMemoryResultSizeFromFile curRowOffset)) :
    (readBackward rowNumber rows curRowOffset run).2.Told start := by
  induction rowNumber generalizing rows curRowOffset run with
  | zero => exact quiet.told
  | succ rowNumber ih =>
      rw [readBackward]
      by_cases low : rowNumber ≤ 1
      · rw [if_pos low]
        exact quiet.told
      · rw [rowsBack, if_neg low, Sought] at kept
        have valid : (0 : Int) < rowNumber := by omega
        have lookup := readDataFileOffset_told quiet (.inr kept.1)
        by_cases error : (run.readDataFileOffset rowNumber).2.csc.ioe = true
        · have refused := readDataFileOffset_error run rowNumber error
          simp only [if_neg low, refused, ne_eq, not_true_eq_false, if_false]
          exact lookup
        · have works := (readDataFileOffset_calm valid (.inr kept.1) error).2
          obtain ⟨behind, log, looked, file, unset, ended⟩ :=
            readDataFileOffset_works valid clear works
          have rest := ((or_assoc.mpr kept.2).resolve_left works)
          rw [looked] at lookup
          simp only [if_neg low, looked]
          generalize offsetIn run.csc.offsetStream.file rowNumber = offset at rest ⊢
          generalize (if offset ≠ -1 then
            checkForThresholdLimitReachCsc run.csc.threshold run.csc.inMemoryResultSizeFromFile
              run.csc.cols (curRowOffset - offset)
            else (false, run.csc.inMemoryResultSizeFromFile)) = limit at rest ⊢
          split
          · exact lookup
          · next goesOn =>
            have calm : Quiet ⟨{ run.csc with
                cscOffsetInputStream := some behind, ioe := false },
                ⟨run.disk.fates.tail.tail, log⟩⟩ start := lookup
            refine ih _ _ calm unset ?_
            rw [if_neg goesOn] at rest
            rw [← ended, ← file] at rest
            exact rest

theorem readPreviousBatchOfRowsFromRowNumberCsc_told (quiet : run.Quiet start) {rowNumber : Int}
    (kept : run.csc.offsetStream.error = true ∨ Sought run.csc.offsetStream.file
      run.csc.offsetStream.feof run.disk.fates (run.csc.backFrom rowNumber)) :
    (run.readPreviousBatchOfRowsFromRowNumberCsc rowNumber).2.Told start := by
  rw [readPreviousBatchOfRowsFromRowNumberCsc]
  by_cases valid : 0 < rowNumber
  · rw [if_pos valid]
    rw [ClientSideCursorResult.backFrom, if_pos valid, Sought] at kept
    have first := kept.imp_right And.left
    have lookup := readDataFileOffset_told quiet first
    by_cases error : (run.readDataFileOffset rowNumber).2.csc.ioe = true
    · simp only [if_pos error]
      exact lookup
    · obtain ⟨clear, works⟩ := readDataFileOffset_calm valid first error
      obtain ⟨behind, log, looked, file, unset, ended⟩ :=
        readDataFileOffset_works valid clear works
      have all := kept.resolve_left (by rw [clear]; exact Bool.false_ne_true)
      have rest := (or_assoc.mpr all.2).resolve_left works
      rw [looked] at lookup
      simp only [looked, Bool.false_eq_true, if_false]
      generalize offsetIn run.csc.offsetStream.file rowNumber = offset at rest ⊢
      have calm : Quiet ⟨{ run.csc with
          cscOffsetInputStream := some behind, ioe := false, inMemoryResultSizeFromFile := 0 },
          ⟨run.disk.fates.tail.tail, log⟩⟩ start := lookup
      have search : (if 0 ≤ offset then readBackward rowNumber.toNat 0 offset
            ⟨{ run.csc with
              cscOffsetInputStream := some behind, ioe := false
              inMemoryResultSizeFromFile := 0 }, ⟨run.disk.fates.tail.tail, log⟩⟩
          else (⟨rowNumber, 0, offset⟩, ⟨{ run.csc with
              cscOffsetInputStream := some behind, ioe := false
              inMemoryResultSizeFromFile := 0 },
            ⟨run.disk.fates.tail.tail, log⟩⟩)).2.Told start := by
        split
        · rw [if_pos ‹_›, ← ended, ← file] at rest
          exact readBackward_told _ _ _ calm unset rest
        · exact calm.told
      generalize (if 0 ≤ offset then readBackward rowNumber.toNat 0 offset
            (⟨{ run.csc with
              cscOffsetInputStream := some behind, ioe := false
              inMemoryResultSizeFromFile := 0 }, ⟨run.disk.fates.tail.tail, log⟩⟩ : Run)
          else (⟨rowNumber, 0, offset⟩, ⟨{ run.csc with
              cscOffsetInputStream := some behind, ioe := false
              inMemoryResultSizeFromFile := 0 },
            ⟨run.disk.fates.tail.tail, log⟩⟩)) = found at search ⊢
      split
      · exact search
      · exact readNextBatchOfRowsFromOffsetCsc_told (search.quiet ‹_›) _ _ _
  · rw [if_neg valid]
    exact quiet.told

theorem readNextBatchOfRowsCsc_told (quiet : run.Quiet start) :
    run.readNextBatchOfRowsCsc.2.Told start := by
  rw [readNextBatchOfRowsCsc]
  split
  · exact quiet.told
  · have opened := checkAndOpenInputStreamCsc_told quiet true
    generalize run.checkAndOpenInputStreamCsc true = behind at opened ⊢
    simp only
    split
    · exact opened
    · split
      · exact readNextBatchOfRowsUntilThresholdCsc_told opened
      · split
        · exact readNextBatchOfRowsUntilThresholdCsc_told opened
        · exact readNextBatchOfRowsUntilThresholdCsc_told opened

theorem readFirstBatchOfRowsCsc_told (quiet : run.Quiet start) :
    run.readFirstBatchOfRowsCsc.2.Told start := by
  rw [readFirstBatchOfRowsCsc]
  split
  · have opened := checkAndOpenInputStreamCsc_told quiet false
    generalize run.checkAndOpenInputStreamCsc false = behind at opened ⊢
    simp only
    by_cases error : behind.csc.ioe = true
    · rw [if_pos error]
      exact opened
    · have sought := seek_told (opened.quiet error) 0
      rw [if_neg error]
      exact @readNextBatchOfRowsUntilThresholdCsc_told start ((behind.seek 0).place 1 0) sought
  · exact quiet.told

/-- Opening the row file for a lookup leaves the offset file alone. -/
theorem checkAndOpenInputStreamCsc_offsets (run : Run) :
    (run.checkAndOpenInputStreamCsc false).csc.offsetStream = run.csc.offsetStream ∧
      (run.checkAndOpenInputStreamCsc false).disk = run.disk ∧
      (run.checkAndOpenInputStreamCsc false).csc.backFrom = run.csc.backFrom := by
  rw [checkAndOpenInputStreamCsc]
  split
  · exact ⟨rfl, rfl, rfl⟩
  · simp only
    split
    · exact ⟨rfl, rfl, rfl⟩
    · exact ⟨rfl, rfl, rfl⟩

theorem readLastBatchOfRowsCsc_told (quiet : run.Quiet start)
    (kept : SeeksKept run.csc run.disk.fates .last) : run.readLastBatchOfRowsCsc.2.Told start := by
  rw [readLastBatchOfRowsCsc]
  by_cases more : run.csc.lastRowNumberInMem < run.csc.totalRows
  · have opened := checkAndOpenInputStreamCsc_told quiet false
    obtain ⟨offsets, disk, back⟩ := checkAndOpenInputStreamCsc_offsets run
    rw [SeeksKept, ClientSideCursorResult.needed, if_pos more, ← offsets, ← disk, ← back] at kept
    rw [if_pos more]
    generalize run.checkAndOpenInputStreamCsc false = behind at opened kept ⊢
    simp only
    split
    · exact opened
    · exact readPreviousBatchOfRowsFromRowNumberCsc_told (opened.quiet ‹_›) kept
  · rw [if_neg more]
    exact quiet.told

theorem readAbsoluteBatchOfRowsCsc_told (quiet : run.Quiet start) {indexBuf : Int}
    (kept : SeeksKept run.csc run.disk.fates (.absolute indexBuf)) :
    (run.readAbsoluteBatchOfRowsCsc indexBuf).2.Told start := by
  simp only [readAbsoluteBatchOfRowsCsc]
  split
  · next within =>
    split
    · next outside =>
      obtain ⟨offsets, disk, -⟩ := checkAndOpenInputStreamCsc_offsets run
      have needs : run.csc.needed (.absolute indexBuf) = [run.csc.absoluteRow indexBuf] :=
        if_pos ⟨within.1, within.2, outside⟩
      rw [SeeksKept, needs, Sought, ← offsets, ← disk] at kept
      have opened := checkAndOpenInputStreamCsc_told quiet false
      generalize run.checkAndOpenInputStreamCsc false = behind at opened kept ⊢
      by_cases error : behind.csc.ioe = true
      · rw [if_pos error]
        exact opened
      · rw [if_neg error]
        have lookup := readDataFileOffset_told (opened.quiet error) (kept.imp_right And.left)
        have refused := readDataFileOffset_error behind (run.csc.absoluteRow indexBuf)
        rcases looked : behind.readDataFileOffset (run.csc.absoluteRow indexBuf) with ⟨offset, found⟩
        rw [looked] at lookup refused
        simp only at lookup refused ⊢
        by_cases none : offset = -1
        · simp only [none, ne_eq, not_true_eq_false, if_false]
          exact lookup
        · have calm : ¬found.csc.ioe = true := fun error => none (refused error)
          have sought := seek_told (lookup.quiet calm) offset
          simp only [none, ne_eq, not_false_eq_true, if_true]
          split
          · exact sought
          · exact @readNextBatchOfRowsUntilThresholdCsc_told start ((found.seek offset).place _ _) sought
    · exact quiet.told
  · exact quiet.told

/-- A batch reports what fails in it, unless a seek of its lookups is lost. -/
theorem batch_told {csc : ClientSideCursorResult} {fates : List ReadFate} {move : Move}
    (kept : SeeksKept csc fates move) : (batch ⟨csc, fates, []⟩ move).2.Told [] := by
  have quiet : Quiet ⟨csc, fates, []⟩ [] := Noted.refl false
  cases move with
  | next => exact readNextBatchOfRowsCsc_told quiet
  | previous =>
      simp only [batch, readPreviousBatchOfRowsCsc]
      by_cases before : 1 < csc.firstRowNumberInMem
      · rw [SeeksKept, ClientSideCursorResult.needed, if_pos before] at kept
        rw [if_pos before]
        exact readPreviousBatchOfRowsFromRowNumberCsc_told quiet kept
      · rw [if_neg before]
        exact quiet.told
  | first => exact readFirstBatchOfRowsCsc_told quiet
  | last => exact readLastBatchOfRowsCsc_told quiet kept
  | absolute rowNumber => exact readAbsoluteBatchOfRowsCsc_told quiet kept

/-! ## Lookups that drop a failed seek -/

/-- A batch has made a lookup whose seek failed and whose read worked. -/
def Dropped (run : Run) : Prop := .lookup true false ∈ run.disk.log

theorem Dropped.told {before after : Run} (dropped : before.Dropped)
    (told : after.Told before.disk.log) : after.Dropped :=
  told.starts.subset dropped

/-- A lookup that loses its seek drops it, without an error. -/
theorem readDataFileOffset_drops {rowNumber : Int} (valid : 0 < rowNumber)
    (lost : SeekLost run.csc.offsetStream.feof run.disk.fates rowNumber) :
    (run.readDataFileOffset rowNumber).2.Dropped ∧
      (run.readDataFileOffset rowNumber).2.csc.ioe = run.csc.offsetStream.error := by
  obtain ⟨log, result⟩ :=
    run.disk.readDataFileOffsetCsc_result run.csc.offsetStream run.csc.ioe valid
  rw [decide_eq_true lost.1, decide_eq_false lost.2] at log
  rw [decide_eq_false lost.2, Bool.or_false] at result
  have logged : (run.readDataFileOffset rowNumber).2.disk.log =
      run.disk.log ++ [.lookup true false] := log
  refine ⟨?_, result⟩
  rw [Dropped, logged]
  exact List.mem_append_right _ (List.mem_singleton.mpr rfl)

theorem readDataFileOffset_log (run : Run) (rowNumber : Int) :
    run.disk.log <+: (run.readDataFileOffset rowNumber).2.disk.log := by
  by_cases valid : 0 < rowNumber
  · have log := (run.disk.readDataFileOffsetCsc_result run.csc.offsetStream run.csc.ioe valid).1
    have logged : (run.readDataFileOffset rowNumber).2.disk.log =
        (run.disk.readDataFileOffsetCsc run.csc.offsetStream run.csc.ioe rowNumber).2.2.2.log :=
      rfl
    rw [logged, log]
    exact List.prefix_append _ _
  · have same : (run.readDataFileOffset rowNumber).2.disk.log = run.disk.log := by
      simp only [readDataFileOffset, Disk.readDataFileOffsetCsc, if_neg valid]
    simp only [same, List.prefix_rfl]

theorem readBackward_log (rowNumber rows : Nat) (curRowOffset : Int) (run : Run) :
    run.disk.log <+: (readBackward rowNumber rows curRowOffset run).2.disk.log := by
  induction rowNumber generalizing rows curRowOffset run with
  | zero => exact List.prefix_rfl
  | succ rowNumber ih =>
      rw [readBackward]
      by_cases low : rowNumber ≤ 1
      · simp only [if_pos low, List.prefix_rfl]
      · have looked := readDataFileOffset_log run rowNumber
        rw [if_neg low]
        generalize run.readDataFileOffset rowNumber = found at looked ⊢
        simp only
        generalize (if found.1 ≠ -1 then checkForThresholdLimitReachCsc found.2.csc.threshold
          found.2.csc.inMemoryResultSizeFromFile found.2.csc.cols (curRowOffset - found.1)
          else (false, found.2.csc.inMemoryResultSizeFromFile)) = limit
        split
        · exact looked
        · exact looked.trans (ih _ _ ⟨{ found.2.csc with
            inMemoryResultSizeFromFile := limit.2 }, found.2.disk⟩)

/-- Going back drops a seek that is lost on the way. -/
theorem readBackward_drops (rowNumber rows : Nat) (curRowOffset : Int) {run : Run}
    (clear : run.csc.offsetStream.error = false)
    (lost : ¬Sought run.csc.offsetStream.file run.csc.offsetStream.feof run.disk.fates
      (rowsBack run.csc.threshold run.csc.cols run.csc.offsetStream.file rowNumber
        run.csc.inMemoryResultSizeFromFile curRowOffset)) :
    (readBackward rowNumber rows curRowOffset run).2.Dropped := by
  induction rowNumber generalizing rows curRowOffset run with
  | zero => exact absurd True.intro lost
  | succ rowNumber ih =>
      by_cases low : rowNumber ≤ 1
      · rw [rowsBack, if_pos low] at lost
        exact absurd True.intro lost
      · rw [rowsBack, if_neg low, Sought, not_and_or, not_not] at lost
        have valid : (0 : Int) < rowNumber := by omega
        by_cases here : SeekLost run.csc.offsetStream.feof run.disk.fates rowNumber
        · have dropped := (readDataFileOffset_drops valid here).1
          rw [readBackward, if_neg low]
          generalize run.readDataFileOffset rowNumber = found at dropped ⊢
          simp only
          generalize (if found.1 ≠ -1 then checkForThresholdLimitReachCsc found.2.csc.threshold
            found.2.csc.inMemoryResultSizeFromFile found.2.csc.cols (curRowOffset - found.1)
            else (false, found.2.csc.inMemoryResultSizeFromFile)) = limit
          split
          · exact dropped
          · exact (readBackward_log _ _ _ ⟨{ found.2.csc with
              inMemoryResultSizeFromFile := limit.2 }, found.2.disk⟩).subset dropped
        · have rest := lost.resolve_left here
          rw [← or_assoc, not_or] at rest
          obtain ⟨works, further⟩ := rest
          obtain ⟨behind, log, looked, file, unset, ended⟩ :=
            readDataFileOffset_works valid clear works
          rw [readBackward]
          simp only [if_neg low, looked]
          generalize offsetIn run.csc.offsetStream.file rowNumber = offset at further ⊢
          generalize (if offset ≠ -1 then
            checkForThresholdLimitReachCsc run.csc.threshold run.csc.inMemoryResultSizeFromFile
              run.csc.cols (curRowOffset - offset)
            else (false, run.csc.inMemoryResultSizeFromFile)) = limit at further ⊢
          split
          · next stops =>
            rw [if_pos stops] at further
            exact absurd True.intro further
          · next goesOn =>
            rw [if_neg goesOn, ← ended, ← file] at further
            exact ih _ _ unset further

theorem readPreviousBatchOfRowsFromRowNumberCsc_drops {rowNumber : Int}
    (lost : ¬(run.csc.offsetStream.error = true ∨ Sought run.csc.offsetStream.file
      run.csc.offsetStream.feof run.disk.fates (run.csc.backFrom rowNumber))) :
    (run.readPreviousBatchOfRowsFromRowNumberCsc rowNumber).2.Dropped := by
  rw [not_or] at lost
  obtain ⟨error, lost⟩ := lost
  have clear := Bool.eq_false_of_not_eq_true error
  by_cases valid : 0 < rowNumber
  · rw [ClientSideCursorResult.backFrom, if_pos valid, Sought, not_and_or, not_not] at lost
    have behindSearch : ∀ found : ClientSideCursorResult.Backward × Run, found.2.Dropped →
        (if found.2.csc.ioe then (([] : Tuples), found.2)
          else found.2.readNextBatchOfRowsFromOffsetCsc found.1.startRowOffset found.1.rowNumber
            found.1.rows).2.Dropped := by
      intro found dropped
      split
      · exact dropped
      · exact dropped.told (readNextBatchOfRowsFromOffsetCsc_told (Noted.refl false) _ _ _)
    by_cases here : SeekLost run.csc.offsetStream.feof run.disk.fates rowNumber
    · obtain ⟨dropped, quiet⟩ := readDataFileOffset_drops valid here
      rw [clear] at quiet
      rw [readPreviousBatchOfRowsFromRowNumberCsc, if_pos valid]
      generalize run.readDataFileOffset rowNumber = found at dropped quiet ⊢
      simp only [quiet, Bool.false_eq_true, if_false]
      refine behindSearch _ ?_
      split
      · exact (readBackward_log _ _ _ ⟨{ found.2.csc with
          inMemoryResultSizeFromFile := 0, ioe := false }, found.2.disk⟩).subset dropped
      · exact dropped
    · have rest := lost.resolve_left here
      rw [← or_assoc, not_or] at rest
      obtain ⟨works, further⟩ := rest
      obtain ⟨behind, log, looked, file, unset, ended⟩ :=
        readDataFileOffset_works valid clear works
      rw [readPreviousBatchOfRowsFromRowNumberCsc, if_pos valid]
      simp only [looked, Bool.false_eq_true, if_false]
      refine behindSearch _ ?_
      generalize offsetIn run.csc.offsetStream.file rowNumber = offset at further ⊢
      by_cases back : 0 ≤ offset
      · rw [if_pos back, ← ended, ← file] at further
        rw [if_pos back]
        exact readBackward_drops _ _ _ unset further
      · rw [if_neg back] at further
        exact absurd True.intro further
  · rw [ClientSideCursorResult.backFrom, if_neg valid] at lost
    exact absurd True.intro lost

/-- Opening the row file for a lookup seeks nothing. -/
theorem checkAndOpenInputStreamCsc_calm (run : Run) :
    ¬(run.checkAndOpenInputStreamCsc false).csc.ioe = true := by
  rw [checkAndOpenInputStreamCsc]
  split
  · exact Bool.false_ne_true
  · simp only
    split <;> exact Bool.false_ne_true

theorem readLastBatchOfRowsCsc_drops (lost : ¬SeeksKept run.csc run.disk.fates .last) :
    run.readLastBatchOfRowsCsc.2.Dropped := by
  rw [readLastBatchOfRowsCsc]
  by_cases more : run.csc.lastRowNumberInMem < run.csc.totalRows
  · obtain ⟨offsets, disk, back⟩ := checkAndOpenInputStreamCsc_offsets run
    rw [SeeksKept, ClientSideCursorResult.needed, if_pos more, ← offsets, ← disk, ← back] at lost
    simp only [if_pos more, if_neg (checkAndOpenInputStreamCsc_calm run)]
    exact readPreviousBatchOfRowsFromRowNumberCsc_drops lost
  · rw [SeeksKept, ClientSideCursorResult.needed, if_neg more, Sought] at lost
    exact absurd (.inr True.intro) lost

theorem readAbsoluteBatchOfRowsCsc_drops {indexBuf : Int}
    (lost : ¬SeeksKept run.csc run.disk.fates (.absolute indexBuf)) :
    (run.readAbsoluteBatchOfRowsCsc indexBuf).2.Dropped := by
  by_cases needs : 0 < run.csc.absoluteRow indexBuf ∧
      run.csc.absoluteRow indexBuf ≤ run.csc.totalRows ∧
      (run.csc.absoluteRow indexBuf < run.csc.firstRowNumberInMem ∨
        run.csc.lastRowNumberInMem < run.csc.absoluteRow indexBuf)
  · obtain ⟨offsets, disk, -⟩ := checkAndOpenInputStreamCsc_offsets run
    rw [SeeksKept, ClientSideCursorResult.needed, if_pos needs, ← offsets, ← disk, not_or] at lost
    obtain ⟨-, lost⟩ := lost
    have here : SeekLost (run.checkAndOpenInputStreamCsc false).csc.offsetStream.feof
        (run.checkAndOpenInputStreamCsc false).disk.fates (run.csc.absoluteRow indexBuf) := by
      by_contra kept
      exact lost ⟨kept, .inr (.inr True.intro)⟩
    have dropped := (readDataFileOffset_drops needs.1 here).1
    simp only [readAbsoluteBatchOfRowsCsc, if_pos (And.intro needs.1 needs.2.1),
      if_pos needs.2.2, if_neg (checkAndOpenInputStreamCsc_calm run)]
    generalize (run.checkAndOpenInputStreamCsc false).readDataFileOffset
      (run.csc.absoluteRow indexBuf) = found at dropped ⊢
    split
    · have sought := seek_told (@Noted.refl found.2.disk.log false) found.1
      split
      · exact dropped.told sought
      · exact dropped.told (@readNextBatchOfRowsUntilThresholdCsc_told found.2.disk.log
          ((found.2.seek found.1).place _ _) sought)
    · exact dropped
  · rw [SeeksKept, ClientSideCursorResult.needed, if_neg needs, Sought] at lost
    exact absurd (.inr True.intro) lost

/-- A batch that loses a seek of its lookups has dropped it. -/
theorem batch_drops {csc : ClientSideCursorResult} {fates : List ReadFate} {move : Move}
    (lost : ¬SeeksKept csc fates move) : (batch ⟨csc, fates, []⟩ move).2.Dropped := by
  cases move with
  | next => exact absurd (.inr True.intro) lost
  | previous =>
      by_cases before : 1 < csc.firstRowNumberInMem
      · rw [SeeksKept, ClientSideCursorResult.needed, if_pos before] at lost
        simp only [batch, readPreviousBatchOfRowsCsc, if_pos before]
        exact readPreviousBatchOfRowsFromRowNumberCsc_drops lost
      · rw [SeeksKept, ClientSideCursorResult.needed, if_neg before, Sought] at lost
        exact absurd (.inr True.intro) lost
  | first => exact absurd (.inr True.intro) lost
  | last => exact readLastBatchOfRowsCsc_drops lost
  | absolute rowNumber => exact readAbsoluteBatchOfRowsCsc_drops lost

end Run

end RedshiftOdbc.Csc
