import RedshiftOdbc.Csc.Batch
import RedshiftOdbc.Csc.Commit

/-!
# The window of a scrollable cursor

The rows in memory are those the two row numbers name, and the row file stands
at the row behind the last one.  Every batch function is characterised once by
what it reads; the invariant of the window follows for every sequence of moves.
-/

namespace RedshiftOdbc.Csc

open RedshiftOdbc.Words RedshiftOdbc.Machine

/-- The rows behind the first `count` rows, `read` of them, as tuples. -/
def batch (rows : List Row) (count read : Nat) : List (List Attr) :=
  ((rows.drop count).take read).map Row.tuple

theorem batch_succ {rows : List Row} {count : Nat} (inside : count < rows.length) (read : Nat) :
    batch rows count (read + 1) = (rows[count]).tuple :: batch rows (count + 1) read := by
  rw [batch, List.drop_eq_getElem_cons inside, List.take_succ_cons, List.map_cons, batch]

theorem batch_length {rows : List Row} {count read : Nat} (inside : count + read ≤ rows.length) :
    (batch rows count read).length = read := by
  simp [batch]
  omega

namespace ClientSideCursorResult

/-- The row file is open at the start of the row behind `count` rows. -/
structure OpenAt (result : Result) (csc : ClientSideCursorResult) (stream : InputStream)
    (count : Nat) : Prop where
  input : csc.cscInputStream = some stream
  file : stream.file = encodeRows result.rows
  pos : stream.pos = rowOffset result.rows count
  sound : stream.Sound

/-- The state once `count` rows lie behind the read position. -/
def standing (csc : ClientSideCursorResult) (result : Result) (stream : InputStream) (count : Nat)
    (size : Int) : ClientSideCursorResult :=
  { csc with
    cscInputStream := some { stream with pos := rowOffset result.rows count }
    ioe := false
    endOfInputStream := false
    lastRowNumberInMem := count
    inMemoryResultSizeFromFile := size }

theorem openAt_standing {result : Result} {csc : ClientSideCursorResult} {stream : InputStream}
    {count : Nat} (openAt : OpenAt result csc stream count) (more : Nat) (size : Int) :
    OpenAt result (csc.standing result stream more size)
      { stream with pos := rowOffset result.rows more } more :=
  ⟨rfl, openAt.file, rfl, openAt.sound.feof, openAt.sound.eof, openAt.sound.error⟩

theorem standing_self {result : Result} {csc : ClientSideCursorResult} {stream : InputStream}
    {count : Nat} (openAt : OpenAt result csc stream count)
    (last : csc.lastRowNumberInMem = count) (calm : csc.ioe = false)
    (more : csc.endOfInputStream = false) :
    csc.standing result stream count csc.inMemoryResultSizeFromFile = csc := by
  have same : ({ stream with pos := rowOffset result.rows count } : InputStream) = stream := by
    rw [← openAt.pos]
  have input := openAt.input
  cases csc
  simp only at last calm more input
  subst last calm more input
  rw [standing, same]

/-- The row behind `count` rows is read and counted. -/
theorem readRow_openAt {result : Result} {csc : ClientSideCursorResult} {stream : InputStream}
    {count : Nat} (openAt : OpenAt result csc stream count) (inside : count < result.rows.length)
    (last : csc.lastRowNumberInMem = count) :
    csc.readRow = (some (result.rows[count]).tuple,
      csc.standing result stream (count + 1) csc.inMemoryResultSizeFromFile) := by
  have rest : stream.rest =
      encodeRow (result.rows[count]).cols ++ encodeRows (result.rows.drop (count + 1)) := by
    rw [InputStream.rest, openAt.file, openAt.pos, drop_encodeRows,
      List.drop_eq_getElem_cons inside, encodeRows_cons]
  have read := readRowCsc_written openAt.sound rest
  rw [openAt.pos, ← rowOffset_succ inside] at read
  simp [readRow, openAt.input, read, RowRead.counted, last, standing]

/-- Reading forward takes at least one of the rows that are left, and only rows that follow. -/
theorem readUntilThreshold_openAt (left : Nat) {result : Result} {csc : ClientSideCursorResult}
    {stream : InputStream} {count : Nat} (openAt : OpenAt result csc stream count)
    (room : count + left ≤ result.rows.length) (last : csc.lastRowNumberInMem = count)
    (calm : csc.ioe = false) (more : csc.endOfInputStream = false) :
    ∃ read size, read ≤ left ∧ (0 < left → 0 < read) ∧
      csc.readUntilThreshold left = (batch result.rows count read,
        csc.standing result stream (count + read) size) := by
  induction left generalizing csc stream count with
  | zero =>
      refine ⟨0, csc.inMemoryResultSizeFromFile, Nat.le_refl _, id, ?_⟩
      rw [Nat.add_zero, standing_self openAt last calm more]
      rfl
  | succ left ih =>
      have inside : count < result.rows.length := by omega
      have row := readRow_openAt openAt inside last
      rcases reach : checkForThresholdLimitReachCsc csc.threshold csc.inMemoryResultSizeFromFile
        (firstLength (result.rows[count]).tuple) (rawRowLength (result.rows[count]).tuple)
        with ⟨reached, size⟩
      have step : csc.readUntilThreshold (left + 1) =
          if reached then ([(result.rows[count]).tuple], csc.standing result stream (count + 1) size)
          else
            ((result.rows[count]).tuple ::
                ((csc.standing result stream (count + 1) size).readUntilThreshold left).1,
              ((csc.standing result stream (count + 1) size).readUntilThreshold left).2) := by
        rw [readUntilThreshold, calm, row]
        simp only [standing, Bool.or_self, Bool.false_eq_true, if_false, Option.getD_some, reach]
      cases reached with
      | true =>
          refine ⟨1, size, by omega, fun _ => by omega, ?_⟩
          rw [step, batch_succ inside]
          rfl
      | false =>
          obtain ⟨read, final, le, -, rest⟩ := ih
            (openAt_standing openAt (count + 1) size) (by omega) rfl rfl rfl
          refine ⟨read + 1, final, by omega, fun _ => by omega, ?_⟩
          rw [step, rest, batch_succ inside, show count + (read + 1) = count + 1 + read by omega]
          rfl

/-- Reading a number of rows that the file has takes exactly these. -/
theorem readNumberOfRows_openAt (number : Nat) {result : Result} {csc : ClientSideCursorResult}
    {stream : InputStream} {count : Nat} (openAt : OpenAt result csc stream count)
    (room : count + number ≤ result.rows.length) (last : csc.lastRowNumberInMem = count)
    (total : csc.totalRows = result.rows.length) (calm : csc.ioe = false)
    (more : csc.endOfInputStream = false) :
    csc.readNumberOfRows number = (batch result.rows count number,
      csc.standing result stream (count + number) csc.inMemoryResultSizeFromFile) := by
  induction number generalizing csc stream count with
  | zero =>
      rw [Nat.add_zero, standing_self openAt last calm more]
      rfl
  | succ number ih =>
      have inside : count < result.rows.length := by omega
      have before : ¬ csc.totalRows ≤ csc.lastRowNumberInMem := by
        rw [total, last]
        omega
      have rest := ih (openAt_standing openAt (count + 1) csc.inMemoryResultSizeFromFile)
        (by omega) rfl total rfl rfl
      rw [readNumberOfRows, if_neg before, calm, readRow_openAt openAt inside last]
      simp only [Bool.false_eq_true, if_false]
      rw [rest, batch_succ inside, show count + (number + 1) = count + 1 + number by omega]
      rfl

/-- The offset file is whole and its stream, once open, has met no error. -/
structure OffsetsReady (result : Result) (csc : ClientSideCursorResult) : Prop where
  file : csc.offsetFile = encodeOffsets 0 result.rows
  stream : ∀ stream, csc.cscOffsetInputStream = some stream →
    stream.file = csc.offsetFile ∧ stream.error = false

/-- The start of the row behind `count` rows is found. -/
theorem readDataFileOffset_ready {result : Result} {csc : ClientSideCursorResult} {count : Nat}
    (ready : OffsetsReady result csc) (inside : count < result.rows.length)
    (near : count < lookupMax) :
    ∃ offsets, csc.readDataFileOffset (count + 1 : Nat) =
        ((rowOffset result.rows count : Int),
          { csc with cscOffsetInputStream := some offsets, ioe := false }) ∧
      offsets.file = csc.offsetFile ∧ offsets.error = false := by
  have stream : (csc.cscOffsetInputStream.getD (.opened csc.offsetFile)).file = csc.offsetFile ∧
      (csc.cscOffsetInputStream.getD (.opened csc.offsetFile)).error = false := by
    cases kind : csc.cscOffsetInputStream with
    | none => exact ⟨rfl, rfl⟩
    | some stream => exact ready.stream stream kind
  have file : encodeOffsets 0 (result.rows.take (count + 1)) <+:
      (csc.cscOffsetInputStream.getD (.opened csc.offsetFile)).file := by
    have prefixes := encodeOffsets_take_isPrefix result.rows (Nat.succ_le_of_lt inside)
    rw [List.take_length] at prefixes
    rw [stream.1, ready.file]
    exact prefixes
  obtain ⟨offsets, read, calm, same⟩ :=
    readDataFileOffsetCsc_written stream.2 inside near file csc.ioe
  refine ⟨offsets, ?_, same.trans stream.1, calm⟩
  simp only [readDataFileOffset, read]

def lookedUp (csc : ClientSideCursorResult) (offsets : Option InputStream) (size : Int) :
    ClientSideCursorResult :=
  { csc with
    cscOffsetInputStream := offsets, ioe := false, inMemoryResultSizeFromFile := size }

theorem offsetsReady_lookedUp {result : Result} {csc : ClientSideCursorResult}
    {offsets : InputStream} (ready : OffsetsReady result csc)
    (file : offsets.file = csc.offsetFile) (calm : offsets.error = false) (size : Int) :
    OffsetsReady result (csc.lookedUp (some offsets) size) := by
  refine ⟨ready.file, ?_⟩
  intro stream same
  cases same
  exact ⟨file, calm⟩

/-- The backward loop finds a row at or before the one it starts from, and counts the rows. -/
theorem readBackward_ready (count : Nat) {result : Result} {csc : ClientSideCursorResult}
    (ready : OffsetsReady result csc) (calm : csc.ioe = false)
    (inside : count < result.rows.length) (near : count < lookupMax) (rows : Nat) :
    ∃ start offsets size, start ≤ count ∧
      csc.readBackward (count + 1) rows (rowOffset result.rows count) =
        (⟨(start + 1 : Nat), rows + (count - start) + 1, (rowOffset result.rows start : Nat)⟩,
          csc.lookedUp offsets size) ∧
      OffsetsReady result (csc.lookedUp offsets size) := by
  induction count generalizing csc rows with
  | zero =>
      refine ⟨0, csc.cscOffsetInputStream, csc.inMemoryResultSizeFromFile, Nat.le_refl _, ?_, ?_⟩
      · rw [readBackward, if_pos (Nat.zero_le _), lookedUp, ← calm]
        rfl
      · rw [lookedUp, ← calm]
        exact ready
  | succ count ih =>
      by_cases low : count + 1 ≤ 1
      · refine ⟨count + 1, csc.cscOffsetInputStream, csc.inMemoryResultSizeFromFile,
          Nat.le_refl _, ?_, ?_⟩
        · rw [readBackward, if_pos low, lookedUp, ← calm, Nat.sub_self]
          rfl
        · rw [lookedUp, ← calm]
          exact ready
      · obtain ⟨offsets, read, file, silent⟩ := readDataFileOffset_ready ready
          (by omega : count < result.rows.length) (by omega)
        have present : ((rowOffset result.rows count : Nat) : Int) ≠ -1 := by omega
        have nonneg : ¬ ((rowOffset result.rows count : Nat) : Int) < 0 := by omega
        rcases reach : checkForThresholdLimitReachCsc csc.threshold
          csc.inMemoryResultSizeFromFile csc.cols
          ((rowOffset result.rows (count + 1) : Nat) - (rowOffset result.rows count : Nat))
          with ⟨reached, size⟩
        have next := offsetsReady_lookedUp ready file silent size
        have step : csc.readBackward (count + 1 + 1) rows (rowOffset result.rows (count + 1)) =
            if reached then
              (⟨(count + 1 + 1 : Nat), rows + 1, (rowOffset result.rows (count + 1) : Nat)⟩,
                csc.lookedUp (some offsets) size)
            else (csc.lookedUp (some offsets) size).readBackward (count + 1) (rows + 1)
              (rowOffset result.rows count) := by
          rw [readBackward, if_neg low, read]
          simp only [ne_eq, present, not_false_eq_true, if_true, reach, nonneg, decide_false,
            Bool.false_or]
          rfl
        cases reached with
        | true =>
            refine ⟨count + 1, some offsets, size, Nat.le_refl _, ?_, next⟩
            rw [step, Nat.sub_self]
            rfl
        | false =>
            obtain ⟨start, others, final, le, rest, done⟩ := ih next rfl (by omega) (by omega)
              (rows + 1)
            refine ⟨start, others, final, by omega, ?_, done⟩
            rw [step, show rows + (count + 1 - start) + 1 = rows + 1 + (count - start) + 1 by omega]
            simp only [Bool.false_eq_true, if_false]
            rw [rest]
            rfl

theorem seek_sound (csc : ClientSideCursorResult) {stream : InputStream}
    (input : csc.cscInputStream = some stream) (sound : stream.Sound) (offset : Nat) :
    csc.seek (offset : Int) = { csc with
      cscInputStream := some { stream with pos := offset }, ioe := false } := by
  have nonneg : ¬ (offset : Int) < 0 := by omega
  have same : ({ stream with pos := offset, feof := false } : InputStream) =
      { stream with pos := offset } := by
    rw [← sound.feof]
  simp only [seek, input, InputStream.seekCscInputStream, nonneg, if_false, Int.toNat_natCast, same]

/-- Both files are whole, the row file is open and nothing has gone wrong. -/
structure Ready (result : Result) (csc : ClientSideCursorResult) (stream : InputStream) :
    Prop where
  file : csc.file = encodeRows result.rows
  total : csc.totalRows = result.rows.length
  offsets : OffsetsReady result csc
  calm : csc.ioe = false
  more : csc.endOfInputStream = false
  input : csc.cscInputStream = some stream
  content : stream.file = encodeRows result.rows
  sound : stream.Sound

/-- The `len` rows behind the first `start` rows are in memory. -/
structure Window (result : Result) (csc : ClientSideCursorResult) (start len : Nat) : Prop where
  file : csc.file = encodeRows result.rows
  total : csc.totalRows = result.rows.length
  offsets : OffsetsReady result csc
  calm : csc.ioe = false
  more : csc.endOfInputStream = false
  first : csc.firstRowNumberInMem = (start + 1 : Nat)
  last : csc.lastRowNumberInMem = (start + len : Nat)
  positive : 0 < len
  inside : start + len ≤ result.rows.length
  tuples : csc.tuples = batch result.rows start len
  position : (∃ stream, OpenAt result csc stream (start + len)) ∨
    csc.cscInputStream = none ∧ start = 0 ∧
      csc.firstReadFromFileOffset = (rowOffset result.rows len : Nat)

theorem install_nil {csc : ClientSideCursorResult} (calm : csc.ioe = false) :
    install ([], csc) = csc := by
  cases csc
  simp only at calm
  subst calm
  rfl

/-- A batch with rows becomes the window. -/
theorem window_standing {result : Result} {csc : ClientSideCursorResult} {stream : InputStream}
    {start len : Nat} (ready : Ready result csc stream)
    (first : csc.firstRowNumberInMem = (start + 1 : Nat)) (positive : 0 < len)
    (inside : start + len ≤ result.rows.length) (size : Int) :
    Window result (install (batch result.rows start len,
      csc.standing result stream (start + len) size)) start len := by
  have filled : batch result.rows start len ≠ [] := by
    intro empty
    have length := batch_length inside
    rw [empty] at length
    simp only [List.length_nil] at length
    omega
  refine ⟨ready.file, ready.total, ⟨ready.offsets.file, ready.offsets.stream⟩, rfl, rfl, first,
    rfl, positive, inside, ?_, .inl ⟨{ stream with pos := rowOffset result.rows (start + len) },
      rfl, ready.content, rfl, ready.sound.feof, ready.sound.eof, ready.sound.error⟩⟩
  simp only [install, filled, if_false]

theorem untilThreshold_open (csc : ClientSideCursorResult) {stream : InputStream}
    (more : csc.endOfInputStream = false) (input : csc.cscInputStream = some stream) :
    csc.readNextBatchOfRowsUntilThresholdCsc =
      readUntilThreshold (csc.totalRows - csc.lastRowNumberInMem).toNat
        { csc with inMemoryResultSizeFromFile := 0 } := by
  rw [readNextBatchOfRowsUntilThresholdCsc, if_neg (by simp [more])]
  split
  · next closed =>
      rw [input] at closed
      cases closed
  · rfl

theorem fromOffset_open (csc : ClientSideCursorResult) {stream : InputStream}
    (more : csc.endOfInputStream = false) (input : csc.cscInputStream = some stream)
    (startRowOffset startRowNumber : Int) (rows : Nat) :
    csc.readNextBatchOfRowsFromOffsetCsc startRowOffset startRowNumber rows =
      readNumberOfRows rows { csc.seek startRowOffset with
        firstRowNumberInMem := startRowNumber
        lastRowNumberInMem := startRowNumber - 1 } := by
  rw [readNextBatchOfRowsFromOffsetCsc, if_neg (by simp [more])]
  split
  · next closed =>
      rw [input] at closed
      cases closed
  · rfl

/-- Reading on from the start of a row until the threshold. -/
theorem window_untilThreshold {result : Result} (csc : ClientSideCursorResult)
    (stream : InputStream) (start : Nat) (ready : Ready result csc stream)
    (pos : stream.pos = rowOffset result.rows start)
    (first : csc.firstRowNumberInMem = (start + 1 : Nat))
    (last : csc.lastRowNumberInMem = start) (inside : start < result.rows.length) :
    ∃ len, Window result (install csc.readNextBatchOfRowsUntilThresholdCsc) start len := by
  have left : (csc.totalRows - csc.lastRowNumberInMem).toNat = result.rows.length - start := by
    rw [ready.total, last]
    omega
  have openAt : OpenAt result { csc with inMemoryResultSizeFromFile := 0 } stream start :=
    ⟨ready.input, ready.content, pos, ready.sound⟩
  obtain ⟨len, size, le, positive, read⟩ := readUntilThreshold_openAt (result.rows.length - start)
    openAt (by omega) last ready.calm ready.more
  refine ⟨len, ?_⟩
  rw [untilThreshold_open csc ready.more ready.input, left, read]
  have reading : Ready result { csc with inMemoryResultSizeFromFile := 0 } stream :=
    ⟨ready.file, ready.total, ⟨ready.offsets.file, ready.offsets.stream⟩, ready.calm, ready.more,
      ready.input, ready.content, ready.sound⟩
  exact window_standing reading first (positive (by omega)) (by omega) size

/-- Reading backward from the row behind `count` rows. -/
theorem window_backward {result : Result} {csc : ClientSideCursorResult} {stream : InputStream}
    (count : Nat) (ready : Ready result csc stream) (inside : count < result.rows.length)
    (near : count < lookupMax) :
    ∃ start, start ≤ count ∧
      Window result (install (csc.readPreviousBatchOfRowsFromRowNumberCsc (count + 1 : Nat)))
        start (count + 1 - start) := by
  obtain ⟨offsets, lookup, file, silent⟩ := readDataFileOffset_ready ready.offsets inside near
  have next := offsetsReady_lookedUp ready.offsets file silent 0
  obtain ⟨start, others, size, le, back, done⟩ :=
    readBackward_ready count next rfl inside near 0
  refine ⟨start, le, ?_⟩
  have rows : 0 + (count - start) + 1 = count + 1 - start := by omega
  rw [rows] at back
  let found := (csc.lookedUp (some offsets) 0).lookedUp others size
  let from_start : ClientSideCursorResult := { found with
    cscInputStream := some { stream with pos := rowOffset result.rows start }
    ioe := false
    firstRowNumberInMem := (start + 1 : Nat)
    lastRowNumberInMem := start }
  have reading : Ready result from_start { stream with pos := rowOffset result.rows start } :=
    ⟨ready.file, ready.total, ⟨done.file, done.stream⟩, rfl, ready.more, rfl, ready.content,
      ready.sound.feof, ready.sound.eof, ready.sound.error⟩
  have openAt : OpenAt result from_start { stream with pos := rowOffset result.rows start } start :=
    ⟨rfl, ready.content, rfl, ready.sound.feof, ready.sound.eof, ready.sound.error⟩
  have batchRead := readNumberOfRows_openAt (count + 1 - start) openAt (by omega) rfl ready.total
    rfl ready.more
  have seek : found.seek (rowOffset result.rows start : Nat) = { found with
      cscInputStream := some { stream with pos := rowOffset result.rows start }, ioe := false } :=
    seek_sound found ready.input ready.sound _
  have read : csc.readPreviousBatchOfRowsFromRowNumberCsc (count + 1 : Nat) =
      from_start.readNumberOfRows (count + 1 - start) := by
    have above : (0 : Int) < (count + 1 : Nat) := by omega
    have nonneg : (0 : Int) ≤ (rowOffset result.rows count : Nat) := by omega
    have same : ({ csc with
        cscOffsetInputStream := some offsets
        ioe := false
        inMemoryResultSizeFromFile := 0 } : ClientSideCursorResult) =
          csc.lookedUp (some offsets) 0 := rfl
    have below : ((start + 1 : Nat) : Int) - 1 = (start : Nat) := by omega
    rw [readPreviousBatchOfRowsFromRowNumberCsc, if_pos above, lookup]
    simp only [Bool.false_eq_true, if_false, nonneg, if_true, same, Int.toNat_natCast, back]
    change readNextBatchOfRowsFromOffsetCsc found _ _ _ = _
    rw [fromOffset_open found ready.more ready.input, seek, below]
  rw [read, batchRead]
  exact window_standing reading rfl (by omega) (by omega) _

/-- Opening the row file, if need be, keeps everything else. -/
theorem checkAndOpen_window {result : Result} {csc : ClientSideCursorResult} {start len : Nat}
    (window : Window result csc start len) (seekForNext : Bool) :
    ∃ stream offset, csc.checkAndOpenInputStreamCsc seekForNext = { csc with
        cscInputStream := some stream, firstReadFromFileOffset := offset, ioe := false } ∧
      stream.file = encodeRows result.rows ∧ stream.Sound ∧
      (seekForNext = true → stream.pos = rowOffset result.rows (start + len)) := by
  rcases window.position with ⟨stream, openAt⟩ | ⟨closed, zero, offset⟩
  · refine ⟨stream, csc.firstReadFromFileOffset, ?_, openAt.file, openAt.sound, fun _ => openAt.pos⟩
    rw [checkAndOpenInputStreamCsc, openAt.input]
  · subst zero
    by_cases skip : (0 : Int) < (rowOffset result.rows len : Nat)
    · cases seekForNext with
      | false =>
          refine ⟨.opened csc.file, 0, ?_, window.file, ⟨rfl, rfl, rfl⟩, by simp⟩
          rw [checkAndOpenInputStreamCsc, closed]
          simp only [offset, skip, if_true, Bool.false_eq_true, if_false]
      | true =>
          refine ⟨{ InputStream.opened csc.file with pos := rowOffset result.rows len }, 0, ?_,
            window.file, ⟨rfl, rfl, rfl⟩, fun _ => by rw [Nat.zero_add]⟩
          have seek := seek_sound
            { csc with cscInputStream := some (.opened csc.file), ioe := false }
            rfl ⟨rfl, rfl, rfl⟩ (rowOffset result.rows len)
          have ahead : 0 < csc.firstReadFromFileOffset := by
            rw [offset]
            exact skip
          rw [← offset] at seek
          rw [checkAndOpenInputStreamCsc, closed]
          simp only [ahead, if_true, seek]
    · refine ⟨.opened csc.file, csc.firstReadFromFileOffset, ?_, window.file, ⟨rfl, rfl, rfl⟩, ?_⟩
      · rw [checkAndOpenInputStreamCsc, closed]
        simp only [offset, skip, if_false]
      · intro _
        rw [Nat.zero_add]
        simp only [InputStream.opened]
        omega

/-! ## The moves -/

/-- After the row file was opened the window is ready for reading. -/
theorem Window.ready {result : Result} {csc : ClientSideCursorResult} {start len : Nat}
    (window : Window result csc start len) {stream : InputStream} (offset : Int)
    (content : stream.file = encodeRows result.rows) (sound : stream.Sound) :
    Ready result { csc with
      cscInputStream := some stream, firstReadFromFileOffset := offset, ioe := false } stream :=
  ⟨window.file, window.total, ⟨window.offsets.file, window.offsets.stream⟩, rfl, window.more, rfl,
    content, sound⟩

theorem Window.opened {result : Result} {csc : ClientSideCursorResult} {start len : Nat}
    (window : Window result csc start len) {stream : InputStream} (offset size : Int)
    (content : stream.file = encodeRows result.rows) (sound : stream.Sound)
    (pos : stream.pos = rowOffset result.rows (start + len)) :
    Window result { csc with
      cscInputStream := some stream
      firstReadFromFileOffset := offset
      ioe := false
      inMemoryResultSizeFromFile := size } start len :=
  ⟨window.file, window.total, ⟨window.offsets.file, window.offsets.stream⟩, rfl, window.more,
    window.first, window.last, window.positive, window.inside, window.tuples,
    .inl ⟨stream, rfl, content, pos, sound⟩⟩

theorem next_window {result : Result} {csc : ClientSideCursorResult} {start len : Nat}
    (window : Window result csc start len) (more : start + len < result.rows.length) :
    ∃ read, Window result (csc.move .next) (start + len) read := by
  obtain ⟨stream, offset, opened, content, sound, pos⟩ := checkAndOpen_window window true
  have before : csc.lastRowNumberInMem < csc.totalRows := by
    rw [window.last, window.total]
    omega
  have ready := window.ready offset content sound
  have reading := window_untilThreshold { csc with
      cscInputStream := some stream
      firstReadFromFileOffset := offset
      ioe := false
      firstRowNumberInMem := csc.lastRowNumberInMem + 1 } stream (start + len)
    ⟨ready.file, ready.total, ⟨ready.offsets.file, ready.offsets.stream⟩, rfl, ready.more, rfl,
      content, sound⟩
    (pos rfl) (by simp [window.last]) window.last more
  rw [move, readNextBatchOfRowsCsc, if_neg (by simp [window.more]), opened]
  simp only [Bool.false_eq_true, if_false, before, if_true]
  exact reading

theorem next_window_last {result : Result} {csc : ClientSideCursorResult} {start len : Nat}
    (window : Window result csc start len) (all : start + len = result.rows.length) :
    Window result (csc.move .next) start len := by
  obtain ⟨stream, offset, opened, content, sound, pos⟩ := checkAndOpen_window window true
  have done : ¬ csc.lastRowNumberInMem < csc.totalRows := by
    rw [window.last, window.total]
    omega
  have none_left : (csc.totalRows - csc.lastRowNumberInMem).toNat = 0 := by
    rw [window.last, window.total]
    omega
  have read := untilThreshold_open { csc with
      cscInputStream := some stream, firstReadFromFileOffset := offset, ioe := false }
    window.more rfl
  rw [none_left, readUntilThreshold] at read
  rw [move, readNextBatchOfRowsCsc, if_neg (by simp [window.more]), opened]
  simp only [Bool.false_eq_true, if_false, done, read, ne_eq, not_true_eq_false, and_false]
  rw [install_nil rfl]
  exact window.opened offset 0 content sound (pos rfl)

theorem previous_window {result : Result} {csc : ClientSideCursorResult} {start len : Nat}
    (window : Window result csc start len) (some_before : 0 < start) (near : start ≤ lookupMax) :
    ∃ earlier, earlier < start ∧
      Window result (csc.move .previous) earlier (start - earlier) := by
  rcases window.position with ⟨stream, openAt⟩ | ⟨-, zero, -⟩
  · have inside := window.inside
    have ready : Ready result csc stream :=
      ⟨window.file, window.total, window.offsets, window.calm, window.more, openAt.input,
        openAt.file, openAt.sound⟩
    obtain ⟨earlier, le, reading⟩ := window_backward (start - 1) ready (by omega)
      (by omega)
    have back : start - 1 + 1 = start := by omega
    rw [back] at reading
    have above : 1 < csc.firstRowNumberInMem := by
      rw [window.first]
      omega
    have row : csc.firstRowNumberInMem - 1 = (start : Nat) := by
      rw [window.first]
      omega
    refine ⟨earlier, by omega, ?_⟩
    rw [move, readPreviousBatchOfRowsCsc, if_pos above, row]
    exact reading
  · omega

theorem first_window {result : Result} {csc : ClientSideCursorResult} {start len : Nat}
    (window : Window result csc start len) (some_before : 0 < start) :
    ∃ read, Window result (csc.move .first) 0 read := by
  obtain ⟨stream, offset, opened, content, sound, -⟩ := checkAndOpen_window window false
  have inside := window.inside
  have ready := window.ready offset content sound
  have above : 1 < csc.firstRowNumberInMem := by
    rw [window.first]
    omega
  have seek := seek_sound _ ready.input sound 0
  have reading := window_untilThreshold { csc with
      cscInputStream := some { stream with pos := 0 }
      firstReadFromFileOffset := offset
      ioe := false
      firstRowNumberInMem := 1
      lastRowNumberInMem := 0 } { stream with pos := 0 } 0
    ⟨ready.file, ready.total, ⟨ready.offsets.file, ready.offsets.stream⟩, rfl, ready.more, rfl,
      content, sound.feof, sound.eof, sound.error⟩
    rfl rfl rfl (by have := window.positive; omega)
  rw [move, readFirstBatchOfRowsCsc, if_pos above, opened]
  simp only [Bool.false_eq_true, if_false]
  rw [Nat.cast_zero] at seek
  rw [seek]
  exact reading

theorem last_window {result : Result} {csc : ClientSideCursorResult} {start len : Nat}
    (window : Window result csc start len) (more : start + len < result.rows.length)
    (near : result.rows.length ≤ lookupMax) :
    ∃ earlier, earlier < result.rows.length ∧
      Window result (csc.move .last) earlier (result.rows.length - earlier) := by
  obtain ⟨stream, offset, opened, content, sound, -⟩ := checkAndOpen_window window false
  have ready := window.ready offset content sound
  have before : csc.lastRowNumberInMem < csc.totalRows := by
    rw [window.last, window.total]
    omega
  obtain ⟨earlier, le, reading⟩ := window_backward (result.rows.length - 1) ready
    (by omega) (by omega)
  have back : result.rows.length - 1 + 1 = result.rows.length := by omega
  rw [back, ← window.total] at reading
  refine ⟨earlier, by omega, ?_⟩
  rw [move, readLastBatchOfRowsCsc, if_pos before, opened]
  simp only [Bool.false_eq_true, if_false]
  exact reading

/-- A row of the result is in memory after an absolute read, at the index reported. -/
theorem absolute_window {result : Result} {csc : ClientSideCursorResult} {start len row : Nat}
    {indexBuf : Int} (window : Window result csc start len)
    (resolved : csc.absoluteRow indexBuf = (row + 1 : Nat)) (inside : row < result.rows.length)
    (near : (start ≤ row ∧ row < start + len) ∨ row < lookupMax) :
    ∃ from_row read, Window result (csc.move (.absolute indexBuf)) from_row read ∧
      from_row ≤ row ∧ row < from_row + read ∧
      csc.absoluteIndex indexBuf = ((row - from_row + 1 : Nat) : Int) := by
  have range : (0 : Int) < (row + 1 : Nat) ∧ ((row + 1 : Nat) : Int) ≤ csc.totalRows := by
    rw [window.total]
    omega
  by_cases here : start ≤ row ∧ row < start + len
  · have stay : ¬ (((row + 1 : Nat) : Int) < csc.firstRowNumberInMem ∨
        csc.lastRowNumberInMem < (row + 1 : Nat)) := by
      rw [window.first, window.last]
      omega
    have read : csc.readAbsoluteBatchOfRowsCsc indexBuf =
        ([], (row + 1 : Nat) - csc.firstRowNumberInMem + 1, csc) := by
      simp only [readAbsoluteBatchOfRowsCsc, resolved, range, and_self, if_true, stay, if_false]
    refine ⟨start, len, ?_, here.1, here.2, ?_⟩
    · simp only [move, read, install_nil window.calm]
      exact window
    · simp only [absoluteIndex, read, window.first]
      omega
  · have close : row < lookupMax := near.resolve_left here
    have out : ((row + 1 : Nat) : Int) < csc.firstRowNumberInMem ∨
        csc.lastRowNumberInMem < (row + 1 : Nat) := by
      rw [window.first, window.last]
      omega
    obtain ⟨stream, offset, opened, content, sound, -⟩ := checkAndOpen_window window false
    have ready := window.ready offset content sound
    obtain ⟨offsets, lookup, file, silent⟩ := readDataFileOffset_ready ready.offsets inside close
    have looked := offsetsReady_lookedUp ready.offsets file silent 0
    have present : ((rowOffset result.rows row : Nat) : Int) ≠ -1 := by omega
    have seek := seek_sound { csc with
        cscInputStream := some stream
        cscOffsetInputStream := some offsets
        firstReadFromFileOffset := offset
        ioe := false } rfl sound (rowOffset result.rows row)
    let placed : ClientSideCursorResult := { csc with
      cscInputStream := some { stream with pos := rowOffset result.rows row }
      cscOffsetInputStream := some offsets
      firstReadFromFileOffset := offset
      ioe := false
      firstRowNumberInMem := (row + 1 : Nat)
      lastRowNumberInMem := (row + 1 : Nat) - 1 }
    obtain ⟨read, reading⟩ :=
      window_untilThreshold placed { stream with pos := rowOffset result.rows row } row
      ⟨ready.file, ready.total, ⟨looked.file, looked.stream⟩, rfl, ready.more, rfl,
        content, sound.feof, sound.eof, sound.error⟩
      rfl rfl (by simp only [placed]; omega) inside
    have step : csc.readAbsoluteBatchOfRowsCsc indexBuf =
        (placed.readNextBatchOfRowsUntilThresholdCsc.1,
          (row + 1 : Nat) - placed.readNextBatchOfRowsUntilThresholdCsc.2.firstRowNumberInMem + 1,
          placed.readNextBatchOfRowsUntilThresholdCsc.2) := by
      simp only [readAbsoluteBatchOfRowsCsc, resolved, range, and_self, if_true, out, opened,
        Bool.false_eq_true, if_false, lookup, ne_eq, present, not_false_eq_true, seek]
      rfl
    refine ⟨row, read, ?_, Nat.le_refl _, by have := reading.positive; omega, ?_⟩
    · simp only [move, step]
      exact reading
    · have first := reading.first
      simp only [install] at first
      simp only [absoluteIndex, step, first]
      omega

theorem move_window_unchanged {result : Result} {csc : ClientSideCursorResult} {start len : Nat}
    (window : Window result csc start len) :
    (start = 0 → csc.move .previous = csc ∧ csc.move .first = csc) ∧
      (start + len = result.rows.length → csc.move .last = csc) ∧
      ∀ indexBuf, ¬ (0 < csc.absoluteRow indexBuf ∧ csc.absoluteRow indexBuf ≤ csc.totalRows) →
        csc.move (.absolute indexBuf) = csc ∧ csc.absoluteIndex indexBuf = indexBuf := by
  refine ⟨?_, ?_, ?_⟩
  · intro zero
    have low : ¬ 1 < csc.firstRowNumberInMem := by
      rw [window.first, zero]
      omega
    simp only [move, readPreviousBatchOfRowsCsc, readFirstBatchOfRowsCsc, low, if_false,
      install_nil window.calm, and_self]
  · intro all
    have done : ¬ csc.lastRowNumberInMem < csc.totalRows := by
      rw [window.last, window.total]
      omega
    simp only [move, readLastBatchOfRowsCsc, done, if_false, install_nil window.calm]
  · intro indexBuf outside
    simp only [move, absoluteIndex, readAbsoluteBatchOfRowsCsc, outside, if_false,
      install_nil window.calm, and_self]

end ClientSideCursorResult

/-- The offset in the row file at which the next batch is read. -/
def nextReadOffset (csc : ClientSideCursorResult) : Int :=
  match csc.cscInputStream with
  | some stream => stream.pos
  | none => csc.firstReadFromFileOffset

/-- The rows in memory are those the row numbers name, and the file stands behind them. -/
structure WindowHolds (result : Result) (csc : ClientSideCursorResult) : Prop where
  first_pos : 1 ≤ csc.firstRowNumberInMem
  first_le : csc.firstRowNumberInMem ≤ csc.lastRowNumberInMem
  last_le : csc.lastRowNumberInMem ≤ result.rows.length
  tuples : csc.tuples = batch result.rows (csc.firstRowNumberInMem - 1).toNat
    (csc.lastRowNumberInMem - csc.firstRowNumberInMem + 1).toNat
  position : nextReadOffset csc = (rowOffset result.rows csc.lastRowNumberInMem.toNat : Nat)

/-- Where each move takes the window. -/
def MovesRight (result : Result) (csc : ClientSideCursorResult) (move : Move) : Prop :=
  let next := csc.move move
  match move with
  | .next =>
      if csc.lastRowNumberInMem < result.rows.length then
        next.firstRowNumberInMem = csc.lastRowNumberInMem + 1
      else
        next.firstRowNumberInMem = csc.firstRowNumberInMem ∧
          next.lastRowNumberInMem = csc.lastRowNumberInMem
  | .previous =>
      if 1 < csc.firstRowNumberInMem then
        next.lastRowNumberInMem = csc.firstRowNumberInMem - 1
      else
        next.firstRowNumberInMem = csc.firstRowNumberInMem ∧
          next.lastRowNumberInMem = csc.lastRowNumberInMem
  | .first => next.firstRowNumberInMem = 1
  | .last => next.lastRowNumberInMem = result.rows.length
  | .absolute indexBuf =>
      let row := csc.absoluteRow indexBuf
      if 0 < row ∧ row ≤ result.rows.length then
        1 ≤ csc.absoluteIndex indexBuf ∧
          next.firstRowNumberInMem + csc.absoluteIndex indexBuf - 1 = row ∧
          next.tuples[(csc.absoluteIndex indexBuf - 1).toNat]? =
            (result.rows[(row - 1).toNat]?).map Row.tuple
      else next = csc ∧ csc.absoluteIndex indexBuf = indexBuf

/-- The highest row number a move looks up in the offset file. -/
def lookedUpRow (csc : ClientSideCursorResult) : Move → Option Int
  | .next | .first => none
  | .previous => some (csc.firstRowNumberInMem - 1)
  | .last => if csc.lastRowNumberInMem < csc.totalRows then some csc.totalRows else none
  | .absolute indexBuf =>
      let row := csc.absoluteRow indexBuf
      if (0 < row ∧ row ≤ csc.totalRows) ∧
          (row < csc.firstRowNumberInMem ∨ csc.lastRowNumberInMem < row) then some row
      else none

/-- The move looks up no row number whose place overflows an `int`. -/
def NearMove (csc : ClientSideCursorResult) (move : Move) : Prop :=
  ∀ row ∈ lookedUpRow csc move, row ≤ lookupMax

/-- The first row alone does not reach the memory threshold. -/
def FirstRowFits (threshold : Int) (result : Result) : Prop :=
  ∀ row ∈ result.rows.head?,
    (checkForThresholdLimitReachCsc threshold 0 0 (encodeRow row.cols).length).1 = false

namespace ClientSideCursorResult

theorem Window.holds {result : Result} {csc : ClientSideCursorResult} {start len : Nat}
    (window : Window result csc start len) : WindowHolds result csc := by
  have positive := window.positive
  have inside := window.inside
  refine ⟨?_, ?_, ?_, ?_, ?_⟩
  · rw [window.first]
    omega
  · rw [window.first, window.last]
    omega
  · rw [window.last]
    omega
  · have before : (((start + 1 : Nat) : Int) - 1).toNat = start := by omega
    have size : (((start + len : Nat) : Int) - (start + 1 : Nat) + 1).toNat = len := by omega
    rw [window.tuples, window.first, window.last, before, size]
  · rw [window.last, Int.toNat_natCast, nextReadOffset]
    rcases window.position with ⟨stream, openAt⟩ | ⟨closed, zero, offset⟩
    · rw [openAt.input]
      simp only [openAt.pos]
    · rw [closed, zero, Nat.zero_add]
      exact offset

/-- One move keeps the window and takes it where it should go. -/
theorem move_window {result : Result} {csc : ClientSideCursorResult} {start len : Nat}
    (window : Window result csc start len) (move : Move) (near : NearMove csc move) :
    (∃ from_row read, Window result (csc.move move) from_row read) ∧
      MovesRight result csc move := by
  have positive := window.positive
  have inside := window.inside
  obtain ⟨atFirst, atLast, outside⟩ := move_window_unchanged window
  cases move with
  | next =>
      by_cases more : start + len < result.rows.length
      · obtain ⟨read, moved⟩ := next_window window more
        refine ⟨⟨_, read, moved⟩, ?_⟩
        rw [MovesRight, if_pos (by rw [window.last]; omega), moved.first, window.last]
        omega
      · have moved := next_window_last window (by omega)
        refine ⟨⟨_, _, moved⟩, ?_⟩
        rw [MovesRight, if_neg (by rw [window.last]; omega), moved.first, moved.last,
          window.first, window.last]
        exact ⟨rfl, rfl⟩
  | previous =>
      by_cases before : 0 < start
      · have close : start ≤ lookupMax := by
          have bound := near _ rfl
          rw [window.first] at bound
          omega
        obtain ⟨earlier, le, moved⟩ := previous_window window before close
        refine ⟨⟨_, _, moved⟩, ?_⟩
        rw [MovesRight, if_pos (by rw [window.first]; omega), moved.last, window.first]
        omega
      · have same := (atFirst (by omega)).1
        refine ⟨⟨start, len, by rw [same]; exact window⟩, ?_⟩
        rw [MovesRight, if_neg (by rw [window.first]; omega), same]
        exact ⟨rfl, rfl⟩
  | first =>
      by_cases before : 0 < start
      · obtain ⟨read, moved⟩ := first_window window before
        exact ⟨⟨_, read, moved⟩, moved.first⟩
      · have same := (atFirst (by omega)).2
        refine ⟨⟨start, len, by rw [same]; exact window⟩, ?_⟩
        have zero : start = 0 := by omega
        rw [MovesRight, same, window.first, zero]
        rfl
  | last =>
      by_cases more : start + len < result.rows.length
      · have close : result.rows.length ≤ lookupMax := by
          have ahead : csc.lastRowNumberInMem < csc.totalRows := by
            rw [window.last, window.total]
            omega
          have bound := near csc.totalRows (by rw [lookedUpRow, if_pos ahead]; rfl)
          rw [window.total] at bound
          omega
        obtain ⟨earlier, le, moved⟩ := last_window window more close
        refine ⟨⟨_, _, moved⟩, ?_⟩
        rw [MovesRight, moved.last]
        omega
      · have same := atLast (by omega)
        refine ⟨⟨start, len, by rw [same]; exact window⟩, ?_⟩
        rw [MovesRight, same, window.last]
        omega
  | absolute indexBuf =>
      by_cases range : 0 < csc.absoluteRow indexBuf ∧ csc.absoluteRow indexBuf ≤ result.rows.length
      · obtain ⟨row, resolved⟩ : ∃ row : Nat, csc.absoluteRow indexBuf = (row + 1 : Nat) :=
          ⟨(csc.absoluteRow indexBuf - 1).toNat, by omega⟩
        have close : (start ≤ row ∧ row < start + len) ∨ row < lookupMax := by
          by_cases here : start ≤ row ∧ row < start + len
          · exact .inl here
          · have out : csc.absoluteRow indexBuf < csc.firstRowNumberInMem ∨
                csc.lastRowNumberInMem < csc.absoluteRow indexBuf := by
              rw [resolved, window.first, window.last]
              omega
            rw [← window.total] at range
            have bound := near _ (by rw [lookedUpRow, if_pos ⟨range, out⟩]; rfl)
            omega
        obtain ⟨from_row, read, moved, lower, upper, index⟩ :=
          absolute_window window resolved (by omega) close
        refine ⟨⟨_, _, moved⟩, ?_⟩
        have place : (((row - from_row + 1 : Nat) : Int) - 1).toNat = row - from_row := by omega
        have target : (((row + 1 : Nat) : Int) - 1).toNat = row := by omega
        have cut : row - from_row < read := by omega
        have sum : from_row + (row - from_row) = row := by omega
        simp only [MovesRight, if_pos range]
        simp only [index, moved.first, place, resolved, target, moved.tuples]
        refine ⟨by omega, by omega, ?_⟩
        simp [batch, cut, sum]
      · have kept := outside indexBuf (by rw [window.total]; exact range)
        refine ⟨⟨start, len, by rw [kept.1]; exact window⟩, ?_⟩
        rw [MovesRight]
        simp only [range, if_false]
        exact kept

end ClientSideCursorResult

/-! ## The result once it is written -/

namespace Writer

theorem totalRows_execAll (writer : Writer) (ops : List WriteOp) :
    (writer.execAll ops).totalRows = writer.totalRows + (ops.map WriteOp.counted).sum := by
  induction ops generalizing writer with
  | nil => rfl
  | cons op rest ih =>
      rw [execAll, List.foldl_cons, ← execAll, ih, totalRows_exec, List.map_cons, List.sum_cons,
        Nat.add_assoc]

theorem forwardOnly_execAll (writer : Writer) (ops : List WriteOp) :
    (writer.execAll ops).forwardOnly = writer.forwardOnly := by
  induction ops generalizing writer with
  | nil => rfl
  | cons op rest ih => rw [execAll, List.foldl_cons, ← execAll, ih, forwardOnly_exec]

theorem offsets_execAll (writer : Writer) {ops : List WriteOp}
    (others : ∀ op ∈ ops, op ≠ .offset ∧ op ≠ .flushOffset ∧ op ≠ .closeOffset) :
    (writer.execAll ops).offsets = writer.offsets := by
  induction ops generalizing writer with
  | nil => rfl
  | cons op rest ih =>
      rw [execAll, List.foldl_cons, ← execAll,
        ih _ (fun other member => others other (List.mem_cons_of_mem _ member)),
        offsets_exec _ (others op List.mem_cons_self)]

/-- A row of a scrollable cursor adds its start to the offset file. -/
theorem offsets_writeRowCsc (writer : Writer) (totalRows : Nat) (cols : List Column) :
    (writer.execAll (writeRowCsc false totalRows cols)).offsets =
      ⟨writer.offsets.total ++ little 8 writer.data.total.length, []⟩ := by
  have others : ∀ op ∈ WriteOp.short cols.length :: (cols.flatMap writeColumn ++ rowEnd totalRows),
      op ≠ .offset ∧ op ≠ .flushOffset ∧ op ≠ .closeOffset := by
    intro op member
    rcases List.mem_cons.mp member with rfl | member
    · simp
    · rcases List.mem_append.mp member with early | late
      · rcases mem_writeColumns early with ⟨_, rfl⟩ | ⟨_, rfl⟩ <;> simp
      · rcases mem_rowEnd late with rfl | rfl | rfl | rfl <;> simp
  rw [writeRowCsc_eq]
  simp only [Bool.false_eq_true, if_false]
  rw [execAll, List.foldl_append, ← execAll, offsets_execAll _ others]
  simp [exec, OutputStream.fflush, OutputStream.fwrite, OutputStream.total]

end Writer

/-- What a scrollable cursor's writer has after a number of rows. -/
structure Written (rows : List Row) (writer : Writer) : Prop where
  scrollable : writer.forwardOnly = false
  data : writer.data.total = encodeRows rows
  offsets : writer.offsets = ⟨encodeOffsets 0 rows, []⟩
  count : writer.totalRows = rows.length

theorem written_row {rows : List Row} {writer : Writer} (written : Written rows writer)
    (row : Row) :
    Written (rows ++ [row])
      (writer.execAll (writeRowCsc writer.forwardOnly writer.totalRows row.cols)) := by
  refine ⟨?_, ?_, ?_, ?_⟩
  · rw [Writer.forwardOnly_execAll, written.scrollable]
  · rw [Writer.total_execAll, stored_writeRowCsc, written.data, encodeRows_append]
    simp [encodeRows]
  · rw [written.scrollable, Writer.offsets_writeRowCsc, written.data, written.offsets,
      encodeOffsets_append]
    simp [OutputStream.total, encodeOffsets]
  · rw [Writer.totalRows_execAll, counted_writeRowCsc, written.count, List.length_append]
    rfl

theorem written_rows (more : List Row) {rows : List Row} {writer : Writer}
    (written : Written rows writer) :
    Written (rows ++ more) (more.foldl (fun writer row =>
      writer.execAll (writeRowCsc writer.forwardOnly writer.totalRows row.cols)) writer) := by
  induction more generalizing rows writer with
  | nil => simpa using written
  | cons row rest ih =>
      have tail := ih (written_row written row)
      rw [List.append_assoc] at tail
      exact tail

/-- The files of a fully written scrollable result. -/
theorem spilledWriter_files (rows : List Row) :
    (spilledWriter rows).data.visible = encodeRows rows ∧
      (spilledWriter rows).offsets.visible = encodeOffsets 0 rows ∧
      (spilledWriter rows).totalRows = rows.length := by
  have empty : Written [] (Writer.created false) := ⟨rfl, rfl, rfl, rfl⟩
  have written := written_rows rows empty
  rw [List.nil_append] at written
  rw [spilledWriter]
  generalize rows.foldl (fun writer row =>
    writer.execAll (writeRowCsc writer.forwardOnly writer.totalRows row.cols))
      (Writer.created false) = writer at written
  obtain ⟨-, data, offsets, count⟩ := written
  refine ⟨?_, ?_, ?_⟩
  · rw [← data]
    rfl
  · change writer.offsets.visible ++ writer.offsets.pending = _
    rw [offsets, List.append_nil]
  · exact count

theorem rowsUntilThreshold_lt {threshold : Int} {rows : List Row} {size : Int} {loaded : Nat}
    (found : rowsUntilThreshold threshold size rows = some loaded) : loaded < rows.length := by
  induction rows generalizing size loaded with
  | nil => cases found
  | cons row rest ih =>
      simp only [rowsUntilThreshold] at found
      split at found
      · cases found
        simp
      · obtain ⟨fewer, tail, rfl⟩ := Option.map_eq_some_iff.mp found
        have inside := ih tail
        simp only [List.length_cons]
        omega

theorem rowsUntilThreshold_pos {threshold : Int} {result : Result} {loaded : Nat}
    (found : rowsUntilThreshold threshold 0 result.rows = some loaded) :
    0 < loaded ↔ FirstRowFits threshold result := by
  rw [FirstRowFits]
  cases rows : result.rows with
  | nil =>
      rw [rows] at found
      cases found
  | cons row rest =>
      rw [rows] at found
      simp only [rowsUntilThreshold] at found
      split at found
      · next reached =>
          cases found
          simp [reached]
      · next below =>
          obtain ⟨fewer, tail, rfl⟩ := Option.map_eq_some_iff.mp found
          simpa using below

/-- A spilled result starts with a window exactly when its first row fits. -/
theorem spilled_window {threshold : Int} {result : Result} {csc : ClientSideCursorResult}
    (spill : spilled threshold result = some csc) :
    (∃ len, csc.Window result 0 len) ↔ FirstRowFits threshold result := by
  obtain ⟨loaded, found, rfl⟩ := Option.map_eq_some_iff.mp spill
  obtain ⟨data, offsets, count⟩ := spilledWriter_files result.rows
  rw [← rowsUntilThreshold_pos found]
  constructor
  · rintro ⟨len, window⟩
    have last := window.last
    have positive := window.positive
    simp only at last
    omega
  · intro positive
    have inside := rowsUntilThreshold_lt found
    refine ⟨loaded, data, by simp only [count], ⟨offsets, by simp⟩, rfl, rfl, rfl, ?_, positive,
      by omega, rfl, .inr ⟨rfl, rfl, rfl⟩⟩
    simp only [Nat.zero_add]

/--
In every sequence of moves of a spilled result whose first row fits into memory,
and which looks up no row number too large for an `int` offset, the window holds
in every state and every further such move takes it where it should go.
-/
theorem window_of_moves {threshold : Int} {result : Result} {start : ClientSideCursorResult}
    (spill : spilled threshold result = some start) (fits : FirstRowFits threshold result)
    (moves : List Move)
    (near : Guarded (fun csc move => some (ClientSideCursorResult.move csc move)) NearMove start
      moves) :
    ∀ csc ∈ visited (fun csc move => some (ClientSideCursorResult.move csc move)) start moves,
      WindowHolds result csc ∧ ∀ move, NearMove csc move → MovesRight result csc move := by
  obtain ⟨len, window⟩ := (spilled_window spill).mpr fits
  intro csc member
  have safe := visited_safe (fun csc => ∃ from_row read, csc.Window result from_row read)
    (by
      rintro csc move next ⟨from_row, read, window⟩ close step
      cases step
      exact (ClientSideCursorResult.move_window window move close).1)
    ⟨0, len, window⟩ near csc member
  obtain ⟨from_row, read, window⟩ := safe
  exact ⟨window.holds, fun move close => (ClientSideCursorResult.move_window window move close).2⟩

def twoRows : Result where
  rows := [⟨[some [88]], by decide, by decide, by simp [intMax]⟩,
    ⟨[some [89]], by decide, by decide, by simp [intMax]⟩]
  count_le := by decide
  fits := by decide

/-- With a threshold of 100 bytes the first of the two rows stays in memory. -/
theorem window_of_moves_twoRows :
    ∃ start, spilled 100 twoRows = some start ∧
      ∀ csc ∈ visited (fun csc move => some (ClientSideCursorResult.move csc move)) start
          [.next, .first],
        WindowHolds twoRows csc ∧ ∀ move, NearMove csc move → MovesRight twoRows csc move := by
  have spill : ∃ start, spilled 100 twoRows = some start := ⟨_, rfl⟩
  obtain ⟨start, spill⟩ := spill
  have fits : FirstRowFits 100 twoRows := by
    intro row same
    cases same
    decide
  refine ⟨start, spill, window_of_moves spill fits [.next, .first] ⟨?_, ?_, trivial⟩⟩ <;>
    intro row none <;> cases none

/-- With a threshold of one byte the first row is spilled and no row is in memory. -/
theorem window_of_moves_wrong :
    ¬ ∀ (threshold : Int) (result : Result) (start : ClientSideCursorResult),
      spilled threshold result = some start →
      ∀ (moves : List Move),
        ∀ csc ∈ visited (fun csc move => some (ClientSideCursorResult.move csc move)) start moves,
          WindowHolds result csc ∧ ∀ move, MovesRight result csc move := by
  intro every
  have holds := (every 1 twoRows _ rfl [] _ (mem_visited_start _ _)).1
  have order := holds.first_le
  revert order
  decide

end RedshiftOdbc.Csc
