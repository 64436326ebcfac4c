import RedshiftOdbc.Csc.RowFile

/-!
# The offset file of a scrollable cursor

Beside the row file a scrollable cursor keeps a file of eight-byte words, the
offset in the row file at which each row starts.  `readDataFileOffsetCsc` looks
a row up in it; the place of the word is computed as an `int`.
-/

namespace RedshiftOdbc.Csc

open RedshiftOdbc.Words

def offMax : Nat := 9223372036854775807

/-- The last row number whose word `readDataFileOffsetCsc` finds. -/
def lookupMax : Nat := 268435456

/--
The rows of a result.  `m_totalRows` is an `int`, and a file has no byte past
the largest offset.
-/
structure Result where
  rows : List Row
  count_le : rows.length ≤ intMax
  fits : (encodeRows rows).length ≤ offMax

/-- The offset at which the row behind the first `count` rows starts. -/
def rowOffset (rows : List Row) (count : Nat) : Nat := (encodeRows (rows.take count)).length

/-- The words of the offset file, the first row starting at `start`. -/
def encodeOffsets : Nat → List Row → List UInt8
  | _, [] => []
  | start, row :: rest =>
      little 8 start ++ encodeOffsets (start + (encodeRow row.cols).length) rest

/-- `readDataFileOffsetCsc`: the offset, `m_ioe` and the offset file's stream. -/
def readDataFileOffsetCsc (stream : InputStream) (ioe : Bool) (rowNumber : Int) :
    Int × Bool × InputStream :=
  if 0 < rowNumber then
    let offset := wrap 4 ((rowNumber - 1) * 8)
    -- the result of the seek is overwritten by that of the read
    let (_, stream) := stream.seekCscInputStream offset
    let (dataOffset, stream) := stream.readLongLongCscInputStream
    let (ioe, stream) := stream.getIOErrorCsc
    (if ioe then -1 else dataOffset, ioe, stream)
  else (-1, ioe, stream)

theorem encodeRows_cons (row : Row) (rest : List Row) :
    encodeRows (row :: rest) = encodeRow row.cols ++ encodeRows rest := by
  simp [encodeRows]

theorem encodeRows_append (first second : List Row) :
    encodeRows (first ++ second) = encodeRows first ++ encodeRows second := by
  simp [encodeRows]

/-- The bytes of a file of rows behind the first `count` rows. -/
theorem drop_encodeRows (rows : List Row) (count : Nat) :
    (encodeRows rows).drop (rowOffset rows count) = encodeRows (rows.drop count) := by
  have parts : encodeRows rows = encodeRows (rows.take count) ++ encodeRows (rows.drop count) := by
    rw [← encodeRows_append, List.take_append_drop]
  rw [parts, rowOffset, List.drop_left]

theorem encodeRows_take_isPrefix (rows : List Row) {fewer more : Nat} (le : fewer ≤ more) :
    encodeRows (rows.take fewer) <+: encodeRows (rows.take more) := by
  have parts : rows.take more = rows.take fewer ++ (rows.take more).drop fewer := by
    conv_lhs => rw [← List.take_append_drop fewer (rows.take more)]
    rw [List.take_take, Nat.min_eq_left le]
  rw [parts, encodeRows_append]
  exact List.prefix_append _ _

theorem rowOffset_succ {rows : List Row} {count : Nat} (inside : count < rows.length) :
    rowOffset rows (count + 1) = rowOffset rows count + (encodeRow (rows[count]).cols).length := by
  rw [rowOffset, rowOffset, ← List.take_append_getElem inside, encodeRows_append,
    List.length_append]
  simp [encodeRows]

theorem rowOffset_le (rows : List Row) (count : Nat) :
    rowOffset rows count ≤ (encodeRows rows).length := by
  have whole := encodeRows_take_isPrefix rows (Nat.le_max_left count rows.length)
  rw [List.take_of_length_le (Nat.le_max_right _ _)] at whole
  exact whole.length_le

theorem encodeOffsets_append (start : Nat) (first second : List Row) :
    encodeOffsets start (first ++ second) =
      encodeOffsets start first ++ encodeOffsets (start + (encodeRows first).length) second := by
  induction first generalizing start with
  | nil => simp [encodeOffsets, encodeRows]
  | cons row rest ih =>
      simp only [List.cons_append, encodeOffsets, ih, encodeRows_cons, List.length_append,
        List.append_assoc, Nat.add_assoc]

theorem encodeOffsets_length (start : Nat) (rows : List Row) :
    (encodeOffsets start rows).length = 8 * rows.length := by
  induction rows generalizing start with
  | nil => rfl
  | cons row rest ih =>
      rw [encodeOffsets, List.length_append, little_length, ih, List.length_cons]
      omega

/-- The word of the row behind the first `count` rows. -/
theorem encodeOffsets_take_succ {rows : List Row} {count : Nat} (inside : count < rows.length) :
    encodeOffsets 0 (rows.take (count + 1)) =
      encodeOffsets 0 (rows.take count) ++ little 8 (rowOffset rows count) := by
  rw [← List.take_append_getElem inside, encodeOffsets_append]
  simp [encodeOffsets, rowOffset]

/-- The start of a row is read back from the offset file. -/
theorem readDataFileOffsetCsc_written {stream : InputStream} {result : Result} {count : Nat}
    (calm : stream.error = false) (inside : count < result.rows.length)
    (near : count < lookupMax)
    (file : encodeOffsets 0 (result.rows.take (count + 1)) <+: stream.file) (ioe : Bool) :
    ∃ after, readDataFileOffsetCsc stream ioe (count + 1 : Nat) =
        ((rowOffset result.rows count : Int), false, after) ∧
      after.error = false ∧ after.file = stream.file := by
  have place : wrap 4 (((count + 1 : Nat) - 1 : Int) * 8) = (8 * count : Nat) := by
    rw [lookupMax] at near
    rw [wrap_of_range] <;> push_cast <;> omega
  obtain ⟨tail, whole⟩ := file
  rw [encodeOffsets_take_succ inside, List.append_assoc] at whole
  have behind : ({ stream with pos := 8 * count, feof := false } : InputStream).rest =
      little 8 (rowOffset result.rows count) ++ tail := by
    have length : (encodeOffsets 0 (result.rows.take count)).length = 8 * count := by
      rw [encodeOffsets_length, List.length_take, Nat.min_eq_left (Nat.le_of_lt inside)]
    rw [InputStream.rest, ← whole, ← length, List.drop_left]
  have read := InputStream.freadCsc_full { stream with pos := 8 * count, feof := false } 8 1
    rfl behind (by simp) (by decide) (by decide)
  have small : rowOffset result.rows count ≤ offMax :=
    (rowOffset_le _ _).trans result.fits
  have value : signed 8 (ofLittle (little 8 (rowOffset result.rows count))) =
      rowOffset result.rows count := by
    rw [offMax] at small
    rw [ofLittle_little (by norm_num; omega)]
    exact signed_of_lt (by norm_num; omega)
  have seek : stream.seekCscInputStream (8 * count : Nat) =
      (false, { stream with pos := 8 * count, feof := false }) := by
    have positive : ¬ ((8 * count : Nat) : Int) < 0 := by omega
    simp only [InputStream.seekCscInputStream, positive, if_false, Int.toNat_natCast]
  have long : InputStream.readLongLongCscInputStream
      { stream with pos := 8 * count, feof := false } =
        ((rowOffset result.rows count : Int), { stream with pos := 8 * count + 8, feof := false }) := by
    simp only [InputStream.readLongLongCscInputStream, read, value, Nat.mul_one]
  have above : (0 : Int) < (count + 1 : Nat) := by omega
  refine ⟨{ stream with pos := 8 * count + 8, feof := false, error := false }, ?_, rfl, rfl⟩
  simp only [readDataFileOffsetCsc, above, if_true, place, seek, long]
  simp [InputStream.getIOErrorCsc, calm]

end RedshiftOdbc.Csc
