import RedshiftOdbc.Library.Words

/-!
# The spill file's streams

`OutputStream` is the C library's buffered output file: `visible` is what other
readers of the file can see, `pending` is the tail still held in the stdio
buffer.  `InputStream` is the file a reader has opened, with the C library's
end-of-file indicator beside the driver's own `m_eof` and `m_error` flags.
-/

namespace RedshiftOdbc.Csc

open RedshiftOdbc.Words

structure OutputStream where
  visible : List UInt8
  pending : List UInt8
  deriving DecidableEq, Repr

namespace OutputStream

/-- A file just created by `createCscOutputStream`. -/
def created : OutputStream := ⟨[], []⟩

/-- Everything written so far, whether the file shows it or not. -/
def total (stream : OutputStream) : List UInt8 := stream.visible ++ stream.pending

/-- `fwrite`: the bytes go to the stdio buffer. -/
def fwrite (stream : OutputStream) (bytes : List UInt8) : OutputStream :=
  { stream with pending := stream.pending ++ bytes }

/-- `fflush`, and the flush that `fclose` does. -/
def fflush (stream : OutputStream) : OutputStream := ⟨stream.visible ++ stream.pending, []⟩

/-- The C library empties the first `count` bytes of its buffer on its own. -/
def spill (stream : OutputStream) (count : Nat) : OutputStream :=
  ⟨stream.visible ++ stream.pending.take count, stream.pending.drop count⟩

@[simp]
theorem total_fwrite (stream : OutputStream) (bytes : List UInt8) :
    (stream.fwrite bytes).total = stream.total ++ bytes := by
  simp [total, fwrite]

@[simp]
theorem total_fflush (stream : OutputStream) : stream.fflush.total = stream.total := by
  simp [total, fflush]

@[simp]
theorem total_spill (stream : OutputStream) (count : Nat) :
    (stream.spill count).total = stream.total := by
  simp [total, spill, List.take_append_drop]

theorem visible_spill (stream : OutputStream) (count : Nat) :
    stream.visible <+: (stream.spill count).visible := ⟨_, rfl⟩

end OutputStream

structure InputStream where
  file : List UInt8
  pos : Nat
  feof : Bool
  eof : Bool
  error : Bool
  deriving DecidableEq, Repr

namespace InputStream

/-- `createCscInputStream` on a file with the given content. -/
def opened (file : List UInt8) : InputStream := ⟨file, 0, false, false, false⟩

/-- `fread`: the bytes moved, the whole elements among them, and the stream. -/
def fread (stream : InputStream) (size count : Nat) : List UInt8 × Nat × InputStream :=
  let moved := (stream.file.drop stream.pos).take (size * count)
  (moved, moved.length / size,
    { stream with
      pos := stream.pos + moved.length
      feof := stream.feof || decide (moved.length < size * count) })

/-- `freadCsc`: nothing is read once the end-of-file indicator is up. -/
def freadCsc (stream : InputStream) (size count : Nat) : List UInt8 × Nat × InputStream :=
  if stream.feof then ([], 0, { stream with eof := true })
  else
    let (moved, rc, next) := stream.fread size count
    if rc = 0 then
      if next.feof then (moved, rc, { next with eof := true })
      else (moved, rc, { next with error := true })
    else (moved, rc, next)

def feofCscInputStream (stream : InputStream) : Bool × InputStream :=
  let eof := stream.eof || stream.feof
  (eof, { stream with eof := eof })

/-- `getIOErrorCsc`, which also resets the flag. -/
def getIOErrorCsc (stream : InputStream) : Bool × InputStream :=
  (stream.error, { stream with error := false })

/--
`readIntCscInputStream`.  The variable starts at zero, so bytes that the file
no longer has leave zero in their place.
-/
def readIntCscInputStream (stream : InputStream) : Int × InputStream :=
  let (moved, _, next) := stream.freadCsc 4 1
  (signed 4 (ofLittle moved), next)

def readLongLongCscInputStream (stream : InputStream) : Int × InputStream :=
  let (moved, _, next) := stream.freadCsc 8 1
  (signed 8 (ofLittle moved), next)

/-- `readShortCscInputStreamForNumberOfCols`: zero at the end of the file. -/
def readShortCscInputStreamForNumberOfCols (stream : InputStream) : Int × InputStream :=
  let (moved, _, next) := stream.freadCsc 2 1
  let (eof, next) := next.feofCscInputStream
  (if eof then 0 else signed 2 (ofLittle moved), next)

/-- `readCscInputStream`: the bytes read and their number. -/
def readCscInputStream (stream : InputStream) (len : Nat) : List UInt8 × Nat × InputStream :=
  stream.freadCsc 1 len

/--
`seekCscInputStream` on a scrollable cursor's file.  A negative offset is
refused and leaves the position as it was; the result is the error flag.
-/
def seekCscInputStream (stream : InputStream) (offset : Int) : Bool × InputStream :=
  if offset < 0 then (true, stream)
  else (false, { stream with pos := offset.toNat, feof := false })

/-- The stream has met neither the end of the file nor an error. -/
structure Sound (stream : InputStream) : Prop where
  feof : stream.feof = false
  eof : stream.eof = false
  error : stream.error = false

theorem Sound.feofCscInputStream {stream : InputStream} (sound : stream.Sound) :
    stream.feofCscInputStream = (false, stream) := by
  cases stream
  cases sound
  simp_all [InputStream.feofCscInputStream]

theorem Sound.getIOErrorCsc {stream : InputStream} (sound : stream.Sound) :
    stream.getIOErrorCsc = (false, stream) := by
  cases stream
  cases sound
  simp_all [InputStream.getIOErrorCsc]

/-- What the file still has from the read position on. -/
def rest (stream : InputStream) : List UInt8 := stream.file.drop stream.pos

/-- A read that finds all its bytes moves the position and nothing else. -/
theorem freadCsc_full (stream : InputStream) (size count : Nat) (ready : stream.feof = false)
    {bytes tail : List UInt8} (shape : stream.rest = bytes ++ tail)
    (length : bytes.length = size * count) (size_pos : 0 < size) (count_pos : 0 < count) :
    stream.freadCsc size count =
      (bytes, count, { stream with pos := stream.pos + size * count }) := by
  have moved : (stream.file.drop stream.pos).take (size * count) = bytes := by
    rw [rest] at shape
    rw [shape, ← length, List.take_left']
    rfl
  have items : size * count / size = count := Nat.mul_div_cancel_left count size_pos
  have read : stream.fread size count =
      (bytes, count, { stream with pos := stream.pos + size * count }) := by
    simp only [fread, moved, length, items, lt_self_iff_false, decide_false, Bool.or_false]
  simp [freadCsc, ready, read, Nat.ne_of_gt count_pos]

/-- After a full read the rest of the file starts behind the bytes read. -/
theorem rest_advance {stream : InputStream} {bytes tail : List UInt8}
    (shape : stream.rest = bytes ++ tail) {length : Nat} (same : bytes.length = length) :
    ({ stream with pos := stream.pos + length } : InputStream).rest = tail := by
  have dropped : (stream.file.drop stream.pos).drop length = tail := by
    rw [rest] at shape
    rw [shape, ← same, List.drop_left']
    rfl
  rw [List.drop_drop] at dropped
  exact dropped

theorem sound_advance {stream : InputStream} (sound : stream.Sound) (length : Nat) :
    ({ stream with pos := stream.pos + length } : InputStream).Sound :=
  ⟨sound.feof, sound.eof, sound.error⟩

/-- A read of one element that finds too few bytes meets the end of the file. -/
theorem freadCsc_short {stream : InputStream} {size : Nat} (sound : stream.Sound)
    (short : stream.rest.length < size) :
    stream.freadCsc size 1 =
      (stream.rest, 0,
        { stream with pos := stream.pos + stream.rest.length, feof := true, eof := true }) := by
  have moved : (stream.file.drop stream.pos).take size = stream.rest :=
    List.take_of_length_le (Nat.le_of_lt short)
  have items : stream.rest.length / size = 0 := Nat.div_eq_of_lt short
  have read : stream.fread size 1 = (stream.rest, 0,
      { stream with pos := stream.pos + stream.rest.length, feof := true }) := by
    simp only [fread, moved, items, Nat.mul_one, short, decide_true, Bool.or_true]
  simp [freadCsc, sound.feof, read]

/-- A read that asks for more than the file has raises the end-of-file indicator only. -/
theorem freadCsc_ends (stream : InputStream) (size count : Nat) (sound : stream.Sound)
    (short : stream.rest.length < size * count) :
    (stream.freadCsc size count).2.2.feof = true ∧
      (stream.freadCsc size count).2.2.error = false := by
  have moved : (stream.file.drop stream.pos).take (size * count) = stream.rest :=
    List.take_of_length_le (Nat.le_of_lt short)
  have read : stream.fread size count = (stream.rest, stream.rest.length / size,
      { stream with pos := stream.pos + stream.rest.length, feof := true }) := by
    simp only [fread, moved, short, decide_true, Bool.or_true]
  by_cases none : stream.rest.length / size = 0 <;>
    simp [freadCsc, sound.feof, sound.error, read, none]

/-- The number of elements read, whatever flags the read raises. -/
theorem freadCsc_items {stream : InputStream} (sound : stream.Sound) (size count : Nat) :
    (stream.freadCsc size count).2.1 = (stream.rest.take (size * count)).length / size := by
  have items : (stream.fread size count).2.1 = (stream.rest.take (size * count)).length / size :=
    rfl
  rcases read : stream.fread size count with ⟨moved, rc, next⟩
  rw [read] at items
  rw [← items]
  by_cases none : rc = 0 <;> by_cases ended : next.feof = true <;>
    simp [freadCsc, sound.feof, read, none, ended]

/-- A value that is cut off is read up to the cut. -/
theorem readCscInputStream_short {stream : InputStream} {len : Nat} (sound : stream.Sound)
    (short : stream.rest.length < len) :
    (stream.readCscInputStream len).2.1 = stream.rest.length := by
  rw [readCscInputStream, freadCsc_items sound, Nat.one_mul, Nat.div_one,
    List.take_of_length_le (Nat.le_of_lt short)]

/-- Once the end of the file was met, nothing more is read. -/
theorem freadCsc_ended {stream : InputStream} (ended : stream.feof = true) (size count : Nat) :
    stream.freadCsc size count = ([], 0, { stream with eof := true }) := by
  simp [freadCsc, ended]

end InputStream

end RedshiftOdbc.Csc
