import RedshiftOdbc.Csc.Batch
import RedshiftOdbc.Csc.TornFile

/-!
# Passes over a damaged file

Failed writes leave a file whose rows need not be those of the server.  A pass over the
cursor clears `m_ioe` as it opens the file, so it reports an error only where the bytes
themselves give one: where a row breaks off inside a value.
-/

namespace RedshiftOdbc.Csc

open RedshiftOdbc.Words

/-! ## Where a row breaks off -/

/--
The columns end inside a value: fewer bytes are left than its length word says, or the
word itself is cut short and still not zero.
-/
def ColumnsBreakOff : Nat → List UInt8 → Prop
  | 0, _ => False
  | count + 1, bytes =>
      if bytes.length < 4 then ofLittle bytes ≠ 0
      else
        let len := signed 4 (ofLittle (bytes.take 4))
        if 0 < len then
          (bytes.drop 4).length < len.toNat ∨ ColumnsBreakOff count ((bytes.drop 4).drop len.toNat)
        else ColumnsBreakOff count (bytes.drop 4)

def RowBreaksOff (bytes : List UInt8) : Prop :=
  2 ≤ bytes.length ∧ 0 < signed 2 (ofLittle (bytes.take 2)) ∧
    ColumnsBreakOff (signed 2 (ofLittle (bytes.take 2))).toNat (bytes.drop 2)

def encodeAttr (attr : Attr) : List UInt8 :=
  little 4 (unsigned 4 attr.len) ++ attr.value.getD []

theorem encodeAttr_attr (column : Column) : encodeAttr (Column.attr column) = encodeColumn column := by
  cases column with
  | none => rfl
  | some value => rfl

theorem flatMap_encodeAttr (cols : List Column) :
    (cols.map Column.attr).flatMap encodeAttr = cols.flatMap encodeColumn := by
  induction cols with
  | nil => rfl
  | cons column rest ih =>
      rw [List.map_cons, List.flatMap_cons, List.flatMap_cons, ih, encodeAttr_attr]

/-- A word of a file is the image of the number it is read as. -/
theorem little_unsigned_signed {width : Nat} {bytes : List UInt8} (length : bytes.length = width) :
    little width (unsigned width (signed width (ofLittle bytes))) = bytes := by
  have fits : ofLittle bytes < 256 ^ width := length ▸ ofLittle_lt bytes
  rw [unsigned_signed fits, ← length, little_ofLittle]

/-! ## Reading columns -/

/-- A read that finds all its bytes. -/
theorem freadCsc_found {stream : InputStream} (sound : stream.Sound) {size count : Nat}
    (size_pos : 0 < size) (count_pos : 0 < count) (enough : size * count ≤ stream.rest.length) :
    stream.freadCsc size count = (stream.rest.take (size * count), count,
      { stream with pos := stream.pos + size * count }) :=
  stream.freadCsc_full size count sound.feof (List.take_append_drop (size * count) stream.rest).symm
    (List.length_take_of_le enough) size_pos count_pos

theorem rest_at (stream : InputStream) (length : Nat) :
    ({ stream with pos := stream.pos + length } : InputStream).rest = stream.rest.drop length := by
  simp only [InputStream.rest, List.drop_drop]

/-- What `readColumn` makes of the bytes that are left. -/
theorem readColumn_cases {stream : InputStream} (sound : stream.Sound) :
    ((readColumn stream).1 = none ∧ ∀ count, ColumnsBreakOff (count + 1) stream.rest) ∨
    ((∃ after, readColumn stream = (some emptyAttr, after) ∧ after.feof = true ∧
        after.error = false) ∧ ∀ count, ¬ColumnsBreakOff (count + 1) stream.rest) ∨
    ∃ attr, readColumn stream = (some attr,
        { stream with pos := stream.pos + (encodeAttr attr).length }) ∧
      stream.rest = encodeAttr attr ++ stream.rest.drop (encodeAttr attr).length ∧
      ∀ count, ColumnsBreakOff (count + 1) stream.rest ↔
        ColumnsBreakOff count (stream.rest.drop (encodeAttr attr).length) := by
  by_cases short : stream.rest.length < 4
  · have read := readIntCscInputStream_torn sound short
    by_cases zero : ofLittle stream.rest = 0
    · refine .inr (.inl ⟨⟨{ stream with
        pos := stream.pos + stream.rest.length, feof := true, eof := true }, ?_, rfl, sound.error⟩,
        fun count breaks => ?_⟩)
      · simp [readColumn, read, zero, emptyAttr]
      · rw [ColumnsBreakOff, if_pos short] at breaks
        exact breaks zero
    · have positive := Nat.pos_of_ne_zero zero
      have present : ¬(ofLittle stream.rest : Int) = -1 := by omega
      have filled : ¬(0 : Int) = ofLittle stream.rest := by omega
      refine .inl ⟨?_, fun count => ?_⟩
      · simp [readColumn, read, present, filled, positive, InputStream.readCscInputStream,
          InputStream.freadCsc_ended]
      · rw [ColumnsBreakOff, if_pos short]
        exact zero
  · have enough : 4 * 1 ≤ stream.rest.length := by omega
    have word : (stream.rest.take 4).length = 4 := List.length_take_of_le (by omega)
    have still := InputStream.sound_advance sound 4
    generalize lengthWord : signed 4 (ofLittle (stream.rest.take 4)) = len
    have back : little 4 (unsigned 4 len) = stream.rest.take 4 := by
      rw [← lengthWord]
      exact little_unsigned_signed word
    have read : stream.readIntCscInputStream = (len, { stream with pos := stream.pos + 4 }) := by
      simp only [InputStream.readIntCscInputStream, freadCsc_found sound (by decide) (by decide) enough,
        Nat.mul_one, lengthWord]
    have bare : ∀ value : Option (List UInt8), value.getD [] = [] →
        encodeAttr ⟨len, value⟩ = stream.rest.take 4 := by
      intro value empty
      rw [encodeAttr, back, empty, List.append_nil]
    by_cases positive : 0 < len
    · have present : ¬len = -1 := by omega
      by_cases cut : (stream.rest.drop 4).length < len.toNat
      · have left := InputStream.readCscInputStream_short still (rest_at stream 4 ▸ cut)
        refine .inl ⟨?_, fun count => ?_⟩
        · rw [rest_at] at left
          have differ : ¬((stream.rest.drop 4).length : Int) = len := by omega
          simp only [readColumn, read, if_neg present, if_pos positive]
          rcases taken : InputStream.readCscInputStream { stream with pos := stream.pos + 4 }
            len.toNat with ⟨value, actualRead, after⟩
          rw [taken] at left
          simp only at left
          simp only [left, ne_eq, differ, not_false_eq_true, if_true]
        · simp only [ColumnsBreakOff, if_neg short, lengthWord, if_pos positive]
          exact .inl cut
      · have behind : 1 * len.toNat ≤
            ({ stream with pos := stream.pos + 4 } : InputStream).rest.length := by
          rw [rest_at]
          omega
        have value := freadCsc_found still (by decide) (by omega) behind
        rw [Nat.one_mul, rest_at] at value
        have length : ((stream.rest.drop 4).take len.toNat).length = len.toNat :=
          List.length_take_of_le (by omega)
        have shape : encodeAttr ⟨len, some ((stream.rest.drop 4).take len.toNat)⟩ =
            stream.rest.take 4 ++ (stream.rest.drop 4).take len.toNat := by
          rw [encodeAttr, back, Option.getD_some]
        have size : (encodeAttr ⟨len, some ((stream.rest.drop 4).take len.toNat)⟩).length =
            4 + len.toNat := by
          rw [shape, List.length_append, word, length]
        refine .inr (.inr ⟨⟨len, some ((stream.rest.drop 4).take len.toNat)⟩, ?_, ?_, fun count => ?_⟩)
        · have same : ¬((len.toNat : Int) ≠ len) := by omega
          simp only [readColumn, read, if_neg present, if_pos positive,
            InputStream.readCscInputStream, value, if_neg same, size, Nat.add_assoc]
        · rw [size, shape, List.append_assoc, ← List.drop_drop, List.take_append_drop,
            List.take_append_drop]
        · simp only [ColumnsBreakOff, if_neg short, lengthWord, if_pos positive, size, cut, false_or,
            List.drop_drop]
    · have value : ∃ value : Option (List UInt8), value.getD [] = [] ∧
          readColumn stream = (some ⟨len, value⟩, { stream with pos := stream.pos + 4 }) := by
        by_cases null : len = -1
        · exact ⟨none, rfl, by simp only [readColumn, read, if_pos null]⟩
        · refine ⟨if len = 0 then some [] else none, ?_, ?_⟩
          · split <;> rfl
          · simp only [readColumn, read, if_neg null, if_neg positive]
      obtain ⟨value, empty, column⟩ := value
      refine .inr (.inr ⟨⟨len, value⟩, ?_, ?_, fun count => ?_⟩)
      · rw [bare value empty, word, column]
      · rw [bare value empty, word, List.take_append_drop]
      · simp only [bare value empty, word, ColumnsBreakOff, if_neg short, lengthWord,
          if_neg positive]

/-- What `readColumns` makes of the bytes that are left. -/
theorem readColumns_cases (count : Nat) {stream : InputStream} (sound : stream.Sound) :
    ((readColumns count stream).1 = none ∧ ColumnsBreakOff count stream.rest) ∨
    ((∃ attrs after, readColumns count stream = (some attrs, after) ∧ after.feof = true ∧
        after.error = false) ∧ ¬ColumnsBreakOff count stream.rest) ∨
    ∃ attrs, readColumns count stream = (some attrs,
        { stream with pos := stream.pos + (attrs.flatMap encodeAttr).length }) ∧
      attrs.length = count ∧
      stream.rest =
        attrs.flatMap encodeAttr ++ stream.rest.drop (attrs.flatMap encodeAttr).length ∧
      ¬ColumnsBreakOff count stream.rest := by
  induction count generalizing stream with
  | zero => exact .inr (.inr ⟨[], rfl, rfl, rfl, id⟩)
  | succ count ih =>
      rcases readColumn_cases sound with ⟨none, breaks⟩ | ⟨⟨after, read, ended, calm⟩, whole⟩ |
        ⟨attr, read, shape, breaks⟩
      · refine .inl ⟨?_, breaks count⟩
        rcases column : readColumn stream with ⟨value, after⟩
        rw [column] at none
        simp only at none
        simp only [readColumns, column, none]
      · obtain ⟨last, rest, flag, silent⟩ := readColumns_ended count ended calm
        refine .inr (.inl ⟨⟨emptyAttr :: List.replicate count emptyAttr, last, ?_, flag, silent⟩,
          whole count⟩)
        simp only [readColumns, read, rest, Option.map_some]
      · rw [breaks count]
        rcases ih (InputStream.sound_advance sound (encodeAttr attr).length) with
          ⟨none, cut⟩ | ⟨⟨attrs, after, rest, ended, calm⟩, whole⟩ | ⟨attrs, rest, length, tail, whole⟩
        · refine .inl ⟨?_, rest_at stream _ ▸ cut⟩
          simp only [readColumns, read, none, Option.map_none]
        · refine .inr (.inl ⟨⟨attr :: attrs, after, ?_, ended, calm⟩, rest_at stream _ ▸ whole⟩)
          simp only [readColumns, read, rest, Option.map_some]
        · refine .inr (.inr ⟨attr :: attrs, ?_, ?_, ?_, rest_at stream _ ▸ whole⟩)
          · simp only [readColumns, read, rest, Option.map_some, List.flatMap_cons,
              List.length_append, Nat.add_assoc]
          · rw [List.length_cons, length]
          · rw [rest_at] at tail
            rw [List.flatMap_cons, List.length_append, List.append_assoc, ← List.drop_drop, ← tail]
            exact shape

/-! ## Reading rows -/

/-- What `readRowCsc` makes of the bytes that are left. -/
theorem readRowCsc_cases {stream : InputStream} (sound : stream.Sound) :
    ((readRowCsc stream).1 = ⟨none, true, false⟩ ∧ RowBreaksOff stream.rest) ∨
    ((readRowCsc stream).1.error = false ∧
        ((readRowCsc stream).1.eof = true ∨ (readRowCsc stream).2.feof = true) ∧
      ¬RowBreaksOff stream.rest) ∨
    ((readRowCsc stream).1 = ⟨none, false, false⟩ ∧ ¬RowBreaksOff stream.rest) ∨
    ∃ attrs, readRowCsc stream = (⟨some attrs, false, false⟩, { stream with
        pos := stream.pos + (2 + (attrs.flatMap encodeAttr).length) }) ∧
      stream.rest = little 2 (unsigned 2 attrs.length) ++ attrs.flatMap encodeAttr ++
        stream.rest.drop (2 + (attrs.flatMap encodeAttr).length) ∧
      ¬RowBreaksOff stream.rest := by
  by_cases short : stream.rest.length < 2
  · obtain ⟨row, ended⟩ := readRowCsc_atEnd sound short
    refine .inr (.inl ⟨by rw [row], .inr ended, fun breaks => ?_⟩)
    exact absurd breaks.1 (by omega)
  · have enough : 2 * 1 ≤ stream.rest.length := by omega
    have word : (stream.rest.take 2).length = 2 := List.length_take_of_le (by omega)
    have still := InputStream.sound_advance sound 2
    generalize countWord : signed 2 (ofLittle (stream.rest.take 2)) = noOfCols
    have back : little 2 (unsigned 2 noOfCols) = stream.rest.take 2 := by
      rw [← countWord]
      exact little_unsigned_signed word
    have read : stream.readShortCscInputStreamForNumberOfCols =
        (noOfCols, { stream with pos := stream.pos + 2 }) := by
      simp only [InputStream.readShortCscInputStreamForNumberOfCols,
        freadCsc_found sound (by decide) (by decide) enough, Nat.mul_one, still.feofCscInputStream,
        countWord, Bool.false_eq_true, if_false]
    by_cases positive : 0 < noOfCols
    · have breaksOff : RowBreaksOff stream.rest ↔
          ColumnsBreakOff noOfCols.toNat (stream.rest.drop 2) := by
        rw [RowBreaksOff, countWord]
        exact ⟨fun breaks => breaks.2.2, fun breaks => ⟨by omega, positive, breaks⟩⟩
      rw [breaksOff]
      rw [← rest_at]
      rcases readColumns_cases noOfCols.toNat still with ⟨none, breaks⟩ |
        ⟨⟨attrs, after, columns, ended, calm⟩, whole⟩ | ⟨attrs, columns, length, tail, whole⟩
      · refine .inl ⟨?_, breaks⟩
        rcases columns : readColumns noOfCols.toNat { stream with pos := stream.pos + 2 } with
          ⟨tuple, after⟩
        rw [columns] at none
        simp only at none
        simp only [readRowCsc, sound.feofCscInputStream, Bool.false_eq_true, if_false, read,
          if_pos positive, columns, none]
      · refine .inr (.inl ⟨?_, .inr ?_, whole⟩)
        · simp only [readRowCsc, sound.feofCscInputStream, Bool.false_eq_true, if_false, read,
            if_pos positive, columns, InputStream.getIOErrorCsc, calm]
        · simp only [readRowCsc, sound.feofCscInputStream, Bool.false_eq_true, if_false, read,
            if_pos positive, columns, InputStream.getIOErrorCsc, ended]
      · refine .inr (.inr (.inr ⟨attrs, ?_, ?_, whole⟩))
        · simp only [readRowCsc, sound.feofCscInputStream, Bool.false_eq_true, if_false, read,
            if_pos positive, columns, InputStream.getIOErrorCsc]
          simp only [sound.error, Nat.add_assoc]
        · have count : (attrs.length : Int) = noOfCols := by omega
          rw [rest_at] at tail
          rw [count, back, ← List.drop_drop, List.append_assoc, ← tail, List.take_append_drop]
    · have whole : ¬RowBreaksOff stream.rest := by
        intro breaks
        rw [RowBreaksOff, countWord] at breaks
        exact positive breaks.2.1
      refine .inr (.inr (.inl ⟨?_, whole⟩))
      simp only [readRowCsc, sound.feofCscInputStream, Bool.false_eq_true, if_false, read,
        if_neg positive, still.feofCscInputStream, still.getIOErrorCsc]

/-! ## Whole files -/

/-- Once the end of the file was met, a pass ends there. -/
theorem readRows_behindEnd (calls : Nat) {stream : InputStream} (ended : stream.feof = true) :
    (readRows calls stream).1 = [] ∧ (readRows calls stream).2 ≠ .ioError := by
  cases calls with
  | zero => exact ⟨rfl, by simp [readRows]⟩
  | succ calls =>
      simp [readRows, (readRowCsc_ended ended).1]

theorem encodeRow_tuple (row : Row) :
    little 2 (unsigned 2 row.tuple.length) ++ row.tuple.flatMap encodeAttr =
      encodeRow row.cols := by
  rw [Row.tuple, List.length_map, flatMap_encodeAttr, encodeRow]

theorem encodeRow_length (row : Row) :
    2 + (row.tuple.flatMap encodeAttr).length = (encodeRow row.cols).length := by
  rw [← encodeRow_tuple, List.length_append, little_length]

/-- The rows that come first in a file that breaks off are whole. -/
theorem readRowCsc_first {stream : InputStream} (sound : stream.Sound) {rows : List Row}
    {count : Nat} {cut : List UInt8} (among : count ≤ rows.length)
    (shape : stream.rest = encodeRows (rows.take count) ++ cut) (whole : ¬RowBreaksOff stream.rest)
    (breaks : RowBreaksOff cut) :
    ∃ row rest before, rows = row :: rest ∧ count = before + 1 ∧
      stream.rest = encodeRow row.cols ++ (encodeRows (rest.take before) ++ cut) ∧
      readRowCsc stream = (⟨some row.tuple, false, false⟩,
        { stream with pos := stream.pos + (encodeRow row.cols).length }) := by
  cases count with
  | zero =>
      rw [List.take_zero] at shape
      exact absurd (shape ▸ breaks) whole
  | succ before =>
      cases rows with
      | nil => exact absurd among (Nat.not_succ_le_zero before)
      | cons row rest =>
          rw [List.take_succ_cons, encodeRows_cons, List.append_assoc] at shape
          exact ⟨row, rest, before, rfl, rfl, shape, readRowCsc_written sound shape⟩

/--
The rows of the server and then an error are what a file gives in which, behind some of
the rows, a row breaks off inside a value.
-/
theorem readRows_error_iff (calls : Nat) {stream : InputStream} (sound : stream.Sound)
    (rows : List Row) :
    ((readRows calls stream).1 <+: rows.map Row.tuple ∧ (readRows calls stream).2 = .ioError) ↔
      ∃ count < calls, ∃ cut, count ≤ rows.length ∧
        stream.rest = encodeRows (rows.take count) ++ cut ∧ RowBreaksOff cut := by
  induction calls generalizing stream rows with
  | zero => simp [readRows]
  | succ calls ih =>
      rcases readRowCsc_cases sound with ⟨read, breaks⟩ | ⟨calm, ended, whole⟩ | ⟨read, whole⟩ |
        ⟨attrs, read, shape, whole⟩
      · refine iff_of_true ?_ ⟨0, Nat.succ_pos calls, stream.rest, Nat.zero_le _, ?_, breaks⟩
        · simp [readRows, read]
        · simp [encodeRows]
      · refine iff_of_false ?_ ?_
        · rintro ⟨-, error⟩
          rcases ended with eof | feof
          · simp [readRows, calm, eof] at error
          · have behind := (readRows_behindEnd calls feof).2
            by_cases eof : (readRowCsc stream).1.eof = true
            · simp [readRows, calm, eof] at error
            · simp only [readRows, calm, Bool.false_eq_true, if_false, eof] at error
              exact behind error
        · rintro ⟨count, -, cut, among, shape, breaks⟩
          obtain ⟨row, rest, before, -, -, -, read⟩ :=
            readRowCsc_first sound among shape whole breaks
          rw [read] at ended
          simp [sound.feof] at ended
      · refine iff_of_false ?_ ?_
        · rintro ⟨isPrefix, -⟩
          simp only [readRows, read, Bool.false_eq_true, if_false, Option.getD_none] at isPrefix
          cases rows with
          | nil => simp at isPrefix
          | cons row rest =>
              have empty := (List.cons_prefix_cons.mp isPrefix).1
              have filled := row.cols_pos
              rw [Row.tuple, eq_comm, List.map_eq_nil_iff] at empty
              rw [empty] at filled
              cases filled
        · rintro ⟨count, -, cut, among, shape, breaks⟩
          obtain ⟨row, rest, before, -, -, -, first⟩ :=
            readRowCsc_first sound among shape whole breaks
          rw [first] at read
          cases read
      · have after := InputStream.sound_advance sound (2 + (attrs.flatMap encodeAttr).length)
        simp only [readRows, read, Bool.false_eq_true, if_false, Option.getD_some]
        constructor
        · rintro ⟨isPrefix, error⟩
          cases rows with
          | nil => simp at isPrefix
          | cons row rest =>
              obtain ⟨rfl, others⟩ := List.cons_prefix_cons.mp isPrefix
              obtain ⟨count, below, cut, among, behind, breaks⟩ := (ih after rest).mp ⟨others, error⟩
              refine ⟨count + 1, Nat.succ_lt_succ below, cut, Nat.succ_le_succ among, ?_, breaks⟩
              rw [rest_at] at behind
              rw [List.take_succ_cons, encodeRows_cons, List.append_assoc, ← behind,
                ← encodeRow_tuple]
              exact shape
        · rintro ⟨count, below, cut, among, parts, breaks⟩
          obtain ⟨row, rest, before, rfl, rfl, split, first⟩ :=
            readRowCsc_first sound among parts whole breaks
          rw [read] at first
          have same : attrs = row.tuple :=
            Option.some.inj (congrArg (fun result => result.1.tuple) first)
          subst same
          have behind := (ih after rest).mpr ⟨before, Nat.lt_of_succ_lt_succ below, cut,
            Nat.le_of_succ_le_succ among, ?_, breaks⟩
          · exact ⟨List.cons_prefix_cons.mpr ⟨rfl, behind.1⟩, behind.2⟩
          · rw [rest_at, encodeRow_length, split, List.drop_left]

/-! ## Streams with an error of their own -/

theorem freadCsc_error {stream : InputStream} (failed : stream.error = true) (size count : Nat) :
    (stream.freadCsc size count).2.2.error = true := by
  have kept : (stream.fread size count).2.2.error = true := failed
  rcases read : stream.fread size count with ⟨moved, rc, next⟩
  rw [read] at kept
  simp only [InputStream.freadCsc, read]
  split_ifs
  · exact failed
  · exact kept
  · rfl
  · exact kept

theorem readColumn_error {stream : InputStream} (failed : stream.error = true) :
    (readColumn stream).2.error = true := by
  have word : stream.readIntCscInputStream.2.error = true := freadCsc_error failed 4 1
  have value := freadCsc_error word 1 stream.readIntCscInputStream.1.toNat
  simp only [readColumn]
  split_ifs
  · exact word
  · exact value
  · exact value
  · exact word
  · exact word

theorem readColumns_error (count : Nat) {stream : InputStream} (failed : stream.error = true) :
    (readColumns count stream).2.error = true := by
  induction count generalizing stream with
  | zero => exact failed
  | succ count ih =>
      have first := readColumn_error failed
      rcases column : readColumn stream with ⟨_ | attr, after⟩
      · rw [column] at first
        simp only [readColumns, column]
        exact first
      · rw [column] at first
        simp only [readColumns, column]
        exact ih first

/-- An error that a stream already has is reported with its next row. -/
theorem readRowCsc_error {stream : InputStream} (open_eof : stream.eof = false)
    (open_feof : stream.feof = false) (failed : stream.error = true) :
    (readRowCsc stream).1.error = true := by
  have word : stream.readShortCscInputStreamForNumberOfCols.2.error = true :=
    freadCsc_error failed 2 1
  have begins : stream.feofCscInputStream.1 = false := by
    simp [InputStream.feofCscInputStream, open_eof, open_feof]
  have same : stream.feofCscInputStream.2 = stream := by
    simp [InputStream.feofCscInputStream, open_eof, open_feof]
    cases stream
    simp_all
  simp only [readRowCsc, begins, same, Bool.false_eq_true, if_false]
  split_ifs
  · have columns := readColumns_error stream.readShortCscInputStreamForNumberOfCols.1.toNat word
    rcases read : readColumns stream.readShortCscInputStreamForNumberOfCols.1.toNat
      stream.readShortCscInputStreamForNumberOfCols.2 with ⟨_ | attrs, after⟩
    · rfl
    · rw [read] at columns
      exact columns
  · exact word

/--
The bytes a stream still has to read are some rows of the server and then a row that breaks
off inside a value, with less than `left` rows in front of it; or a read of the stream has
failed before.
-/
def FileReports (rows : List Row) (left : Nat) (stream : InputStream) : Prop :=
  stream.eof = false ∧ stream.feof = false ∧ 0 < left ∧
    (stream.error = true ∨
      ∃ count < left, ∃ cut, count ≤ rows.length ∧
        stream.rest = encodeRows (rows.take count) ++ cut ∧ RowBreaksOff cut)

theorem readRows_reports_iff (left : Nat) (stream : InputStream) (rows : List Row) :
    ((readRows left stream).1 <+: rows.map Row.tuple ∧ (readRows left stream).2 = .ioError) ↔
      FileReports rows left stream := by
  cases left with
  | zero => simp [readRows, FileReports]
  | succ left =>
      by_cases ended : stream.eof = true ∨ stream.feof = true
      · have read : (readRowCsc stream).1 = ⟨none, false, true⟩ := by
          have eof : stream.feofCscInputStream.1 = true := by
            simpa [InputStream.feofCscInputStream] using ended
          simp only [readRowCsc, eof, if_true]
        refine iff_of_false ?_ ?_
        · rintro ⟨-, error⟩
          simp [readRows, read] at error
        · rintro ⟨eof, feof, -⟩
          rw [eof, feof] at ended
          simp at ended
      · have eof : stream.eof = false := Bool.eq_false_of_not_eq_true fun eof => ended (.inl eof)
        have feof : stream.feof = false :=
          Bool.eq_false_of_not_eq_true fun feof => ended (.inr feof)
        by_cases failed : stream.error = true
        · refine iff_of_true ?_ ⟨eof, feof, Nat.succ_pos left, .inl failed⟩
          simp [readRows, readRowCsc_error eof feof failed]
        · have sound : stream.Sound := ⟨feof, eof, Bool.eq_false_of_not_eq_true failed⟩
          rw [readRows_error_iff (left + 1) sound rows, FileReports]
          simp only [eof, feof, failed, Nat.succ_pos, true_and, Bool.false_eq_true, false_or]

/-! ## A pass over the cursor -/

namespace ClientSideCursorResult

/--
`pgReadNextBatchOfRowsCsc` up to `calls` times: the rows of the batches and whether an
error was reported.  A batch without rows is the end of the data.
-/
def readAhead : Nat → ClientSideCursorResult → List (List Attr) × Bool
  | 0, _ => ([], false)
  | calls + 1, csc =>
      let (tuples, next) := csc.readNextBatchOfRowsCsc
      if next.ioe then (tuples, true)
      else if tuples = [] then ([], false)
      else
        let (rest, reported) := readAhead calls (install (tuples, next))
        (tuples ++ rest, reported)

/-- The rows that are left to be read. -/
def left (csc : ClientSideCursorResult) : Nat := (csc.totalRows - csc.lastRowNumberInMem).toNat

/-- The stream that the next batch is read from, opened behind the first batch if it is new. -/
def nextStream (csc : ClientSideCursorResult) : InputStream :=
  csc.cscInputStream.getD
    { InputStream.opened csc.file with pos := csc.firstReadFromFileOffset.toNat }

/-- `m_ioe` is given anew before a batch is read. -/
theorem checkAndOpen_calm (csc : ClientSideCursorResult) :
    ∃ opened, csc.checkAndOpenInputStreamCsc true = opened ∧ opened.ioe = false ∧
      opened.cscInputStream = some csc.nextStream ∧
      opened.endOfInputStream = csc.endOfInputStream ∧ opened.totalRows = csc.totalRows ∧
      opened.lastRowNumberInMem = csc.lastRowNumberInMem := by
  refine ⟨_, rfl, ?_⟩
  cases stream : csc.cscInputStream with
  | some input => simp [checkAndOpenInputStreamCsc, stream, nextStream]
  | none =>
      by_cases behind : 0 < csc.firstReadFromFileOffset
      · have natural : ¬csc.firstReadFromFileOffset < 0 := by omega
        simp [checkAndOpenInputStreamCsc, stream, nextStream, behind, seek,
          InputStream.seekCscInputStream, natural, InputStream.opened]
      · have start : csc.firstReadFromFileOffset.toNat = 0 := by omega
        simp [checkAndOpenInputStreamCsc, stream, nextStream, behind, start, InputStream.opened]

/--
A batch has the rows that a pass reads first.  It comes to an error, to the end of the file
or to a state from which the rows behind it are read.
-/
def BatchOf (count : Nat) (csc : ClientSideCursorResult) (stream : InputStream)
    (tuples : List (List Attr)) (next : ClientSideCursorResult) : Prop :=
  (next.ioe = true ∧ readRows count stream = (tuples, .ioError)) ∨
  (next.ioe = false ∧ next.endOfInputStream = true ∧
    readRows count stream = (tuples, .endOfFile)) ∨
  (next.ioe = false ∧ next.endOfInputStream = false ∧ tuples.length ≤ count ∧
    (tuples = [] → count = 0) ∧ next.totalRows = csc.totalRows ∧
    next.lastRowNumberInMem = csc.lastRowNumberInMem + tuples.length ∧
    ∃ rest, next.cscInputStream = some rest ∧
      readRows count stream = (tuples ++ (readRows (count - tuples.length) rest).1,
        (readRows (count - tuples.length) rest).2))

/-- The state behind a row that was read, with the memory its batch takes. -/
def behindRow (csc : ClientSideCursorResult) (stream : InputStream) (size : Int) :
    ClientSideCursorResult :=
  { csc with
    cscInputStream := some stream
    ioe := false
    endOfInputStream := false
    lastRowNumberInMem := csc.lastRowNumberInMem + 1
    inMemoryResultSizeFromFile := size }

theorem readUntilThreshold_batchOf (count : Nat) {csc : ClientSideCursorResult}
    {stream : InputStream} (input : csc.cscInputStream = some stream) (calm : csc.ioe = false)
    (more : csc.endOfInputStream = false) :
    BatchOf count csc stream (csc.readUntilThreshold count).1 (csc.readUntilThreshold count).2 := by
  induction count generalizing csc stream with
  | zero =>
      refine .inr (.inr ⟨calm, more, Nat.le_refl 0, fun _ => rfl, rfl, ?_, stream, input, rfl⟩)
      simp [readUntilThreshold]
  | succ count ih =>
      rcases row : readRowCsc stream with ⟨⟨tuple, error, eof⟩, after⟩
      have read : csc.readRow = (tuple, { csc with
          cscInputStream := some after
          ioe := error
          endOfInputStream := eof
          lastRowNumberInMem :=
            csc.lastRowNumberInMem + if (!error && !eof) = true then 1 else 0 }) := by
        simp only [readRow, input, row, RowRead.counted]
      cases error with
      | true =>
          refine .inl ⟨?_, ?_⟩
          · simp [readUntilThreshold, calm, read]
          · simp [readUntilThreshold, calm, read, readRows, row]
      | false =>
          cases eof with
          | true =>
              refine .inr (.inl ⟨?_, ?_, ?_⟩)
              · simp [readUntilThreshold, calm, read]
              · simp [readUntilThreshold, calm, read]
              · simp [readUntilThreshold, calm, read, readRows, row]
          | false =>
              rcases limit : checkForThresholdLimitReachCsc csc.threshold
                csc.inMemoryResultSizeFromFile (firstLength (tuple.getD []))
                (rawRowLength (tuple.getD [])) with ⟨reached, size⟩
              cases reached with
              | true =>
                  have batch : csc.readUntilThreshold (count + 1) =
                      ([tuple.getD []], csc.behindRow after size) := by
                    simp [readUntilThreshold, calm, read, limit, behindRow]
                  rw [batch]
                  refine .inr (.inr ⟨rfl, rfl, Nat.succ_pos count, fun empty => ?_, rfl, rfl, after,
                    rfl, ?_⟩)
                  · cases empty
                  · simp [readRows, row]
              | false =>
                  have batch : csc.readUntilThreshold (count + 1) =
                      (tuple.getD [] :: ((csc.behindRow after size).readUntilThreshold count).1,
                        ((csc.behindRow after size).readUntilThreshold count).2) := by
                    simp [readUntilThreshold, calm, read, limit, behindRow]
                  rw [batch]
                  rcases @ih (csc.behindRow after size) after rfl rfl rfl with ⟨error, rows⟩ |
                    ⟨silent, ended, rows⟩ | ⟨silent, open_, fewer, _, total, last, rest, input, rows⟩
                  · exact .inl ⟨error, by simp only [readRows, row, rows, Bool.false_eq_true, if_false]⟩
                  · exact .inr (.inl ⟨silent, ended,
                      by simp only [readRows, row, rows, Bool.false_eq_true, if_false]⟩)
                  · refine .inr (.inr ⟨silent, open_, Nat.succ_le_succ fewer, fun empty => ?_, total, ?_,
                      rest, input, ?_⟩)
                    · cases empty
                    · rw [last, behindRow, List.length_cons]
                      push_cast
                      omega
                    · simp only [readRows, row, Bool.false_eq_true, if_false, List.length_cons,
                        Nat.add_sub_add_right, List.cons_append]
                      rw [rows]

/-- The batch that `readNextBatchOfRowsCsc` reads, whatever `m_ioe` was before. -/
theorem readNextBatchOfRowsCsc_batchOf {csc : ClientSideCursorResult}
    (more : csc.endOfInputStream = false) :
    BatchOf csc.left csc csc.nextStream csc.readNextBatchOfRowsCsc.1
      csc.readNextBatchOfRowsCsc.2 := by
  obtain ⟨opened, opens, calm, input, still, total, last⟩ := checkAndOpen_calm csc
  rw [more] at still
  have count : (opened.totalRows - opened.lastRowNumberInMem).toNat = csc.left := by
    rw [total, last, left]
  have batchOf : ∀ first, BatchOf csc.left csc csc.nextStream
      (readUntilThreshold csc.left { opened with
        firstRowNumberInMem := first, inMemoryResultSizeFromFile := 0 }).1
      (readUntilThreshold csc.left { opened with
        firstRowNumberInMem := first, inMemoryResultSizeFromFile := 0 }).2 := by
    intro first
    have batch := @readUntilThreshold_batchOf csc.left { opened with
      firstRowNumberInMem := first, inMemoryResultSizeFromFile := 0 } _ input calm still
    rw [BatchOf] at batch ⊢
    rwa [← total, ← last]
  simp only [calm, still, input] at batchOf
  simp only [readNextBatchOfRowsCsc, more, Bool.false_eq_true, if_false, opens, calm,
    readNextBatchOfRowsUntilThresholdCsc, still, input, count]
  split_ifs
  · exact batchOf _
  · exact batchOf opened.firstRowNumberInMem
  · exact batchOf opened.firstRowNumberInMem

theorem readAhead_ended {csc : ClientSideCursorResult} (ended : csc.endOfInputStream = true)
    (calls : Nat) : csc.readAhead (calls + 1) = ([], csc.ioe) := by
  simp only [readAhead, readNextBatchOfRowsCsc, ended, if_true]
  cases csc.ioe <;> rfl

/-- A pass reads what the file gives, and reports an error where the file gives one. -/
theorem readAhead_rows (calls : Nat) {csc : ClientSideCursorResult}
    (more : csc.endOfInputStream = false) (enough : csc.left < calls) :
    csc.readAhead calls = ((readRows csc.left csc.nextStream).1,
      decide ((readRows csc.left csc.nextStream).2 = .ioError)) := by
  induction calls generalizing csc with
  | zero => exact absurd enough (Nat.not_lt_zero _)
  | succ calls ih =>
      have batchOf := readNextBatchOfRowsCsc_batchOf more
      rcases batch : csc.readNextBatchOfRowsCsc with ⟨tuples, next⟩
      rw [batch] at batchOf
      simp only at batchOf
      rcases batchOf with ⟨error, rows⟩ | ⟨silent, ended, rows⟩ |
        ⟨silent, open_, fewer, empty, total, last, rest, input, rows⟩
      · simp [readAhead, batch, error, rows]
      · by_cases none : tuples = []
        · simp [readAhead, batch, silent, rows, none]
        · obtain ⟨calls, rfl⟩ : ∃ before, calls = before + 1 := by
            cases calls with
            | zero =>
                have nothing : csc.left = 0 := by omega
                rw [nothing, readRows] at rows
                exact absurd (congrArg Prod.fst rows).symm none
            | succ before => exact ⟨before, rfl⟩
          have behind := @readAhead_ended (install (tuples, next)) ended calls
          have clear : (install (tuples, next)).ioe = false := rfl
          rw [clear] at behind
          rw [readAhead]
          simp [batch, silent, none, rows, behind]
      · have same : (install (tuples, next)).nextStream = rest := by
          simp [install, nextStream, input]
        have remaining : (install (tuples, next)).left = csc.left - tuples.length := by
          simp only [install, left, total, last]
          omega
        by_cases none : tuples = []
        · have nothing := empty none
          rw [none] at rows
          simp [readAhead, batch, silent, none, nothing, readRows]
        · have some : 0 < tuples.length := List.length_pos_iff.mpr none
          have others := @ih (install (tuples, next)) open_ (by omega)
          rw [same, remaining] at others
          rw [readAhead]
          simp [batch, silent, none, others, rows]

/-- A pass gives rows of the server and then reports an error. -/
def PassReports (rows : List Row) (pass : List (List Attr) × Bool) : Prop :=
  pass.1 <+: rows.map Row.tuple ∧ pass.2 = true

/--
For every state, whatever `m_ioe` was left as: a pass reports an error where the file does,
and behind the end of the data what `m_ioe` says.
-/
theorem readAhead_reports_iff (csc : ClientSideCursorResult) (rows : List Row) (more : Nat) :
    PassReports rows (csc.readAhead (csc.left + 1 + more)) ↔
      if csc.endOfInputStream then csc.ioe = true
      else FileReports rows csc.left csc.nextStream := by
  cases ended : csc.endOfInputStream with
  | true =>
      rw [Nat.add_right_comm, readAhead_ended ended]
      simp [PassReports]
  | false =>
      rw [readAhead_rows _ ended (by omega), PassReports]
      simp only [decide_eq_true_eq, Bool.false_eq_true, if_false]
      exact readRows_reports_iff csc.left csc.nextStream rows

end ClientSideCursorResult

end RedshiftOdbc.Csc
