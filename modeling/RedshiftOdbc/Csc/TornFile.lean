import RedshiftOdbc.Csc.RowFile

/-!
# Reading a file that was cut short

A full disk, or a reader ahead of the writer, leaves a prefix of the row file.
`tornRows` says what the reader makes of a prefix.  It stops at the row the cut
falls in unless the cut leaves nothing but zero bytes of a length word: that
length reads as zero, and the row comes back with empty strings from there on.
-/

namespace RedshiftOdbc.Csc

open RedshiftOdbc.Words

/-- The surviving bytes of the length word are all zero. -/
def ZeroLength (column : Column) (cut : Nat) : Prop :=
  ∀ byte ∈ (little 4 (unsigned 4 (Column.len column))).take cut, byte = 0

instance (column : Column) (cut : Nat) : Decidable (ZeroLength column cut) :=
  inferInstanceAs (Decidable (∀ byte ∈ _, byte = 0))

/-- An empty string, as a length word of zero gives it. -/
def emptyAttr : Attr := ⟨0, some []⟩

/-- What `readColumn` makes of a column cut after `cut` bytes. -/
def tornColumn (column : Column) (cut : Nat) : Option Attr :=
  if cut < 4 ∧ ZeroLength column cut then some emptyAttr else none

/-- What `readColumns` makes of columns cut after `cut` bytes. -/
def tornColumns : List Column → Nat → Option (List Attr)
  | [], _ => some []
  | column :: rest, cut =>
      if cut < (encodeColumn column).length then
        (tornColumn column cut).map (· :: List.replicate rest.length emptyAttr)
      else
        (tornColumns rest (cut - (encodeColumn column).length)).map (Column.attr column :: ·)

/-- What the reader makes of a file cut after `cut` bytes. -/
def tornRows : List Row → Nat → List (List Attr) × Outcome
  | [], _ => ([], .endOfFile)
  | row :: rest, cut =>
      if cut < 2 then ([], .endOfFile)
      else if cut < (encodeRow row.cols).length then
        match tornColumns row.cols (cut - 2) with
        | none => ([], .ioError)
        | some tuple => ([tuple], .endOfFile)
      else
        let (read, outcome) := tornRows rest (cut - (encodeRow row.cols).length)
        (row.tuple :: read, outcome)

/--
The cut does not fall at or inside a length word of which only zero bytes are
left, unless that column and all behind it are empty strings anyway.
-/
def ColumnsCutHarmless : List Column → Nat → Prop
  | [], _ => True
  | column :: rest, cut =>
      if cut < (encodeColumn column).length then
        cut < 4 → ZeroLength column cut → ∀ other ∈ column :: rest, other = some []
      else ColumnsCutHarmless rest (cut - (encodeColumn column).length)

/-- The row the cut falls in, if any, is cut harmlessly. -/
def CutHarmless : List Row → Nat → Prop
  | [], _ => True
  | row :: rest, cut =>
      if cut < 2 then True
      else if cut < (encodeRow row.cols).length then ColumnsCutHarmless row.cols (cut - 2)
      else CutHarmless rest (cut - (encodeRow row.cols).length)

theorem encodeColumn_length (column : Column) :
    (encodeColumn column).length = 4 + (Column.stored column).length := by
  simp [encodeColumn]

/-! ## What is read -/

theorem readIntCscInputStream_torn {stream : InputStream} (sound : stream.Sound)
    (short : stream.rest.length < 4) :
    stream.readIntCscInputStream = ((ofLittle stream.rest : Int),
      { stream with pos := stream.pos + stream.rest.length, feof := true, eof := true }) := by
  have small : 2 * ofLittle stream.rest < 256 ^ 4 := by
    have bound := ofLittle_lt stream.rest
    have widest : 256 ^ stream.rest.length ≤ 256 ^ 3 :=
      Nat.pow_le_pow_right (by decide) (by omega)
    norm_num at widest ⊢
    omega
  simp only [InputStream.readIntCscInputStream, InputStream.freadCsc_short sound short,
    signed_of_lt small]

/-- A length word that is cut short ends the row unless its bytes are all zero. -/
theorem readColumn_tornLength {stream : InputStream} {column : Column} {cut : Nat}
    (sound : stream.Sound) (inside : cut < 4)
    (shape : stream.rest = (encodeColumn column).take cut) :
    ∃ after, readColumn stream = (tornColumn column cut, after) ∧
      after.feof = true ∧ after.error = false := by
  have length : stream.rest.length = cut := by
    rw [shape, List.length_take, encodeColumn_length]
    omega
  have word : stream.rest = (little 4 (unsigned 4 (Column.len column))).take cut := by
    rw [shape, encodeColumn, List.take_append_of_le_length (by rw [little_length]; omega)]
  have read := readIntCscInputStream_torn sound (by omega : stream.rest.length < 4)
  have zero : ofLittle stream.rest = 0 ↔ ZeroLength column cut := by
    rw [ofLittle_eq_zero, word, ZeroLength]
  by_cases empty : ZeroLength column cut
  · have none : ofLittle stream.rest = 0 := zero.mpr empty
    refine ⟨{ stream with pos := stream.pos + stream.rest.length, feof := true, eof := true }, ?_,
      rfl, sound.error⟩
    simp [readColumn, read, none, tornColumn, inside, empty, emptyAttr]
  · have positive : 0 < ofLittle stream.rest := Nat.pos_of_ne_zero (fun none => empty (zero.mp none))
    have filled : ¬ (ofLittle stream.rest : Int) = -1 := by omega
    have missing : ¬ (0 : Int) = ofLittle stream.rest := by omega
    refine ⟨{ stream with pos := stream.pos + stream.rest.length, feof := true, eof := true }, ?_,
      rfl, sound.error⟩
    simp [readColumn, read, filled, missing, positive, InputStream.readCscInputStream,
      InputStream.freadCsc_ended, tornColumn, empty]

/-- A value that is cut short is noticed. -/
theorem readColumn_tornValue {stream : InputStream} {column : Column} {cut : Nat}
    (sound : stream.Sound) (fits : ∀ value, column = some value → value.length < intMax)
    (behind : 4 ≤ cut) (inside : cut < (encodeColumn column).length)
    (shape : stream.rest = (encodeColumn column).take cut) :
    ∃ after, readColumn stream = (none, after) ∧ after.feof = true ∧ after.error = false := by
  rw [encodeColumn_length] at inside
  have filled : ∃ value, column = some value ∧ cut < 4 + value.length := by
    cases column with
    | none => simp only [Column.stored, List.length_nil] at inside; omega
    | some value => exact ⟨value, rfl, inside⟩
  obtain ⟨value, rfl, inValue⟩ := filled
  have small := fits value rfl
  rw [intMax] at small
  have split : stream.rest = little 4 (unsigned 4 (value.length : Int)) ++ value.take (cut - 4) := by
    rw [shape, encodeColumn, List.take_append, little_length,
      List.take_of_length_le (by rw [little_length]; exact behind)]
    rfl
  have read := readIntCscInputStream_written sound (by omega) (by omega) split
  have still := InputStream.sound_advance sound 4
  have left := InputStream.rest_advance split (little_length 4 _)
  have short : (InputStream.rest { stream with pos := stream.pos + 4 }).length < value.length := by
    rw [left, List.length_take]
    omega
  have count := InputStream.readCscInputStream_short still short
  have ended := InputStream.freadCsc_ends _ 1 value.length still
    (by rw [Nat.one_mul]; exact short)
  rcases taken : InputStream.readCscInputStream { stream with pos := stream.pos + 4 } value.length
    with ⟨bytes, actual, after⟩
  rw [taken] at count
  rw [InputStream.readCscInputStream] at taken
  rw [taken] at ended
  have differ : ¬ (actual : Int) = value.length := by
    simp only at count
    omega
  have present : ¬ (value.length : Int) = -1 := by omega
  have positive : 0 < (value.length : Int) := by omega
  refine ⟨after, ?_, ended⟩
  simp only [readColumn, read, present, positive, Int.toNat_natCast, if_true, if_false,
    InputStream.readCscInputStream, taken, ne_eq, differ, not_false_eq_true]

theorem readColumn_torn {stream : InputStream} {column : Column} {cut : Nat}
    (sound : stream.Sound) (fits : ∀ value, column = some value → value.length < intMax)
    (inside : cut < (encodeColumn column).length)
    (shape : stream.rest = (encodeColumn column).take cut) :
    ∃ after, readColumn stream = (tornColumn column cut, after) ∧
      after.feof = true ∧ after.error = false := by
  by_cases word : cut < 4
  · exact readColumn_tornLength sound word shape
  · have none : tornColumn column cut = none := by simp [tornColumn, word]
    rw [none]
    exact readColumn_tornValue sound fits (by omega) inside shape

/-- Behind the end of the file every length word reads as zero. -/
theorem readColumns_ended (count : Nat) {stream : InputStream} (ended : stream.feof = true)
    (calm : stream.error = false) :
    ∃ after, readColumns count stream = (some (List.replicate count emptyAttr), after) ∧
      after.feof = true ∧ after.error = false := by
  induction count generalizing stream with
  | zero => exact ⟨stream, rfl, ended, calm⟩
  | succ count ih =>
      have first : readColumn stream = (some emptyAttr, { stream with eof := true }) := by
        simp [readColumn, InputStream.readIntCscInputStream, InputStream.freadCsc_ended ended,
          ofLittle, signed, emptyAttr]
      obtain ⟨after, others, flag, silent⟩ := @ih { stream with eof := true } ended calm
      exact ⟨after, by simp [readColumns, first, others, List.replicate_succ], flag, silent⟩

theorem readColumns_torn {stream : InputStream} {cols : List Column} {cut : Nat}
    (sound : stream.Sound) (fits : ∀ value, some value ∈ cols → value.length < intMax)
    (inside : cut < (cols.flatMap encodeColumn).length)
    (shape : stream.rest = (cols.flatMap encodeColumn).take cut) :
    ∃ after, readColumns cols.length stream = (tornColumns cols cut, after) ∧
      ((tornColumns cols cut).isSome → after.feof = true ∧ after.error = false) := by
  induction cols generalizing stream cut with
  | nil => simp at inside
  | cons column rest ih =>
      have head : ∀ value, column = some value → value.length < intMax := by
        intro value same
        exact fits value (by simp [same])
      have tailFits : ∀ value, some value ∈ rest → value.length < intMax := by
        intro value member
        exact fits value (by simp [member])
      rw [List.flatMap_cons] at shape inside
      by_cases here : cut < (encodeColumn column).length
      · rw [List.take_append_of_le_length (Nat.le_of_lt here)] at shape
        obtain ⟨middle, first, flag, silent⟩ := readColumn_torn sound head here shape
        cases torn : tornColumn column cut with
        | none =>
            rw [torn] at first
            exact ⟨middle, by simp [readColumns, first, tornColumns, here, torn],
              by simp [tornColumns, here, torn]⟩
        | some attr =>
            rw [torn] at first
            obtain ⟨after, others, ended, calm⟩ := readColumns_ended rest.length flag silent
            exact ⟨after, by simp [readColumns, first, others, tornColumns, here, torn],
              fun _ => ⟨ended, calm⟩⟩
      · rw [List.take_append, List.take_of_length_le (Nat.le_of_not_lt here)] at shape
        have first := readColumn_written sound head shape
        rw [List.length_append] at inside
        obtain ⟨after, others, flags⟩ := ih (InputStream.sound_advance sound _) tailFits (by omega)
          (InputStream.rest_advance shape rfl)
        exact ⟨after, by simp [readColumns, first, others, tornColumns, here],
          by simpa [tornColumns, here] using flags⟩

/-- A row that is cut behind its column count. -/
theorem readRowCsc_torn {stream : InputStream} {row : Row} {cut : Nat} (sound : stream.Sound)
    (behind : 2 ≤ cut) (inside : cut < (encodeRow row.cols).length)
    (shape : stream.rest = (encodeRow row.cols).take cut) :
    ∃ after, readRowCsc stream = (⟨tornColumns row.cols (cut - 2),
        (tornColumns row.cols (cut - 2)).isNone, false⟩, after) ∧
      ((tornColumns row.cols (cut - 2)).isSome → after.feof = true) := by
  have split : stream.rest = little 2 (unsigned 2 (row.cols.length : Int)) ++
      (row.cols.flatMap encodeColumn).take (cut - 2) := by
    rw [shape, encodeRow, List.take_append, little_length,
      List.take_of_length_le (by rw [little_length]; exact behind)]
  have short := readShortCscInputStreamForNumberOfCols_written sound row.cols_le split
  have inColumns : cut - 2 < (row.cols.flatMap encodeColumn).length := by
    rw [encodeRow, List.length_append, little_length] at inside
    omega
  obtain ⟨after, columns, flags⟩ := readColumns_torn (InputStream.sound_advance sound 2) row.len_lt
    inColumns (InputStream.rest_advance split (little_length 2 _))
  have positive : 0 < (row.cols.length : Int) := by exact_mod_cast row.cols_pos
  cases torn : tornColumns row.cols (cut - 2) with
  | none =>
      rw [torn] at columns
      refine ⟨after, ?_, by simp⟩
      simp only [readRowCsc, sound.feofCscInputStream, short, positive, Int.toNat_natCast, columns,
        Bool.false_eq_true, if_false, if_true, Option.isNone_none]
  | some tuple =>
      rw [torn] at columns flags
      obtain ⟨ended, calm⟩ := flags rfl
      refine ⟨{ after with error := false }, ?_, fun _ => ended⟩
      simp only [readRowCsc, sound.feofCscInputStream, short, positive, Int.toNat_natCast, columns,
        Bool.false_eq_true, if_false, if_true, InputStream.getIOErrorCsc, calm,
        Option.isNone_some]

theorem readRows_ended (calls : Nat) {stream : InputStream}
    (last : (readRowCsc stream).1 = ⟨none, false, true⟩) :
    readRows (calls + 1) stream = ([], .endOfFile) := by
  simp [readRows, last]

/-- Every file that is cut short is read as `tornRows` says. -/
theorem readRows_torn {rows : List Row} {stream : InputStream} {cut calls : Nat}
    (sound : stream.Sound) (enough : rows.length < calls)
    (shape : stream.rest = (encodeRows rows).take cut) :
    readRows calls stream = tornRows rows cut := by
  induction rows generalizing stream cut calls with
  | nil =>
      obtain ⟨calls, rfl⟩ : ∃ fewer, calls = fewer + 1 := ⟨calls - 1, by simp at enough; omega⟩
      have empty : stream.rest = [] := by simpa [encodeRows] using shape
      exact readRows_ended _ (readRowCsc_atEnd sound (by simp [empty])).1
  | cons row rest ih =>
      obtain ⟨calls, rfl⟩ : ∃ fewer, calls = fewer + 1 := ⟨calls - 1, by omega⟩
      have parts : encodeRows (row :: rest) = encodeRow row.cols ++ encodeRows rest := by
        simp [encodeRows]
      rw [parts] at shape
      by_cases count : cut < 2
      · have short : stream.rest.length < 2 := by
          rw [shape, List.length_take]
          omega
        rw [readRows_ended _ (readRowCsc_atEnd sound short).1]
        simp [tornRows, count]
      · by_cases here : cut < (encodeRow row.cols).length
        · rw [List.take_append_of_le_length (Nat.le_of_lt here)] at shape
          obtain ⟨after, read, flag⟩ := readRowCsc_torn sound (Nat.le_of_not_lt count) here shape
          cases torn : tornColumns row.cols (cut - 2) with
          | none => simp [readRows, read, tornRows, count, here, torn]
          | some tuple =>
              -- the row comes back whole, only the next call meets the end of the file
              obtain ⟨fewer, rfl⟩ : ∃ fewer, calls = fewer + 1 :=
                ⟨calls - 1, by simp only [List.length_cons] at enough; omega⟩
              have last := readRows_ended fewer
                (readRowCsc_ended (flag (by simp [torn]))).1
              rw [readRows, read]
              simp [torn, last, tornRows, count, here]
        · rw [List.take_append, List.take_of_length_le (Nat.le_of_not_lt here)] at shape
          have first := readRowCsc_written sound shape
          have others := ih (InputStream.sound_advance sound _)
            (by simp only [List.length_cons] at enough; omega : rest.length < calls)
            (InputStream.rest_advance shape rfl)
          simp [readRows, first, others, tornRows, count, here]

/-! ## What it is worth -/

theorem tornRows_all (rows : List Row) {cut : Nat} (all : (encodeRows rows).length ≤ cut) :
    tornRows rows cut = (rows.map Row.tuple, .endOfFile) := by
  induction rows generalizing cut with
  | nil => rfl
  | cons row rest ih =>
      have count : 2 ≤ (encodeRow row.cols).length := by simp [encodeRow]
      simp only [encodeRows, List.flatMap_cons, List.length_append] at all
      have tail := @ih (cut - (encodeRow row.cols).length)
        (by simp only [encodeRows]; omega)
      have present : ¬ cut < 2 := by omega
      have whole : ¬ cut < (encodeRow row.cols).length := by omega
      simp [tornRows, present, whole, tail]

theorem tornRows_outcome (rows : List Row) (cut : Nat) : (tornRows rows cut).2 ≠ .more := by
  induction rows generalizing cut with
  | nil => simp [tornRows]
  | cons row rest ih =>
      simp only [tornRows]
      split
      · simp
      · split
        · split <;> simp
        · exact ih _

theorem attr_eq_empty (column : Column) : Column.attr column = emptyAttr ↔ column = some [] := by
  cases column <;> simp [Column.attr, Column.len, emptyAttr]

/-- Torn columns that come back are the written ones exactly when the cut is harmless. -/
theorem tornColumns_harmless (cols : List Column) (cut : Nat) :
    (∀ tuple, tornColumns cols cut = some tuple → tuple = cols.map Column.attr) ↔
      ColumnsCutHarmless cols cut := by
  induction cols generalizing cut with
  | nil => simp [tornColumns, ColumnsCutHarmless]
  | cons column rest ih =>
      by_cases here : cut < (encodeColumn column).length
      · by_cases zero : cut < 4 ∧ ZeroLength column cut
        · have empties : List.replicate rest.length emptyAttr = rest.map Column.attr ↔
              ∀ other ∈ rest, other = some [] := by
            rw [eq_comm, List.eq_replicate_iff]
            simp [attr_eq_empty]
          simp [tornColumns, ColumnsCutHarmless, here, tornColumn, zero, empties,
            eq_comm (a := emptyAttr), attr_eq_empty]
        · simp only [tornColumns, ColumnsCutHarmless, here, tornColumn, zero, if_true, if_false]
          simp only [Option.map_none, reduceCtorEq, false_implies, implies_true, true_iff]
          exact fun word bytes => absurd ⟨word, bytes⟩ zero
      · simp [tornColumns, ColumnsCutHarmless, here, ← ih]

theorem tornRows_harmless (rows : List Row) (cut : Nat) :
    (tornRows rows cut).1 <+: rows.map Row.tuple ↔ CutHarmless rows cut := by
  induction rows generalizing cut with
  | nil => simp [tornRows, CutHarmless]
  | cons row rest ih =>
      by_cases count : cut < 2
      · simp [tornRows, CutHarmless, count]
      · by_cases here : cut < (encodeRow row.cols).length
        · have exactly := tornColumns_harmless row.cols (cut - 2)
          cases torn : tornColumns row.cols (cut - 2) with
          | none =>
              rw [torn] at exactly
              simpa [tornRows, CutHarmless, count, here, torn] using exactly
          | some tuple =>
              rw [torn] at exactly
              simpa [tornRows, CutHarmless, count, here, torn, Row.tuple] using exactly
        · simp [tornRows, CutHarmless, count, here, ih]

/-- Repeated reads of the file give a prefix of the rows and then come to an end. -/
def GivesBackPrefix (rows : List Row) (file : List UInt8) : Prop :=
  ∀ calls, rows.length < calls →
    (readRows calls (InputStream.opened file)).1 <+: rows.map Row.tuple ∧
      (readRows calls (InputStream.opened file)).2 ≠ .more

theorem sound_opened (file : List UInt8) : (InputStream.opened file).Sound := ⟨rfl, rfl, rfl⟩

/--
The rows written are read back, NULL and the empty string kept apart, and then
the end of the file.  Of a file cut short the rows given back were all written
exactly when the cut is harmless.
-/
theorem readRows_written_cut {maxFileSize : Nat} {forwardOnly : Bool} {rows : List Row}
    {writer : Writer}
    (written : writeRows maxFileSize (Writer.created forwardOnly) rows = some writer) (cut : Nat) :
    (∀ calls, rows.length < calls →
        readRows calls (InputStream.opened writer.data.total) =
          (rows.map Row.tuple, .endOfFile)) ∧
      (GivesBackPrefix rows (writer.data.total.take cut) ↔ CutHarmless rows cut) := by
  have file : writer.data.total = encodeRows rows := by
    rw [Writer.total_writeRows written]
    simp [Writer.created, OutputStream.created, OutputStream.total]
  rw [file]
  constructor
  · intro calls enough
    have shape : (InputStream.opened (encodeRows rows)).rest =
        (encodeRows rows).take (encodeRows rows).length := by
      simp [InputStream.opened, InputStream.rest]
    rw [readRows_torn (sound_opened _) enough shape, tornRows_all rows (Nat.le_refl _)]
  · have read : ∀ calls, rows.length < calls →
        readRows calls (InputStream.opened ((encodeRows rows).take cut)) = tornRows rows cut :=
      fun calls enough => readRows_torn (sound_opened _) enough rfl
    rw [← tornRows_harmless]
    constructor
    · intro gives
      have once := (gives (rows.length + 1) (Nat.lt_succ_self _)).1
      rwa [read _ (Nat.lt_succ_self _)] at once
    · intro isPrefix calls enough
      rw [read calls enough]
      exact ⟨isPrefix, tornRows_outcome rows cut⟩

/-- The row `A`, `B`, which takes twelve bytes. -/
def pairRow : Row :=
  ⟨[some [65], some [66]], by decide, by decide, by simp [intMax]⟩

/-- The row of NULL and the empty string. -/
def sparseRow : Row :=
  ⟨[none, some []], by decide, by decide, by simp [intMax]⟩

/-- Two rows, and a cut in the second one. -/
theorem readRows_written_cut_pairRow :
    ∃ writer, writeRows 0 (Writer.created true) [sparseRow, pairRow] = some writer ∧
      (∀ calls, 2 < calls → readRows calls (InputStream.opened writer.data.total) =
        ([sparseRow, pairRow].map Row.tuple, .endOfFile)) ∧
      (GivesBackPrefix [sparseRow, pairRow] (writer.data.total.take 18) ↔
        CutHarmless [sparseRow, pairRow] 18) := by
  have written : ∃ writer, writeRows 0 (Writer.created true) [sparseRow, pairRow] = some writer :=
    ⟨_, rfl⟩
  obtain ⟨writer, written⟩ := written
  exact ⟨writer, written, readRows_written_cut written 18⟩

/-- Cut where its second length word starts, the row comes back as `A` and the empty string. -/
theorem readRows_written_cut_wrong :
    ¬ ∀ (maxFileSize : Nat) (forwardOnly : Bool) (rows : List Row) (writer : Writer),
      writeRows maxFileSize (Writer.created forwardOnly) rows = some writer →
      ∀ cut, GivesBackPrefix rows (writer.data.total.take cut) := by
  intro every
  have once := (every 0 true [pairRow] _ rfl 7 2 (by decide)).1
  revert once
  decide

end RedshiftOdbc.Csc
