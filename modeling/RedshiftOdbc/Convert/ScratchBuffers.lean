import RedshiftOdbc.Convert.Timestamp

/-!
# The local buffers of the conversions

`getRsVal`, `convertSQLDataToCData` and `parse_intervald2s` read the text of a
column through local arrays: `szNumBuf`, `szFraction` and `micr`.  Here every
write into one of them checks that it stays inside; a run without a result is one
that wrote somewhere else.
-/

namespace RedshiftOdbc.Convert

open RedshiftOdbc.Scanf RedshiftOdbc.Words

/-! ## Arrays -/

/-- A text written into an array from an index on. -/
def store (array : List Char) (index : Nat) (text : List Char) : Option (List Char) :=
  if index + text.length ≤ array.length then
    some (array.take index ++ text ++ array.drop (index + text.length))
  else none

def storeString (array : List Char) (index : Nat) (text : List Char) : Option (List Char) :=
  store array index (text ++ ['\x00'])

/-- `count` zeros written one after the other from an index on. -/
def fillZeros : Nat → Nat → List Char → Option (List Char)
  | 0, _, array => some array
  | count + 1, index, array => (store array index ['0']).bind (fillZeros count (index + 1))

structure Scratch where
  szNumBuf : List Char
  szFraction : List Char
  szNumBuf_size : szNumBuf.length = maxNumberBufLen + 1
  szFraction_size : szFraction.length = 32

/-! ## `getRsVal` -/

/-- The text a value is read from, by way of `szNumBuf` when its end is missing. -/
def numBufText (scratch : Scratch) (pColData : List Char) (iColDataLen : Nat) :
    Option (List Char) :=
  if pColData[iColDataLen - 1]? = some '\x00' then some (cString pColData)
  else (storeString scratch.szNumBuf 0 (pColData.take (min iColDataLen maxNumberBufLen))).map
    cString

/-- `szFraction` after the fields were read. -/
def storeFraction (szFraction : List Char) (word : Option (List Char)) : Option (List Char) :=
  let cleared := szFraction.set 0 '\x00'
  match word with
  | none => some cleared
  | some word => storeString cleared 0 word

/-- The zeros at the right and the end at `width`. -/
def padFraction (szFraction : List Char) (fractionLen : Int) (width : Nat) :
    Option (List Char) :=
  if 0 < fractionLen then
    (fillZeros (width - fractionLen.toNat) fractionLen.toNat szFraction).bind fun padded =>
      store padded width ['\x00']
  else some szFraction

/-- The fraction of a value whose fields were read, with zeros up to `width`. -/
def readFraction (szFraction : List Char) (word : Option (List Char)) (cut : Nat)
    (width : Nat) : Option Nat :=
  (storeFraction szFraction word).bind fun stored =>
    (padFraction stored ((cString stored).length - cut) width).map fun padded =>
      scanFraction (cString padded) width

/-- `getRsVal` for a timestamp in text format. -/
def readTimestamp (scratch : Scratch) (hRsSpecialType : RsSpecialType) (before : TimestampStruct)
    (pColData : List Char) (iColDataLen : Nat) : Option TimestampStruct :=
  if 0 < iColDataLen then
    (numBufText scratch pColData iColDataLen).bind fun text =>
      (readFraction scratch.szFraction (sscanf timestampFormat text).words.head?
        (if hRsSpecialType = .timestamptzoid then 3 else 0) 9).map fun fraction =>
          { (scanTimestamp before text).1 with fraction := fraction }
  else some ⟨0, 0, 0, 0, 0, 0, 0⟩

/-- `getRsVal` for a time in text format. -/
def readTime (scratch : Scratch) (before : RsTimeStruct) (pColData : List Char)
    (iColDataLen : Nat) : Option RsTimeStruct :=
  if 0 < iColDataLen then
    (numBufText scratch pColData iColDataLen).bind fun text =>
      (readFraction scratch.szFraction (sscanf timeFormat text).words.head? 0 6).map fun fraction =>
        { (scanTime before text).1 with fraction := fraction }
  else some ⟨0, 0, 0, 0⟩

/-- `getRsVal` for a date in text format. -/
def readDate (scratch : Scratch) (before : DateStruct) (pColData : List Char)
    (iColDataLen : Nat) : Option DateStruct :=
  if 0 < iColDataLen then
    (numBufText scratch pColData iColDataLen).map fun text =>
      let scanned := sscanf dateFormat text
      ⟨shortField scanned 0 before.year, shortField scanned 1 before.month,
        shortField scanned 2 before.day⟩
  else some ⟨0, 0, 0⟩

/-! ## `parse_intervald2s` -/

structure IntervalD2s where
  day : Nat
  hour : Nat
  minute : Nat
  second : Nat
  fraction : Nat
  deriving DecidableEq, Repr

/-- The fields of an interval, whether `micr[0]` is set to a minus, and the word for `micr + 1`. -/
structure IntervalFields where
  day : Int
  hour : Int
  min : Int
  sec : Int
  negative : Bool
  word : Option (List Char)
  deriving DecidableEq, Repr

/-- A field that is an `int`; one that was not read keeps what it held. -/
def intField (scanned : Scanned) (index : Nat) (before : Int) : Int :=
  ((scanned.ints[index]?).map fun value =>
    wrap 4 (max (-(2 ^ 63)) (min (2 ^ 63 - 1) value))).getD before

/-- `strstr` from a position on. -/
def strstr (needle : List Char) : List Char → Nat → Option Nat
  | [], _ => none
  | character :: rest, position =>
      if needle.isPrefixOf (character :: rest) then some position
      else strstr needle rest (position + 1)

/--
The text from the number on that ends two characters before a position; at the
start of the text that is the byte in front of it.
-/
def numberBefore (front : Char) (buf : List Char) (inNumber : Char → Bool) (position : Nat) :
    List Char :=
  if position = 0 then front :: buf
  else
    let head := buf.take (position - 1)
    buf.drop (head.length - (head.reverse.takeWhile inNumber).length)

def isDigitOrMinus (character : Char) : Bool := character.isDigit || character == '-'

/-- One field of a verbose interval: its value and where the search goes on. -/
def searchField (front : Char) (buf : List Char) (name : List Char) (search_pos : Nat) :
    Int × Nat :=
  match strstr name (buf.drop search_pos) search_pos with
  | none => (0, search_pos)
  | some found =>
      let scanned := sscanf [.int (buf.length + 1)] (numberBefore front buf isDigitOrMinus found)
      (intField scanned 0 0, found)

/-- `"%d:%d:%d.%s"`. -/
def clockFormat (width : Nat) : List Directive :=
  [.int width, .literal ':', .int width, .literal ':', .int width, .literal '.', .word]

/-- The branch without letters. -/
def plainInterval (has_spaces : Bool) (text : List Char) : IntervalFields :=
  let is_neg := text.head? = some '-'
  let buf := if is_neg then text.tail else text
  let width := buf.length
  let scanned :=
    if has_spaces then sscanf (.int width :: .space :: clockFormat width) buf
    else sscanf (clockFormat width) buf
  let first := if has_spaces then 1 else 0
  let day := if has_spaces then intField scanned 0 0 else 0
  let hour := intField scanned first 0
  let min := intField scanned (first + 1) 0
  let sec := intField scanned (first + 2) 0
  if is_neg then
    { day := if 0 < day then -day else day
      hour := if 0 < hour then -hour else hour
      min := if 0 < min then -min else min
      sec := -sec
      negative := true
      word := scanned.words.head? }
  else ⟨day, hour, min, sec, false, scanned.words.head?⟩

/-- The branch for the verbose style, once the days are read. -/
def verboseInterval (front : Char) (buf : List Char) (day : Int) (search_pos : Nat) :
    IntervalFields :=
  let hour := searchField front buf ['h', 'o', 'u', 'r'] search_pos
  let min := searchField front buf ['m', 'i', 'n'] hour.2
  let sec := strstr ['s', 'e', 'c'] (buf.drop min.2) min.2
  let scanned :=
    match sec with
    | none => ⟨[], []⟩
    | some found =>
        sscanf [.int (buf.length + 1), .literal '.', .word] (numberBefore front buf
          (fun character => isDigitOrMinus character || character == '.') found)
  let seconds := intField scanned 0 0
  let word := scanned.words.head?
  match strstr ['a', 'g', 'o'] (buf.drop (sec.getD min.2)) (sec.getD min.2) with
  | some _ => ⟨-day, -hour.1, -min.1, -seconds, true, word⟩
  | none => ⟨day, hour.1, min.1, seconds, decide (seconds < 0), word⟩

/-- The branch for the other style with letters. -/
def clockInterval (buf : List Char) (day : Int) (search_pos : Nat) : IntervalFields :=
  let rest := (buf.drop search_pos).dropWhile fun character => !isDigitOrMinus character
  let width := buf.length
  match rest with
  | [] => ⟨day, 0, 0, 0, false, none⟩
  | '-' :: _ =>
      let scanned := sscanf (.literal '-' :: clockFormat width) rest
      ⟨day, -intField scanned 0 0, -intField scanned 1 0, -intField scanned 2 0, true,
        scanned.words.head?⟩
  | _ :: _ =>
      let scanned := sscanf (clockFormat width) rest
      ⟨day, intField scanned 0 0, intField scanned 1 0, intField scanned 2 0, false,
        scanned.words.head?⟩

/-- What is read from the text of an interval; `front` is the byte in front of `buf`. -/
def scanInterval (front : Char) (buf : List Char) (buf_len : Nat) : IntervalFields :=
  let seen := buf.take buf_len
  let text := cString buf
  let has_alphabets := seen.any fun character =>
    !(character == '@' || character == ' ' || character == ':' || isDigitOrMinus character ||
      character == '.')
  if has_alphabets then
    let day := searchField front text ['d', 'a', 'y'] 0
    if '@' ∈ seen then verboseInterval front text day.1 day.2
    else clockInterval text day.1 day.2
  else plainInterval (decide (' ' ∈ seen)) text

/-- `micr` after the fields were read. -/
def storeMicr (fields : IntervalFields) : Option (List Char) :=
  let micr := "+000000000\x00".toList
  (match fields.word with
    | none => some micr
    | some word => storeString micr 1 word).bind fun stored =>
      if fields.negative then store stored 0 ['-'] else some stored

def parse_intervald2s (front : Char) (buf : List Char) (buf_len : Nat) : Option IntervalD2s :=
  let fields := scanInterval front buf buf_len
  (storeMicr fields).bind fun stored =>
    let length := (cString stored).length
    (fillZeros (7 - length) length stored).bind fun padded =>
      (store padded 7 ['\x00']).map fun micr =>
        ⟨unsigned 4 fields.day, unsigned 4 fields.hour, unsigned 4 fields.min,
          unsigned 4 fields.sec, unsigned 4 (atoi (cString micr))⟩

/-- `getRsVal` for an interval in text format. -/
def readIntervalD2s (scratch : Scratch) (front : Char) (pColData : List Char)
    (iColDataLen : Nat) : Option IntervalD2s :=
  if 0 < iColDataLen then
    if pColData[iColDataLen - 1]? = some '\x00' then
      parse_intervald2s front pColData iColDataLen
    else
      (numBufText scratch pColData iColDataLen).bind fun text =>
        parse_intervald2s front text text.length
  else some ⟨0, 0, 0, 0, 0⟩

/-! ## `convertSQLDataToCData` -/

/-- The members of an `RS_VALUE` for dates, times and intervals of days. -/
structure RsVal where
  tsVal : TimestampStruct
  tVal : RsTimeStruct
  dtVal : DateStruct
  d2sVal : IntervalD2s
  deriving DecidableEq, Repr

/--
`getRsVal`.  The types of numbers, and intervals of years, read their text by way
of `szNumBuf` too; what they set is no member here.
-/
def getRsVal (scratch : Scratch) (front : Char) (hSQLType : SqlType)
    (hRsSpecialType : RsSpecialType) (isText : Bool) (before : RsVal) (pColData : List Char)
    (iColDataLen : Nat) : Option RsVal :=
  if isText then
    match hSQLType with
    | .typeTimestamp | .timestamp =>
        (readTimestamp scratch hRsSpecialType before.tsVal pColData iColDataLen).map fun tsVal =>
          { before with tsVal := tsVal }
    | .typeTime | .time =>
        (readTime scratch before.tVal pColData iColDataLen).map fun tVal =>
          { before with tVal := tVal }
    | .typeDate | .date =>
        (readDate scratch before.dtVal pColData iColDataLen).map fun dtVal =>
          { before with dtVal := dtVal }
    | .intervalDayToSecond =>
        (readIntervalD2s scratch front pColData iColDataLen).map fun d2sVal =>
          { before with d2sVal := d2sVal }
    | .smallint | .integer | .bigint | .real | .float | .double | .numeric | .decimal |
      .intervalYearToMonth =>
        if 0 < iColDataLen then (numBufText scratch pColData iColDataLen).map fun _ => before
        else some before
    | _ => some before
  else some before

/-- The C types that are dates, times, timestamps or intervals. -/
inductive TimeTarget where
  | date
  | time
  | timestamp
  | intervalYearToMonth
  | intervalDayToSecond
  deriving DecidableEq, Repr

/-- The timestamp that an arm of `convertSQLDataToCData` reads from the column itself. -/
def columnTimestamp (szFraction : { array : List Char // array.length = 32 })
    (before : TimestampStruct) (pColData : List Char) : Option TimestampStruct :=
  let text := cString pColData
  (storeFraction szFraction (sscanf timestampFormat text).words.head?).map fun stored =>
    { (scanTimestamp before text).1 with
      fraction := if cString stored = [] then 0 else unsigned 4 (atoi (cString stored)) }

/--
`convertSQLDataToCData` for these C types; `scratch` holds the arrays of `getRsVal`
and `szFraction` is the one of the function itself.
-/
def convertSQLDataToCData (scratch : Scratch)
    (szFraction : { array : List Char // array.length = 32 }) (front : Char) (target : TimeTarget)
    (hSQLType : SqlType) (hRsSpecialType : RsSpecialType) (format : Format) (before : RsVal)
    (pColData : List Char) (iColDataLen : Nat) : Option RsVal :=
  (getRsVal scratch front hSQLType hRsSpecialType (decide (format = .text)) before pColData
    iColDataLen).bind fun rsVal =>
      match target, hSQLType with
      | .timestamp, .varchar | .timestamp, .longvarchar | .timestamp, .wvarchar
      | .timestamp, .wlongvarchar =>
          if hRsSpecialType = .timestamptzoid then
            (columnTimestamp szFraction rsVal.tsVal pColData).map fun tsVal =>
              { rsVal with tsVal := tsVal }
          else some rsVal
      | .time, .typeTimestamp | .time, .timestamp =>
          (columnTimestamp szFraction rsVal.tsVal pColData).map fun tsVal =>
            { rsVal with
              tsVal := tsVal
              tVal := ⟨tsVal.hour, tsVal.minute, tsVal.second, tsVal.fraction⟩ }
      | _, _ => some rsVal

/-! ## Writes into an array -/

theorem cString_no_end (memory : List Char) : '\x00' ∉ cString memory := by
  intro member
  have keep := List.mem_takeWhile_imp member
  simp at keep

theorem store_length {array text stored : List Char} {index : Nat}
    (inside : store array index text = some stored) : stored.length = array.length := by
  rw [store] at inside
  split at inside
  · obtain rfl := Option.some.inj inside
    simp
    omega
  · cases inside

theorem store_fits (array : List Char) (index : Nat) (text : List Char)
    (fits : index + text.length ≤ array.length) : store array index text =
      some (array.take index ++ text ++ array.drop (index + text.length)) := if_pos fits

/-- A string at the start of an array is what the array holds as a string. -/
theorem storeString_start (array : List Char) {text : List Char} (plain : '\x00' ∉ text)
    (fits : text.length < array.length) :
    ∃ stored, storeString array 0 text = some stored ∧ cString stored = text ∧
      stored.length = array.length ∧ stored.take text.length = text := by
  refine ⟨_, store_fits _ _ _ ?_, ?_, ?_, ?_⟩
  · simp
    omega
  · rw [List.take_zero, List.nil_append, List.append_assoc, List.singleton_append]
    exact cString_append plain
  · simp
    omega
  · rw [List.take_zero, List.nil_append, List.append_assoc, List.take_left]

/-- A string that is longer than the array is not written into it. -/
theorem storeString_none (array : List Char) (index : Nat) (text : List Char)
    (long : array.length ≤ index + text.length) : storeString array index text = none := by
  rw [storeString, store, if_neg]
  simp
  omega

/-- The loop that writes zeros stays inside the array. -/
theorem fillZeros_eq (count index : Nat) (array : List Char)
    (fits : index + count ≤ array.length) : fillZeros count index array =
      some (array.take index ++ List.replicate count '0' ++ array.drop (index + count)) := by
  induction count generalizing index array with
  | zero => simp [fillZeros]
  | succ count ih =>
      have one : store array index ['0'] =
          some (array.take index ++ ['0'] ++ array.drop (index + 1)) :=
        store_fits _ _ _ (by simp; omega)
      have length : (array.take index ++ ['0']).length = index + 1 := by
        simp
        omega
      have rest : (array.take index ++ ['0'] ++ array.drop (index + 1)).drop (index + 1 + count) =
          array.drop (index + (count + 1)) := by
        rw [List.drop_append, length, List.drop_eq_nil_of_le (by omega), List.drop_drop,
          List.nil_append]
        congr 1
        omega
      rw [fillZeros, one, Option.bind_some, ih _ _ (by simp; omega), List.take_left' length, rest,
        List.replicate_succ, List.append_assoc (array.take index), List.singleton_append]

/-! ## The fraction -/

/-- `szFraction` takes a word of up to 31 characters. -/
theorem storeFraction_eq {szFraction word : List Char} (size : szFraction.length = 32)
    (plain : '\x00' ∉ word) {found : Option (List Char)} (same : found.getD [] = word) :
    if word.length ≤ 31 then
      ∃ stored, storeFraction szFraction found = some stored ∧ cString stored = word ∧
        stored.length = 32 ∧ stored.take word.length = word
    else storeFraction szFraction found = none := by
  cases found with
  | none =>
      obtain rfl : [] = word := same
      obtain ⟨first, rest, rfl⟩ := List.exists_cons_of_ne_nil
        (show szFraction ≠ [] by rintro rfl; cases size)
      exact ⟨'\x00' :: rest, rfl, rfl, size, rfl⟩
  | some found =>
      obtain rfl : found = word := same
      have length : (szFraction.set 0 '\x00').length = 32 := by rw [List.length_set, size]
      split
      · next short =>
          obtain ⟨stored, write, string, keep, front⟩ :=
            storeString_start (szFraction.set 0 '\x00') plain (by omega)
          exact ⟨stored, write, string, keep.trans length, front⟩
      · next long => exact storeString_none _ _ _ (by omega)

/-- The padding stays inside `szFraction` and leaves the digits that are read. -/
theorem padFraction_eq {stored word : List Char} (size : stored.length = 32)
    (string : cString stored = word) (front : stored.take word.length = word)
    (fractionLen : Int) (upper : fractionLen ≤ word.length) {width : Nat} (narrow : width ≤ 9) :
    ∃ padded, padFraction stored fractionLen width = some padded ∧
      cString padded = padZeros word fractionLen width := by
  rw [padFraction, padZeros]
  split
  · next positive =>
      obtain ⟨count, rfl⟩ := Int.eq_ofNat_of_zero_le (le_of_lt positive)
      rw [Int.toNat_natCast]
      have enough : word.length ≤ 32 := by
        rw [← size, ← front]
        exact List.length_take_le' _ _
      have taken : stored.take count = word.take count := by
        rw [← front, List.take_take, Nat.min_eq_left (by omega)]
      have fill := fillZeros_eq (width - count) count stored (by omega)
      rw [taken] at fill
      have length : (word.take count ++ List.replicate (width - count) '0').length =
          count + (width - count) := by
        rw [List.length_append, List.length_take, List.length_replicate]
        omega
      have cut : (word.take count ++ List.replicate (width - count) '0' ++
          stored.drop (count + (width - count))).take width =
          (word.take count ++ List.replicate (width - count) '0').take width :=
        List.take_append_of_le_length (by omega)
      have plain : '\x00' ∉ (word.take count ++ List.replicate (width - count) '0').take width := by
        intro member
        rcases List.mem_append.mp (List.mem_of_mem_take member) with digit | zero
        · exact cString_no_end stored (string ▸ List.mem_of_mem_take digit)
        · exact absurd (List.eq_of_mem_replicate zero) (by decide)
      rw [fill, Option.bind_some, store_fits _ _ _ (by
        rw [List.length_append, length, List.length_drop, size, List.length_singleton]
        omega)]
      refine ⟨_, rfl, ?_⟩
      rw [cut, List.append_assoc, List.singleton_append]
      exact cString_append plain
  · exact ⟨stored, rfl, string⟩

/-- The fraction of a word of up to 31 characters; a longer one is written beyond the array. -/
theorem readFraction_eq {szFraction word : List Char} (size : szFraction.length = 32)
    (plain : '\x00' ∉ word) {found : Option (List Char)} (same : found.getD [] = word)
    (cut : Nat) {width : Nat} (narrow : width ≤ 9) :
    readFraction szFraction found cut width =
      if word.length ≤ 31 then
        some (scanFraction (padZeros word ((word.length : Int) - cut) width) width)
      else none := by
  have stores := storeFraction_eq size plain same
  rw [readFraction]
  split at stores
  · next short =>
      obtain ⟨stored, write, string, keep, front⟩ := stores
      obtain ⟨padded, pad, text⟩ := padFraction_eq keep string front
        ((word.length : Int) - cut) (by omega) narrow
      rw [write, Option.bind_some, string, pad, Option.map_some, text, if_pos short]
  · next long => rw [stores, Option.bind_none, if_neg long]

/-- `szNumBuf` takes every column. -/
theorem numBufText_eq (scratch : Scratch) (pColData : List Char) (iColDataLen : Nat) :
    numBufText scratch pColData iColDataLen = some (valueText pColData iColDataLen) := by
  rw [numBufText, valueText]
  split
  · rfl
  · have length : (pColData.take (min iColDataLen maxNumberBufLen)).length ≤ maxNumberBufLen := by
      rw [List.length_take]
      omega
    have size := scratch.szNumBuf_size
    rw [storeString, store_fits _ _ _ (by rw [List.length_append, List.length_singleton]; omega),
      Option.map_some, makeNullTerminateIntVal, Nat.add_sub_cancel, List.take_zero,
      List.nil_append, List.append_assoc, List.singleton_append, cString_end]

theorem valueText_no_end (pColData : List Char) (iColDataLen : Nat) :
    '\x00' ∉ valueText pColData iColDataLen := by
  rw [valueText]
  split
  · exact cString_no_end _
  · exact cString_no_end _

/-- The word behind the point holds no end of a string. -/
theorem word_no_end (format : List Directive) {text : List Char} (plain : '\x00' ∉ text) :
    '\x00' ∉ (sscanf format text).words.headD [] := by
  cases words : (sscanf format text).words with
  | nil => simp
  | cons word rest =>
      intro member
      exact plain (sscanf_words_subset (words ▸ List.mem_cons_self) member)

/-- Reading a timestamp is as in the pure reading, or the fraction leaves its array. -/
theorem readTimestamp_eq (scratch : Scratch) (hRsSpecialType : RsSpecialType)
    (before : TimestampStruct) (pColData : List Char) (iColDataLen : Nat) :
    readTimestamp scratch hRsSpecialType before pColData iColDataLen =
      if iColDataLen = 0 ∨
          (scanTimestamp before (valueText pColData iColDataLen)).2.length ≤ 31 then
        some (getTimestampVal hRsSpecialType before pColData iColDataLen)
      else none := by
  rw [readTimestamp, getTimestampVal]
  by_cases some_byte : 0 < iColDataLen
  · have plain := word_no_end timestampFormat
      (valueText_no_end pColData iColDataLen)
    have word : (sscanf timestampFormat (valueText pColData iColDataLen)).words.headD [] =
        (scanTimestamp before (valueText pColData iColDataLen)).2 := rfl
    rw [if_pos some_byte, if_pos some_byte, numBufText_eq, Option.bind_some,
      readFraction_eq scratch.szFraction_size plain (by rw [List.headD_eq_head?_getD]) _ (by decide),
      word]
    by_cases short : (scanTimestamp before (valueText pColData iColDataLen)).2.length ≤ 31
    · rw [if_pos short, if_pos (Or.inr short), Option.map_some]
      by_cases zone : hRsSpecialType = .timestamptzoid
      · rw [if_pos zone]
        simp only [if_pos zone, Nat.cast_ofNat]
      · rw [if_neg zone]
        simp only [if_neg zone, Nat.cast_zero, Int.sub_zero]
    · rw [if_neg short, if_neg (by omega), Option.map_none]
  · rw [if_neg some_byte, if_neg some_byte, if_pos (Or.inl (by omega))]

/-- The same of a time. -/
theorem readTime_eq (scratch : Scratch) (before : RsTimeStruct) (pColData : List Char)
    (iColDataLen : Nat) :
    readTime scratch before pColData iColDataLen =
      if iColDataLen = 0 ∨ (scanTime before (valueText pColData iColDataLen)).2.length ≤ 31 then
        some (getTimeVal before pColData iColDataLen)
      else none := by
  rw [readTime, getTimeVal]
  by_cases some_byte : 0 < iColDataLen
  · have plain := word_no_end timeFormat (valueText_no_end pColData iColDataLen)
    have word : (sscanf timeFormat (valueText pColData iColDataLen)).words.headD [] =
        (scanTime before (valueText pColData iColDataLen)).2 := rfl
    rw [if_pos some_byte, if_pos some_byte, numBufText_eq, Option.bind_some,
      readFraction_eq scratch.szFraction_size plain (by rw [List.headD_eq_head?_getD]) _ (by decide),
      word]
    by_cases short : (scanTime before (valueText pColData iColDataLen)).2.length ≤ 31
    · rw [if_pos short, if_pos (Or.inr short), Option.map_some]
      simp only [Nat.cast_zero, Int.sub_zero]
    · rw [if_neg short, if_neg (by omega), Option.map_none]
  · rw [if_neg some_byte, if_neg some_byte, if_pos (Or.inl (by omega))]

/-- A date needs no array but `szNumBuf`. -/
theorem readDate_eq (scratch : Scratch) (before : DateStruct) (pColData : List Char)
    (iColDataLen : Nat) :
    readDate scratch before pColData iColDataLen =
      some (getDateVal before pColData iColDataLen) := by
  rw [readDate, getDateVal]
  split
  · rw [numBufText_eq, Option.map_some]
  · rfl

/-! ## Intervals -/

/-- `micr` takes a word of up to nine characters, and the rest of the function stays inside. -/
theorem parse_intervald2s_isSome (front : Char) (buf : List Char) (buf_len : Nat) :
    (parse_intervald2s front buf buf_len).isSome ↔
      ((scanInterval front buf buf_len).word.getD []).length ≤ 9 := by
  rw [parse_intervald2s]
  dsimp only
  generalize scanInterval front buf buf_len = fields
  have tail : ∀ stored : List Char, stored.length = 11 →
      ((fillZeros (7 - (cString stored).length) (cString stored).length stored).bind fun padded =>
        (store padded 7 ['\x00']).map fun micr =>
          (⟨unsigned 4 fields.day, unsigned 4 fields.hour, unsigned 4 fields.min,
            unsigned 4 fields.sec, unsigned 4 (atoi (cString micr))⟩ : IntervalD2s)).isSome := by
    intro stored size
    have length : (cString stored).length ≤ 11 := by
      rw [← size]
      exact (List.takeWhile_prefix _).length_le
    rw [fillZeros_eq _ _ _ (by omega), Option.bind_some, store_fits _ _ _ (by simp; omega)]
    rfl
  have sign : ∀ stored : List Char, stored.length = 11 →
      ∃ signed : List Char, (if fields.negative then store stored 0 ['-'] else some stored) =
        some signed ∧ signed.length = 11 := by
    intro stored size
    split
    · have write := store_fits stored 0 ['-'] (by simp; omega)
      exact ⟨_, write, (store_length write).trans size⟩
    · exact ⟨stored, rfl, size⟩
  rw [storeMicr]
  cases fields.word with
  | none =>
      obtain ⟨signed, write, size⟩ := sign "+000000000\x00".toList (by decide)
      dsimp only
      rw [Option.bind_some, write, Option.bind_some]
      exact iff_of_true (tail signed size) (Nat.zero_le _)
  | some word =>
      dsimp only
      by_cases short : word.length ≤ 9
      · have write := store_fits "+000000000\x00".toList 1 (word ++ ['\x00'])
          (by simp; omega)
        obtain ⟨signed, minus, size⟩ := sign _ ((store_length write).trans (by decide))
        rw [storeString, write, Option.bind_some, minus, Option.bind_some]
        exact iff_of_true (tail signed size) short
      · have long := storeString_none "+000000000\x00".toList 1 word
          (by simp; omega)
        rw [long, Option.bind_none, Option.bind_none]
        exact iff_of_false (by simp) short

/-! ## Every conversion -/

/-- What follows the point of the seconds of a timestamp, up to white space. -/
def timestampWord (text : List Char) : List Char := (sscanf timestampFormat text).words.headD []

/-- What follows the point of the seconds of a time, up to white space. -/
def timeWord (text : List Char) : List Char := (sscanf timeFormat text).words.headD []

/-- What follows the point of the seconds of an interval, up to white space. -/
def intervalWord (front : Char) (pColData : List Char) (iColDataLen : Nat) : List Char :=
  if pColData[iColDataLen - 1]? = some '\x00' then
    (scanInterval front pColData iColDataLen).word.getD []
  else
    let text := valueText pColData iColDataLen
    (scanInterval front text text.length).word.getD []

/-- The column has no longer fraction than the array that `getRsVal` reads it into. -/
def ValueFits (front : Char) (hSQLType : SqlType) (pColData : List Char) (iColDataLen : Nat) :
    Prop :=
  match hSQLType with
  | .typeTimestamp | .timestamp => (timestampWord (valueText pColData iColDataLen)).length ≤ 31
  | .typeTime | .time => (timeWord (valueText pColData iColDataLen)).length ≤ 31
  | .intervalDayToSecond => (intervalWord front pColData iColDataLen).length ≤ 9
  | _ => True

/-- Where the column is read once more, its fraction fits `szFraction` there too. -/
def ColumnFits (target : TimeTarget) (hSQLType : SqlType) (hRsSpecialType : RsSpecialType)
    (pColData : List Char) : Prop :=
  match target, hSQLType with
  | .timestamp, .varchar | .timestamp, .longvarchar | .timestamp, .wvarchar
  | .timestamp, .wlongvarchar =>
      hRsSpecialType = .timestamptzoid → (timestampWord (cString pColData)).length ≤ 31
  | .time, .typeTimestamp | .time, .timestamp =>
      (timestampWord (cString pColData)).length ≤ 31
  | _, _ => True

theorem isSome_ite {condition : Prop} [Decidable condition] {α : Type*} (value : α) :
    (if condition then some value else none).isSome ↔ condition := by
  split <;> simp [*]

theorem readIntervalD2s_isSome (scratch : Scratch) (front : Char) (pColData : List Char)
    {iColDataLen : Nat} (some_byte : 0 < iColDataLen) :
    (readIntervalD2s scratch front pColData iColDataLen).isSome ↔
      (intervalWord front pColData iColDataLen).length ≤ 9 := by
  rw [readIntervalD2s, if_pos some_byte, intervalWord]
  split
  · exact parse_intervald2s_isSome front pColData iColDataLen
  · rw [numBufText_eq, Option.bind_some]
    exact parse_intervald2s_isSome front _ _

/-- `getRsVal` stays inside its arrays exactly when the fraction fits. -/
theorem getRsVal_isSome (scratch : Scratch) (front : Char) (hSQLType : SqlType)
    (hRsSpecialType : RsSpecialType) (isText : Bool) (before : RsVal) (pColData : List Char)
    (iColDataLen : Nat) :
    (getRsVal scratch front hSQLType hRsSpecialType isText before pColData
      iColDataLen).isSome ↔
      (isText = true → 0 < iColDataLen → ValueFits front hSQLType pColData iColDataLen) := by
  have timestamp : ∀ value : TimestampStruct → RsVal,
      ((readTimestamp scratch hRsSpecialType before.tsVal pColData iColDataLen).map value).isSome ↔
        (0 < iColDataLen → (timestampWord (valueText pColData iColDataLen)).length ≤ 31) := by
    intro value
    rw [Option.isSome_map, readTimestamp_eq, isSome_ite, Nat.pos_iff_ne_zero, ← or_iff_not_imp_left]
    rfl
  have time : ∀ value : RsTimeStruct → RsVal,
      ((readTime scratch before.tVal pColData iColDataLen).map value).isSome ↔
        (0 < iColDataLen → (timeWord (valueText pColData iColDataLen)).length ≤ 31) := by
    intro value
    rw [Option.isSome_map, readTime_eq, isSome_ite, Nat.pos_iff_ne_zero, ← or_iff_not_imp_left]
    rfl
  have interval : ∀ value : IntervalD2s → RsVal,
      ((readIntervalD2s scratch front pColData iColDataLen).map value).isSome ↔
        (0 < iColDataLen → (intervalWord front pColData iColDataLen).length ≤ 9) := by
    intro value
    rw [Option.isSome_map]
    by_cases some_byte : 0 < iColDataLen
    · rw [readIntervalD2s_isSome scratch front pColData some_byte]
      simp only [some_byte, true_implies]
    · rw [readIntervalD2s, if_neg some_byte]
      exact iff_of_true rfl fun positive => absurd positive some_byte
  have number : (if 0 < iColDataLen then
      (numBufText scratch pColData iColDataLen).map fun _ => before else some before).isSome := by
    rw [numBufText_eq]
    split <;> rfl
  unfold getRsVal
  cases isText with
  | false => exact iff_of_true rfl fun no => absurd no (by decide)
  | true =>
      unfold ValueFits
      rw [if_pos rfl]
      simp only [true_implies]
      cases hSQLType <;> first
        | exact timestamp _
        | exact time _
        | exact interval _
        | exact iff_of_true number fun _ => trivial
        | exact iff_of_true rfl fun _ => trivial
        | (rw [readDate_eq]; exact iff_of_true rfl fun _ => trivial)

theorem columnTimestamp_isSome (szFraction : { array : List Char // array.length = 32 })
    (before : TimestampStruct) (pColData : List Char) :
    (columnTimestamp szFraction before pColData).isSome ↔
      (timestampWord (cString pColData)).length ≤ 31 := by
  have stores := storeFraction_eq szFraction.2
    (word_no_end timestampFormat (cString_no_end pColData))
    (List.headD_eq_head?_getD ..).symm
  rw [columnTimestamp, timestampWord]
  split at stores
  · next short =>
      obtain ⟨stored, write, -⟩ := stores
      dsimp only
      rw [write]
      exact iff_of_true rfl short
  · next long =>
      dsimp only
      rw [stores]
      exact iff_of_false (by simp) long

/--
The three functions stay inside `szNumBuf`, `szFraction` and `micr` exactly when no
fraction they read into one of the latter two is longer than it holds.
-/
theorem scratch_isSome_iff (scratch : Scratch)
    (szFraction : { array : List Char // array.length = 32 }) (front : Char)
    (target : TimeTarget) (hSQLType : SqlType) (hRsSpecialType : RsSpecialType)
    (format : Format) (isText : Bool) (before : RsVal) (pColData : List Char)
    (iColDataLen : Nat) :
    ((getRsVal scratch front hSQLType hRsSpecialType isText before pColData
        iColDataLen).isSome ↔
      (isText = true → 0 < iColDataLen → ValueFits front hSQLType pColData iColDataLen)) ∧
    ((convertSQLDataToCData scratch szFraction front target hSQLType hRsSpecialType format before
        pColData iColDataLen).isSome ↔
      (format = .text → 0 < iColDataLen → ValueFits front hSQLType pColData iColDataLen) ∧
        ColumnFits target hSQLType hRsSpecialType pColData) ∧
    ((parse_intervald2s front pColData iColDataLen).isSome ↔
      ((scanInterval front pColData iColDataLen).word.getD []).length ≤ 9) := by
  refine ⟨getRsVal_isSome .., ?_, parse_intervald2s_isSome ..⟩
  have value := getRsVal_isSome scratch front hSQLType hRsSpecialType (decide (format = .text))
    before pColData iColDataLen
  rw [decide_eq_true_iff] at value
  rw [convertSQLDataToCData, ← value]
  cases getRsVal scratch front hSQLType hRsSpecialType (decide (format = .text)) before pColData
    iColDataLen with
  | none => exact iff_of_false (by simp) (by simp)
  | some rsVal =>
      have column := columnTimestamp_isSome szFraction rsVal.tsVal pColData
      unfold ColumnFits
      rw [Option.bind_some]
      simp only [Option.isSome_some, true_and]
      cases target <;> cases hSQLType <;> first
        | exact iff_of_true rfl trivial
        | (dsimp only; rw [Option.isSome_map]; exact column)
        | (dsimp only
           by_cases zone : hRsSpecialType = .timestamptzoid
           · rw [if_pos zone, Option.isSome_map, column]
             simp only [zone, true_implies]
           · rw [if_neg zone]
             exact iff_of_true rfl fun same => absurd same zone)

/-- A timestamp with 32 digits behind the point is written beyond `szFraction`. -/
theorem scratch_isSome_wrong : ¬ ∀ (scratch : Scratch)
    (szFraction : { array : List Char // array.length = 32 }) (front : Char)
    (target : TimeTarget) (hSQLType : SqlType) (hRsSpecialType : RsSpecialType)
    (format : Format) (before : RsVal) (pColData : List Char) (iColDataLen : Nat),
    (convertSQLDataToCData scratch szFraction front target hSQLType hRsSpecialType format before
      pColData iColDataLen).isSome := by
  intro every
  have inside := every ⟨List.replicate 65 'x', List.replicate 32 'x', by decide, by decide⟩
    ⟨List.replicate 32 'x', by decide⟩ 'x' .timestamp .timestamp .none .text
    ⟨⟨0, 0, 0, 0, 0, 0, 0⟩, ⟨0, 0, 0, 0⟩, ⟨0, 0, 0⟩, ⟨0, 0, 0, 0, 0⟩⟩
    ("2020-01-01 00:00:00.".toList ++ List.replicate 32 '1') 52
  revert inside
  decide

end RedshiftOdbc.Convert
