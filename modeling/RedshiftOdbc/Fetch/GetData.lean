import RedshiftOdbc.Convert.Copy
import RedshiftOdbc.Library.Machine

/-!
# Reading values with SQLGetData

`RS_SQLGetData` keeps the number of the column it read last and, for every
column, how much of the value has been read.  A fetch forgets the column and
keeps the places of the columns that are not bound.  Beside it stands the
application's view, in which every value is delivered from its start, once; as
long as nothing is left half read for a later row and no other column comes
between a value and the end of data, the calls answer as this view does.  Which
copy function a conversion selects is a parameter.
-/

namespace RedshiftOdbc.GetData

open RedshiftOdbc.Convert RedshiftOdbc.Machine RedshiftOdbc.Words

variable {CType : Type*} {charSize : Nat}

/-- A column's value in the row under the cursor; none is null. -/
abbrev Cell (CType : Type*) : Type _ := Option (CType → Arm)

/-- `RS_RESULT_INFO` with the values of the row under the cursor. -/
structure ResultInfo (CType : Type*) where
  iNumberOfCols : Nat
  cells : Nat → Cell CType
  iPrevhCol : Nat
  cbLenOffsets : Nat → Int

/-- The arguments of a call.  The flags say that a buffer and an indicator are given. -/
structure Arguments (CType : Type*) where
  hCol : Nat
  hType : CType
  pValue : Bool
  cbLen : Int
  pcbLenInd : Bool

/-- The column becomes the one read last, unless the call is the driver's own. -/
def ResultInfo.remember (info : ResultInfo CType) (iInternal : Bool) (hCol : Nat) :
    ResultInfo CType :=
  if iInternal then info else { info with iPrevhCol := hCol }

/-- `getColumnReadOffset(hCol) = offset`. -/
def ResultInfo.setOffset (info : ResultInfo CType) (hCol : Nat) (offset : Int) :
    ResultInfo CType :=
  { info with cbLenOffsets := Function.update info.cbLenOffsets hCol offset }

/-- `RS_SQLGetData` on a result: its code, what it writes to the buffer and the result. -/
def sqlGetData (charSize : Nat) (iInternal : Bool) (args : Arguments CType)
    (info : ResultInfo CType) : SqlReturn × List Nat × ResultInfo CType :=
  let failed := (SqlReturn.error, ([] : List Nat), info.remember iInternal args.hCol)
  if !iInternal ∧ !args.pValue then failed
  else if info.iNumberOfCols = 0 then failed
  else if !iInternal ∧ args.hCol = 0 then failed
  else if !iInternal ∧ args.hCol = info.iPrevhCol then (.noData, [], info)
  else if 0 < args.hCol ∧ args.hCol ≤ info.iNumberOfCols then
    match info.cells args.hCol with
    | none =>
        if args.pcbLenInd then (.success, [], info.remember iInternal args.hCol) else failed
    | some arms =>
        if args.pValue then
          let copied := (arms args.hType).copy charSize args.cbLen (info.cbLenOffsets args.hCol)
          let info := info.setOffset args.hCol copied.offset
          (copied.rc, copied.written,
            if copied.rc = .successWithInfo then info else info.remember iInternal args.hCol)
        else (.success, [], info.remember iInternal args.hCol)
  else failed

/-- The bound columns of a row are read, and their places are forgotten. -/
def fetchBound (charSize : Nat) (info : ResultInfo CType) (bound : List (Arguments CType)) :
    ResultInfo CType :=
  bound.foldl
    (fun info args => (sqlGetData charSize true args info).2.2.setOffset args.hCol 0) info

/--
A fetch that is carried out: the rows its loop goes through, each with the bound
columns it gets to, and the values under the cursor at the end.
-/
def fetchScroll (charSize : Nat) (turns : List ((Nat → Cell CType) × List (Arguments CType)))
    (cells : Nat → Cell CType) (info : ResultInfo CType) : ResultInfo CType :=
  { turns.foldl (fun info turn => fetchBound charSize { info with cells := turn.1 } turn.2)
      { info with iPrevhCol := 0 } with cells := cells }

/-! ## Runs -/

inductive Event (CType : Type*) where
  | fetch (turns : List ((Nat → Cell CType) × List (Arguments CType))) (cells : Nat → Cell CType)
  /-- A fetch that fails and leaves the cursor where it is. -/
  | fetchFailed
  /-- A fetch that is refused at once: a forward only cursor goes nowhere else. -/
  | fetchRefused
  | getData (args : Arguments CType)

/-- What a call of `SQLGetData` returns and writes to the buffer. -/
abbrev Answer := SqlReturn × List Nat

/-- One call on the result.  Only `SQLGetData` answers. -/
def ResultInfo.call (charSize : Nat) (info : ResultInfo CType) :
    Event CType → Option Answer × ResultInfo CType
  | .fetch turns cells => (none, fetchScroll charSize turns cells info)
  | .fetchFailed => (none, { info with iPrevhCol := 0 })
  | .fetchRefused => (none, info)
  | .getData args =>
      let (rc, written, info) := sqlGetData charSize false args info
      (some (rc, written), info)

/-! ## What the calls should answer -/

/-- The next piece of a value for a buffer that takes so many units. -/
def nextPiece (capacity : Int) (rest : List Nat) : Answer :=
  if rest.length ≤ capacity then (.success, rest)
  else (.successWithInfo, rest.take capacity.toNat)

/-- The units a buffer takes in front of a terminator, where the value has one. -/
def capacity (charSize : Nat) (cbLen : Int) : Arm → Int
  | .chars _ | .printed _ | .binaryHex _ => cbLen - 1
  | .wideChars _ _ | .wideBinary _ | .wideBinaryHex _ => cbLen / charSize - 1
  | .hexBinary _ | .binary _ | .boolean _ _ => cbLen
  | .fixed bytes => bytes.length
  | .failing => 0

/-- The conversions that fail, and the lengths that are refused. -/
def refuses (cbLen : Int) : Arm → Bool
  | .chars _ => cbLen < 0
  | .wideChars bytesLen units => cbLen < 0 || (bytesLen ≠ 0 && units = [])
  | .hexBinary text => text.length % 2 = 1
  | .failing => true
  | _ => false

/-- The answer to a call after so much of the value has been given. -/
def answerOf (charSize : Nat) (cbLen : Int) (given : List Nat) (arm : Arm) : Answer :=
  if refuses cbLen arm then (.error, [])
  else nextPiece (capacity charSize cbLen arm) (arm.value.drop given.length)

/--
The application's view of a result: the values of the row under the cursor, what
has been given of each and whether that was all, the column of the last call on
the row that ended with neither a piece nor the end of data, and how much of a
value was given when the cursor left it.
-/
structure Reading (CType : Type*) where
  cells : Nat → Cell CType
  given : Nat → List Nat
  finished : Nat → Bool
  last : Nat
  left : Nat → Nat

namespace Reading

/-- What a call should return and deliver: the next piece of its value, once. -/
def answer (charSize columns : Nat) (reading : Reading CType) (args : Arguments CType) : Answer :=
  if !args.pValue ∨ args.hCol = 0 ∨ columns < args.hCol then (.error, [])
  else if reading.finished args.hCol then (.noData, [])
  else match reading.cells args.hCol with
    | none => (if args.pcbLenInd then .success else .error, [])
    | some arms => answerOf charSize args.cbLen (reading.given args.hCol) (arms args.hType)

/-- Where the reading of a column has got to. -/
def place (reading : Reading CType) (column : Nat) : Nat :=
  if reading.finished column ∧ (reading.cells column).isSome then 0
  else reading.left column + (reading.given column).length

/-- The answer of a call is counted in. -/
def answered (reading : Reading CType) (args : Arguments CType) : Answer → Reading CType
  | (rc, piece) =>
      { reading with
        given := Function.update reading.given args.hCol (reading.given args.hCol ++ piece)
        finished := Function.update reading.finished args.hCol
          (reading.finished args.hCol || rc = .success)
        last := if rc = .successWithInfo ∨ rc = .noData then reading.last else args.hCol }

/-- One call.  On a new row nothing has been given yet. -/
def call (charSize columns : Nat) (reading : Reading CType) :
    Event CType → Option Answer × Reading CType
  | .fetch turns cells =>
      (none,
        { cells := cells
          given := fun _ => []
          finished := fun _ => false
          last := 0
          left := fun column =>
            if turns.any fun turn => turn.2.any fun args => args.hCol = column then 0
            else reading.place column })
  | .fetchFailed => (none, { reading with last := 0 })
  | .fetchRefused => (none, reading)
  | .getData args =>
      let answer := reading.answer charSize columns args
      (some answer, reading.answered args answer)

/-- A result whose columns have not been read. -/
def start (cells : Nat → Cell CType) : Reading CType :=
  ⟨cells, fun _ => [], fun _ => false, 0, fun _ => 0⟩

end Reading

/-- What has been given begins the value and is less than all of a value that is not empty. -/
def Begins (given value : List Nat) : Prop :=
  given <+: value ∧ (given = [] ∨ given.length < value.length)

/--
The arm goes on behind what has been given: this begins its value, and the
buffer holds the whole value if the arm does not keep its place.
-/
def Served (charSize : Nat) (cbLen : Int) (given : List Nat) : Arm → Prop
  | .chars text => cbLen ≤ 2 ^ 31 ∧ Begins given text
  | .wideChars bytesLen units =>
      cbLen / charSize < 2 ^ 31 ∧ (bytesLen = 0 → units = []) ∧ Begins given units
  | .hexBinary text =>
      0 ≤ cbLen ∧ (text.length % 2 = 1 → given = []) ∧ given <+: hexDecode text
  | .binary bytes => given = [] ∧ 0 ≤ cbLen ∧ (bytes = [] ∨ bytes.length < cbLen)
  | .binaryHex bytes =>
      given = [] ∧ 0 < cbLen ∧ (bytes = [] ∨ 2 * bytes.length < cbLen - cbLen % 2)
  | .wideBinary bytes => given = [] ∧ bytes.length < cbLen / charSize
  | .wideBinaryHex bytes => given = [] ∧ 2 * bytes.length < cbLen / charSize
  | .printed text => given = [] ∧ text.length < cbLen
  | .boolean _ _ => given = [] ∧ 0 < cbLen
  | .fixed _ => given = []
  | .failing => True

/--
The calls after which the driver answers as it should.  A column that was not
read to the end on an earlier row is not read; the column of the last complete
or failed call is asked for exactly when its value has been given; and the arm
of the call goes on behind what has been given.
-/
def Ready (charSize columns : Nat) (reading : Reading CType) : Event CType → Prop
  | .fetch _ _ | .fetchFailed | .fetchRefused => True
  | .getData args =>
      args.pValue = true → 0 < args.hCol →
        (reading.finished args.hCol = true ↔ reading.last = args.hCol) ∧
        (reading.finished args.hCol = false → args.hCol ≤ columns →
          ∀ arms ∈ reading.cells args.hCol,
            reading.left args.hCol = 0 ∧
              Served charSize args.cbLen (reading.given args.hCol) (arms args.hType))

instance (charSize : Nat) (cbLen : Int) (given : List Nat) (arm : Arm) :
    Decidable (Served charSize cbLen given arm) := by
  cases arm <;> unfold Served <;> unfold Begins <;> infer_instance

instance (charSize columns : Nat) (reading : Reading CType) (event : Event CType) :
    Decidable (Ready charSize columns reading event) := by
  cases event <;> unfold Ready <;> infer_instance

/-- Every call of a run is one the driver is ready for. -/
def Kept (charSize columns : Nat) (reading : Reading CType) (events : List (Event CType)) : Prop :=
  Guarded (fun reading event => some (reading.call charSize columns event).2)
    (Ready charSize columns) reading events

instance (charSize columns : Nat) (reading : Reading CType) (events : List (Event CType)) :
    Decidable (Kept charSize columns reading events) :=
  inferInstanceAs (Decidable (Guarded _ _ _ _))

/-- What has been given of a value begins it, and is all of it when the value is finished. -/
def Reading.Delivered (reading : Reading CType) : Prop :=
  ∀ column, ∀ arms ∈ reading.cells column,
    (reading.given column = [] ∨ ∃ hType, reading.given column <+: (arms hType).value) ∧
      (reading.finished column = true → ∃ hType, reading.given column = (arms hType).value)

/-! ## One copy -/

/-- A copy answers as it should, and the place it leaves is where it stopped. -/
def Follows (given : List Nat) (copied : Copied) (answer : Answer) : Prop :=
  copied.rc = answer.1 ∧ copied.written = answer.2 ∧
    copied.offset =
      if answer.1 = .success then 0 else ((given.length + answer.2.length : Nat) : Int)

theorem follows_refused (given : List Nat) (indicator : Option Int) :
    Follows given ⟨.error, [], indicator, given.length⟩ (.error, []) :=
  ⟨rfl, rfl, rfl⟩

theorem answerOf_refused {cbLen : Int} {arm : Arm} (given : List Nat)
    (refused : refuses cbLen arm = true) : answerOf charSize cbLen given arm = (.error, []) :=
  if_pos refused

theorem answerOf_taken {cbLen : Int} {arm : Arm} (given : List Nat)
    (taken : refuses cbLen arm = false) :
    answerOf charSize cbLen given arm =
      nextPiece (capacity charSize cbLen arm) (arm.value.drop given.length) :=
  if_neg (by simp [taken])

/-- The last piece of a value that fits. -/
theorem follows_all {given rest : List Nat} {capacity : Int} (fits : rest.length ≤ capacity)
    (indicator : Option Int) :
    Follows given ⟨.success, rest, indicator, 0⟩ (nextPiece capacity rest) := by
  rw [nextPiece, if_pos fits]
  exact ⟨rfl, rfl, rfl⟩

/-- Nothing fits, and a copy without room says so. -/
theorem follows_none {given rest : List Nat} {capacity : Int} (small : capacity < rest.length)
    (none : capacity ≤ 0) (indicator : Option Int) :
    Follows given ⟨.successWithInfo, [], indicator, given.length⟩ (nextPiece capacity rest) := by
  rw [nextPiece, if_neg (by omega), Int.toNat_of_nonpos none, List.take_zero]
  exact ⟨rfl, rfl, rfl⟩

/-- A copy of as many units as there is room for. -/
theorem follows_take {given value : List Nat} (more : given.length < value.length)
    {capacity copyLen : Int}
    (copies : copyLen = max 0 (min ((value.length : Int) - given.length) capacity))
    (indicator : Option Int) :
    Follows given
      (if copyLen < (value.length : Int) - given.length then
        ⟨.successWithInfo, (value.drop ((given.length : Int)).toNat).take copyLen.toNat,
          indicator, given.length + copyLen⟩
      else
        ⟨.success, (value.drop ((given.length : Int)).toNat).take copyLen.toNat, indicator, 0⟩)
      (nextPiece capacity (value.drop given.length)) := by
  have length := List.length_drop (i := given.length) (l := value)
  rw [Int.toNat_natCast]
  generalize value.drop given.length = rest at length ⊢
  by_cases fits : (rest.length : Int) ≤ capacity
  · rw [if_neg (by omega), List.take_of_length_le (by omega)]
    exact follows_all fits indicator
  · have part : copyLen.toNat = capacity.toNat := by omega
    rw [if_pos (by omega), part, nextPiece, if_neg fits]
    refine ⟨rfl, rfl, ?_⟩
    dsimp only
    rw [if_neg (by decide), List.length_take]
    omega

theorem follows_chars {text given : List Nat} {cbLen : Int} (small : cbLen ≤ 2 ^ 31)
    (begins : Begins given text) :
    Follows given (copyStrDataBigLen text cbLen given.length)
      (answerOf charSize cbLen given (.chars text)) := by
  have le := begins.1.length_le
  rw [copyStrDataBigLen]
  by_cases negative : cbLen < 0
  · rw [if_pos negative, answerOf_refused given (by simpa [refuses] using negative)]
    exact follows_refused given none
  rw [if_neg negative, answerOf_taken given (by simpa [refuses] using negative)]
  simp only [Arm.value, capacity]
  by_cases empty : text = []
  · obtain rfl : given = [] := List.prefix_nil.mp (empty ▸ begins.1)
    rw [if_pos empty, empty]
    split
    case isTrue room => exact follows_all (by simp; omega) _
    case isFalse none => exact follows_none (by simp; omega) (by omega) _
  rw [if_neg empty]
  have more : given.length < text.length := by
    rcases begins.2 with rfl | less
    · exact List.length_pos_iff.mpr empty
    · exact less
  rw [if_neg (by omega)]
  have room : wrap 4 (cbLen - 1) = cbLen - 1 :=
    wrap_of_range (by norm_num; omega) (by norm_num; omega)
  refine follows_take more ?_ _
  rw [room]
  split <;> omega

theorem follows_wideChars {bytesLen : Nat} {units given : List Nat} {cbLen : Int}
    (small : cbLen / charSize < 2 ^ 31) (noBytes : bytesLen = 0 → units = [])
    (begins : Begins given units) :
    Follows given (copyWStrDataBigLen charSize bytesLen units cbLen given.length)
      (answerOf charSize cbLen given (.wideChars bytesLen units)) := by
  rw [copyWStrDataBigLen]
  by_cases negative : cbLen < 0
  · rw [if_pos negative, answerOf_refused given (by simp [refuses, negative])]
    exact follows_refused given none
  have lower : 0 ≤ cbLen / charSize := Int.ediv_nonneg (by omega) (Int.natCast_nonneg _)
  have room : wrap 4 (cbLen / charSize) = cbLen / charSize :=
    wrap_of_range (by norm_num; omega) (by norm_num; omega)
  rw [if_neg negative, room]
  by_cases bytes : bytesLen = 0
  · obtain rfl := noBytes bytes
    obtain rfl : given = [] := List.prefix_nil.mp begins.1
    rw [if_pos bytes, answerOf_taken [] (by simp [refuses, bytes, negative])]
    simp only [Arm.value, capacity]
    split
    case isTrue room => exact follows_all (by simp; omega) _
    case isFalse none => exact follows_none (by simp; omega) (by omega) _
  rw [if_neg bytes]
  by_cases empty : units = []
  · rw [if_pos empty, answerOf_refused given (by simp [refuses, bytes, empty])]
    exact follows_refused given none
  have more : given.length < units.length := by
    rcases begins.2 with rfl | less
    · exact List.length_pos_iff.mpr empty
    · exact less
  rw [if_neg empty, if_neg (by omega), answerOf_taken given (by simp [refuses, empty, negative])]
  refine follows_take more ?_ _
  simp only [capacity]
  split <;> omega

theorem hexDecode_length (text : List Nat) : (hexDecode text).length = text.length / 2 := by
  induction text using hexDecode.induct with
  | case1 higher lower rest ih =>
      simp only [hexDecode, List.length_cons, ih]
      omega
  | case2 text short =>
      match text, short with
      | [], _ => rfl
      | [_], _ => simp [hexDecode]
      | higher :: lower :: rest, short => exact absurd rfl (short higher lower rest)

/-- Pairs of digits are decoded one by one. -/
theorem hexDecode_drop (text : List Nat) (count : Nat) :
    hexDecode (text.drop (2 * count)) = (hexDecode text).drop count := by
  induction count generalizing text with
  | zero => rfl
  | succ count ih =>
      match text with
      | [] => simp [hexDecode]
      | [_] => simp [hexDecode, Nat.mul_succ]
      | higher :: lower :: rest =>
          rw [Nat.mul_succ, List.drop_succ_cons, List.drop_succ_cons, ih rest, hexDecode,
            List.drop_succ_cons]

theorem follows_hexBinary {text given : List Nat} {cbLen : Int} (nonneg : 0 ≤ cbLen)
    (odd : text.length % 2 = 1 → given = []) (begins : given <+: hexDecode text) :
    Follows given (copyHexToBinaryDataBigLen text cbLen given.length)
      (answerOf charSize cbLen given (.hexBinary text)) := by
  have le := begins.length_le
  have length := hexDecode_length text
  by_cases half : text.length % 2 = 1
  · obtain rfl := odd half
    rw [answerOf_refused [] (by simpa [refuses] using half), copyHexToBinaryDataBigLen,
      if_pos (by simp; omega)]
    exact ⟨rfl, rfl, rfl⟩
  rw [answerOf_taken given (by simpa [refuses] using half)]
  have rest : hexDecode (text.drop (2 * (given.length : Int)).toNat) =
      (hexDecode text).drop given.length := by
    rw [show (2 * (given.length : Int)).toNat = 2 * given.length by omega, hexDecode_drop]
  have left := List.length_drop (i := given.length) (l := hexDecode text)
  simp only [copyHexToBinaryDataBigLen, rest, Arm.value, capacity]
  generalize (hexDecode text).drop given.length = bytes at left ⊢
  rw [if_neg (by omega)]
  by_cases more : 0 < (text.length : Int) - 2 * given.length
  · rw [if_pos more]
    by_cases all : ((text.length : Int) - 2 * given.length) / 2 ≤ cbLen
    · rw [if_pos all]
      exact follows_all (by omega) _
    · rw [if_neg all, nextPiece, if_neg (by omega)]
      refine ⟨rfl, rfl, ?_⟩
      dsimp only
      rw [if_neg (by decide), List.length_take]
      omega
  · obtain rfl : bytes = [] := List.eq_nil_of_length_eq_zero (by omega)
    rw [if_neg more]
    exact follows_all (by simpa using nonneg) _

theorem hexEncode_length (bytes : List Nat) : (hexEncode bytes).length = 2 * bytes.length := by
  rw [hexEncode, List.length_flatMap]
  induction bytes with
  | nil => rfl
  | cons byte rest ih =>
      rw [List.map_cons, List.sum_cons, ih, List.length_cons]
      simp only [List.length_cons, List.length_nil]
      omega

theorem room_eq {cbLen : Int} {charSize : Nat} (room : 0 < cbLen / charSize) :
    (if 0 < cbLen then cbLen / charSize else 0) = cbLen / charSize := by
  rw [if_pos]
  by_contra nonpos
  rcases Nat.eq_zero_or_pos charSize with rfl | positive
  · simp at room
  · have none := Int.ediv_nonpos_of_nonpos_of_neg (n := cbLen) (s := charSize) (by omega) (by omega)
    omega

/-- A value that is delivered whole at its first call. -/
theorem follows_whole {cbLen : Int} {arm : Arm} {copied : Copied}
    (taken : refuses cbLen arm = false) (fits : arm.value.length ≤ capacity charSize cbLen arm)
    (rc : copied.rc = .success) (written : copied.written = arm.value)
    (offset : copied.offset = 0) : Follows [] copied (answerOf charSize cbLen [] arm) := by
  rw [answerOf_taken [] taken, List.length_nil, List.drop_zero, nextPiece, if_pos fits]
  exact ⟨rc, written, offset⟩

/-- Every arm that is served answers as it should. -/
theorem follows_copy {cbLen : Int} {given : List Nat} {arm : Arm}
    (served : Served charSize cbLen given arm) :
    Follows given (arm.copy charSize cbLen given.length) (answerOf charSize cbLen given arm) := by
  cases arm with
  | chars text => exact follows_chars served.1 served.2
  | wideChars bytesLen units => exact follows_wideChars served.1 served.2.1 served.2.2
  | hexBinary text => exact follows_hexBinary served.1 served.2.1 served.2.2
  | binary bytes =>
      obtain ⟨rfl, nonneg, fits⟩ := served
      have copied : (Arm.binary bytes).copy charSize cbLen 0 =
          ⟨.success, bytes, some bytes.length, 0⟩ := if_pos fits
      refine copied ▸ follows_whole rfl ?_ rfl rfl rfl
      rcases fits with rfl | less
      · exact nonneg
      · exact less.le
  | binaryHex bytes =>
      obtain ⟨rfl, positive, fits⟩ := served
      have length := hexEncode_length bytes
      have whole : ((hexEncode bytes).length : Int) ≤ cbLen - 1 := by
        rcases fits with rfl | less
        · simp [hexEncode]
          omega
        · omega
      simp only [Arm.copy, copyBinaryToHexDataBigLen]
      by_cases empty : bytes = []
      · rw [if_pos empty]
        exact follows_whole rfl whole rfl (by simp [Arm.value, empty, hexEncode]) rfl
      · rw [if_neg empty, if_pos (fits.resolve_left empty)]
        exact follows_whole rfl whole rfl rfl rfl
  | wideBinary bytes =>
      obtain ⟨rfl, fits⟩ := served
      simp only [Arm.copy, copyWBinaryDataBigLen]
      rw [room_eq (by omega), if_neg (by omega), if_neg (by omega)]
      exact follows_whole rfl (by simp only [Arm.value, capacity]; omega) rfl rfl rfl
  | wideBinaryHex bytes =>
      obtain ⟨rfl, fits⟩ := served
      have length := hexEncode_length bytes
      simp only [Arm.copy, copyWBinaryToHexDataBigLen]
      rw [room_eq (by omega), if_neg (by omega), min_eq_right (by omega), if_neg (by omega)]
      exact follows_whole rfl (by simp only [Arm.value, capacity]; omega) rfl
        (List.take_of_length_le (by omega)) rfl
  | printed text =>
      obtain ⟨rfl, fits⟩ := served
      exact follows_whole rfl (by simp only [Arm.value, capacity]; omega) rfl
        (List.take_of_length_le (by omega)) rfl
  | boolean digit text =>
      obtain ⟨rfl, fits⟩ := served
      have copied : (Arm.boolean digit text).copy charSize cbLen 0 =
          ⟨.success, [digit], some 1, 0⟩ := if_pos fits
      exact copied ▸ follows_whole rfl fits rfl rfl rfl
  | fixed bytes =>
      cases served
      exact follows_whole rfl le_rfl rfl rfl rfl
  | failing => exact follows_refused given none

/-! ## One event -/

@[simp]
theorem remember_offsets (info : ResultInfo CType) (iInternal : Bool) (hCol : Nat) :
    (info.remember iInternal hCol).cbLenOffsets = info.cbLenOffsets := by
  cases iInternal <;> rfl

/-- A call moves the place of its own column only. -/
theorem sqlGetData_other (charSize : Nat) (iInternal : Bool) (args : Arguments CType)
    (info : ResultInfo CType) {column : Nat} (other : column ≠ args.hCol) :
    (sqlGetData charSize iInternal args info).2.2.cbLenOffsets column =
      info.cbLenOffsets column := by
  rw [sqlGetData]
  cases info.cells args.hCol with
  | none => split_ifs <;> simp
  | some arms =>
      dsimp only
      split_ifs <;> simp [ResultInfo.setOffset, other]

@[simp]
theorem sqlGetData_cells (charSize : Nat) (iInternal : Bool) (args : Arguments CType)
    (info : ResultInfo CType) :
    (sqlGetData charSize iInternal args info).2.2.cells = info.cells := by
  rw [sqlGetData]
  cases info.cells args.hCol with
  | none => split_ifs <;> simp [ResultInfo.remember] <;> split <;> rfl
  | some arms =>
      dsimp only
      split_ifs <;> simp [ResultInfo.setOffset, ResultInfo.remember] <;> split <;> rfl

@[simp]
theorem sqlGetData_columns (charSize : Nat) (iInternal : Bool) (args : Arguments CType)
    (info : ResultInfo CType) :
    (sqlGetData charSize iInternal args info).2.2.iNumberOfCols = info.iNumberOfCols := by
  rw [sqlGetData]
  cases info.cells args.hCol with
  | none => split_ifs <;> simp [ResultInfo.remember] <;> split <;> rfl
  | some arms =>
      dsimp only
      split_ifs <;> simp [ResultInfo.setOffset, ResultInfo.remember] <;> split <;> rfl

/-- The driver's own reads leave the column of the last call. -/
theorem sqlGetData_internal (charSize : Nat) (args : Arguments CType) (info : ResultInfo CType) :
    (sqlGetData charSize true args info).2.2.iPrevhCol = info.iPrevhCol := by
  rw [sqlGetData]
  cases info.cells args.hCol with
  | none => split_ifs <;> rfl
  | some arms =>
      dsimp only
      split_ifs <;> rfl

/-- What a fetch does to the places: the bound columns are at their start. -/
structure Fetched (bound : Nat → Bool) (info next : ResultInfo CType) : Prop where
  columns : next.iNumberOfCols = info.iNumberOfCols
  last : next.iPrevhCol = info.iPrevhCol
  offset : ∀ column, next.cbLenOffsets column =
    if bound column then 0 else info.cbLenOffsets column

theorem Fetched.trans {first second : Nat → Bool} {info middle next : ResultInfo CType}
    (before : Fetched first info middle) (after : Fetched second middle next) :
    Fetched (fun column => first column || second column) info next := by
  refine ⟨after.columns.trans before.columns, after.last.trans before.last, fun column => ?_⟩
  rw [after.offset, before.offset]
  cases first column <;> cases second column <;> rfl

theorem fetchBound_fetched (charSize : Nat) (bound : List (Arguments CType))
    (info : ResultInfo CType) :
    Fetched (fun column => bound.any fun args => args.hCol = column) info
      (fetchBound charSize info bound) := by
  induction bound generalizing info with
  | nil => exact ⟨rfl, rfl, fun _ => rfl⟩
  | cons args bound ih =>
      have one : Fetched (fun column => args.hCol = column) info
          ((sqlGetData charSize true args info).2.2.setOffset args.hCol 0) := by
        refine ⟨sqlGetData_columns charSize true args info, sqlGetData_internal charSize args info,
          fun column => ?_⟩
        by_cases same : args.hCol = column
        · simp [ResultInfo.setOffset, same]
        · simp only [ResultInfo.setOffset, Function.update_of_ne (Ne.symm same)]
          rw [sqlGetData_other charSize true args info (Ne.symm same)]
          simp [same]
      exact one.trans (ih _)

theorem fetchScroll_fetched (charSize : Nat)
    (turns : List ((Nat → Cell CType) × List (Arguments CType))) (cells : Nat → Cell CType)
    (info : ResultInfo CType) :
    Fetched (fun column => turns.any fun turn => turn.2.any fun args => args.hCol = column)
      { info with iPrevhCol := 0 } (fetchScroll charSize turns cells info) := by
  have loop : ∀ info : ResultInfo CType,
      Fetched (fun column => turns.any fun turn => turn.2.any fun args => args.hCol = column) info
        (turns.foldl (fun info turn => fetchBound charSize { info with cells := turn.1 } turn.2)
          info) := by
    induction turns with
    | nil => exact fun info => ⟨rfl, rfl, fun _ => rfl⟩
    | cons turn turns ih =>
        intro info
        have one := fetchBound_fetched charSize turn.2 { info with cells := turn.1 }
        exact Fetched.trans ⟨one.columns, one.last, one.offset⟩ (ih _)
  have all := loop { info with iPrevhCol := 0 }
  exact ⟨all.columns, all.last, all.offset⟩

/-- A call that is refused, whatever the value. -/
theorem sqlGetData_invalid {charSize : Nat} {args : Arguments CType} {info : ResultInfo CType}
    (invalid : args.pValue = false ∨ args.hCol = 0 ∨
      info.iNumberOfCols < args.hCol ∧ info.iPrevhCol ≠ args.hCol) :
    sqlGetData charSize false args info = (.error, [], info.remember false args.hCol) := by
  rw [sqlGetData]
  rcases invalid with noValue | bookmark | ⟨outside, fresh⟩
  · simp [noValue]
  · simp [bookmark]
  · have positive : args.hCol ≠ 0 := by omega
    simp [positive, fresh.symm, outside.not_ge]

/-- A call that reads a value, one that finds a null, and one that finds no data. -/
theorem sqlGetData_value {charSize : Nat} {args : Arguments CType} {info : ResultInfo CType}
    {arms : CType → Arm} (pValue : args.pValue = true) (positive : 0 < args.hCol)
    (inside : args.hCol ≤ info.iNumberOfCols) (fresh : info.iPrevhCol ≠ args.hCol)
    (cell : info.cells args.hCol = some arms) :
    sqlGetData charSize false args info =
      let copied := (arms args.hType).copy charSize args.cbLen (info.cbLenOffsets args.hCol)
      (copied.rc, copied.written,
        if copied.rc = .successWithInfo then info.setOffset args.hCol copied.offset
        else (info.setOffset args.hCol copied.offset).remember false args.hCol) := by
  have columns : info.iNumberOfCols ≠ 0 := by omega
  simp [sqlGetData, pValue, columns, positive.ne', fresh.symm, inside, positive, cell]

theorem sqlGetData_null {charSize : Nat} {args : Arguments CType} {info : ResultInfo CType}
    (pValue : args.pValue = true) (positive : 0 < args.hCol)
    (inside : args.hCol ≤ info.iNumberOfCols) (fresh : info.iPrevhCol ≠ args.hCol)
    (cell : info.cells args.hCol = none) :
    sqlGetData charSize false args info =
      (if args.pcbLenInd then .success else .error, [], info.remember false args.hCol) := by
  have columns : info.iNumberOfCols ≠ 0 := by omega
  cases indicator : args.pcbLenInd <;>
    simp [sqlGetData, pValue, columns, positive.ne', fresh.symm, inside, positive, cell, indicator]

theorem sqlGetData_again {charSize : Nat} {args : Arguments CType} {info : ResultInfo CType}
    (pValue : args.pValue = true) (positive : 0 < args.hCol)
    (inside : args.hCol ≤ info.iNumberOfCols) (again : info.iPrevhCol = args.hCol) :
    sqlGetData charSize false args info = (.noData, [], info) := by
  have columns : info.iNumberOfCols ≠ 0 := by omega
  simp [sqlGetData, pValue, columns, positive.ne', again]

/-! ## All runs -/

/-- The result of the driver and the application's view of it. -/
structure Shows (columns : Nat) (info : ResultInfo CType) (reading : Reading CType) : Prop where
  width : info.iNumberOfCols = columns
  cells : info.cells = reading.cells
  last : info.iPrevhCol = reading.last
  place : ∀ column, info.cbLenOffsets column = reading.place column
  null : ∀ column, reading.cells column = none → reading.given column = []
  inside : ∀ column, reading.finished column = true → column ≤ columns

namespace Shows

variable {columns : Nat} {info : ResultInfo CType} {reading : Reading CType}

/-- A call that writes nothing and is the last one of its column. -/
theorem remembered (shown : Shows columns info reading) {args : Arguments CType} {rc : SqlReturn}
    (ends : rc = .error ∨
      rc = .success ∧ args.hCol ≤ columns ∧ reading.cells args.hCol = none) :
    Shows columns (info.remember false args.hCol) (reading.answered args (rc, [])) := by
  have whole : rc ≠ .successWithInfo ∧ rc ≠ .noData := by
    rcases ends with rfl | ⟨rfl, -, -⟩ <;> decide
  refine ⟨shown.width, shown.cells, ?_, fun column => ?_, fun column null => ?_,
    fun column finished => ?_⟩
  · simp [ResultInfo.remember, Reading.answered, whole]
  · rw [remember_offsets, shown.place column]
    by_cases same : column = args.hCol
    · subst same
      rcases ends with rfl | ⟨rfl, -, null⟩
      · simp [Reading.place, Reading.answered]
      · simp [Reading.place, Reading.answered, null]
    · simp [Reading.place, Reading.answered, same]
  · by_cases same : column = args.hCol
    · subst same
      simpa [Reading.answered] using shown.null args.hCol null
    · simpa [Reading.answered, same] using shown.null column null
  · by_cases same : column = args.hCol
    · subst same
      rcases ends with rfl | ⟨rfl, inside, -⟩
      · exact shown.inside args.hCol (by simpa [Reading.answered] using finished)
      · exact inside
    · exact shown.inside column (by simpa [Reading.answered, same] using finished)

/-- A call that reads a value which is not finished. -/
theorem read (shown : Shows columns info reading) {args : Arguments CType} {arms : CType → Arm}
    (inside : args.hCol ≤ columns) (unfinished : reading.finished args.hCol = false)
    (cell : reading.cells args.hCol = some arms) (clean : reading.left args.hCol = 0)
    {copied : Copied} {answer : Answer}
    (follows : Follows (reading.given args.hCol) copied answer) (data : answer.1 ≠ .noData) :
    Shows columns
      (if copied.rc = .successWithInfo then info.setOffset args.hCol copied.offset
        else (info.setOffset args.hCol copied.offset).remember false args.hCol)
      (reading.answered args answer) := by
  obtain ⟨rc, piece⟩ := answer
  obtain ⟨code, -, offset⟩ := follows
  dsimp only at code offset data
  have offsets : (if copied.rc = .successWithInfo then info.setOffset args.hCol copied.offset
        else (info.setOffset args.hCol copied.offset).remember false args.hCol).cbLenOffsets =
      Function.update info.cbLenOffsets args.hCol copied.offset := by
    split <;> simp [ResultInfo.setOffset]
  refine ⟨?_, ?_, ?_, fun column => ?_, fun column null => ?_, fun column finished => ?_⟩
  · split <;> exact shown.width
  · split <;> exact shown.cells
  · by_cases info : rc = .successWithInfo
    · simpa [Reading.answered, code, info, ResultInfo.setOffset] using shown.last
    · simp [Reading.answered, code, info, data, ResultInfo.remember]
  · rw [offsets]
    by_cases same : column = args.hCol
    · subst same
      rw [Function.update_self, offset]
      by_cases all : rc = .success
      · simp [Reading.place, Reading.answered, all, cell]
      · simp [Reading.place, Reading.answered, all, unfinished, clean]
    · rw [Function.update_of_ne same, shown.place column]
      simp [Reading.place, Reading.answered, same]
  · have other : column ≠ args.hCol := by
      rintro rfl
      rw [Reading.answered, cell] at null
      cases null
    simpa [Reading.answered, other] using shown.null column null
  · by_cases same : column = args.hCol
    · exact same ▸ inside
    · exact shown.inside column (by simpa [Reading.answered, same] using finished)

/-- A fetch starts every value afresh, but for the places it does not move. -/
theorem fetch (shown : Shows columns info reading)
    (turns : List ((Nat → Cell CType) × List (Arguments CType))) (cells : Nat → Cell CType) :
    Shows columns (fetchScroll charSize turns cells info)
      (reading.call charSize columns (.fetch turns cells)).2 := by
  have fetched := fetchScroll_fetched charSize turns cells info
  refine ⟨fetched.columns.trans shown.width, rfl, fetched.last, fun column => ?_,
    fun _ _ => rfl, by simp [Reading.call]⟩
  rw [fetched.offset]
  dsimp only
  rw [shown.place column]
  simp only [Reading.call, Reading.place]
  split <;> simp

end Shows

theorem answerOf_data (cbLen : Int) (given : List Nat) (arm : Arm) :
    (answerOf charSize cbLen given arm).1 ≠ .noData := by
  rw [answerOf, nextPiece]
  split_ifs <;> simp

/-- A call the driver is ready for answers as it should. -/
theorem Shows.getData {columns : Nat} {info : ResultInfo CType} {reading : Reading CType}
    (shown : Shows columns info reading) {args : Arguments CType}
    (ready : Ready charSize columns reading (.getData args)) :
    (info.call charSize (.getData args)).1 = (reading.call charSize columns (.getData args)).1 ∧
      Shows columns (info.call charSize (.getData args)).2
        (reading.call charSize columns (.getData args)).2 := by
  rw [ResultInfo.call, Reading.call]
  by_cases noValue : args.pValue = false ∨ args.hCol = 0
  · have answer : reading.answer charSize columns args = (.error, []) := by
      rw [Reading.answer, if_pos (by rcases noValue with no | zero <;> simp [*])]
    rw [answer, sqlGetData_invalid (noValue.imp_right Or.inl)]
    exact ⟨rfl, shown.remembered (Or.inl rfl)⟩
  obtain ⟨pValue, positive⟩ : args.pValue = true ∧ 0 < args.hCol := by
    rw [not_or, Bool.not_eq_false] at noValue
    exact ⟨noValue.1, Nat.pos_of_ne_zero noValue.2⟩
  obtain ⟨last, served⟩ := ready pValue positive
  cases finished : reading.finished args.hCol with
  | true =>
      have inside := shown.inside args.hCol finished
      have again : info.iPrevhCol = args.hCol := shown.last.trans (last.mp finished)
      have answer : reading.answer charSize columns args = (.noData, []) := by
        rw [Reading.answer, if_neg (by simp [pValue, positive.ne', inside]), if_pos finished]
      rw [answer, sqlGetData_again pValue positive (shown.width ▸ inside) again]
      refine ⟨rfl, ?_⟩
      have same : reading.answered args (.noData, []) = reading := by
        simp [Reading.answered]
      rw [same]
      exact shown
  | false =>
      have fresh : info.iPrevhCol ≠ args.hCol := by
        intro same
        rw [last.mpr (shown.last ▸ same)] at finished
        cases finished
      by_cases inside : args.hCol ≤ columns
      · have answer : reading.answer charSize columns args =
            match reading.cells args.hCol with
            | none => (if args.pcbLenInd then .success else .error, [])
            | some arms =>
                answerOf charSize args.cbLen (reading.given args.hCol) (arms args.hType) := by
          rw [Reading.answer, if_neg (by simp [pValue, positive.ne', inside]),
            if_neg (by simp [finished])]
        rw [answer]
        cases cell : reading.cells args.hCol with
        | none =>
            rw [sqlGetData_null pValue positive (shown.width ▸ inside) fresh (shown.cells ▸ cell)]
            refine ⟨rfl, shown.remembered ?_⟩
            cases args.pcbLenInd with
            | true => exact Or.inr ⟨rfl, inside, cell⟩
            | false => exact Or.inl rfl
        | some arms =>
            obtain ⟨clean, fits⟩ := served finished inside arms cell
            have follows := follows_copy fits
            have place : info.cbLenOffsets args.hCol = (reading.given args.hCol).length := by
              simp [shown.place, Reading.place, finished, clean]
            rw [sqlGetData_value pValue positive (shown.width ▸ inside) fresh (shown.cells ▸ cell),
              place]
            refine ⟨congrArg some (Prod.ext follows.1 follows.2.1), ?_⟩
            exact shown.read inside finished cell clean follows (answerOf_data _ _ _)
      · have outside : columns < args.hCol := Nat.lt_of_not_le inside
        have answer : reading.answer charSize columns args = (.error, []) := by
          rw [Reading.answer, if_pos (by simp [outside])]
        rw [answer, sqlGetData_invalid (Or.inr (Or.inr ⟨shown.width ▸ outside, fresh⟩))]
        exact ⟨rfl, shown.remembered (Or.inl rfl)⟩

theorem call_shows {columns : Nat} {info : ResultInfo CType} {reading : Reading CType}
    {event : Event CType} (shown : Shows columns info reading)
    (ready : Ready charSize columns reading event) :
    (info.call charSize event).1 = (reading.call charSize columns event).1 ∧
      Shows columns (info.call charSize event).2 (reading.call charSize columns event).2 := by
  cases event with
  | fetch turns cells => exact ⟨rfl, shown.fetch turns cells⟩
  | fetchFailed =>
      exact ⟨rfl, ⟨shown.width, shown.cells, rfl, shown.place, shown.null, shown.inside⟩⟩
  | fetchRefused => exact ⟨rfl, shown⟩
  | getData args => exact shown.getData ready

theorem Served.begins {cbLen : Int} {given : List Nat} {arm : Arm}
    (served : Served charSize cbLen given arm) (taken : refuses cbLen arm = false) :
    given <+: arm.value := by
  cases arm with
  | chars text => exact served.2.1
  | wideChars bytesLen units => exact served.2.2.1
  | hexBinary text => exact served.2.2
  | binary bytes | binaryHex bytes | wideBinary bytes | wideBinaryHex bytes | printed text =>
      exact served.1 ▸ List.nil_prefix
  | boolean digit text => exact served.1 ▸ List.nil_prefix
  | fixed bytes => exact served ▸ List.nil_prefix
  | failing => cases taken

/-- A piece goes on with what was given, and the last one completes the value. -/
theorem answerOf_delivers {cbLen : Int} {given : List Nat} {arm : Arm}
    (served : Served charSize cbLen given arm) :
    answerOf charSize cbLen given arm = (.error, []) ∨
      given ++ (answerOf charSize cbLen given arm).2 <+: arm.value ∧
        ((answerOf charSize cbLen given arm).1 = .success →
          given ++ (answerOf charSize cbLen given arm).2 = arm.value) := by
  cases taken : refuses cbLen arm with
  | true => exact Or.inl (answerOf_refused given taken)
  | false =>
      right
      obtain ⟨rest, value⟩ := served.begins taken
      rw [answerOf_taken given taken, ← value, List.drop_left, nextPiece]
      split
      case isTrue fits => exact ⟨List.prefix_refl _, fun _ => rfl⟩
      case isFalse cut =>
          exact ⟨(List.prefix_append_right_inj given).mpr (List.take_prefix _ rest), by simp⟩

/-- An answer that delivers nothing finishes no value. -/
theorem Reading.Delivered.nothing {reading : Reading CType} (delivered : reading.Delivered)
    {args : Arguments CType} {rc : SqlReturn}
    (unfinished : rc = .success → reading.cells args.hCol = none) :
    (reading.answered args (rc, [])).Delivered := by
  intro column arms cell
  by_cases same : column = args.hCol
  · subst same
    have open_value : rc ≠ .success := by
      intro success
      have null := unfinished success
      rw [Reading.answered] at cell
      cases null.symm.trans cell
    simpa [Reading.answered, open_value] using delivered args.hCol arms cell
  · simpa [Reading.answered, same] using delivered column arms cell

/-- A piece of a value that was not finished goes on with it. -/
theorem Reading.Delivered.piece {reading : Reading CType} (delivered : reading.Delivered)
    {args : Arguments CType} {arms : CType → Arm} (cell : reading.cells args.hCol = some arms)
    (unfinished : reading.finished args.hCol = false) {answer : Answer}
    (begins : reading.given args.hCol ++ answer.2 <+: (arms args.hType).value)
    (all : answer.1 = .success →
      reading.given args.hCol ++ answer.2 = (arms args.hType).value) :
    (reading.answered args answer).Delivered := by
  intro column found there
  by_cases same : column = args.hCol
  · subst same
    cases cell.symm.trans there
    refine ⟨Or.inr ⟨args.hType, by simpa [Reading.answered] using begins⟩, fun finished => ?_⟩
    have success : answer.1 = .success := by
      simpa [Reading.answered, unfinished] using finished
    exact ⟨args.hType, by simpa [Reading.answered] using all success⟩
  · simpa [Reading.answered, same] using delivered column found there

theorem call_delivered {columns : Nat} {reading : Reading CType} {event : Event CType}
    (delivered : reading.Delivered) (ready : Ready charSize columns reading event) :
    (reading.call charSize columns event).2.Delivered := by
  cases event with
  | fetch turns cells => exact fun _ _ _ => ⟨Or.inl rfl, by simp [Reading.call]⟩
  | fetchFailed | fetchRefused => exact delivered
  | getData args =>
      dsimp only [Reading.call]
      rw [Reading.answer]
      split
      case isTrue invalid => exact delivered.nothing (by simp)
      case isFalse valid =>
          simp only [not_or, Bool.not_eq_true', Bool.not_eq_false, not_lt] at valid
          obtain ⟨pValue, positive, inside⟩ := valid
          obtain ⟨-, served⟩ := ready pValue (Nat.pos_of_ne_zero positive)
          split
          case isTrue finished => exact delivered.nothing (by simp)
          case isFalse unfinished =>
              cases cell : reading.cells args.hCol with
              | none => exact delivered.nothing (fun _ => cell)
              | some arms =>
                  have fits := (served (by simpa using unfinished) inside arms cell).2
                  dsimp only
                  rcases answerOf_delivers fits with refused | ⟨begins, all⟩
                  · rw [refused]
                    exact delivered.nothing (by simp)
                  · exact delivered.piece cell (by simpa using unfinished) begins all

/--
In every run whose calls the driver is ready for, each call of `SQLGetData`
returns and delivers the next piece of its value in the row under the cursor,
whatever was read before on this row or another one, and finds no data once the
value has been given.
-/
theorem calls_read_values (charSize : Nat) (info : ResultInfo CType) (events : List (Event CType))
    (kept : Kept charSize info.iNumberOfCols (Reading.start info.cells) events) :
    (replies (ResultInfo.call charSize) { info with iPrevhCol := 0, cbLenOffsets := fun _ => 0 }
        events).1 =
      (replies (Reading.call charSize info.iNumberOfCols) (Reading.start info.cells) events).1 ∧
    ∀ reading ∈ visited
        (fun reading event => some (Reading.call charSize info.iNumberOfCols reading event).2)
        (Reading.start info.cells) events,
      reading.Delivered := by
  constructor
  · have initial : Shows info.iNumberOfCols
        { info with iPrevhCol := 0, cbLenOffsets := fun _ => 0 } (Reading.start info.cells) :=
      ⟨rfl, rfl, rfl, fun _ => rfl, fun _ _ => rfl, fun _ finished => by cases finished⟩
    exact replies_guarded (Shows info.iNumberOfCols)
      (fun _ _ _ shown ready => call_shows shown ready) initial kept
  · have initial : (Reading.start info.cells).Delivered :=
      fun _ _ _ => ⟨Or.inl rfl, fun finished => by cases finished⟩
    refine visited_safe Reading.Delivered (fun reading event next delivered ready moves => ?_)
      initial kept
    cases moves
    exact call_delivered delivered ready

/-- Two columns: a `varchar` as `SQL_C_CHAR` or `SQL_C_WCHAR`, and a null. -/
def varcharRow (text : List Nat) : Nat → Cell Bool :=
  fun column => if column = 1 then
    some fun wide => if wide then .wideChars text.length text else .chars text
  else none

def readColumn (hCol : Nat) (wide : Bool) (cbLen : Int) : Event Bool :=
  .getData ⟨hCol, wide, true, cbLen, true⟩

def twoColumns : ResultInfo Bool := ⟨2, fun _ => none, 0, fun _ => 0⟩

/-- A value in two pieces and its end, a null in between, and the values of the next row. -/
def twoRows : List (Event Bool) :=
  [.fetch [] (varcharRow [97, 98, 99]), readColumn 1 false 3, readColumn 2 false 3,
    readColumn 1 false 3, readColumn 1 false 3, .fetch [] (varcharRow [120, 121]),
    readColumn 1 true 8, readColumn 1 true 8, readColumn 1 false 0]

theorem calls_read_values_twoPieces :
    (replies (ResultInfo.call 4) twoColumns twoRows).1 =
      [none, some (.successWithInfo, [97, 98]), some (.success, []), some (.success, [99]),
        some (.noData, []), none, some (.successWithInfo, [120]), some (.success, [121]),
        some (.noData, [])] := by
  have kept : Kept 4 2 (Reading.start fun _ => none) twoRows := by decide
  exact (calls_read_values 4 twoColumns twoRows kept).1.trans (by decide)

/-- After two of the bytes of a value, the next row's value begins with its third byte. -/
theorem calls_read_values_wrong :
    ¬ ∀ events : List (Event Bool),
      (replies (ResultInfo.call 4) twoColumns events).1 =
        (replies (Reading.call 4 2) (Reading.start fun _ => none) events).1 := by
  intro every
  have same := every [.fetch [] (varcharRow [97, 98, 99]), readColumn 1 false 3,
    .fetch [] (varcharRow [120, 121, 122]), readColumn 1 false 10]
  revert same
  decide

end RedshiftOdbc.GetData
