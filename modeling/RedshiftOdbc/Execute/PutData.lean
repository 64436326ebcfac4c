import RedshiftOdbc.Library.Words
import Mathlib.Data.List.Forall2
import Mathlib.Data.List.TakeWhile

/-!
# Data at execution in pieces

`SQLPutData` duplicates the first piece of a parameter and measures the copy, and
appends every further piece with two calls of `strncpy`, which write zeros behind
the first zero they meet.  A call that writes outside of its buffer has no result.
-/

namespace RedshiftOdbc.DataAtExec

open RedshiftOdbc.Words

/-! ## Pieces -/

def sqlNullData : Int := -1

def sqlNts : Int := -3

/-- The arguments of `SQLPutData`, with the memory behind its pointer. -/
inductive Piece where
  | sized (pData : Option (List UInt8)) (cbLen : Nat) (readable : cbLen ≤ (pData.getD []).length)
  | text (pData : List UInt8) (ended : 0 ∈ pData)
  | null (pData : Option (List UInt8))

def cString (memory : List UInt8) : List UInt8 := memory.takeWhile (· ≠ 0)

def strlen (memory : List UInt8) : Nat := (cString memory).length

namespace Piece

def pData : Piece → Option (List UInt8)
  | sized pData _ _ => pData
  | text pData _ => some pData
  | null pData => pData

def cbLen : Piece → Int
  | sized _ cbLen _ => cbLen
  | text _ _ => sqlNts
  | null _ => sqlNullData

def bytes : Piece → List UInt8
  | sized pData cbLen _ => (pData.getD []).take cbLen
  | text pData _ => cString pData
  | null _ => []

def isNull : Piece → Bool
  | null _ => true
  | _ => false

end Piece

/-! ## The functions of the C library -/

def strncpy (src : List UInt8) (n : Nat) : List UInt8 :=
  cString (src.take n) ++ List.replicate (n - strlen (src.take n)) 0

/-- `rs_strdup`; a text without an end is read beyond its memory. -/
def rs_strdup (src : List UInt8) (cbLen : Int) : Option (List UInt8) :=
  if wrap 4 cbLen = sqlNts then
    if 0 ∈ src then some (cString src ++ [0]) else none
  else if wrap 4 cbLen = sqlNullData then some [0]
  else some (src.take cbLen.toNat ++ [0])

/-! ## The value of a parameter -/

/-- `RS_DATA_AT_EXEC`, with the buffer at `pValue`. -/
structure Data where
  pValue : Option (List UInt8)
  cbLen : Nat
  deriving DecidableEq, Repr

def allocateAndSetDataAtExec (piece : Piece) : Option Data :=
  if piece.cbLen = sqlNullData then some ⟨none, 0⟩
  else
    match piece.pData with
    | none => some ⟨none, 0⟩
    | some pDataPtr =>
        (rs_strdup pDataPtr piece.cbLen).map fun pValue => ⟨some pValue, strlen pValue⟩

def appendedLength (pDataPtr : List UInt8) (lStrLenOrInd : Int) : Int :=
  if lStrLenOrInd = sqlNts then strlen pDataPtr else lStrLenOrInd

/-- A negative length is an enormous one for `strncpy`. -/
def appendDataAtExec (pDataAtExec : Data) (piece : Piece) : Option Data :=
  match piece.pData with
  | none => some pDataAtExec
  | some pDataPtr =>
      let lStrLenOrInd := appendedLength pDataPtr piece.cbLen
      if lStrLenOrInd < 0 then none
      else
        some
          { pValue := some (strncpy (pDataAtExec.pValue.getD []) pDataAtExec.cbLen ++
              strncpy pDataPtr lStrLenOrInd.toNat ++ [0])
            cbLen := pDataAtExec.cbLen + lStrLenOrInd.toNat }

def putAll (first : Piece) (rest : List Piece) : Option Data :=
  (allocateAndSetDataAtExec first).bind fun pDataAtExec => rest.foldlM appendDataAtExec pDataAtExec

def Data.value (pDataAtExec : Data) : Option (List UInt8) :=
  pDataAtExec.pValue.map (·.take pDataAtExec.cbLen)

def sent (pieces : List Piece) : List UInt8 := pieces.flatMap Piece.bytes

/-- The pieces are there one behind the other; nothing but `SQL_NULL_DATA` is a NULL. -/
def Data.Holds (pDataAtExec : Data) (pieces : List Piece) : Prop :=
  pDataAtExec.cbLen = (sent pieces).length ∧
    pDataAtExec.value = if pieces.all Piece.isNull then none else some (sent pieces)

/-! ## Zeros -/

/-- Behind a zero there are only zeros. -/
def Flat (bytes : List UInt8) : Prop :=
  ∀ front back, bytes = front ++ 0 :: back → ∀ byte ∈ back, byte = 0

/-- The bytes with zeros behind the first zero. -/
def zeroFill (bytes : List UInt8) : List UInt8 :=
  cString bytes ++ List.replicate (bytes.length - strlen bytes) 0

theorem strlen_le (bytes : List UInt8) : strlen bytes ≤ bytes.length :=
  (List.takeWhile_prefix _).length_le

theorem zeroFill_length (bytes : List UInt8) : (zeroFill bytes).length = bytes.length := by
  have le := strlen_le bytes
  rw [zeroFill, List.length_append, List.length_replicate, ← strlen]
  omega

theorem strncpy_eq {src : List UInt8} {n : Nat} (inside : n ≤ src.length) :
    strncpy src n = zeroFill (src.take n) := by
  rw [strncpy, zeroFill, List.length_take, Nat.min_eq_left inside]

theorem zeroFill_cons (byte : UInt8) (bytes : List UInt8) :
    zeroFill (byte :: bytes) =
      if byte = 0 then List.replicate (bytes.length + 1) 0 else byte :: zeroFill bytes := by
  by_cases zero : byte = 0
  · rw [if_pos zero, zeroFill, strlen, cString, List.takeWhile_cons_of_neg (by simp [zero])]
    rfl
  · rw [if_neg zero, zeroFill, strlen, cString, List.takeWhile_cons_of_pos (by simpa using zero),
      zeroFill, strlen, cString, List.length_cons, List.length_cons, Nat.add_sub_add_right]
    rfl

theorem flat_cons (byte : UInt8) (bytes : List UInt8) :
    Flat (byte :: bytes) ↔ (byte = 0 → ∀ other ∈ bytes, other = 0) ∧ Flat bytes := by
  constructor
  · intro flat
    refine ⟨?_, fun front back split => flat (byte :: front) back (by rw [split]; rfl)⟩
    rintro rfl
    exact flat [] bytes rfl
  · rintro ⟨first, later⟩ front back split
    cases front with
    | nil =>
        obtain ⟨rfl, rfl⟩ := List.cons.inj split
        exact first rfl
    | cons other front => exact later front back (List.cons.inj split).2

theorem zeroFill_eq_iff (bytes : List UInt8) : zeroFill bytes = bytes ↔ Flat bytes := by
  induction bytes with
  | nil =>
      refine iff_of_true rfl fun front back split => ?_
      exact absurd split.symm (List.append_ne_nil_of_right_ne_nil front (List.cons_ne_nil _ _))
  | cons byte bytes ih =>
      rw [zeroFill_cons, flat_cons]
      by_cases zero : byte = 0
      · subst zero
        rw [if_pos rfl, List.replicate_succ, List.cons.injEq, eq_comm (b := bytes),
          List.eq_replicate_iff]
        simp only [true_and, true_implies]
        refine ⟨fun all => ⟨all, fun front back split byte member => ?_⟩, fun both => both.1⟩
        exact all byte (by rw [split]; exact List.mem_append_right _ (List.mem_cons_of_mem _ member))
      · rw [if_neg zero, List.cons.injEq, ih]
        exact ⟨fun both => ⟨fun same => absurd same zero, both.2⟩, fun both => ⟨rfl, both.2⟩⟩

/-- A copy in which some bytes have become zeros. -/
def Below (copy bytes : List UInt8) : Prop :=
  List.Forall₂ (fun byte origin => byte = origin ∨ byte = 0) copy bytes

theorem below_refl (bytes : List UInt8) : Below bytes bytes := by
  induction bytes with
  | nil => exact .nil
  | cons byte bytes ih => exact .cons (.inl rfl) ih

theorem below_zeros (bytes : List UInt8) : Below (List.replicate bytes.length 0) bytes := by
  induction bytes with
  | nil => exact .nil
  | cons byte bytes ih => exact .cons (.inr rfl) ih

theorem Below.trans {first second third : List UInt8} (low : Below first second)
    (high : Below second third) : Below first third := by
  induction low generalizing third with
  | nil => exact high
  | cons one _ ih =>
      cases high with
      | cons other rest =>
          refine .cons ?_ (ih rest)
          rcases one with rfl | zero
          · exact other
          · exact .inr zero

theorem Below.antisymm {first second : List UInt8} (low : Below first second)
    (high : Below second first) : first = second := by
  induction low with
  | nil => rfl
  | cons one _ ih =>
      cases high with
      | cons other rest =>
          rw [ih rest]
          rcases one with rfl | zero
          · rfl
          · rcases other with same | none
            · rw [same]
            · rw [zero, none]

theorem zeroFill_below (bytes : List UInt8) : Below (zeroFill bytes) bytes := by
  induction bytes with
  | nil => exact .nil
  | cons byte bytes ih =>
      rw [zeroFill_cons]
      by_cases zero : byte = 0
      · rw [if_pos zero]
        exact below_zeros (byte :: bytes)
      · rw [if_neg zero]
        exact .cons (.inl rfl) ih

/-- A copy that is right after another copying was right before, and survives it. -/
theorem zeroFill_eq_of_below {copy bytes : List UInt8} (below : Below copy bytes) :
    zeroFill copy = bytes ↔ copy = bytes ∧ Flat bytes := by
  constructor
  · intro same
    have still : copy = bytes := below.antisymm (by rw [← same]; exact zeroFill_below copy)
    rw [still] at same
    exact ⟨still, (zeroFill_eq_iff bytes).mp same⟩
  · rintro ⟨rfl, flat⟩
    exact (zeroFill_eq_iff copy).mpr flat

/-! ## Appending -/

def appended (copy bytes : List UInt8) : List UInt8 := zeroFill copy ++ zeroFill bytes

theorem appended_length (copy bytes : List UInt8) :
    (appended copy bytes).length = copy.length + bytes.length := by
  rw [appended, List.length_append, zeroFill_length, zeroFill_length]

theorem appended_below {copy whole : List UInt8} (below : Below copy whole)
    (bytes : List UInt8) : Below (appended copy bytes) (whole ++ bytes) :=
  List.rel_append ((zeroFill_below copy).trans below) (zeroFill_below bytes)

theorem appended_eq_iff {copy whole : List UInt8} (below : Below copy whole)
    (bytes : List UInt8) :
    appended copy bytes = whole ++ bytes ↔ copy = whole ∧ Flat whole ∧ Flat bytes := by
  have lengths : (zeroFill copy).length = whole.length := by
    rw [zeroFill_length]
    exact below.length_eq
  rw [appended, List.append_eq_append_iff_of_size_eq_left lengths,
    zeroFill_eq_of_below below, zeroFill_eq_iff, and_assoc]

/-- All that is sent before a piece, and the piece itself, have nothing behind a zero. -/
def Copied (whole : List UInt8) (pieces : List (List UInt8)) : Prop :=
  ∀ before bytes after, pieces = before ++ bytes :: after →
    Flat (whole ++ before.flatten) ∧ Flat bytes

theorem copied_nil (whole : List UInt8) : Copied whole [] := fun before _ _ split =>
  absurd split.symm (List.append_ne_nil_of_right_ne_nil before (List.cons_ne_nil _ _))

theorem copied_cons (whole bytes : List UInt8) (pieces : List (List UInt8)) :
    Copied whole (bytes :: pieces) ↔
      (Flat whole ∧ Flat bytes) ∧ Copied (whole ++ bytes) pieces := by
  constructor
  · intro copied
    refine ⟨by simpa using copied [] bytes pieces rfl, fun before other after split => ?_⟩
    have further := copied (bytes :: before) other after (by rw [split]; rfl)
    rwa [List.flatten_cons, ← List.append_assoc] at further
  · rintro ⟨first, later⟩ before other after split
    cases before with
    | nil =>
        obtain ⟨rfl, rfl⟩ := List.cons.inj split
        simpa using first
    | cons one before =>
        obtain ⟨rfl, rfl⟩ := List.cons.inj split
        rw [List.flatten_cons, ← List.append_assoc]
        exact later before other after rfl

theorem foldl_appended_length (copy : List UInt8) (pieces : List (List UInt8)) :
    (pieces.foldl appended copy).length = copy.length + pieces.flatten.length := by
  induction pieces generalizing copy with
  | nil => rfl
  | cons bytes pieces ih =>
      rw [List.foldl_cons, ih, appended_length, List.flatten_cons, List.length_append,
        Nat.add_assoc]

theorem foldl_appended_eq_iff {copy whole : List UInt8} (below : Below copy whole)
    (pieces : List (List UInt8)) :
    pieces.foldl appended copy = whole ++ pieces.flatten ↔ copy = whole ∧ Copied whole pieces := by
  induction pieces generalizing copy whole with
  | nil =>
      rw [List.foldl_nil, List.flatten_nil, List.append_nil]
      exact ⟨fun same => ⟨same, copied_nil whole⟩, fun both => both.1⟩
  | cons bytes pieces ih =>
      rw [List.foldl_cons, List.flatten_cons, ← List.append_assoc, ih (appended_below below bytes),
        appended_eq_iff below, copied_cons, and_assoc]

/-! ## The pieces behind the first -/

namespace Data

/-- The bytes at `pValue` that the length counts. -/
def content (pDataAtExec : Data) : List UInt8 :=
  (pDataAtExec.pValue.getD []).take pDataAtExec.cbLen

def Inside (pDataAtExec : Data) : Prop :=
  pDataAtExec.cbLen ≤ (pDataAtExec.pValue.getD []).length

variable {pDataAtExec : Data}

theorem content_length (inside : pDataAtExec.Inside) :
    pDataAtExec.content.length = pDataAtExec.cbLen := by
  rw [content, List.length_take, Nat.min_eq_left inside]

theorem value_eq : pDataAtExec.value =
    if pDataAtExec.pValue = none then none else some pDataAtExec.content := by
  cases known : pDataAtExec.pValue <;> simp [value, content, known]

end Data

namespace Piece

/-- A piece without memory behind its pointer sends nothing. -/
theorem bytes_of_none {piece : Piece} (none : piece.pData = none) : piece.bytes = [] := by
  cases piece with
  | sized pData cbLen readable =>
      simp only [Piece.pData] at none
      subst none
      rw [bytes, Option.getD_none, List.take_nil]
  | text pData ended => simp only [Piece.pData, reduceCtorEq] at none
  | null pData => rfl

/-- The address and the length belong to no buffer overflow. -/
def Copies (piece : Piece) : Prop := piece.pData ≠ none → piece.isNull = false

end Piece

theorem cString_cString (memory : List UInt8) : cString (cString memory) = cString memory := by
  rw [cString, cString, List.takeWhile_takeWhile]
  simp

theorem cString_take (memory : List UInt8) : memory.take (strlen memory) = cString memory :=
  (List.prefix_iff_eq_take.mp (List.takeWhile_prefix _)).symm

section
variable {pDataAtExec : Data} {piece : Piece}

theorem appendDataAtExec_none (none : piece.pData = none) :
    appendDataAtExec pDataAtExec piece = some pDataAtExec := by
  rw [appendDataAtExec, none]

theorem appendDataAtExec_overflow (known : piece.pData ≠ none) (null : piece.isNull = true) :
    appendDataAtExec pDataAtExec piece = none := by
  obtain ⟨pDataPtr, known⟩ := Option.ne_none_iff_exists'.mp known
  cases piece with
  | null pData =>
      rw [appendDataAtExec, known]
      rfl
  | sized pData cbLen readable => simp only [Piece.isNull, Bool.false_eq_true] at null
  | text pData ended => simp only [Piece.isNull, Bool.false_eq_true] at null

theorem appendDataAtExec_some (inside : pDataAtExec.Inside) (known : piece.pData ≠ none)
    (sized : piece.isNull = false) :
    ∃ further, appendDataAtExec pDataAtExec piece = some further ∧ further.Inside ∧
      further.content = appended pDataAtExec.content piece.bytes ∧ further.pValue ≠ none := by
  obtain ⟨pDataPtr, known⟩ := Option.ne_none_iff_exists'.mp known
  obtain ⟨count, length, readable, bytes⟩ : ∃ count : Nat,
      appendedLength pDataPtr piece.cbLen = count ∧ count ≤ pDataPtr.length ∧
        piece.bytes = pDataPtr.take count := by
    cases piece with
    | null pData => simp only [Piece.isNull, Bool.true_eq_false] at sized
    | text pData ended =>
        obtain rfl := Option.some.inj known
        exact ⟨strlen pData, if_pos rfl, strlen_le pData, (cString_take pData).symm⟩
    | sized pData cbLen readable =>
        simp only [Piece.pData] at known
        subst known
        refine ⟨cbLen, if_neg ?_, readable, rfl⟩
        simp only [Piece.cbLen, sqlNts]
        omega
  have step : appendDataAtExec pDataAtExec piece =
      some ⟨some (strncpy (pDataAtExec.pValue.getD []) pDataAtExec.cbLen ++
        strncpy pDataPtr count ++ [0]), pDataAtExec.cbLen + count⟩ := by
    rw [appendDataAtExec, known]
    simp only [length, if_neg (Int.not_lt.mpr (Int.natCast_nonneg count)), Int.toNat_natCast]
  have whole : strncpy (pDataAtExec.pValue.getD []) pDataAtExec.cbLen ++
      strncpy pDataPtr count = appended pDataAtExec.content piece.bytes := by
    rw [strncpy_eq inside, strncpy_eq readable, appended, bytes]
    rfl
  have counted : (appended pDataAtExec.content piece.bytes).length =
      pDataAtExec.cbLen + count := by
    rw [appended_length, Data.content_length inside, bytes, List.length_take,
      Nat.min_eq_left readable]
  refine ⟨_, step, ?_, ?_, ?_⟩
  · rw [Data.Inside, whole, Option.getD_some, List.length_append, counted]
    exact Nat.le_succ _
  · rw [Data.content, whole, Option.getD_some, ← counted, List.take_left]
  · simp only [ne_eq, reduceCtorEq, not_false_eq_true]

end

/-- The bytes of the pieces that have memory behind their pointers. -/
def effective (pieces : List Piece) : List (List UInt8) :=
  (pieces.filter fun piece => piece.pData.isSome).map Piece.bytes

theorem effective_cons (piece : Piece) (pieces : List Piece) :
    effective (piece :: pieces) =
      if piece.pData = none then effective pieces else piece.bytes :: effective pieces := by
  cases known : piece.pData <;> simp [effective, known]

theorem flatten_effective (pieces : List Piece) : (effective pieces).flatten = sent pieces := by
  induction pieces with
  | nil => rfl
  | cons piece pieces ih =>
      rw [effective_cons, sent, List.flatMap_cons, ← sent, ← ih]
      by_cases none : piece.pData = none
      · rw [if_pos none, Piece.bytes_of_none none, List.nil_append]
      · rw [if_neg none, List.flatten_cons]

/-- Further pieces, none of which is written outside of the buffer. -/
theorem foldlM_some {pDataAtExec : Data} {pieces : List Piece} (inside : pDataAtExec.Inside)
    (copies : ∀ piece ∈ pieces, piece.Copies) :
    ∃ last, pieces.foldlM appendDataAtExec pDataAtExec = some last ∧ last.Inside ∧
      last.content = (effective pieces).foldl appended pDataAtExec.content ∧
      (last.pValue = none ↔ pDataAtExec.pValue = none ∧ effective pieces = []) := by
  induction pieces generalizing pDataAtExec with
  | nil => exact ⟨pDataAtExec, rfl, inside, rfl, by simp [effective]⟩
  | cons piece pieces ih =>
      have here := copies piece (List.mem_cons_self ..)
      have later : ∀ piece ∈ pieces, piece.Copies :=
        fun other member => copies other (List.mem_cons_of_mem _ member)
      rw [List.foldlM_cons, effective_cons]
      by_cases none : piece.pData = none
      · rw [appendDataAtExec_none none, if_pos none]
        exact ih inside later
      · obtain ⟨further, step, inner, content, known⟩ :=
          appendDataAtExec_some inside none (here none)
        obtain ⟨last, run, final⟩ := ih inner later
        rw [step, if_neg none, List.foldl_cons, ← content]
        refine ⟨last, run, final.1, final.2.1, ?_⟩
        rw [final.2.2]
        simp only [known, false_and, reduceCtorEq, and_false]

theorem foldlM_none {pDataAtExec : Data} {pieces : List Piece} (inside : pDataAtExec.Inside)
    (overflow : ¬ ∀ piece ∈ pieces, piece.Copies) :
    pieces.foldlM appendDataAtExec pDataAtExec = none := by
  induction pieces generalizing pDataAtExec with
  | nil => exact absurd (fun _ member => absurd member List.not_mem_nil) overflow
  | cons piece pieces ih =>
      rw [List.foldlM_cons]
      by_cases none : piece.pData = none
      · rw [appendDataAtExec_none none]
        refine ih inside fun later => overflow fun other member => ?_
        rcases List.mem_cons.mp member with rfl | member
        · exact fun known => absurd none known
        · exact later other member
      by_cases null : piece.isNull = true
      · rw [appendDataAtExec_overflow none null]
        rfl
      · rw [Bool.not_eq_true] at null
        obtain ⟨further, step, inner, -, -⟩ := appendDataAtExec_some inside none null
        rw [step]
        refine ih inner fun later => overflow fun other member => ?_
        rcases List.mem_cons.mp member with rfl | member
        · exact fun _ => null
        · exact later other member

/-! ## The first piece -/

/-- The first piece has no zero, and its length is none that stands for something else. -/
def FirstWhole : Piece → Prop
  | .sized (some pData) cbLen _ =>
      0 ∉ pData.take cbLen ∧ wrap 4 cbLen ≠ sqlNullData ∧
        (wrap 4 cbLen = sqlNts → pData[cbLen]? = some 0)
  | _ => True

theorem cString_of_free {memory : List UInt8} (free : 0 ∉ memory) : cString memory = memory := by
  rw [cString, List.takeWhile_eq_self_iff]
  intro byte member
  simpa using fun zero : byte = 0 => free (zero ▸ member)

theorem not_mem_cString (memory : List UInt8) : 0 ∉ cString memory := by
  intro member
  simpa using List.mem_takeWhile_imp member

/-- Up to the zero that stands behind a copy. -/
theorem cString_append_zero (memory : List UInt8) : cString (memory ++ [0]) = cString memory := by
  induction memory with
  | nil => rfl
  | cons byte memory ih =>
      rw [List.cons_append, cString, cString, List.takeWhile_cons, List.takeWhile_cons,
        ← cString, ← cString, ih]

/-- The text up to the first zero has a length exactly when a zero follows that many others. -/
theorem strlen_eq_iff {memory : List UInt8} {count : Nat} (inside : count < memory.length) :
    strlen memory = count ↔ 0 ∉ memory.take count ∧ memory[count]? = some 0 := by
  induction memory generalizing count with
  | nil => exact absurd inside (Nat.not_lt_zero _)
  | cons byte memory ih =>
      by_cases zero : byte = 0
      · subst zero
        rw [strlen, cString, List.takeWhile_cons_of_neg (by simp), List.length_nil]
        cases count with
        | zero => exact iff_of_true rfl ⟨List.not_mem_nil, rfl⟩
        | succ count =>
            exact iff_of_false (Nat.succ_ne_zero _).symm fun both =>
              both.1 (List.mem_cons_self ..)
      · rw [strlen, cString, List.takeWhile_cons_of_pos (by simpa using zero), List.length_cons,
          ← cString, ← strlen]
        cases count with
        | zero =>
            refine iff_of_false (Nat.succ_ne_zero _) fun both => zero ?_
            simpa using both.2
        | succ count =>
            rw [Nat.add_right_cancel_iff, ih (Nat.lt_of_succ_lt_succ inside), List.take_succ_cons,
              List.mem_cons, List.getElem?_cons_succ]
            simp only [not_or, eq_comm (b := byte), zero, not_false_eq_true, true_and]

/-- A text up to a zero is the whole or is shorter. -/
theorem cString_eq_or (memory : List UInt8) :
    cString memory = memory ∨ (cString memory).length ≠ memory.length := by
  by_cases same : (cString memory).length = memory.length
  · exact .inl ((List.takeWhile_prefix _).eq_of_length same)
  · exact .inr same

theorem cString_eq_iff (memory : List UInt8) : cString memory = memory ↔ 0 ∉ memory :=
  ⟨fun same => same ▸ not_mem_cString memory, cString_of_free⟩

/-- A duplicate with a zero behind it, as far as it is measured. -/
theorem content_of_copy {copy text : List UInt8} (measured : cString copy = text) :
    Data.Inside ⟨some copy, strlen copy⟩ ∧ Data.content ⟨some copy, strlen copy⟩ = text :=
  ⟨strlen_le copy, (cString_take copy).trans measured⟩

/-- What is stored for the first piece. -/
structure StoredFirst (piece : Piece) (first : Data) : Prop where
  run : allocateAndSetDataAtExec piece = some first
  inside : first.Inside
  length : first.content = piece.bytes ∨ first.content.length ≠ piece.bytes.length
  whole : first.content = piece.bytes ↔ FirstWhole piece
  none : first.pValue = none ↔ piece.isNull = true ∨ piece.pData = none

theorem storedFirst_sized {pData : List UInt8} {cbLen : Nat}
    (readable : cbLen ≤ ((some pData).getD []).length) {copy text : List UInt8}
    (duplicate : rs_strdup pData cbLen = some copy) (measured : cString copy = text)
    (length : text = pData.take cbLen ∨ text.length ≠ (pData.take cbLen).length)
    (whole : text = pData.take cbLen ↔ FirstWhole (.sized (some pData) cbLen readable)) :
    StoredFirst (.sized (some pData) cbLen readable) ⟨some copy, strlen copy⟩ := by
  have content := content_of_copy measured
  have sized : ¬ (cbLen : Int) = sqlNullData := by
    rw [sqlNullData]
    omega
  refine ⟨?_, content.1, by rw [content.2]; exact length, by rw [content.2]; exact whole, ?_⟩
  · rw [allocateAndSetDataAtExec]
    simp only [Piece.cbLen, Piece.pData, if_neg sized, duplicate, Option.map_some]
  · simp only [Piece.isNull, Piece.pData, reduceCtorEq, Bool.false_eq_true, or_self]

theorem allocate_first (piece : Piece) :
    (∃ first, StoredFirst piece first) ∨
      (allocateAndSetDataAtExec piece = none ∧ ¬ FirstWhole piece) := by
  cases piece with
  | null pData =>
      exact .inl ⟨⟨none, 0⟩, rfl, Nat.le_refl _, .inl rfl, iff_of_true rfl trivial,
        iff_of_true rfl (.inl rfl)⟩
  | text pData ended =>
      have duplicate : rs_strdup pData sqlNts = some (cString pData ++ [0]) := by
        rw [rs_strdup, if_pos (by decide), if_pos ended]
      have content := content_of_copy ((cString_append_zero _).trans (cString_cString pData))
      refine .inl ⟨⟨some (cString pData ++ [0]), strlen (cString pData ++ [0])⟩, ?_, content.1,
        .inl content.2, iff_of_true content.2 trivial, ?_⟩
      · have sized : ¬ (Piece.text pData ended).cbLen = sqlNullData := by
          rw [Piece.cbLen, sqlNts, sqlNullData]
          omega
        rw [allocateAndSetDataAtExec, if_neg sized]
        simp only [Piece.pData, Piece.cbLen, duplicate, Option.map_some]
      · simp only [Piece.isNull, Piece.pData, reduceCtorEq, Bool.false_eq_true, or_self]
  | sized pData cbLen readable =>
      cases pData with
      | none =>
          have bytes : (Piece.sized none cbLen readable).bytes = [] := Piece.bytes_of_none rfl
          refine .inl ⟨⟨none, 0⟩, ?_, Nat.le_refl _, .inl bytes.symm, iff_of_true bytes.symm trivial,
            iff_of_true rfl (.inr rfl)⟩
          rw [allocateAndSetDataAtExec]
          simp only [Piece.pData, ite_self]
      | some pData =>
          have inside : cbLen ≤ pData.length := readable
          have taken : (pData.take cbLen).length = cbLen := by
            rw [List.length_take, Nat.min_eq_left inside]
          by_cases nts : wrap 4 cbLen = sqlNts
          · have other : wrap 4 cbLen ≠ sqlNullData := by
              rw [nts]
              decide
            by_cases ended : 0 ∈ pData
            · have duplicate : rs_strdup pData cbLen = some (cString pData ++ [0]) := by
                rw [rs_strdup, if_pos nts, if_pos ended]
              have same_iff : cString pData = pData.take cbLen ↔ strlen pData = cbLen := by
                constructor
                · intro same
                  rw [strlen, same, taken]
                · intro same
                  rw [← cString_take, same]
              refine .inl ⟨_, storedFirst_sized readable duplicate
                ((cString_append_zero _).trans (cString_cString pData)) ?_ ?_⟩
              · rw [same_iff, taken, ← strlen]
                exact em _
              · rw [same_iff]
                rcases Nat.lt_or_eq_of_le inside with shorter | same
                · rw [strlen_eq_iff shorter]
                  exact ⟨fun both => ⟨both.1, other, fun _ => both.2⟩,
                    fun both => ⟨both.1, both.2.2 nts⟩⟩
                · have all : pData.take cbLen = pData := by rw [same, List.take_length]
                  rw [← same_iff, all, cString_eq_iff]
                  refine iff_of_false (fun free => free ended) fun both => ?_
                  have free := both.1
                  rw [all] at free
                  exact free ended
            · have duplicate : rs_strdup pData cbLen = none := by
                rw [rs_strdup, if_pos nts, if_neg ended]
              have sized : ¬ (cbLen : Int) = sqlNullData := by
                rw [sqlNullData]
                omega
              refine .inr ⟨?_, fun both => ended (List.mem_of_getElem? (both.2.2 nts))⟩
              rw [allocateAndSetDataAtExec]
              simp only [Piece.cbLen, Piece.pData, if_neg sized, duplicate, Option.map_none]
          by_cases null : wrap 4 cbLen = sqlNullData
          · have duplicate : rs_strdup pData cbLen = some [0] := by
              rw [rs_strdup, if_neg nts, if_pos null]
            have positive : cbLen ≠ 0 := by
              rintro rfl
              exact absurd null (by decide)
            refine .inl ⟨_, storedFirst_sized readable duplicate rfl (.inr ?_) ?_⟩
            · rw [taken]
              exact positive.symm
            · refine iff_of_false (fun same => positive ?_) fun both => both.2.1 null
              rw [← taken, ← same]
              rfl
          · have duplicate : rs_strdup pData cbLen = some (pData.take cbLen ++ [0]) := by
              rw [rs_strdup, if_neg nts, if_neg null, Int.toNat_natCast]
            refine .inl ⟨_, storedFirst_sized readable duplicate (cString_append_zero _)
              (cString_eq_or _) ?_⟩
            rw [cString_eq_iff]
            exact ⟨fun free => ⟨free, null, fun same => absurd same nts⟩, fun both => both.1⟩

/-! ## All pieces -/

/-- When the pieces are stored as they are sent. -/
structure Storable (first : Piece) (rest : List Piece) : Prop where
  begins : FirstWhole first
  /-- What is sent before a further piece, and the piece itself, have nothing behind a zero. -/
  goesOn : ∀ before piece after, rest = before ++ piece :: after → piece.pData ≠ none →
    piece.isNull = false ∧ Flat (first.bytes ++ sent before) ∧ Flat piece.bytes
  /-- A piece that is not `SQL_NULL_DATA` has an address, if there is such a piece. -/
  address : (first :: rest).all Piece.isNull = true ∨
    ∃ piece ∈ first :: rest, piece.isNull = false ∧ piece.pData ≠ none

/-- The condition on the further pieces, one after another. -/
theorem rest_iff (whole : List UInt8) (rest : List Piece) :
    (∀ before piece after, rest = before ++ piece :: after → piece.pData ≠ none →
      piece.isNull = false ∧ Flat (whole ++ sent before) ∧ Flat piece.bytes) ↔
    (∀ piece ∈ rest, piece.Copies) ∧ Copied whole (effective rest) := by
  induction rest generalizing whole with
  | nil =>
      refine iff_of_true (fun before piece after split => ?_)
        ⟨fun _ member => absurd member List.not_mem_nil, copied_nil whole⟩
      exact absurd split.symm (List.append_ne_nil_of_right_ne_nil before (List.cons_ne_nil _ _))
  | cons piece rest ih =>
      have split_iff : (∀ before other after, piece :: rest = before ++ other :: after →
          other.pData ≠ none →
            other.isNull = false ∧ Flat (whole ++ sent before) ∧ Flat other.bytes) ↔
          (piece.pData ≠ none → piece.isNull = false ∧ Flat whole ∧ Flat piece.bytes) ∧
            ∀ before other after, rest = before ++ other :: after → other.pData ≠ none →
              other.isNull = false ∧ Flat (whole ++ piece.bytes ++ sent before) ∧
                Flat other.bytes := by
        constructor
        · intro all
          refine ⟨fun known => by simpa [sent] using all [] piece rest rfl known, ?_⟩
          intro before other after split known
          have further := all (piece :: before) other after (by rw [split]; rfl) known
          rwa [sent, List.flatMap_cons, ← sent, ← List.append_assoc] at further
        · rintro ⟨here, later⟩ before other after split known
          cases before with
          | nil =>
              obtain ⟨rfl, rfl⟩ := List.cons.inj split
              simpa [sent] using here known
          | cons one before =>
              obtain ⟨rfl, rfl⟩ := List.cons.inj split
              rw [sent, List.flatMap_cons, ← sent, ← List.append_assoc]
              exact later before other after rfl known
      rw [split_iff, ih, effective_cons, List.forall_mem_cons]
      by_cases none : piece.pData = none
      · rw [if_pos none, Piece.bytes_of_none none, List.append_nil]
        simp only [Piece.Copies, none, ne_eq, not_true_eq_false, false_implies, true_and]
      · rw [if_neg none, copied_cons]
        simp only [Piece.Copies, none, ne_eq, not_false_eq_true, true_implies]
        tauto

theorem effective_eq_nil {pieces : List Piece} :
    effective pieces = [] ↔ ∀ piece ∈ pieces, piece.pData = none := by
  rw [effective, List.map_eq_nil_iff, List.filter_eq_nil_iff]
  simp only [Option.isSome_iff_ne_none, ne_eq, not_not]

/-- No piece has an address and bytes. -/
theorem address_none_iff {first : Piece} {rest : List Piece}
    (copies : ∀ piece ∈ rest, piece.Copies) :
    ((first.isNull = true ∨ first.pData = none) ∧ effective rest = []) ↔
      ¬ ∃ piece ∈ first :: rest, piece.isNull = false ∧ piece.pData ≠ none := by
  rw [effective_eq_nil]
  constructor
  · rintro ⟨here, later⟩ ⟨piece, member, sized, known⟩
    rcases List.mem_cons.mp member with rfl | member
    · rcases here with null | none
      · exact absurd sized (by rw [null]; exact Bool.noConfusion)
      · exact known none
    · exact known (later piece member)
  · intro none
    refine ⟨?_, fun piece member => ?_⟩
    · by_contra neither
      simp only [not_or, Bool.not_eq_true] at neither
      exact none ⟨first, List.mem_cons_self .., neither⟩
    · by_contra known
      exact none ⟨piece, List.mem_cons_of_mem _ member, copies piece member known, known⟩

theorem putAll_holds_iff (first : Piece) (rest : List Piece) :
    (∃ pDataAtExec, putAll first rest = some pDataAtExec ∧ pDataAtExec.Holds (first :: rest)) ↔
      Storable first rest := by
  have whole : sent (first :: rest) = first.bytes ++ (effective rest).flatten := by
    rw [flatten_effective, sent, List.flatMap_cons, ← sent]
  rcases allocate_first first with ⟨stored, known⟩ | ⟨fault, notWhole⟩
  · by_cases copies : ∀ piece ∈ rest, piece.Copies
    · obtain ⟨last, run, inside, content, address⟩ := foldlM_some known.inside copies
      have put : putAll first rest = some last := by
        rw [putAll, known.run, Option.bind_some, run]
      have length : last.cbLen = stored.content.length + (effective rest).flatten.length := by
        rw [← Data.content_length inside, content, foldl_appended_length]
      rw [known.none, address_none_iff copies] at address
      rw [put]
      simp only [Option.some.injEq, exists_eq_left', Data.Holds]
      rcases known.length with same | differs
      · rw [same] at content length
        have copied := foldl_appended_eq_iff (below_refl first.bytes) (effective rest)
        rw [← content, ← whole] at copied
        have storable_iff : Storable first rest ↔ Copied first.bytes (effective rest) ∧
            ((first :: rest).all Piece.isNull = true ∨
              ∃ piece ∈ first :: rest, piece.isNull = false ∧ piece.pData ≠ none) := by
          refine ⟨fun storable => ⟨((rest_iff _ _).mp storable.goesOn).2, storable.address⟩,
            fun both => ⟨known.whole.mp same, (rest_iff _ _).mpr ⟨copies, both.1⟩, both.2⟩⟩
        have counted : last.cbLen = (sent (first :: rest)).length := by
          rw [length, whole, List.length_append]
        rw [storable_iff, Data.value_eq]
        simp only [counted, true_and]
        by_cases null : (first :: rest).all Piece.isNull = true
        · have none : ¬ ∃ piece ∈ first :: rest, piece.isNull = false ∧ piece.pData ≠ none := by
            rintro ⟨piece, member, sized, -⟩
            rw [List.all_eq_true] at null
            exact absurd (null piece member) (by rw [sized]; exact Bool.false_ne_true)
          rw [if_pos (address.mpr none), if_pos null,
            ((address_none_iff copies).mpr none).2]
          exact iff_of_true rfl ⟨copied_nil _, .inl null⟩
        · rw [if_neg null]
          by_cases some : ∃ piece ∈ first :: rest, piece.isNull = false ∧ piece.pData ≠ none
          · rw [if_neg fun none => address.mp none some, Option.some.injEq, copied]
            simp only [some, or_true, true_and, and_true]
          · rw [if_pos (address.mpr some)]
            simp only [reduceCtorEq, some, null, or_self, and_false]
      · refine iff_of_false ?_ fun storable => differs ?_
        · rintro ⟨counted, -⟩
          rw [length, whole, List.length_append] at counted
          exact differs (Nat.add_right_cancel counted)
        · rw [known.whole.mpr storable.begins]
    · refine iff_of_false ?_ fun storable =>
        copies ((rest_iff first.bytes rest).mp storable.goesOn).1
      rintro ⟨last, put, -⟩
      rw [putAll, known.run, Option.bind_some, foldlM_none known.inside copies] at put
      simp only [reduceCtorEq] at put
  · refine iff_of_false ?_ fun storable => notWhole storable.begins
    rintro ⟨last, put, -⟩
    rw [putAll, fault] at put
    simp only [Option.bind_none, reduceCtorEq] at put

/-- A length that stands for a text with an end has such an end. -/
def Piece.Ended : Piece → Prop
  | .sized (some pData) cbLen _ => wrap 4 cbLen = sqlNts → 0 ∈ pData
  | _ => True

theorem allocate_isSome_iff (piece : Piece) :
    (∃ first, allocateAndSetDataAtExec piece = some first) ↔ piece.Ended := by
  have duplicated (src : List UInt8) (cbLen : Int) :
      (∃ copy, rs_strdup src cbLen = some copy) ↔ (wrap 4 cbLen = sqlNts → 0 ∈ src) := by
    rw [rs_strdup]
    split
    case isTrue nts =>
      split
      case isTrue ended => exact iff_of_true ⟨_, rfl⟩ fun _ => ended
      case isFalse ended => exact iff_of_false (by simp) fun all => ended (all nts)
    case isFalse nts =>
      split <;> exact iff_of_true ⟨_, rfl⟩ fun same => absurd same nts
  cases piece with
  | null pData => exact iff_of_true ⟨_, rfl⟩ trivial
  | text pData ended =>
      obtain ⟨copy, duplicate⟩ := (duplicated pData sqlNts).mpr fun _ => ended
      refine iff_of_true ⟨⟨some copy, strlen copy⟩, ?_⟩ trivial
      rw [allocateAndSetDataAtExec]
      split
      case isTrue null => exact absurd null (by simp only [Piece.cbLen]; decide)
      case isFalse =>
        simp only [Piece.pData, Piece.cbLen, duplicate, Option.map_some]
  | sized pData cbLen readable =>
      have sized : ¬ (cbLen : Int) = sqlNullData := by
        rw [sqlNullData]
        omega
      cases pData with
      | none =>
          refine iff_of_true ⟨⟨none, 0⟩, ?_⟩ trivial
          rw [allocateAndSetDataAtExec]
          simp only [Piece.pData, ite_self]
      | some pData =>
          have stored : allocateAndSetDataAtExec (.sized (some pData) cbLen readable) =
              (rs_strdup pData cbLen).map fun pValue => ⟨some pValue, strlen pValue⟩ :=
            if_neg sized
          rw [stored, Piece.Ended, ← duplicated pData cbLen]
          simp only [Option.map_eq_some_iff]
          exact ⟨fun ⟨_, copy, same, _⟩ => ⟨copy, same⟩, fun ⟨copy, same⟩ => ⟨_, copy, same, rfl⟩⟩

end RedshiftOdbc.DataAtExec
