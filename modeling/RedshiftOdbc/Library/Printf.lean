import RedshiftOdbc.Library.Decimal
import RedshiftOdbc.Library.Scanf
import RedshiftOdbc.Library.Words
import Mathlib.Data.Nat.Log
import Mathlib.Algebra.Order.Group.Unbundled.Int

/-!
# Printing into a buffer

`snprintf` at a place of a buffer, and functions that print one piece behind the
other.  The memory begins where the buffer does and goes on behind it; `reach`
is one past the last place written.
-/

namespace RedshiftOdbc.Printf

open RedshiftOdbc.Scanf RedshiftOdbc.Words

/-- `%d` of some width filled with zeros; with `plus` every number has a sign. -/
def printInt (plus : Bool) (width : Nat) (value : Int) : List Char :=
  let sign := if value < 0 then ['-'] else if plus then ['+'] else []
  let digits := Nat.toDigits 10 value.natAbs
  sign ++ (List.replicate (width - (sign.length + digits.length)) '0' ++ digits)

/-- A printed number has signs and digits only. -/
theorem not_mem_printInt {character : Char} (other : character.isDigit = false)
    (unsigned : character ≠ '-' ∧ character ≠ '+') (plus : Bool) (width : Nat) (value : Int) :
    character ∉ printInt plus width value := by
  have digits : character ∉ Nat.toDigits 10 value.natAbs := by
    intro member
    rw [Nat.isDigit_of_mem_toDigits (by decide) (by decide) member] at other
    cases other
  have zero : character ≠ '0' := by
    rintro rfl
    cases other
  simp only [printInt, List.mem_append, List.mem_replicate, digits, zero, and_false, or_false]
  split_ifs <;> simp [unsigned]

theorem printInt_plain (plus : Bool) (width : Nat) (value : Int) :
    '\x00' ∉ printInt plus width value := not_mem_printInt rfl (by decide) plus width value

/-- The length of a number is the logarithm that `log10` gives. -/
theorem length_toDigits_log {value : Nat} (pos : 0 < value) :
    (Nat.toDigits 10 value).length = Nat.log 10 value + 1 := by
  refine Nat.le_antisymm ?_ ?_
  · rw [Nat.length_toDigits_le_iff (by decide) (by omega)]
    exact Nat.lt_pow_succ_log_self (by decide) value
  · have some : 0 < (Nat.toDigits 10 value).length := Nat.length_toDigits_pos
    have below := (Nat.length_toDigits_le_iff (n := value) (b := 10) (by decide) some).mp le_rfl
    exact (Nat.log_lt_iff_lt_pow (by decide) (by omega)).mpr below

theorem printInt_ne_nil (plus : Bool) (width : Nat) (value : Int) :
    printInt plus width value ≠ [] := by
  simp [printInt, Nat.toDigits_ne_nil]

/-- The length of a number that is not negative, by the powers of ten. -/
theorem printInt_length_le {width count : Nat} {value : Int} (nonneg : 0 ≤ value)
    (pos : 0 < count) :
    (printInt false width value).length ≤ count ↔ width ≤ count ∧ value < (10 ^ count : Nat) := by
  have digits := Nat.length_toDigits_le_iff (n := value.natAbs) (b := 10) (by decide) pos
  simp only [printInt, if_neg (Int.not_lt.mpr nonneg), Bool.false_eq_true, if_false,
    List.length_append, List.length_nil, List.length_replicate]
  have same : value < (10 ^ count : Nat) ↔ value.natAbs < 10 ^ count := by
    rw [← Int.natAbs_of_nonneg nonneg]
    exact Int.ofNat_lt
  rw [same, ← digits]
  omega

/-- A number below a power of ten fills as many places. -/
theorem printInt_length {width : Nat} {value : Int} (pos : 0 < width) (nonneg : 0 ≤ value)
    (small : value < (10 ^ width : Nat)) : (printInt false width value).length = width := by
  refine Nat.le_antisymm ((printInt_length_le nonneg pos).mpr ⟨Nat.le_refl _, small⟩) ?_
  simp only [printInt, List.length_append, List.length_replicate]
  omega

/-- Behind a sign there is one place less for the digits. -/
theorem printInt_sign {plus : Bool} {value : Int} (signed : plus = true ∨ value < 0) (width : Nat) :
    printInt plus width value =
      (if value < 0 then '-' else '+') :: printInt false (width - 1) |value| := by
  have nonneg : ¬ |value| < 0 := Int.not_lt.mpr (abs_nonneg value)
  have count (digits : Nat) : width - (1 + digits) = width - 1 - digits := by omega
  simp only [printInt, if_neg nonneg, Int.natAbs_abs, Bool.false_eq_true, if_false]
  split_ifs <;> simp_all

/-- The digits of a number that is not negative. -/
theorem printInt_digits (width : Nat) {value : Int} (nonneg : 0 ≤ value) :
    (∀ character ∈ printInt false width value, character.isDigit = true) ∧
      Nat.ofDigitChars 10 (printInt false width value) 0 = value.toNat := by
  have zeros (count : Nat) (digits : List Char) :
      Nat.ofDigitChars 10 (List.replicate count '0' ++ digits) 0 =
        Nat.ofDigitChars 10 digits 0 := by
    induction count with
    | zero => rfl
    | succ count ih => exact ih
  simp only [printInt, if_neg (Int.not_lt.mpr nonneg), Bool.false_eq_true, if_false,
    List.nil_append, zeros, Nat.ofDigitChars_ten_toDigits]
  constructor
  · intro character member
    rcases List.mem_append.mp member with zero | digit
    · rw [List.eq_of_mem_replicate zero]
      rfl
    · exact Nat.isDigit_of_mem_toDigits (by decide) (by decide) digit
  · omega

/-! ## Reading a number back -/

/-- A printed number that is not negative. -/
theorem decimal_printInt (width : Nat) {value : Int} (nonneg : 0 ≤ value) :
    (decimal (printInt false width value) : Int) = value := by
  rw [decimal, ← Nat.ofDigitChars_eq_foldl, (printInt_digits width nonneg).2,
    Int.toNat_of_nonneg nonneg]

/-- `%d` reads a number that was printed. -/
theorem scanInt_printInt (width limit : Nat) (value : Int) (rest : List Char)
    (fits : (printInt false width value).length ≤ limit) (ends : EndsNumber rest) :
    scanInt limit (printInt false width value ++ rest) = some (value, rest) := by
  by_cases negative : value < 0
  · rw [printInt_sign (Or.inr negative), if_pos negative] at fits ⊢
    have characters := (printInt_digits (width - 1) (abs_nonneg value)).1
    obtain ⟨values, digits⟩ := exists_digitText characters
    have span : spanDigits (limit - 1) (digitText values ++ rest) = (digitText values, rest) :=
      spanDigits_digitText (by rw [← digitText_length, ← digits]; rw [List.length_cons] at fits; omega)
        (Or.inr ends)
    rw [← digits] at span
    have number := decimal_printInt (width - 1) (abs_nonneg value)
    have minus : skipSpace ('-' :: (printInt false (width - 1) |value| ++ rest)) =
        '-' :: (printInt false (width - 1) |value| ++ rest) := skipSpace_of_head (by decide)
    rw [List.cons_append, scanInt, minus, scanSign]
    dsimp only
    rw [span, if_neg (printInt_ne_nil _ _ _), if_pos rfl, number, abs_of_neg negative, Int.neg_neg]
  · have nonneg := Int.not_lt.mp negative
    rw [scanInt_digits (printInt_ne_nil _ _ _) (printInt_digits width nonneg).1 fits (Or.inr ends),
      decimal_printInt width nonneg]

/-! ## Printing piece by piece -/

/-- What printing has left, and the sum of the lengths it was told. -/
structure Printed where
  memory : List Char
  reach : Nat
  len : Nat
  deriving DecidableEq, Repr

namespace Printed

def put (printed : Printed) (index : Nat) (text : List Char) : Printed :=
  { printed with
    memory := printed.memory.take index ++ (text ++ printed.memory.drop (index + text.length))
    reach := max printed.reach (index + text.length) }

def strlen (printed : Printed) : Nat :=
  (printed.memory.takeWhile fun character => character ≠ '\x00').length

/-- `snprintf` at an index, with a bound on what it writes; the length of the text is added. -/
def snprintf (printed : Printed) (index size : Nat) (text : List Char) : Printed :=
  let written :=
    if size = 0 then printed else printed.put index (text.take (size - 1) ++ ['\x00'])
  { written with len := printed.len + text.length }

/-- The next piece: behind the text, with the size of a buffer less the lengths so far. -/
def append (buf_len : Int) (printed : Printed) (text : List Char) : Printed :=
  printed.snprintf printed.strlen (unsigned 8 (buf_len - printed.len)) text

/-- A text printed at the start of a memory. -/
def start (buf_len : Int) (memory text : List Char) : Printed :=
  (Printed.mk memory 0 0).snprintf 0 (unsigned 8 buf_len) text

/-- The pieces of a text, one behind the other. -/
def pieces (buf_len : Int) (memory first : List Char) (rest : List (List Char)) : Printed :=
  rest.foldl (append buf_len) (start buf_len memory first)

/-- Nothing behind the buffer is written, it holds the start of a text, and its length is known. -/
def Respects (printed : Printed) (size : Nat) (text : List Char) : Prop :=
  printed.reach ≤ size ∧
    (∃ shown, shown <+: text ∧ shown.length < size ∧ shown ++ ['\x00'] <+: printed.memory) ∧
    printed.len = text.length

/-- As much of a text as the buffer has room for. -/
structure Holds (printed : Printed) (size : Nat) (text : List Char) : Prop where
  reach : printed.reach ≤ size
  memory : text.take (size - 1) ++ ['\x00'] <+: printed.memory
  len : printed.len = text.length

theorem Holds.respects {printed : Printed} {size : Nat} {text : List Char}
    (holds : printed.Holds size text) (room : 0 < size) : printed.Respects size text := by
  refine ⟨holds.reach, ⟨text.take (size - 1), List.take_prefix _ _, ?_, holds.memory⟩, holds.len⟩
  have length := List.length_take_le (size - 1) text
  omega

theorem start_holds {size : Nat} (memory text : List Char) (room : 0 < size)
    (small : size < 2 ^ 64) : (start size memory text).Holds size text := by
  have same : unsigned 8 (size : Int) = size := unsigned_natCast (by norm_num; omega)
  have length := List.length_take_le (size - 1) text
  rw [start, snprintf, same, if_neg (by omega)]
  constructor
  · simp only [put, List.length_append, List.length_singleton]
    omega
  · simp only [put, List.take_zero, List.nil_append]
    exact List.prefix_append _ _
  · simp

/-- The end of the text in a buffer, wherever it was cut. -/
theorem Holds.strlen {printed : Printed} {size : Nat} {text : List Char}
    (holds : printed.Holds size text) (plain : '\x00' ∉ text) :
    printed.strlen = min (size - 1) text.length := by
  obtain ⟨rest, same⟩ := holds.memory
  have inText : ∀ character ∈ text.take (size - 1), character ≠ '\x00' := by
    rintro character member rfl
    exact plain (List.mem_of_mem_take member)
  rw [Printed.strlen, ← same, List.append_assoc, List.takeWhile_append_of_pos]
  · simp
  · intro character member
    simpa using inText character member

/-- A piece behind a text that the buffer has room for, its end aside. -/
theorem Holds.append {printed : Printed} {size : Nat} {text : List Char}
    (holds : printed.Holds size text) (plain : '\x00' ∉ text) (room : 0 < size)
    (small : size < 2 ^ 64) (fits : text.length ≤ size) (piece : List Char) :
    (append size printed piece).Holds size (text ++ piece) := by
  have left : unsigned 8 ((size : Int) - printed.len) = size - text.length := by
    rw [holds.len, ← Int.ofNat_sub fits]
    exact unsigned_natCast (by norm_num; omega)
  rw [Printed.append, left, snprintf]
  by_cases full : text.length = size
  · have same : (text ++ piece).take (size - 1) = text.take (size - 1) :=
      List.take_append_of_le_length (by omega)
    rw [if_pos (by omega)]
    exact ⟨holds.reach, same ▸ holds.memory, by simp [holds.len]⟩
  · have whole : text.take (size - 1) = text := List.take_of_length_le (by omega)
    have length := List.length_take_le (size - text.length - 1) piece
    obtain ⟨rest, same⟩ := holds.memory
    rw [if_neg (by omega), holds.strlen plain, Nat.min_eq_right (by omega)]
    rw [whole, List.append_assoc] at same
    constructor
    · have reach := holds.reach
      simp only [put, List.length_append, List.length_singleton]
      omega
    · have cut : (text ++ piece).take (size - 1) =
          text ++ piece.take (size - text.length - 1) := by
        rw [List.take_append, List.take_of_length_le (by omega), Nat.sub_right_comm]
      have front : printed.memory.take text.length = text := by
        rw [← same, List.take_left]
      simp only [put, front, cut, List.append_assoc]
      exact (List.prefix_append_right_inj _).mpr
        ((List.prefix_append_right_inj _).mpr (List.prefix_append _ _))
    · simp [holds.len]

/-- A piece behind a text that was cut runs over the end of the buffer. -/
theorem Holds.append_over {printed : Printed} {size : Nat} {text : List Char}
    (holds : printed.Holds size text) (plain : '\x00' ∉ text) (room : 0 < size)
    (long : size < text.length) (small : text.length < 2 ^ 63) {piece : List Char}
    (some_character : piece ≠ []) : size < (Printed.append size printed piece).reach := by
  have left : unsigned 8 ((size : Int) - printed.len) = 2 ^ 64 - (text.length - size) := by
    have power : (256 ^ 8 : Nat) = 2 ^ 64 := by norm_num
    rw [holds.len, unsigned, power]
    omega
  have length := List.length_pos_iff.mpr some_character
  rw [Printed.append, left, snprintf, if_neg (by omega), holds.strlen plain]
  simp only [put, List.length_append, List.length_take, List.length_singleton]
  omega

/-- Printing on does not take back what was written. -/
theorem reach_append (buf_len : Int) (printed : Printed) (piece : List Char) :
    printed.reach ≤ (append buf_len printed piece).reach := by
  rw [append, snprintf]
  split
  · exact Nat.le_refl _
  · exact Nat.le_max_left _ _

theorem reach_foldl (buf_len : Int) (printed : Printed) (rest : List (List Char)) :
    printed.reach ≤ (rest.foldl (append buf_len) printed).reach := by
  induction rest generalizing printed with
  | nil => exact Nat.le_refl _
  | cons piece rest ih => exact (reach_append buf_len printed piece).trans (ih _)

/-- The pieces behind a text stay in the buffer when it has room for all but the last one. -/
theorem Holds.foldl {printed : Printed} {size : Nat} {text : List Char}
    (holds : printed.Holds size text) (plain : '\x00' ∉ text) (room : 0 < size)
    {rest : List (List Char)} (characters : ∀ piece ∈ rest, piece ≠ [] ∧ '\x00' ∉ piece)
    (small : size < 2 ^ 63) (short : (text ++ rest.dropLast.flatten).length < 2 ^ 63) :
    let printed := rest.foldl (Printed.append size) printed
    if rest = [] ∨ (text ++ rest.dropLast.flatten).length ≤ size then
      printed.Holds size (text ++ rest.flatten)
    else size < printed.reach := by
  induction rest generalizing printed text with
  | nil => simpa using holds
  | cons piece rest ih =>
      obtain ⟨some_character, plainPiece⟩ := characters piece List.mem_cons_self
      have plain' : '\x00' ∉ text ++ piece := by simp [plain, plainPiece]
      by_cases fits : text.length ≤ size
      · have next := ih (holds.append plain room (by omega) fits piece) plain'
          (fun later member => characters later (List.mem_cons_of_mem _ member))
        cases rest with
        | nil => simpa [fits] using holds.append plain room (by omega) fits piece
        | cons second rest => simpa using next (by simpa using short)
      · have long := holds.append_over plain room (by omega)
          (by rw [List.length_append] at short; omega) some_character
        have later := reach_foldl size (Printed.append size printed piece) rest
        rw [if_neg]
        · exact Nat.lt_of_lt_of_le long later
        · rw [List.length_append]
          simp only [reduceCtorEq, false_or]
          omega

/-- Printing in pieces respects a buffer exactly when it has room for all but the last piece. -/
theorem pieces_respects_iff {size : Nat} (memory : List Char) {first : List Char}
    {rest : List (List Char)} (plain : '\x00' ∉ first) (room : 0 < size)
    (characters : ∀ piece ∈ rest, piece ≠ [] ∧ '\x00' ∉ piece) (small : size < 2 ^ 63)
    (short : (first ++ rest.dropLast.flatten).length < 2 ^ 63) :
    (pieces size memory first rest).Respects size (first ++ rest.flatten) ↔
      rest = [] ∨ (first ++ rest.dropLast.flatten).length ≤ size := by
  have result := (start_holds memory first room (by omega)).foldl plain room characters small short
  constructor
  · intro respects
    by_contra missing
    rw [if_neg missing] at result
    exact absurd respects.1 (Nat.not_le.mpr result)
  · intro fits
    rw [if_pos fits] at result
    exact result.respects room

/-- A buffer with room for all of the text and its end holds the text. -/
theorem pieces_text {size : Nat} (memory : List Char) {first : List Char}
    {rest : List (List Char)} (plain : '\x00' ∉ first)
    (characters : ∀ piece ∈ rest, piece ≠ [] ∧ '\x00' ∉ piece) (small : size < 2 ^ 63)
    (fits : (first ++ rest.flatten).length < size) :
    (pieces size memory first rest).memory.takeWhile (fun character => character ≠ '\x00') =
      first ++ rest.flatten := by
  have shorter : rest.dropLast.flatten.length ≤ rest.flatten.length := by
    obtain ⟨last, whole⟩ := List.dropLast_prefix rest
    conv_rhs => rw [← whole, List.flatten_append, List.length_append]
    exact Nat.le_add_right _ _
  rw [List.length_append] at fits
  have result := (start_holds memory first (by omega) (by omega)).foldl plain (by omega)
    characters small (by rw [List.length_append]; omega)
  rw [if_pos (by rw [List.length_append]; omega)] at result
  obtain ⟨after, same⟩ := result.memory
  rw [List.take_of_length_le (by rw [List.length_append]; omega), List.append_assoc] at same
  rw [pieces, ← same, List.takeWhile_append_of_pos]
  · simp
  · intro character member
    rw [decide_eq_true_eq]
    rintro rfl
    rcases List.mem_append.mp member with inFirst | later
    · exact plain inFirst
    · obtain ⟨piece, inRest, inPiece⟩ := List.mem_flatten.mp later
      exact (characters piece inRest).2 inPiece

end Printed

end RedshiftOdbc.Printf
