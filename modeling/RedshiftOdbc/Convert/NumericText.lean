import RedshiftOdbc.Convert.ScaledInteger
import RedshiftOdbc.Library.Decimal
import RedshiftOdbc.Library.Double
import Mathlib.Data.Nat.ModEq

/-!
# A scaled integer as numeric text

`convertScaledIntegerToNumericString` writes the text of a `SQL_NUMERIC_STRUCT`.
Up to a precision of eighteen it divides doubles and prints the quotient; from
nineteen on it turns the bytes into decimal places in a buffer of its own, where
every byte multiplies what is there by 256 and carries are settled at once.
-/

namespace RedshiftOdbc.Convert

open RedshiftOdbc.Decimal RedshiftOdbc.Double RedshiftOdbc.Words

/-- A `double`: a sign and a magnitude. -/
structure DoubleValue where
  negative : Bool
  magnitude : ℚ
  deriving DecidableEq, Repr

/-- `"%.*f"` for a number of digits after the point. -/
def printFixed (scale : Nat) (value : DoubleValue) : List Char :=
  (if value.negative then ['-'] else []) ++
    fixedText scale (nearestEven (value.magnitude * 10 ^ scale)).toNat

/-- What `snprintf` writes into a buffer of a length. -/
def snprintf (num_data_len : Nat) (text : List Char) : List Char :=
  if num_data_len = 0 then [] else text.take (num_data_len - 1) ++ ['\x00']

/-- The loop over the halves of the bytes; both numbers are `unsigned long long`. -/
def addNibbles : List UInt8 → Nat → Nat → Nat
  | [], value, _ => value
  | current :: rest, value, last =>
      let a := current.toNat % 16
      let b := current.toNat / 16
      let lower := (value + last * a) % 2 ^ 64
      let middle := last * 16 % 2 ^ 64
      addNibbles rest ((lower + middle * b) % 2 ^ 64) (middle * 16 % 2 ^ 64)

def finalVal (pnVal : SqlNumericStruct) : DoubleValue where
  negative := pnVal.sign = 0
  magnitude :=
    let divisor : Int := wrap 8 (10 ^ pnVal.scale.toNat)
    round53 (round53 (addNibbles pnVal.val 0 1) / round53 divisor)

def shortString (pnVal : SqlNumericStruct) (num_data_len : Nat) : Option (List Char) :=
  if 0 ≤ pnVal.scale then
    some (snprintf num_data_len (printFixed pnVal.scale.toNat (finalVal pnVal)))
  else
    -- The zeros go behind the text whether or not it was cut.
    let text := printFixed 0 (finalVal pnVal)
    if text.length < num_data_len then
      some (text ++ List.replicate (-pnVal.scale).toNat '0' ++ ['\x00'])
    else none

/-- `pTempBuf`, the lowest place first, and `len`. -/
structure TempBuf where
  places : Nat → Nat
  len : Nat

/-- `while(pTempBuf[k] > 9)`. -/
def carryTens (low high : Nat) : Nat × Nat :=
  if 9 < low then carryTens (low - 10) (high + 1) else (low, high)

/--
The loop that settles the places from `k` on, at least up to `last`; `room` places
of the buffer are left, and beyond them there is no result.
-/
def carryLoop (last : Nat) : Nat → Nat → TempBuf → Option TempBuf
  | 0, _, _ => none
  | room + 1, k, buf =>
      let settled := carryTens (buf.places k) (buf.places (k + 1))
      let next : TempBuf :=
        if 0 < buf.places k then
          { places := Function.update (Function.update buf.places (k + 1) settled.2) k settled.1
            len := if buf.len ≤ k then k + 1 else buf.len }
        else buf
      if last ≤ k ∧ buf.places k ≤ 9 then some next else carryLoop last room (k + 1) next

/-- One place times 256. -/
def multiplyPlace (j : Nat) (buf : TempBuf) : Option TempBuf :=
  if buf.places j = 0 then some buf
  else
    let ival := buf.places j * 2 ^ 8
    let first := Function.update buf.places j (ival % 10)
    let second := Function.update first (j + 1) (first (j + 1) + ival / 10 % 10)
    let third := Function.update second (j + 2) (second (j + 2) + ival / 100 % 10)
    carryLoop (j + 3) (padbMaxNumBufLen - j) j
      { buf with places := Function.update third (j + 3) (third (j + 3) + ival / 1000) }

/-- The places below `j` times 256, from the highest one down. -/
def multiplyPlaces : Nat → TempBuf → Option TempBuf
  | 0, buf => some buf
  | j + 1, buf => (multiplyPlace j buf).bind (multiplyPlaces j)

def addByte (ival : Nat) (buf : TempBuf) : Option TempBuf :=
  if ival = 0 then some buf
  else
    let first := Function.update buf.places 0 (buf.places 0 + ival % 10)
    let second := Function.update first 1 (first 1 + ival / 10 % 10)
    carryLoop 2 padbMaxNumBufLen 0
      { buf with places := Function.update second 2 (second 2 + ival / 100) }

/-- The bytes below `i`, from the most significant one down. -/
def expandBytes (val : List UInt8) : Nat → TempBuf → Option TempBuf
  | 0, buf => some buf
  | i + 1, buf =>
      ((multiplyPlaces buf.len buf).bind (addByte (val.getD i 0).toNat)).bind (expandBytes val i)

def prec2ScaledIntegerLen : List Nat :=
  [1, 3, 5, 8, 10, 13, 15, 17, 20, 22, 25, 27, 29, 32, 34, 37, 39]

/-- `iScaledIntegerLen`. -/
def scaledIntegerLen (precision : Nat) : Nat :=
  ((prec2ScaledIntegerLen.take sqlMaxNumericLen).takeWhile fun digits => digits ≤ precision).length

/-- The `count` places from `low` on, the highest one first. -/
def outputPlaces (places : Nat → Nat) (low : Nat) : Nat → List Char
  | 0 => []
  | count + 1 =>
      Char.ofNat (places (low + count) + '0'.toNat) :: outputPlaces places low count

/-- The output of the branch for a precision from nineteen on. -/
def longOutput (pnVal : SqlNumericStruct) (buf : TempBuf) : List Char :=
  let scale := pnVal.scale.toNat
  (if pnVal.sign = 0 then ['-'] else []) ++
    outputPlaces buf.places scale (max (buf.len - 1) scale + 1 - scale) ++
    (if 0 < pnVal.scale then '.' :: outputPlaces buf.places 0 scale else []) ++
    (if buf.len = 0 then ['0'] else [])

/-- The branch for a precision from nineteen on; it does not look at the length of the buffer. -/
def longString (pnVal : SqlNumericStruct) : Option (List Char) :=
  (expandBytes pnVal.val (scaledIntegerLen pnVal.precision) ⟨fun _ => 0, 0⟩).map fun buf =>
    longOutput pnVal buf ++ ['\x00']

/--
`convertScaledIntegerToNumericString`: what is written from the start of
`pNumData` on.
-/
def convertScaledIntegerToNumericString (pnVal : SqlNumericStruct) (num_data_len : Nat) :
    Option (List Char) :=
  if pnVal.precision < 19 then shortString pnVal num_data_len else longString pnVal

/-! ## Settling the places -/

namespace TempBuf

def total (buf : TempBuf) : Nat := sumPlaces buf.places padbMaxNumBufLen

/-- A place is a digit, and zero when it is not among the first `len`. -/
def Normal (buf : TempBuf) (place : Nat) : Prop :=
  buf.places place ≤ 9 ∧ (buf.len ≤ place → buf.places place = 0)

/-- The number has `len` digits at least. -/
def Reached (buf : TempBuf) : Prop := buf.len = 0 ∨ 10 ^ (buf.len - 1) ≤ buf.total

structure Digits (buf : TempBuf) : Prop where
  normal : ∀ place, buf.Normal place
  reached : buf.Reached

end TempBuf

theorem carryTens_eq (low high : Nat) : carryTens low high = (low % 10, high + low / 10) := by
  induction low using Nat.strong_induction_on generalizing high with
  | _ low ih =>
      rw [carryTens]
      split
      · next more =>
          rw [ih (low - 10) (by omega)]
          refine Prod.ext ?_ ?_ <;> dsimp only <;> omega
      · refine Prod.ext ?_ ?_ <;> dsimp only <;> omega

def settle (buf : TempBuf) (k : Nat) : TempBuf :=
  if 0 < buf.places k then
    { places := Function.update
        (Function.update buf.places (k + 1) (buf.places (k + 1) + buf.places k / 10)) k
        (buf.places k % 10)
      len := if buf.len ≤ k then k + 1 else buf.len }
  else buf

theorem carryLoop_succ (last room k : Nat) (buf : TempBuf) :
    carryLoop last (room + 1) k buf =
      if last ≤ k ∧ buf.places k ≤ 9 then some (settle buf k)
      else carryLoop last room (k + 1) (settle buf k) := by
  rw [carryLoop, carryTens_eq]
  rfl

namespace TempBuf

variable {buf : TempBuf} {k : Nat}

theorem settle_total (buf : TempBuf) (inside : k + 1 < padbMaxNumBufLen) :
    (settle buf k).total = buf.total := by
  rw [settle]
  split
  · rw [total, total]
    have outer := sumPlaces_update
      (Function.update buf.places (k + 1) (buf.places (k + 1) + buf.places k / 10))
      (show k < padbMaxNumBufLen by omega) (buf.places k % 10)
    have inner := sumPlaces_update buf.places inside (buf.places (k + 1) + buf.places k / 10)
    rw [Function.update_of_ne (by omega)] at outer
    have parts : buf.places k * 10 ^ k =
        buf.places k % 10 * 10 ^ k + buf.places k / 10 * 10 ^ (k + 1) := by
      rw [Nat.pow_succ', ← Nat.mul_assoc, ← Nat.add_mul, Nat.mul_comm (_ / 10), Nat.mod_add_div]
    rw [Nat.add_mul] at inner
    dsimp only
    omega
  · rfl

/-- Settling a place changes this place and the next. -/
theorem settle_places {place : Nat} (here : place ≠ k) (next : place ≠ k + 1) :
    (settle buf k).places place = buf.places place := by
  rw [settle]
  split
  · dsimp only
    rw [Function.update_of_ne here, Function.update_of_ne next]
  · rfl

theorem settle_next : (settle buf k).places (k + 1) = buf.places (k + 1) + buf.places k / 10 := by
  rw [settle]
  split
  · dsimp only
    rw [Function.update_of_ne (by omega), Function.update_self]
  · omega

theorem settle_len_le : buf.len ≤ (settle buf k).len := by
  rw [settle]
  split
  · dsimp only
    split <;> omega
  · exact le_refl _

theorem settle_here : (settle buf k).Normal k := by
  rw [settle, Normal]
  split
  · dsimp only
    rw [Function.update_self]
    refine ⟨by omega, fun above => ?_⟩
    split at above <;> omega
  · omega

/-- A normal place that settling does not touch stays normal. -/
theorem Normal.settle {place : Nat} (normal : buf.Normal place) (here : place ≠ k)
    (next : place = k + 1 → buf.places k ≤ 9) : (settle buf k).Normal place := by
  have same : (Convert.settle buf k).places place = buf.places place := by
    by_cases at_next : place = k + 1
    · have small := next at_next
      rw [at_next, settle_next]
      omega
    · exact settle_places here at_next
  have longer : buf.len ≤ (Convert.settle buf k).len := settle_len_le
  rw [Normal, same]
  exact ⟨normal.1, fun above => normal.2 (by omega)⟩

theorem Reached.settle (reached : buf.Reached) (inside : k + 1 < padbMaxNumBufLen) :
    (settle buf k).Reached := by
  have keep := settle_total buf inside
  have place := le_sumPlaces buf.places (show k < padbMaxNumBufLen by omega)
  rw [Reached, keep]
  rw [Reached] at reached
  rw [Convert.settle]
  split
  · next some =>
      dsimp only
      split
      · refine Or.inr ?_
        rw [Nat.add_sub_cancel]
        exact Nat.le_trans (Nat.le_mul_of_pos_left _ some) place
      · exact reached
  · exact reached

end TempBuf

/--
The carry loop ends inside the buffer and leaves digits, when only the places from
`k` on up to `last` may be more than that.
-/
theorem carryLoop_spec (last k : Nat) (buf : TempBuf) {room : Nat}
    (at_place : k + room = padbMaxNumBufLen)
    (low : last ≤ 38) (early : k ≤ last ∨ k ≤ 38)
    (others : ∀ place, place < k ∨ max k last < place → buf.Normal place)
    (reached : buf.Reached) (bound : buf.total < 10 ^ 38) :
    ∃ out, carryLoop last room k buf = some out ∧ out.total = buf.total ∧ out.Digits ∧
      ∀ place < k, out.places place = buf.places place := by
  induction room generalizing k buf with
  | zero =>
      rw [padbMaxNumBufLen] at at_place
      omega
  | succ room ih =>
      have inside : k + 1 < padbMaxNumBufLen := by
        rw [padbMaxNumBufLen]
        omega
      have keep := TempBuf.settle_total buf inside
      rw [carryLoop_succ]
      split
      · next stop =>
          refine ⟨settle buf k, rfl, keep, ⟨?_, reached.settle inside⟩, ?_⟩
          · intro place
            by_cases here : place = k
            · rw [here]
              exact TempBuf.settle_here
            · exact (others place (by omega)).settle here fun _ => stop.2
          · intro place below
            exact TempBuf.settle_places (by omega) (by omega)
      · next goes =>
          have next : k + 1 ≤ last ∨ k + 1 ≤ 38 := by
            by_cases more : k < last
            · exact Or.inl more
            · have carry : 10 ≤ buf.places k := by omega
              have place := le_sumPlaces buf.places (show k < padbMaxNumBufLen by omega)
              have large := Nat.mul_le_mul_right (10 ^ k) carry
              have power : 10 ^ (k + 1) < 10 ^ 38 := by
                rw [Nat.pow_succ']
                exact Nat.lt_of_le_of_lt (Nat.le_trans large place) bound
              have less := (Nat.pow_lt_pow_iff_right (by decide : 1 < 10)).mp power
              exact Or.inr (by omega)
          have rest : ∀ place, place < k + 1 ∨ max (k + 1) last < place →
              (settle buf k).Normal place := by
            intro place where_
            by_cases here : place = k
            · rw [here]
              exact TempBuf.settle_here
            · exact (others place (by omega)).settle here fun at_next => by omega
          obtain ⟨out, run, total, digits, same⟩ := ih (k + 1) (settle buf k)
            (by omega) next rest (reached.settle inside) (by omega)
          refine ⟨out, run, total.trans keep, digits, ?_⟩
          intro place below
          rw [same place (by omega), TempBuf.settle_places (by omega) (by omega)]

/-! ## Bytes to places -/

/-- What adding to a place changes. -/
theorem sumPlaces_add (places : Nat → Nat) {place : Nat} (inside : place < padbMaxNumBufLen)
    (more : Nat) :
    sumPlaces (Function.update places place (places place + more)) padbMaxNumBufLen =
      sumPlaces places padbMaxNumBufLen + more * 10 ^ place := by
  have update := sumPlaces_update places inside (places place + more)
  rw [Nat.add_mul] at update
  omega

/-- A number of four digits spread over the places from `j` on. -/
theorem spread_four (ival j : Nat) :
    ival % 10 * 10 ^ j + ival / 10 % 10 * 10 ^ (j + 1) + ival / 100 % 10 * 10 ^ (j + 2) +
        ival / 1000 * 10 ^ (j + 3) = ival * 10 ^ j := by
  have digits : ival % 10 + ival / 10 % 10 * 10 + ival / 100 % 10 * 100 + ival / 1000 * 1000 =
      ival := by omega
  calc ival % 10 * 10 ^ j + ival / 10 % 10 * 10 ^ (j + 1) + ival / 100 % 10 * 10 ^ (j + 2) +
        ival / 1000 * 10 ^ (j + 3)
      = (ival % 10 + ival / 10 % 10 * 10 + ival / 100 % 10 * 100 + ival / 1000 * 1000) *
          10 ^ j := by ring
    _ = ival * 10 ^ j := by rw [digits]

theorem TempBuf.Digits.total_lt {buf : TempBuf} (digits : buf.Digits) {power : Nat}
    (bound : buf.total < 10 ^ power) : buf.len ≤ power := by
  rcases digits.reached with none | some
  · omega
  · have less := (Nat.pow_lt_pow_iff_right (by decide : 1 < 10)).mp
      (Nat.lt_of_le_of_lt some bound)
    omega

/-- One place times 256. -/
theorem multiplyPlace_spec {j : Nat} {buf : TempBuf} (digits : buf.Digits) (low : j < 36)
    (bound : buf.total + 255 * (buf.places j * 10 ^ j) < 10 ^ 38) :
    ∃ out, multiplyPlace j buf = some out ∧
      out.total = buf.total + 255 * (buf.places j * 10 ^ j) ∧ out.Digits ∧
      ∀ place < j, out.places place = buf.places place := by
  rw [multiplyPlace]
  split
  · next zero => exact ⟨buf, rfl, by rw [zero]; omega, digits, fun _ _ => rfl⟩
  · dsimp only
    generalize spread : Function.update _ (j + 3) _ = places
    have unchanged : ∀ place, place < j ∨ j + 3 < place → places place = buf.places place := by
      intro place outside
      rw [← spread]
      iterate 4 rw [Function.update_of_ne (by omega)]
    have total : sumPlaces places padbMaxNumBufLen =
        buf.total + 255 * (buf.places j * 10 ^ j) := by
      have here := sumPlaces_update buf.places (show j < padbMaxNumBufLen by
        rw [padbMaxNumBufLen]; omega) (buf.places j * 2 ^ 8 % 10)
      have four := spread_four (buf.places j * 2 ^ 8) j
      rw [← spread, sumPlaces_add _ (by rw [padbMaxNumBufLen]; omega),
        sumPlaces_add _ (by rw [padbMaxNumBufLen]; omega),
        sumPlaces_add _ (by rw [padbMaxNumBufLen]; omega), TempBuf.total]
      have scaled : buf.places j * 2 ^ 8 * 10 ^ j = 256 * (buf.places j * 10 ^ j) := by ring
      rw [scaled] at four
      generalize buf.places j * 2 ^ 8 % 10 * 10 ^ j = ones at here four
      linarith only [here, four]
    have others : ∀ place, place < j ∨ max j (j + 3) < place →
        TempBuf.Normal { buf with places := places } place := by
      intro place outside
      rw [TempBuf.Normal]
      dsimp only
      rw [unchanged place (by omega)]
      exact digits.normal place
    have reached : TempBuf.Reached { buf with places := places } := by
      have before := digits.reached
      rw [TempBuf.Reached] at before ⊢
      rw [TempBuf.total]
      dsimp only
      rw [total]
      omega
    obtain ⟨out, run, keep, settled, same⟩ := carryLoop_spec
      (j + 3) j { buf with places := places }
      (show j + (padbMaxNumBufLen - j) = padbMaxNumBufLen by rw [padbMaxNumBufLen]; omega)
      (by omega) (by omega) others reached (by rw [TempBuf.total, total]; exact bound)
    refine ⟨out, run, keep.trans total, settled, ?_⟩
    intro place below
    rw [same place below]
    exact unchanged place (by omega)

/-- The places below `j` times 256, by induction on `j`: what is above is done already. -/
theorem multiplyPlaces_spec {j : Nat} {buf : TempBuf} (digits : buf.Digits) (low : j ≤ 36)
    (bound : buf.total + 255 * sumPlaces buf.places j < 10 ^ 38) :
    ∃ out, multiplyPlaces j buf = some out ∧
      out.total = buf.total + 255 * sumPlaces buf.places j ∧ out.Digits := by
  induction j generalizing buf with
  | zero =>
      rw [sumPlaces, Nat.mul_zero, Nat.add_zero]
      exact ⟨buf, rfl, rfl, digits⟩
  | succ j ih =>
      rw [sumPlaces] at bound ⊢
      rw [Nat.mul_add, Nat.add_comm (255 * _), ← Nat.add_assoc] at bound ⊢
      obtain ⟨middle, run, total, settled, same⟩ := multiplyPlace_spec digits
        (show j < 36 by omega) (Nat.lt_of_le_of_lt (Nat.le_add_right _ _) bound)
      have rest : sumPlaces middle.places j = sumPlaces buf.places j := sumPlaces_congr same
      rw [← total, ← rest] at bound ⊢
      obtain ⟨out, more, final, done⟩ := ih settled (by omega) bound
      refine ⟨out, ?_, final, done⟩
      rw [multiplyPlaces, run]
      exact more

/-- The whole buffer times 256. -/
theorem multiply_spec {buf : TempBuf} (digits : buf.Digits) (bound : 256 * buf.total < 10 ^ 38) :
    ∃ out, multiplyPlaces buf.len buf = some out ∧ out.total = 256 * buf.total ∧
      out.Digits := by
  have short : buf.len ≤ 36 := digits.total_lt (by omega)
  have all : buf.total = sumPlaces buf.places buf.len :=
    sumPlaces_zeros (by rw [padbMaxNumBufLen]; omega) fun place => (digits.normal place).2
  obtain ⟨out, run, total, settled⟩ := multiplyPlaces_spec digits short (by omega)
  exact ⟨out, run, by omega, settled⟩

/-- A byte on top. -/
theorem addByte_spec (ival : Nat) {buf : TempBuf} (digits : buf.Digits)
    (bound : buf.total + ival < 10 ^ 38) :
    ∃ out, addByte ival buf = some out ∧ out.total = buf.total + ival ∧ out.Digits := by
  rw [addByte]
  split
  · next zero => exact ⟨buf, rfl, by omega, digits⟩
  · dsimp only
    generalize spread : Function.update _ 2 _ = places
    have total : sumPlaces places padbMaxNumBufLen = buf.total + ival := by
      rw [← spread, sumPlaces_add _ (by decide), sumPlaces_add _ (by decide),
        sumPlaces_add _ (by decide), TempBuf.total]
      omega
    have others : ∀ place, place < 0 ∨ max 0 2 < place →
        TempBuf.Normal { buf with places := places } place := by
      intro place outside
      have unchanged : places place = buf.places place := by
        rw [← spread]
        iterate 3 rw [Function.update_of_ne (by omega)]
      rw [TempBuf.Normal]
      dsimp only
      rw [unchanged]
      exact digits.normal place
    have reached : TempBuf.Reached { buf with places := places } := by
      have before := digits.reached
      rw [TempBuf.Reached] at before ⊢
      rw [TempBuf.total]
      dsimp only
      rw [total]
      omega
    obtain ⟨out, run, keep, settled, -⟩ := carryLoop_spec
      2 0 { buf with places := places } (Nat.zero_add padbMaxNumBufLen) (by decide)
      (by decide) others reached
      (by rw [TempBuf.total, total]; exact bound)
    exact ⟨out, run, keep.trans total, settled⟩

/-- The bytes below `i`, by induction on `i`. -/
theorem expandBytes_spec (val : List UInt8) (i : Nat) {buf : TempBuf} (digits : buf.Digits)
    (bound : buf.total * 256 ^ i + ofLittle (val.take i) < 10 ^ 38) :
    ∃ out, expandBytes val i buf = some out ∧
      out.total = buf.total * 256 ^ i + ofLittle (val.take i) ∧ out.Digits := by
  induction i generalizing buf with
  | zero => exact ⟨buf, rfl, by simp [ofLittle], digits⟩
  | succ i ih =>
      have last := ofLittle_take_succ val i
      have power : buf.total * 256 ^ (i + 1) = 256 * buf.total * 256 ^ i := by ring
      have one := Nat.one_le_pow i 256 (by decide)
      rw [last, power] at bound ⊢
      have product := Nat.le_mul_of_pos_right (256 * buf.total + (val.getD i 0).toNat) one
      rw [Nat.add_mul] at product
      obtain ⟨multiplied, times, large, settled⟩ := multiply_spec digits (by omega)
      obtain ⟨added, plus, sum, done⟩ :=
        addByte_spec (val.getD i 0).toNat settled (by omega)
      have next : added.total * 256 ^ i + ofLittle (val.take i) =
          256 * buf.total * 256 ^ i +
            (ofLittle (val.take i) + (val.getD i 0).toNat * 256 ^ i) := by
        rw [sum, large, Nat.add_mul]
        omega
      obtain ⟨out, run, total, final⟩ := ih done (by omega)
      refine ⟨out, ?_, by omega, final⟩
      rw [expandBytes, times, Option.bind_some, plus, Option.bind_some, run]

/-! ## The texts -/

namespace SqlNumericStruct

variable (pnVal : SqlNumericStruct)

def magnitude : Nat := ofLittle pnVal.val

/-- The text of the number, with a sign when it is negative. -/
def canonicalText : List Char :=
  (if pnVal.sign = 0 ∧ pnVal.magnitude ≠ 0 then ['-'] else []) ++
    fixedText pnVal.scale.toNat pnVal.magnitude

/-- What a number in an application's structure is. -/
structure Valid : Prop where
  some_digit : 1 ≤ pnVal.precision
  few : pnVal.precision ≤ 38
  scale : 0 ≤ pnVal.scale
  scale_le : pnVal.scale ≤ pnVal.precision
  val : pnVal.val.length = sqlMaxNumericLen
  fits : pnVal.magnitude < 10 ^ pnVal.precision

end SqlNumericStruct

theorem digitChar_ofNat {digit : Nat} (small : digit ≤ 9) :
    Char.ofNat (digit + '0'.toNat) = Nat.digitChar digit := by
  have table : ∀ digit < 10, Char.ofNat (digit + '0'.toNat) = Nat.digitChar digit := by decide
  exact table digit (by omega)

/-- Places that are digits are put out as such. -/
theorem outputPlaces_eq {places : Nat → Nat} (number : Nat) {low count : Nat}
    (digits : ∀ place < count, places (low + place) = number / 10 ^ place % 10) :
    outputPlaces places low count = lastDigits count number := by
  induction count with
  | zero => rfl
  | succ count ih =>
      rw [outputPlaces, lastDigits_succ, ih fun place below => digits place (by omega),
        digits count (by omega), digitChar_ofNat (by omega)]

/-- The bytes that the precision asks for hold every number of so many digits. -/
theorem scaledIntegerLen_enough {precision : Nat} (many : 19 ≤ precision) (few : precision ≤ 38) :
    10 ^ precision ≤ 256 ^ scaledIntegerLen precision := by
  have table : ∀ precision < 39, 19 ≤ precision →
      10 ^ precision ≤ 256 ^ scaledIntegerLen precision := by decide
  exact table precision (by omega) many

/-- The digits of a buffer, with the point in them. -/
theorem outputPlaces_fixedText {buf : TempBuf} (digits : buf.Digits) (scale : Nat)
    (low : scale ≤ 38) (bound : buf.total < 10 ^ 38) :
    outputPlaces buf.places scale (max (buf.len - 1) scale + 1 - scale) ++
        (if 0 < scale then '.' :: outputPlaces buf.places 0 scale else []) =
      fixedText scale buf.total := by
  have len : buf.len ≤ 38 := digits.total_lt bound
  have digit : ∀ place < padbMaxNumBufLen, buf.places place = buf.total / 10 ^ place % 10 := by
    intro place inside
    exact digit_eq (fun place => (digits.normal place).1) inside
  have after : outputPlaces buf.places 0 scale = lastDigits scale buf.total := by
    refine outputPlaces_eq buf.total ?_
    intro place below
    rw [Nat.zero_add]
    exact digit place (by rw [padbMaxNumBufLen]; omega)
  have before : outputPlaces buf.places scale (max (buf.len - 1) scale + 1 - scale) =
      Nat.toDigits 10 (buf.total / 10 ^ scale) := by
    have upper : buf.total < 10 ^ (max (buf.len - 1) scale + 1) := by
      have all : buf.total = sumPlaces buf.places (max (buf.len - 1) scale + 1) := by
        refine sumPlaces_zeros (by rw [padbMaxNumBufLen]; omega) ?_
        intro place above
        exact (digits.normal place).2 (by omega)
      rw [all]
      exact sumPlaces_lt (fun place => (digits.normal place).1) _
    rw [outputPlaces_eq (buf.total / 10 ^ scale)]
    · refine lastDigits_eq_toDigits (by omega) ?_ ?_
      · rw [Nat.div_lt_iff_lt_mul (Nat.pow_pos (by decide)), ← Nat.pow_add,
          Nat.sub_add_cancel (by omega)]
        exact upper
      · by_cases long : scale < buf.len - 1
        · refine Or.inr ?_
          rw [Nat.le_div_iff_mul_le (Nat.pow_pos (by decide)), ← Nat.pow_add]
          rcases digits.reached with none | some
          · omega
          · rwa [show max (buf.len - 1) scale + 1 - scale - 1 + scale = buf.len - 1 by omega]
        · exact Or.inl (by omega)
    · intro place below
      rw [digit (scale + place) (by rw [padbMaxNumBufLen]; omega), Nat.div_div_eq_div_mul,
        Nat.pow_add]
  rw [before, after, fixedText]
  by_cases whole : scale = 0
  · rw [if_pos whole, if_neg (by omega)]
  · rw [if_neg whole, if_pos (by omega)]

/-- What the branch for a precision from nineteen on writes. -/
theorem longString_eq {pnVal : SqlNumericStruct} (valid : pnVal.Valid)
    (many : 19 ≤ pnVal.precision) :
    longString pnVal = some ((if pnVal.sign = 0 then ['-'] else []) ++
      fixedText pnVal.scale.toNat pnVal.magnitude ++
      (if pnVal.magnitude = 0 then ['0'] else []) ++ ['\x00']) := by
  have start : TempBuf.Digits ⟨fun _ => 0, 0⟩ := ⟨fun _ => ⟨Nat.zero_le _, fun _ => rfl⟩, Or.inl rfl⟩
  have empty : TempBuf.total ⟨fun _ => 0, 0⟩ = 0 := by decide
  have below : pnVal.magnitude < 10 ^ 38 :=
    Nat.lt_of_lt_of_le valid.fits (Nat.pow_le_pow_right (by decide) valid.few)
  have bytes : ofLittle (pnVal.val.take (scaledIntegerLen pnVal.precision)) =
      pnVal.magnitude := by
    rw [ofLittle_take]
    exact Nat.mod_eq_of_lt (Nat.lt_of_lt_of_le valid.fits (scaledIntegerLen_enough many valid.few))
  obtain ⟨buf, run, total, digits⟩ := expandBytes_spec pnVal.val
    (scaledIntegerLen pnVal.precision) start (by rw [empty, bytes]; omega)
  rw [empty, bytes, Nat.zero_mul, Nat.zero_add] at total
  have none : buf.len = 0 ↔ pnVal.magnitude = 0 := by
    constructor
    · intro len
      rw [← total, TempBuf.total, sumPlaces_zeros (Nat.zero_le _)
        (fun place _ => (digits.normal place).2 (by omega))]
      rfl
    · intro zero
      rcases digits.reached with len | some
      · exact len
      · have one := Nat.one_le_pow (buf.len - 1) 10 (by decide)
        omega
  have scale := valid.scale_le
  have point : 0 < pnVal.scale ↔ 0 < pnVal.scale.toNat := by omega
  have text := outputPlaces_fixedText digits pnVal.scale.toNat
    (by have few := valid.few; omega) (by omega)
  rw [total] at text
  rw [longString, run, Option.map_some, longOutput]
  simp only [point, none]
  rw [List.append_assoc _ (outputPlaces _ _ _), text]

/-- The branch for a precision from nineteen on is right but for a zero. -/
theorem longString_exact {pnVal : SqlNumericStruct} (valid : pnVal.Valid)
    (many : 19 ≤ pnVal.precision) :
    longString pnVal = some (pnVal.canonicalText ++ ['\x00']) ↔ pnVal.magnitude ≠ 0 := by
  rw [longString_eq valid many, SqlNumericStruct.canonicalText]
  constructor
  · intro same zero
    have lengths := congrArg (fun text => (text.getD []).length) same
    simp only [zero, ne_eq, not_true, and_false, if_false, if_true, Option.getD_some,
      List.length_append, List.length_singleton, List.length_nil] at lengths
    omega
  · intro some
    simp only [some, ne_eq, not_false_iff, and_true, if_false, List.append_nil]

/-! ## The quotient of doubles -/

theorem addNibbles_eq {bytes : List UInt8} {value : Nat} (small : value < 2 ^ 64) (last : Nat) :
    addNibbles bytes value last = (value + last * ofLittle bytes) % 2 ^ 64 := by
  induction bytes generalizing value last with
  | nil =>
      rw [addNibbles, ofLittle, Nat.mul_zero, Nat.add_zero, Nat.mod_eq_of_lt small]
  | cons current rest ih =>
      rw [addNibbles, ih (Nat.mod_lt _ (by decide)), ofLittle]
      have halves : current.toNat = current.toNat % 16 + 16 * (current.toNat / 16) :=
        (Nat.mod_add_div _ _).symm
      generalize current.toNat % 16 = a at halves ⊢
      generalize current.toNat / 16 = b at halves ⊢
      have lower := Nat.mod_modEq (value + last * a) (2 ^ 64)
      have middle := Nat.mod_modEq (last * 16) (2 ^ 64)
      have both := (Nat.mod_modEq _ (2 ^ 64)).trans (lower.add (middle.mul_right b))
      have next := (Nat.mod_modEq _ (2 ^ 64)).trans (middle.mul_right 16)
      refine (both.add (next.mul_right (ofLittle rest))).trans ?_
      rw [halves]
      refine congrArg (· % 2 ^ 64) ?_
      ring

/-- A power of ten up to `10 ^ 18` has fewer than 53 significant bits. -/
theorem round53_divisor (scale : Nat) (low : scale ≤ 18) :
    round53 ((wrap 8 (10 ^ scale) : Int) : ℚ) = 10 ^ scale := by
  have bound : 10 ^ scale ≤ 10 ^ 18 := Nat.pow_le_pow_right (by decide) low
  have same : wrap 8 (10 ^ scale) = ((10 ^ scale : Nat) : Int) := by
    have cast : ((10 : Int) ^ scale) = ((10 ^ scale : Nat) : Int) := by
      push_cast
      rfl
    rw [cast]
    generalize 10 ^ scale = divisor at bound ⊢
    exact wrap_of_range (by omega) (by omega)
  have narrow : 5 ^ scale < 2 ^ 53 :=
    Nat.lt_of_le_of_lt (Nat.pow_le_pow_right (by decide) low) (by decide)
  have factors : (((10 ^ scale : Nat) : Int) : ℚ) = ((5 ^ scale : Nat) : ℚ) * 2 ^ scale := by
    push_cast
    rw [← mul_pow]
    norm_num
  rw [same, factors, round53_exact narrow, ← factors]
  push_cast
  rfl

/-- `final_val` of a number with at most eighteen digits. -/
theorem finalVal_eq {pnVal : SqlNumericStruct} (valid : pnVal.Valid)
    (few : pnVal.precision < 19) :
    finalVal pnVal = ⟨pnVal.sign = 0,
      round53 (round53 pnVal.magnitude / 10 ^ pnVal.scale.toNat)⟩ := by
  have scale := valid.scale_le
  have below : pnVal.magnitude < 10 ^ 18 :=
    Nat.lt_of_lt_of_le valid.fits (Nat.pow_le_pow_right (by decide) (by omega))
  have value : addNibbles pnVal.val 0 1 = pnVal.magnitude := by
    rw [addNibbles_eq (by decide), Nat.zero_add, Nat.one_mul]
    exact Nat.mod_eq_of_lt (Nat.lt_trans below (by decide))
  have divisor := round53_divisor pnVal.scale.toNat (by omega)
  rw [finalVal, value]
  dsimp only
  rw [divisor]

/--
The double quotient of the number by `10 ^ scale` stands for no other integer: of
the numbers that a last place of the quotient is apart, taken `10 ^ scale` times,
the one nearest the number in 53 bits is nearer to the number than to any other
integer.
-/
def FineQuotient (scale number : Nat) : Prop :=
  nearestEven (nearestMultiple (10 ^ scale * lastPlace (round53 number / 10 ^ scale))
    (round53 number)) = number

instance (scale number : Nat) : Decidable (FineQuotient scale number) :=
  inferInstanceAs (Decidable (_ = _))

/-- The integer that is printed. -/
theorem printed_eq (scale number : Nat) :
    nearestEven (round53 (round53 number / 10 ^ scale) * 10 ^ scale) =
      nearestEven (nearestMultiple (10 ^ scale * lastPlace (round53 number / 10 ^ scale))
        (round53 number)) := by
  rw [← mul_nearestMultiple_div, mul_comm]
  rfl

theorem printed_lt {number : Nat} (some : number ≠ 0) (scale : Nat) :
    (nearestEven (round53 (round53 number / 10 ^ scale) * 10 ^ scale)).toNat < 10 * number := by
  have positive : (1 : ℚ) ≤ number := by exact_mod_cast Nat.one_le_iff_ne_zero.mpr some
  have power : (0 : ℚ) < 10 ^ scale := by positivity
  have first := round53_le (show (0 : ℚ) ≤ number by linarith)
  have nonneg := round53_nonneg (show (0 : ℚ) ≤ number by linarith)
  have second := round53_le (div_nonneg nonneg power.le)
  have product : round53 (round53 number / 10 ^ scale) * 10 ^ scale ≤ 4 * number := by
    calc round53 (round53 number / 10 ^ scale) * 10 ^ scale
        ≤ 2 * (round53 number / 10 ^ scale) * 10 ^ scale := by gcongr
      _ = 2 * round53 number := by field_simp
      _ ≤ 4 * number := by linarith
  have near := (abs_le.mp
    (nearestEven_near (round53 (round53 number / 10 ^ scale) * 10 ^ scale))).2
  have bound : (nearestEven (round53 (round53 number / 10 ^ scale) * 10 ^ scale) : ℚ) <
      ((10 * number : Nat) : Int) := by
    push_cast
    linarith
  have integers := Int.cast_lt.mp bound
  omega

/-- Doubles next to the quotient are no further apart than its last digit counts. -/
def FineGrid (scale number : Nat) : Prop := 10 ^ scale * lastPlace ((number : ℚ) / 10 ^ scale) ≤ 1

instance (scale number : Nat) : Decidable (FineGrid scale number) :=
  inferInstanceAs (Decidable (_ ≤ _))

/-- The grid is fine, or number and quotient are doubles. -/
def DoubleExact (scale number : Nat) : Prop :=
  FineGrid scale number ∨ HasSignificand number ∧ HasSignificand ((number : ℚ) / 10 ^ scale)

/-- A number with a fine grid is below `2 ^ 53`. -/
theorem FineGrid.lt {scale number : Nat} (fine : FineGrid scale number) : number < 2 ^ 53 := by
  have power : (0 : ℚ) < 10 ^ scale := by positivity
  have bound := lt_lastPlace ((number : ℚ) / 10 ^ scale)
  rw [div_lt_iff₀ power] at bound
  have total : (number : ℚ) < ((2 ^ 53 : Nat) : ℚ) := by
    rw [FineGrid] at fine
    push_cast
    linarith
  exact_mod_cast total

/-- Below `2 ^ 52`, which is more than every number of fifteen digits, the grid is fine. -/
theorem fineGrid_of_lt {number : Nat} (some : number ≠ 0) (small : number < 2 ^ 52)
    (scale : Nat) : FineGrid scale number := by
  have power : (0 : ℚ) < 10 ^ scale := by positivity
  have positive : (0 : ℚ) < number := by exact_mod_cast Nat.pos_of_ne_zero some
  have place := lastPlace_le (div_pos positive power)
  have bound : (number : ℚ) < 2 ^ 52 := by exact_mod_cast small
  rw [FineGrid]
  calc 10 ^ scale * lastPlace ((number : ℚ) / 10 ^ scale)
      ≤ 10 ^ scale * (number / 10 ^ scale / 2 ^ 52) := by gcongr
    _ = number / 2 ^ 52 := by field_simp
    _ ≤ 1 := by linarith

theorem fineQuotient_of_grid {scale number : Nat} (fine : FineGrid scale number) :
    FineQuotient scale number := by
  have same := round53_exact fine.lt 0
  rw [pow_zero, mul_one] at same
  rw [FineQuotient, same]
  exact nearestEven_multiple (mul_pos (by positivity) (lastPlace_pos _)) fine number

theorem fineQuotient_of_doubles {scale number : Nat} (whole : HasSignificand number)
    (quotient : HasSignificand ((number : ℚ) / 10 ^ scale)) : FineQuotient scale number := by
  have power : (10 : ℚ) ^ scale ≠ 0 := by positivity
  rw [FineQuotient, ← printed_eq, whole.round53, quotient.round53, div_mul_cancel₀ _ power]
  exact nearestEven_intCast number

theorem fineQuotient_of_exact {scale number : Nat} (exact53 : DoubleExact scale number) :
    FineQuotient scale number := by
  rcases exact53 with fine | ⟨whole, quotient⟩
  · exact fineQuotient_of_grid fine
  · exact fineQuotient_of_doubles whole quotient

example : FineGrid 2 4503599627370497 ∧ ¬ FineQuotient 2 123456789012345678 := by decide +kernel

theorem fixedText_head (scale : Nat) : ∃ rest, fixedText scale 0 = '0' :: rest := by
  rw [fixedText, Nat.zero_div, Nat.toDigits_zero]
  exact ⟨_, rfl⟩

/-- The text that is printed, of an integer that is not negative. -/
theorem printFixed_eq {pnVal : SqlNumericStruct} (valid : pnVal.Valid)
    (few : pnVal.precision < 19) :
    ∃ printed : Nat,
      (printed = pnVal.magnitude ↔ FineQuotient pnVal.scale.toNat pnVal.magnitude) ∧
      (printed = pnVal.magnitude ∨ printed < 10 * pnVal.magnitude) ∧
      printFixed pnVal.scale.toNat (finalVal pnVal) =
        (if pnVal.sign = 0 then ['-'] else []) ++ fixedText pnVal.scale.toNat printed := by
  have nonneg : 0 ≤ nearestEven (round53 (round53 pnVal.magnitude / 10 ^ pnVal.scale.toNat) *
      10 ^ pnVal.scale.toNat) := by
    refine nearestEven_nonneg (mul_nonneg (round53_nonneg ?_) (by positivity))
    exact div_nonneg (round53_nonneg (Nat.cast_nonneg _)) (by positivity)
  rw [finalVal_eq valid few, printFixed, FineQuotient, ← printed_eq]
  dsimp only
  have bound : (nearestEven (round53 (round53 pnVal.magnitude / 10 ^ pnVal.scale.toNat) *
      10 ^ pnVal.scale.toNat)).toNat = pnVal.magnitude ∨
      (nearestEven (round53 (round53 pnVal.magnitude / 10 ^ pnVal.scale.toNat) *
        10 ^ pnVal.scale.toNat)).toNat < 10 * pnVal.magnitude := by
    by_cases zero : pnVal.magnitude = 0
    · have none : nearestEven 0 = 0 := nearestEven_intCast 0
      rw [zero, Nat.cast_zero, round53_zero, zero_div, round53_zero, zero_mul, none]
      exact Or.inl rfl
    · exact Or.inr (printed_lt zero _)
  generalize nearestEven (round53 (round53 pnVal.magnitude / 10 ^ pnVal.scale.toNat) *
    10 ^ pnVal.scale.toNat) = printed at nonneg bound ⊢
  exact ⟨printed.toNat, by omega, bound, by simp only [decide_eq_true_eq]⟩

/-- A text that begins with the right one is of a fine quotient. -/
theorem fine_of_printFixed {pnVal : SqlNumericStruct} (valid : pnVal.Valid)
    (few : pnVal.precision < 19) (rest : List Char)
    (same : printFixed pnVal.scale.toNat (finalVal pnVal) = pnVal.canonicalText ++ rest) :
    (pnVal.magnitude = 0 → pnVal.sign ≠ 0) ∧
      FineQuotient pnVal.scale.toNat pnVal.magnitude := by
  obtain ⟨printed, fine, bound, text⟩ := printFixed_eq valid few
  rw [text, SqlNumericStruct.canonicalText] at same
  rw [← fine]
  by_cases zero : pnVal.magnitude = 0
  · refine ⟨?_, by omega⟩
    intro _ negative
    obtain ⟨digits, head⟩ := fixedText_head pnVal.scale.toNat
    rw [if_pos negative, zero, if_neg (fun both => both.2 rfl), head] at same
    exact absurd (List.cons.inj same).1 (by decide)
  · refine ⟨fun none => absurd none zero, ?_⟩
    simp only [zero, ne_eq, not_false_iff, and_true, List.append_assoc,
      List.append_cancel_left_eq] at same
    rcases bound with equal | less
    · exact equal
    · exact fixedText_prefix less same

/-- The text of a fine quotient is the right one. -/
theorem printFixed_of_fine {pnVal : SqlNumericStruct} (valid : pnVal.Valid)
    (few : pnVal.precision < 19) (sign : pnVal.magnitude = 0 → pnVal.sign ≠ 0)
    (fine : FineQuotient pnVal.scale.toNat pnVal.magnitude) :
    printFixed pnVal.scale.toNat (finalVal pnVal) = pnVal.canonicalText := by
  obtain ⟨printed, exact_iff, -, text⟩ := printFixed_eq valid few
  rw [text, exact_iff.mpr fine, SqlNumericStruct.canonicalText]
  have same : pnVal.sign = 0 ↔ pnVal.sign = 0 ∧ pnVal.magnitude ≠ 0 :=
    ⟨fun negative => ⟨negative, fun zero => sign zero negative⟩, And.left⟩
  simp only [← same]

/-- What `snprintf` leaves of a text is a text that fits when that is where the text begins. -/
theorem snprintf_eq_iff {num_data_len : Nat} {text expected : List Char}
    (fits : expected.length < num_data_len) :
    snprintf num_data_len text = expected ++ ['\x00'] ↔
      text.take (num_data_len - 1) = expected := by
  rw [snprintf, if_neg (by omega)]
  exact List.append_left_inj _

/-- The branch for a precision below nineteen. -/
theorem shortString_exact {pnVal : SqlNumericStruct} (valid : pnVal.Valid)
    (few : pnVal.precision < 19) {num_data_len : Nat}
    (fits : pnVal.canonicalText.length < num_data_len) :
    shortString pnVal num_data_len = some (pnVal.canonicalText ++ ['\x00']) ↔
      (pnVal.magnitude = 0 → pnVal.sign ≠ 0) ∧
        FineQuotient pnVal.scale.toNat pnVal.magnitude := by
  rw [shortString, if_pos valid.scale, Option.some_inj, snprintf_eq_iff fits]
  constructor
  · intro same
    refine fine_of_printFixed valid few
      ((printFixed pnVal.scale.toNat (finalVal pnVal)).drop (num_data_len - 1)) ?_
    rw [← same]
    exact (List.take_append_drop _ _).symm
  · rintro ⟨sign, fine⟩
    rw [printFixed_of_fine valid few sign fine]
    exact List.take_of_length_le (by omega)

/--
No zero with a precision from nineteen on; below that no negative zero, and a
number that goes through the division of doubles.
-/
def SqlNumericStruct.TextExact (pnVal : SqlNumericStruct) : Prop :=
  if pnVal.precision < 19 then
    (pnVal.magnitude = 0 → pnVal.sign ≠ 0) ∧ DoubleExact pnVal.scale.toNat pnVal.magnitude
  else pnVal.magnitude ≠ 0

/--
The text is right when the buffer holds it and, with a precision from nineteen
on, the number is not zero or, below, it is no negative zero and the doubles are
fine enough.  A zero is right only below nineteen and without a sign.
-/
theorem convertScaledIntegerToNumericString_exact {pnVal : SqlNumericStruct}
    (valid : pnVal.Valid) {num_data_len : Nat} (fits : pnVal.canonicalText.length < num_data_len) :
    (pnVal.TextExact → convertScaledIntegerToNumericString pnVal num_data_len =
      some (pnVal.canonicalText ++ ['\x00'])) ∧
    (convertScaledIntegerToNumericString pnVal num_data_len =
        some (pnVal.canonicalText ++ ['\x00']) →
      pnVal.magnitude = 0 → pnVal.precision < 19 ∧ pnVal.sign ≠ 0) := by
  rw [convertScaledIntegerToNumericString, SqlNumericStruct.TextExact]
  by_cases few : pnVal.precision < 19
  · rw [if_pos few, if_pos few, shortString_exact valid few fits]
    refine ⟨fun ⟨sign, exact53⟩ => ⟨sign, fineQuotient_of_exact exact53⟩, ?_⟩
    rintro ⟨sign, -⟩ zero
    exact ⟨few, sign zero⟩
  · rw [if_neg few, if_neg few, longString_exact valid (Nat.not_lt.mp few)]
    exact ⟨id, fun some zero => absurd zero some⟩

/-- `-12345678901234567890123.45`, and `1234567890123.45` of the shorter branch. -/
theorem convertScaledIntegerToNumericString_exact_two :
    convertScaledIntegerToNumericString ⟨25, 2, 0, little 16 1234567890123456789012345⟩ 65 =
        some (SqlNumericStruct.canonicalText
          ⟨25, 2, 0, little 16 1234567890123456789012345⟩ ++ ['\x00']) ∧
      convertScaledIntegerToNumericString ⟨18, 2, 1, little 16 123456789012345⟩ 18 =
        some (SqlNumericStruct.canonicalText ⟨18, 2, 1, little 16 123456789012345⟩ ++
          ['\x00']) :=
  ⟨(convertScaledIntegerToNumericString_exact
      ⟨by decide, by decide, by decide, by decide, by decide, by decide⟩ (by decide)).1
      (by rw [SqlNumericStruct.TextExact, if_neg (by decide)]; decide),
    (convertScaledIntegerToNumericString_exact
      ⟨by decide, by decide, by decide, by decide, by decide, by decide⟩ (by decide)).1
      (by
        rw [SqlNumericStruct.TextExact, if_pos (by decide)]
        exact ⟨by decide, Or.inl (fineGrid_of_lt (by decide) (by decide) _)⟩)⟩

/-- Zero with the precision nineteen and the scale two comes out as `0.000`. -/
theorem convertScaledIntegerToNumericString_exact_wrong : ¬ ∀ pnVal : SqlNumericStruct,
    pnVal.Valid → convertScaledIntegerToNumericString pnVal 65 =
      some (pnVal.canonicalText ++ ['\x00']) := by
  intro every
  have same := every ⟨19, 2, 1, List.replicate 16 0⟩
    ⟨by decide, by decide, by decide, by decide, by decide, by decide⟩
  rw [convertScaledIntegerToNumericString, if_neg (by decide)] at same
  revert same
  decide

end RedshiftOdbc.Convert
