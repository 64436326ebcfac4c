import RedshiftOdbc.Convert.Types
import RedshiftOdbc.Library.Scanf

/-!
# Numeric text as a scaled integer

`convertNumericStringToScaledInteger` puts the digits of a text into the bytes of
a `SQL_NUMERIC_STRUCT`, least significant byte first.  Up to eighteen digits go
through a `long long`; longer ones are halved in place, digit by digit, and the
bits that fall out are gathered into bytes.
-/

namespace RedshiftOdbc.Convert

open RedshiftOdbc.Scanf RedshiftOdbc.Words

structure SqlNumericStruct where
  precision : Nat
  scale : Int
  sign : Nat
  val : List UInt8
  deriving DecidableEq, Repr

def padbMaxNumBufLen : Nat := 40

def sqlMaxNumericLen : Nat := 16

/-- The `sign` of a text, and what follows it. -/
def takeSign : List Char → Nat × List Char
  | '+' :: rest => (1, rest)
  | '-' :: rest => (0, rest)
  | text => (1, text)

/-- The `precision`, the `scale` and the `szBuf` of a text without a sign. -/
def splitPoint (pNumData : List Char) : Nat × Int × List Char :=
  match pNumData.dropWhile fun character => character ≠ '.' with
  | [] => (pNumData.length % 256, 0, pNumData.take padbMaxNumBufLen)
  | _ :: pDecimal =>
      let scale := wrap 1 pDecimal.length
      let len1 := min ((pNumData.length : Int) - 1 - scale) padbMaxNumBufLen
      let len2 := min scale (padbMaxNumBufLen - len1)
      ((pNumData.length - 1) % 256, scale,
        pNumData.take len1.toNat ++ pDecimal.take len2.toNat)

/--
One pass over the digits from `iStart` on, which are halved: what is left of them
without the zeros in front, and the `iDigit` that falls out.
-/
def shiftRight : Nat → Bool → List Nat → List Nat × Nat
  | iDigit, _, [] => ([], iDigit)
  | iDigit, atStart, digit :: rest =>
      let iTotalVal := iDigit * 10 + digit
      let skipped := atStart && decide (iTotalVal < 2)
      let halved := shiftRight (iTotalVal % 2) skipped rest
      (if skipped then halved.1 else iTotalVal / 2 :: halved.1, halved.2)

/-- The variables of the loop over the bits; `digits` are those from `iStart` on. -/
structure BitLoop where
  digits : List Nat
  iOutVal : Nat
  iBit : Nat
  iOutLen : Nat
  pnVal : SqlNumericStruct
  broken : Bool
  deriving DecidableEq, Repr

/-- One round of the loop over the bits. -/
def shiftBit (len : Nat) (loop : BitLoop) : BitLoop :=
  let halved := shiftRight 0 true loop.digits
  let iOutVal := if 0 < halved.2 then loop.iOutVal ||| loop.iBit else loop.iOutVal
  let iBit := loop.iBit <<< 1
  if 2 ^ 8 ≤ iBit then
    let val := loop.pnVal.val.set loop.iOutLen (UInt8.ofNat iOutVal)
    let iOutLen := loop.iOutLen + 1
    if sqlMaxNumericLen - 1 ≤ iOutLen then
      let iStart : Int := (len : Int) - halved.1.length
      { digits := halved.1
        iOutVal := 0
        iBit := 1
        iOutLen := iOutLen
        pnVal := { loop.pnVal with
          val := val, scale := wrap 1 (iStart - loop.pnVal.precision) }
        broken := true }
    else
      { digits := halved.1
        iOutVal := 0
        iBit := 1
        iOutLen := iOutLen
        pnVal := { loop.pnVal with val := val }
        broken := false }
  else { loop with digits := halved.1, iOutVal := iOutVal, iBit := iBit }

/-- The loop over the bits: until no digit is left or it is broken off. -/
def shiftLoop (len : Nat) : Nat → BitLoop → BitLoop
  | 0, loop => loop
  | rounds + 1, loop =>
      if loop.digits = [] ∨ loop.broken = true then loop
      else shiftLoop len rounds (shiftBit len loop)

/-- The bytes of the digits in `szBuf`. -/
def convertDigits (szBuf : List Char) (pnVal : SqlNumericStruct) : SqlNumericStruct :=
  if szBuf.length ≤ 18 then
    { pnVal with val := little 8 (unsigned 8 (strtol szBuf)) ++ pnVal.val.drop 8 }
  else
    let loop := shiftLoop szBuf.length (8 * (sqlMaxNumericLen - 1))
      { digits := szBuf.map fun character => character.toNat - '0'.toNat
        iOutVal := 0
        iBit := 1
        iOutLen := 0
        pnVal := pnVal
        broken := false }
    if loop.iOutVal ≠ 0 ∧ loop.iOutLen < sqlMaxNumericLen - 1 then
      { loop.pnVal with
        val := loop.pnVal.val.set loop.iOutLen (UInt8.ofNat loop.iOutVal) }
    else loop.pnVal

def convertNumericStringToScaledInteger (pNumData : List Char) : SqlNumericStruct :=
  let signed := takeSign pNumData
  let split := splitPoint signed.2
  convertDigits split.2.2
    { precision := split.1
      scale := split.2.1
      sign := signed.1
      val := List.replicate sqlMaxNumericLen 0 }

/-- `getRsVal` for a numeric value in text format. -/
def getNumericVal (pColData : List Char) (iColDataLen : Nat) : SqlNumericStruct :=
  if 0 < iColDataLen then convertNumericStringToScaledInteger (valueText pColData iColDataLen)
  else ⟨0, 0, 0, List.replicate sqlMaxNumericLen 0⟩

/-! ## Halving the digits -/

def bufferValue : List Nat → Nat
  | [] => 0
  | digit :: rest => digit * 10 ^ rest.length + bufferValue rest

theorem shiftRight_length (iDigit : Nat) (digits : List Nat) :
    (shiftRight iDigit false digits).1.length = digits.length := by
  induction digits generalizing iDigit with
  | nil => rfl
  | cons digit rest ih => simp [shiftRight, ih]

/-- A pass halves the number in the buffer, and its last bit falls out. -/
theorem shiftRight_value {iDigit : Nat} (bit : iDigit < 2) (atStart : Bool)
    (digits : List Nat) :
    bufferValue (shiftRight iDigit atStart digits).1 =
        (iDigit * 10 ^ digits.length + bufferValue digits) / 2 ∧
      (shiftRight iDigit atStart digits).2 =
        (iDigit * 10 ^ digits.length + bufferValue digits) % 2 := by
  induction digits generalizing iDigit atStart with
  | nil =>
      simp only [shiftRight, bufferValue, List.length_nil, Nat.pow_zero]
      omega
  | cons digit rest ih =>
      have length := shiftRight_length ((iDigit * 10 + digit) % 2) rest
      have split : iDigit * 10 ^ (digit :: rest).length + bufferValue (digit :: rest) =
          (iDigit * 10 + digit) * 10 ^ rest.length + bufferValue rest := by
        rw [bufferValue, List.length_cons]
        ring
      rw [split, shiftRight]
      generalize iDigit * 10 + digit = iTotalVal at *
      obtain ⟨value, last⟩ := ih (Nat.mod_lt iTotalVal (by decide))
        (atStart && decide (iTotalVal < 2))
      have parts : iTotalVal * 10 ^ rest.length = 2 * (iTotalVal / 2 * 10 ^ rest.length) +
          iTotalVal % 2 * 10 ^ rest.length := by
        rw [← Nat.mul_assoc, ← Nat.add_mul, Nat.div_add_mod]
      refine ⟨?_, by rw [last]; omega⟩
      dsimp only
      cases skipped : atStart && decide (iTotalVal < 2) with
      | true =>
          rw [skipped] at value
          have small : iTotalVal / 2 = 0 := by
            simp only [Bool.and_eq_true, decide_eq_true_eq] at skipped
            omega
          rw [if_pos rfl, value, parts, small]
          omega
      | false =>
          rw [skipped] at value
          rw [if_neg (by decide), bufferValue, value, length]
          omega

/-- The zeros in front are passed over. -/
theorem shiftRight_eq_nil {iDigit : Nat} (digits : List Nat)
    (small : iDigit * 10 ^ digits.length + bufferValue digits < 2) :
    (shiftRight iDigit true digits).1 = [] := by
  induction digits generalizing iDigit with
  | nil => rfl
  | cons digit rest ih =>
      have split : iDigit * 10 ^ (digit :: rest).length + bufferValue (digit :: rest) =
          (iDigit * 10 + digit) * 10 ^ rest.length + bufferValue rest := by
        rw [bufferValue, List.length_cons]
        ring
      rw [split] at small
      have positive : 0 < 10 ^ rest.length := Nat.pow_pos (by decide)
      have digit_small : iDigit * 10 + digit < 2 := by
        have bound := Nat.le_mul_of_pos_right (iDigit * 10 + digit) positive
        omega
      have keep : (iDigit * 10 + digit) % 2 = iDigit * 10 + digit := Nat.mod_eq_of_lt digit_small
      rw [shiftRight]
      simp only [Bool.true_and, decide_eq_true_eq, if_pos digit_small]
      rw [keep, decide_eq_true digit_small]
      exact ih small

/-! ## The bits -/

/-- The loop over the bits when `full` bytes and `bits` bits of a number are out. -/
structure Shifted (number full bits : Nat) (before : SqlNumericStruct) (loop : BitLoop) :
    Prop where
  value : bufferValue loop.digits = number / 256 ^ full / 2 ^ bits
  ended : 0 < 8 * full + bits → number / 256 ^ full / 2 ^ bits = 0 → loop.digits = []
  iOutVal : loop.iOutVal = number / 256 ^ full % 2 ^ bits
  iBit : loop.iBit = 2 ^ bits
  iOutLen : loop.iOutLen = full
  pnVal : loop.pnVal =
    { before with val := little full number ++ List.replicate (sqlMaxNumericLen - full) 0 }
  going : loop.broken = false

theorem or_bit {value bits : Nat} :
    (if 0 < value / 2 ^ bits % 2 then value % 2 ^ bits ||| 2 ^ bits else value % 2 ^ bits) =
      value % 2 ^ (bits + 1) := by
  have below : value % 2 ^ bits < 2 ^ bits := Nat.mod_lt _ (Nat.two_pow_pos bits)
  rw [Nat.pow_succ, Nat.mod_mul]
  split
  · next set =>
      have one : value / 2 ^ bits % 2 = 1 := by omega
      have sum := Nat.two_pow_add_eq_or_of_lt below 1
      rw [Nat.mul_one] at sum
      rw [one, Nat.mul_one, Nat.or_comm, ← sum, Nat.add_comm]
  · next clear =>
      have zero : value / 2 ^ bits % 2 = 0 := by omega
      rw [zero, Nat.mul_zero, Nat.add_zero]

/-- The next byte takes the place of the first zero. -/
theorem little_set {full number : Nat} (room : full < sqlMaxNumericLen) {byte : UInt8}
    (same : byte = UInt8.ofNat (number / 256 ^ full)) :
    (little full number ++ List.replicate (sqlMaxNumericLen - full) 0).set full byte =
      little (full + 1) number ++ List.replicate (sqlMaxNumericLen - (full + 1)) 0 := by
  have zeros : sqlMaxNumericLen - full = sqlMaxNumericLen - (full + 1) + 1 := by omega
  rw [List.set_append_right _ _ (by simp), little_length, Nat.sub_self, zeros,
    List.replicate_succ, List.set_cons_zero, little_add full 1, same]
  simp [little]

namespace Shifted

variable {number full bits len : Nat} {before : SqlNumericStruct} {loop : BitLoop}

/-- What a round takes out of the buffer. -/
theorem halved (shifted : Shifted number full bits before loop) :
    bufferValue (shiftRight 0 true loop.digits).1 =
        number / 256 ^ full / 2 ^ (bits + 1) ∧
      (number / 256 ^ full / 2 ^ (bits + 1) = 0 → (shiftRight 0 true loop.digits).1 = []) ∧
      (if 0 < (shiftRight 0 true loop.digits).2 then loop.iOutVal ||| loop.iBit
        else loop.iOutVal) = number / 256 ^ full % 2 ^ (bits + 1) := by
  obtain ⟨value, last⟩ := shiftRight_value (by decide : 0 < 2) true loop.digits
  rw [Nat.zero_mul, Nat.zero_add, shifted.value] at value last
  rw [Nat.div_div_eq_div_mul, ← Nat.pow_succ] at value
  refine ⟨value, ?_, ?_⟩
  · intro none
    refine shiftRight_eq_nil loop.digits ?_
    rw [Nat.zero_mul, Nat.zero_add, shifted.value]
    rw [Nat.pow_succ, ← Nat.div_div_eq_div_mul] at none
    omega
  · rw [last, shifted.iOutVal, shifted.iBit]
    exact or_bit

/-- A round inside a byte. -/
theorem shiftBit_inside (shifted : Shifted number full bits before loop) (inside : bits < 7) :
    Shifted number full (bits + 1) before (shiftBit len loop) := by
  obtain ⟨value, ended, iOutVal⟩ := shifted.halved
  have doubled : loop.iBit <<< 1 = 2 ^ (bits + 1) := by
    rw [shifted.iBit, Nat.shiftLeft_eq, Nat.pow_one, ← Nat.pow_succ]
  have small : ¬ 2 ^ 8 ≤ loop.iBit <<< 1 := by
    have bound : 2 ^ (bits + 1) ≤ 2 ^ 7 := Nat.pow_le_pow_right (by decide) (by omega)
    rw [doubled]
    omega
  rw [shiftBit, if_neg small]
  exact ⟨value, fun _ => ended, iOutVal, doubled, shifted.iOutLen, shifted.pnVal, shifted.going⟩

/-- The byte that is full after eight rounds. -/
theorem byte_full (number full : Nat) :
    UInt8.ofNat (number / 256 ^ full % 2 ^ 8) = UInt8.ofNat (number / 256 ^ full) := by
  rw [← UInt8.toNat_inj]
  simp

/-- The last round of a byte that is not the last one. -/
theorem shiftBit_full (shifted : Shifted number full 7 before loop)
    (more : full + 1 < sqlMaxNumericLen - 1) :
    Shifted number (full + 1) 0 before (shiftBit len loop) := by
  obtain ⟨value, ended, iOutVal⟩ := shifted.halved
  have large : 2 ^ 8 ≤ loop.iBit <<< 1 := by
    rw [shifted.iBit]
    decide
  have next : number / 256 ^ full / 2 ^ (7 + 1) = number / 256 ^ (full + 1) / 2 ^ 0 := by
    rw [Nat.div_div_eq_div_mul, Nat.pow_zero, Nat.div_one, Nat.pow_succ 256]
    rfl
  have notLast : ¬ sqlMaxNumericLen - 1 ≤ full + 1 := by omega
  rw [next] at value ended
  rw [shiftBit, if_pos large, iOutVal, shifted.iOutLen, shifted.pnVal, if_neg notLast,
    little_set (by omega) (byte_full number full)]
  exact ⟨value, fun _ => ended, by simp [Nat.mod_one], rfl, rfl, rfl, rfl⟩

/-- The round that breaks the loop off. -/
theorem shiftBit_break (shifted : Shifted number (sqlMaxNumericLen - 2) 7 before loop)
    (len : Nat) :
    ∃ digits : List Nat,
      (digits = [] ↔ number / 256 ^ (sqlMaxNumericLen - 1) = 0) ∧
      shiftBit len loop =
        { digits := digits
          iOutVal := 0
          iBit := 1
          iOutLen := sqlMaxNumericLen - 1
          pnVal := { before with
            val := little (sqlMaxNumericLen - 1) number ++ [0]
            scale := wrap 1 ((len : Int) - digits.length - before.precision) }
          broken := true } := by
  obtain ⟨value, ended, iOutVal⟩ := shifted.halved
  have large : 2 ^ 8 ≤ loop.iBit <<< 1 := by
    rw [shifted.iBit]
    decide
  have next : number / 256 ^ (sqlMaxNumericLen - 2) / 2 ^ (7 + 1) =
      number / 256 ^ (sqlMaxNumericLen - 1) := by
    rw [Nat.div_div_eq_div_mul]
    rfl
  rw [next] at value ended
  refine ⟨(shiftRight 0 true loop.digits).1, ⟨?_, ended⟩, ?_⟩
  · intro none
    rw [← value, none]
    rfl
  · rw [shiftBit, if_pos large, iOutVal, shifted.iOutLen, shifted.pnVal, if_pos (by decide),
      little_set (by decide) (byte_full number _)]
    rfl

/-- A round that does not break the loop off. -/
theorem shiftBit_next (shifted : Shifted number full bits before loop) (len : Nat)
    (inside : bits < 8)
    (more : 8 * full + bits + 1 < 8 * (sqlMaxNumericLen - 1)) :
    ∃ nextFull nextBits, nextBits < 8 ∧ 8 * nextFull + nextBits = 8 * full + bits + 1 ∧
      Shifted number nextFull nextBits before (shiftBit len loop) := by
  by_cases last : bits = 7
  · subst last
    exact ⟨full + 1, 0, by decide, by omega, shifted.shiftBit_full (by omega)⟩
  · exact ⟨full, bits + 1, by omega, by omega, shifted.shiftBit_inside (by omega)⟩

/-- How the loop ends: no digit is left, or it was broken off with fifteen bytes out. -/
inductive Ended (number len : Nat) (before : SqlNumericStruct) (loop : BitLoop) : Prop where
  | done (full bits : Nat) (inside : bits < 8)
      (room : 8 * full + bits < 8 * (sqlMaxNumericLen - 1))
      (small : number / 256 ^ full / 2 ^ bits = 0)
      (short : number < 2 ^ 119)
      (shifted : Shifted number full bits before loop)
  | broken (digits : List Nat)
      (none : digits = [] ↔ number / 256 ^ (sqlMaxNumericLen - 1) = 0)
      (long : 2 ^ 119 ≤ number)
      (same : loop =
        { digits := digits
          iOutVal := 0
          iBit := 1
          iOutLen := sqlMaxNumericLen - 1
          pnVal := { before with
            val := little (sqlMaxNumericLen - 1) number ++ [0]
            scale := wrap 1 ((len : Int) - digits.length - before.precision) }
          broken := true })

theorem div_bits (number full bits : Nat) :
    number / 256 ^ full / 2 ^ bits = number / 2 ^ (8 * full + bits) := by
  have bytes : (256 : Nat) ^ full = 2 ^ (8 * full) := by
    rw [Nat.pow_mul]
  rw [Nat.div_div_eq_div_mul, bytes, ← Nat.pow_add]

/-- A run of the loop, by induction on the rounds that are left. -/
theorem shiftLoop_ended (shifted : Shifted number full bits before loop) (len rounds : Nat)
    (inside : bits < 8)
    (left : 8 * full + bits + rounds = 8 * (sqlMaxNumericLen - 1)) (more : 0 < rounds) :
    Ended number len before (shiftLoop len rounds loop) := by
  induction rounds generalizing full bits loop with
  | zero => omega
  | succ rounds ih =>
      rw [shiftLoop]
      split
      · next stop =>
          have none : loop.digits = [] := by
            rcases stop with none | broken
            · exact none
            · rw [shifted.going] at broken
              cases broken
          have zero : number / 256 ^ full / 2 ^ bits = 0 := by
            rw [← shifted.value, none]
            rfl
          refine .done full bits inside (by omega) zero ?_ shifted
          rw [div_bits] at zero
          have bound : number < 2 ^ (8 * full + bits) := 
            Nat.lt_of_div_eq_zero (Nat.two_pow_pos _) zero
          exact Nat.lt_of_lt_of_le bound (Nat.pow_le_pow_right (by decide) (by
            rw [sqlMaxNumericLen] at left
            omega))
      · next goes =>
          have some : loop.digits ≠ [] := fun none => goes (Or.inl none)
          cases rounds with
          | zero =>
              have at_full : full = sqlMaxNumericLen - 2 := by
                rw [sqlMaxNumericLen] at left ⊢
                omega
              have at_bits : bits = 7 := by
                rw [sqlMaxNumericLen] at left
                omega
              subst at_full at_bits
              obtain ⟨digits, none, same⟩ := shifted.shiftBit_break len
              refine .broken digits none ?_ same
              by_contra short
              refine some (shifted.ended (by decide) ?_)
              rw [div_bits]
              exact Nat.div_eq_of_lt (by
                rw [sqlMaxNumericLen]
                omega)
          | succ rounds =>
              obtain ⟨nextFull, nextBits, nextInside, count, next⟩ :=
                shifted.shiftBit_next len inside (by omega)
              exact ih next nextInside (by omega) (by omega)

end Shifted

/-! ## The digits of a text -/

/-- A decimal text: digits with an optional sign in front and an optional point in them. -/
structure NumericText where
  sign : Option Bool
  whole : List (Fin 10)
  fraction : Option (List (Fin 10))
  deriving DecidableEq, Repr

namespace NumericText

variable (number : NumericText)

/-- The text; a sign is `true` for a minus. -/
def text : List Char :=
  (number.sign.map fun minus => if minus then '-' else '+').toList ++
    (digitText number.whole ++
      (number.fraction.map fun digits => '.' :: digitText digits).getD [])

def digits : List (Fin 10) := number.whole ++ number.fraction.getD []

def scale : Nat := (number.fraction.getD []).length

def value : Nat := ofDigits number.digits

/-- The structure that stands for the number. -/
def exact : SqlNumericStruct where
  precision := number.digits.length
  scale := number.scale
  sign := if number.sign = some true then 0 else 1
  val := little sqlMaxNumericLen number.value

end NumericText

theorem bufferValue_digitText (digits : List (Fin 10)) :
    bufferValue ((digitText digits).map fun character => character.toNat - '0'.toNat) =
      ofDigits digits := by
  induction digits with
  | nil => rfl
  | cons digit rest ih =>
      rw [digitText_cons, List.map_cons, bufferValue, ih, digitChar_value, List.length_map,
        digitText_length, ← List.singleton_append, ofDigits_append]
      simp [ofDigits]

/-- The C library reads up to eighteen digits. -/
theorem strtol_digitText {digits : List (Fin 10)} (few : digits.length ≤ 18) :
    strtol (digitText digits) = ofDigits digits := by
  have below := ofDigits_lt digits
  have bound : 10 ^ digits.length ≤ 10 ^ 18 := Nat.pow_le_pow_right (by decide) few
  by_cases none : digits = []
  · subst none
    decide
  · have read : scanInt digits.length (digitText digits ++ []) = some ((ofDigits digits : Int), []) :=
      scanInt_digitText none (le_refl _) (Or.inl rfl)
    rw [List.append_nil] at read
    rw [strtol, digitText_length, read]
    dsimp only
    omega

/-- The bytes above those of a number are zero. -/
theorem little_above {low number : Nat} (fits : number < 256 ^ low) (high : Nat) :
    little (low + high) number = little low number ++ List.replicate high 0 := by
  rw [little_add, Nat.div_eq_of_lt fits, little_zero]

variable {before : SqlNumericStruct} {digits : List (Fin 10)}

/-- Up to eighteen digits are put into the bytes. -/
theorem convertDigits_few (empty : before.val = List.replicate sqlMaxNumericLen 0)
    (few : digits.length ≤ 18) :
    convertDigits (digitText digits) before =
      { before with val := little sqlMaxNumericLen (ofDigits digits) } := by
  have below := ofDigits_lt digits
  have bound : 10 ^ digits.length ≤ 10 ^ 18 := Nat.pow_le_pow_right (by decide) few
  have same : unsigned 8 (ofDigits digits : Int) = ofDigits digits := by
    rw [unsigned]
    omega
  rw [convertDigits, digitText_length, if_pos few, strtol_digitText few, same, empty]
  congr 1
  exact (little_above (show ofDigits digits < 256 ^ 8 by omega) 8).symm

/-- The start of the loop over the bits. -/
theorem shifted_start (empty : before.val = List.replicate sqlMaxNumericLen 0)
    (digits : List (Fin 10)) :
    Shifted (ofDigits digits) 0 0 before
      { digits := (digitText digits).map fun character => character.toNat - '0'.toNat
        iOutVal := 0
        iBit := 1
        iOutLen := 0
        pnVal := before
        broken := false } := by
  refine ⟨?_, fun none => absurd none (by decide), ?_, rfl, rfl, ?_, rfl⟩
  · rw [bufferValue_digitText, Nat.pow_zero, Nat.pow_zero, Nat.div_one, Nat.div_one]
  · exact (Nat.mod_one _).symm
  · rw [little, List.nil_append, Nat.sub_zero, ← empty]

/-- What the loop over the bits leaves of a number below `2 ^ 119`. -/
theorem convertDigits_short (empty : before.val = List.replicate sqlMaxNumericLen 0)
    (many : 18 < digits.length) (short : ofDigits digits < 2 ^ 119) :
    convertDigits (digitText digits) before =
      { before with val := little sqlMaxNumericLen (ofDigits digits) } := by
  have ends := (shifted_start empty digits).shiftLoop_ended digits.length
    (8 * (sqlMaxNumericLen - 1)) (by decide) (by decide) (by decide)
  rw [convertDigits, digitText_length, if_neg (Nat.not_le.mpr many)]
  dsimp only
  generalize shiftLoop digits.length (8 * (sqlMaxNumericLen - 1)) _ = loop at ends ⊢
  cases ends with
  | broken rest none long same => exact absurd short (Nat.not_lt.mpr long)
  | done full bits inside room small _ shifted =>
      rw [shifted.iOutVal, shifted.iOutLen, shifted.pnVal]
      have below : ofDigits digits / 256 ^ full < 2 ^ bits :=
        Nat.lt_of_div_eq_zero (Nat.two_pow_pos _) small
      have byte : ofDigits digits / 256 ^ full < 256 :=
        Nat.lt_of_lt_of_le below (Nat.pow_le_pow_right (by decide) (by omega : bits ≤ 8))
      have few : full < sqlMaxNumericLen - 1 := by omega
      have fits : ofDigits digits < 256 ^ (full + 1) := by
        rw [Nat.pow_succ, Nat.mul_comm]
        exact (Nat.div_lt_iff_lt_mul (Nat.pow_pos (by decide))).mp byte
      rw [Nat.mod_eq_of_lt below]
      split
      · dsimp only
        rw [little_set (by omega) rfl, ← little_above fits, Nat.add_sub_cancel' (by omega)]
      · next zero =>
          have none : ofDigits digits / 256 ^ full = 0 := by
            by_contra some
            exact zero ⟨some, few⟩
          rw [← little_above (Nat.lt_of_div_eq_zero (Nat.pow_pos (by decide)) none),
            Nat.add_sub_cancel' (by omega)]

/-- What the loop over the bits leaves of a number from `2 ^ 119` on. -/
theorem convertDigits_long (before : SqlNumericStruct)
    (empty : before.val = List.replicate sqlMaxNumericLen 0)
    (many : 18 < digits.length) (long : 2 ^ 119 ≤ ofDigits digits) :
    ∃ rest : List Nat,
      (rest = [] ↔ ofDigits digits / 256 ^ (sqlMaxNumericLen - 1) = 0) ∧
      convertDigits (digitText digits) before =
        { before with
          val := little (sqlMaxNumericLen - 1) (ofDigits digits) ++ [0]
          scale := wrap 1 ((digits.length : Int) - rest.length - before.precision) } := by
  have ends := (shifted_start empty digits).shiftLoop_ended digits.length
    (8 * (sqlMaxNumericLen - 1)) (by decide) (by decide) (by decide)
  rw [convertDigits, digitText_length, if_neg (Nat.not_le.mpr many)]
  dsimp only
  generalize shiftLoop digits.length (8 * (sqlMaxNumericLen - 1)) _ = loop at ends ⊢
  cases ends with
  | done full bits inside room small short => exact absurd short (Nat.not_lt.mpr long)
  | broken rest none _ same =>
      subst same
      exact ⟨rest, none, by simp⟩

/-! ## The text -/

theorem digitText_no_point (digits : List (Fin 10)) : ∀ character ∈ digitText digits,
    character ≠ '.' := by
  intro character member
  obtain ⟨digit, -, rfl⟩ := List.mem_map.mp member
  clear member
  revert digit
  decide

theorem dropWhile_point (digits : List (Fin 10)) (rest : List Char) :
    (digitText digits ++ rest).dropWhile (fun character => character ≠ '.') =
      rest.dropWhile fun character => character ≠ '.' := by
  refine List.dropWhile_append_of_pos ?_
  intro character member
  simpa using digitText_no_point digits character member

namespace NumericText

variable (number : NumericText)

def unsignedText : List Char :=
  digitText number.whole ++
    (number.fraction.map fun digits => '.' :: digitText digits).getD []

/-- The digits, or the point before them, are no sign. -/
theorem takeSign_text : takeSign number.text =
    (if number.sign = some true then 0 else 1, number.unsignedText) := by
  obtain ⟨sign, whole, fraction⟩ := number
  cases sign with
  | some minus => cases minus <;> rfl
  | none =>
      simp only [text, unsignedText, Option.map_none, Option.toList_none, List.nil_append]
      cases whole with
      | nil => cases fraction <;> rfl
      | cons digit rest =>
          obtain ⟨-, noMinus, noPlus⟩ := digitChar_plain digit
          rw [digitText_cons, List.cons_append, takeSign]
          · rfl
          · intro input same
            exact noPlus (List.cons.inj same).1
          · intro input same
            exact noMinus (List.cons.inj same).1

/-- With at most 38 digits nothing is cut off. -/
theorem splitPoint_text (short : number.digits.length ≤ 38) :
    splitPoint number.unsignedText =
      (number.digits.length, (number.scale : Int), digitText number.digits) := by
  obtain ⟨sign, whole, fraction⟩ := number
  cases fraction with
  | none =>
      simp only [digits, Option.getD_none, List.append_nil] at short
      have ends := dropWhile_point whole []
      rw [List.append_nil] at ends
      simp only [splitPoint, unsignedText, Option.map_none, Option.getD_none, digits, scale,
        List.append_nil, ends, List.dropWhile_nil]
      rw [digitText_length, Nat.mod_eq_of_lt (by omega),
        List.take_of_length_le (by rw [digitText_length, padbMaxNumBufLen]; omega)]
      rfl
  | some fraction =>
      simp only [digits, Option.getD_some, List.length_append] at short
      have point : ('.' :: digitText fraction).dropWhile (fun character => character ≠ '.') =
          '.' :: digitText fraction := rfl
      have narrow : wrap 1 (fraction.length : Int) = fraction.length :=
        wrap_of_range (by omega) (by omega)
      simp only [splitPoint, unsignedText, Option.map_some, Option.getD_some, dropWhile_point,
        digits, scale, point, List.length_append, List.length_cons, digitText_length, narrow,
        padbMaxNumBufLen]
      have len1 : (min ((↑(whole.length + (fraction.length + 1)) : Int) - 1 - fraction.length)
          (40 : Nat)) = whole.length := by omega
      have len2 : min (fraction.length : Int) ((40 : Nat) - whole.length) = fraction.length := by
        omega
      have taken : (digitText whole ++ '.' :: digitText fraction).take whole.length =
          digitText whole := List.take_left' (digitText_length whole)
      rw [len1, len2, Int.toNat_natCast, Int.toNat_natCast, taken,
        List.take_of_length_le (by rw [digitText_length]), digitText_append]
      refine Prod.ext ?_ rfl
      dsimp only
      omega

/-- The conversion of a text is the conversion of its digits. -/
theorem convert_text (short : number.digits.length ≤ 38) :
    convertNumericStringToScaledInteger number.text =
      convertDigits (digitText number.digits)
        { number.exact with val := List.replicate sqlMaxNumericLen 0 } := by
  rw [convertNumericStringToScaledInteger, number.takeSign_text]
  dsimp only
  rw [number.splitPoint_text short]
  rfl

theorem text_plain : '\x00' ∉ number.text := by
  have digits_plain : ∀ digits : List (Fin 10), '\x00' ∉ digitText digits := by
    intro digits member
    obtain ⟨digit, -, same⟩ := List.mem_map.mp member
    clear member
    revert digit
    decide
  obtain ⟨sign, whole, fraction⟩ := number
  rw [text, List.mem_append, List.mem_append]
  rintro (inSign | inWhole | inFraction)
  · cases sign with
    | none => cases inSign
    | some minus => cases minus <;> exact absurd inSign (by simp)
  · exact digits_plain whole inWhole
  · cases fraction with
    | none => cases inFraction
    | some fraction =>
        rcases List.mem_cons.mp inFraction with point | inDigits
        · exact absurd point (by decide)
        · exact digits_plain fraction inDigits

theorem text_length_le : number.text.length ≤ number.digits.length + 2 := by
  obtain ⟨sign, whole, fraction⟩ := number
  cases sign <;> cases fraction <;> simp [text, digits] <;> omega

/-- A value from the server is converted from its whole text. -/
theorem getNumericVal_text (short : number.digits.length ≤ 38) (some_digit : number.digits ≠ [])
    (beyond : List Char) :
    getNumericVal (number.text ++ '\x00' :: beyond) number.text.length =
      convertNumericStringToScaledInteger number.text := by
  have length := number.text_length_le
  have positive : 0 < number.text.length := by
    rw [List.length_pos_iff]
    intro none
    refine some_digit ?_
    obtain ⟨sign, whole, fraction⟩ := number
    cases sign <;> cases fraction <;> simp_all [text, digits, digitText]
  rw [getNumericVal, if_pos positive,
    valueText_append number.text_plain (by rw [maxNumberBufLen]; omega)]

end NumericText

/-- The sixteenth byte of a number is zero exactly when the number has fifteen bytes. -/
theorem little_last {number : Nat} (bound : number < 2 ^ 127) :
    little (sqlMaxNumericLen - 1) number ++ [0] = little sqlMaxNumericLen number ↔
      number / 256 ^ (sqlMaxNumericLen - 1) = 0 := by
  have high : number / 256 ^ (sqlMaxNumericLen - 1) < 256 := by
    rw [sqlMaxNumericLen]
    omega
  have whole : little sqlMaxNumericLen number = little (sqlMaxNumericLen - 1) number ++
      [UInt8.ofNat (number / 256 ^ (sqlMaxNumericLen - 1))] :=
    little_add (sqlMaxNumericLen - 1) 1 number
  rw [whole, List.append_cancel_left_eq]
  generalize number / 256 ^ (sqlMaxNumericLen - 1) = byte at high ⊢
  constructor
  · intro same
    have bytes := congrArg UInt8.toNat (List.cons.inj same).1
    rw [UInt8.toNat_ofNat'] at bytes
    simp only [UInt8.toNat_zero] at bytes
    omega
  · rintro rfl
    rfl

/--
The structure is exact exactly when the loop over the bits is not broken off, or
it is with nothing lost: neither a sixteenth byte nor digits after the point.
-/
theorem convertNumericStringToScaledInteger_exact_iff (number : NumericText)
    (short : number.digits.length ≤ 38) :
    convertNumericStringToScaledInteger number.text = number.exact ↔
      number.value < 2 ^ 119 ∨ number.value < 2 ^ 120 ∧ number.scale = 0 := by
  rw [number.convert_text short]
  by_cases few : number.digits.length ≤ 18
  · have below := ofDigits_lt number.digits
    have bound : 10 ^ number.digits.length ≤ 10 ^ 18 := Nat.pow_le_pow_right (by decide) few
    refine iff_of_true (convertDigits_few rfl few) (Or.inl ?_)
    rw [NumericText.value]
    omega
  · rw [Nat.not_le] at few
    by_cases small : number.value < 2 ^ 119
    · exact iff_of_true (convertDigits_short rfl few small) (Or.inl small)
    · obtain ⟨rest, none, same⟩ := convertDigits_long
        { number.exact with val := List.replicate sqlMaxNumericLen 0 } rfl few
        (Nat.not_lt.mp small)
      have bound : number.value < 2 ^ 127 := by
        have below := ofDigits_lt number.digits
        have power : 10 ^ number.digits.length ≤ 10 ^ 38 :=
          Nat.pow_le_pow_right (by decide) short
        rw [NumericText.value]
        omega
      have bytes : number.value / 256 ^ (sqlMaxNumericLen - 1) = 0 ↔ number.value < 2 ^ 120 := by
        rw [Nat.div_eq_zero_iff_lt (Nat.pow_pos (by decide))]
        rfl
      rw [same]
      constructor
      · intro exact
        have val := congrArg SqlNumericStruct.val exact
        have scale := congrArg SqlNumericStruct.scale exact
        have fifteen := (little_last bound).mp val
        dsimp only [NumericText.exact] at scale
        rw [none.mpr fifteen, List.length_nil, Int.natCast_zero, Int.sub_zero, Int.sub_self,
          wrap_of_range (by decide) (by decide)] at scale
        exact Or.inr ⟨bytes.mp fifteen, by omega⟩
      · rintro (low | ⟨fits, noScale⟩)
        · exact absurd low small
        · have fifteen := bytes.mpr fits
          have val := (little_last bound).mpr fifteen
          dsimp only [NumericText.exact]
          rw [none.mpr fifteen, List.length_nil, Int.natCast_zero, Int.sub_zero, Int.sub_self,
            wrap_of_range (by decide) (by decide), noScale]
          congr 1

/-- `-12345678901234567890.5`. -/
theorem convertNumericStringToScaledInteger_exact_negative :
    convertNumericStringToScaledInteger (NumericText.text
        ⟨some true, [1, 2, 3, 4, 5, 6, 7, 8, 9, 0, 1, 2, 3, 4, 5, 6, 7, 8, 9, 0], some [5]⟩) =
      NumericText.exact
        ⟨some true, [1, 2, 3, 4, 5, 6, 7, 8, 9, 0, 1, 2, 3, 4, 5, 6, 7, 8, 9, 0], some [5]⟩ :=
  (convertNumericStringToScaledInteger_exact_iff _ (by decide)).mpr (Or.inl (by decide))

/-- `1000000000000000000000000000000000000.0` loses its scale and its last byte. -/
theorem convertNumericStringToScaledInteger_exact_wrong : ¬ ∀ number : NumericText,
    number.digits.length ≤ 38 →
      convertNumericStringToScaledInteger number.text = number.exact := by
  intro every
  have same := every ⟨none, 1 :: List.replicate 36 0, some [0]⟩ (by decide)
  revert same
  decide +kernel

end RedshiftOdbc.Convert
