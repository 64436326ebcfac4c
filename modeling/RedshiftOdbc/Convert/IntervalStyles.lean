import RedshiftOdbc.Convert.IntervalText

/-!
# Intervals of days and seconds in all styles

Each style takes its own branch of `parse_intervald2s`.  The fields and the word
of the fraction are read from the words of a text, and the fraction goes through
`micr`.  The driver's own text is read in the branch for the style `postgres`,
which finds the days and the hours in it and nothing else.
-/

namespace RedshiftOdbc.Convert

open RedshiftOdbc.Scanf RedshiftOdbc.Words RedshiftOdbc.Printf

/-! ## Seconds and clocks -/

/-- What `%s` reads of a fraction. -/
def fractionWord (fraction : List Char) : Option (List Char) :=
  if fraction = [] then none else some fraction.tail

/-- A text ends a number and a word: it is over, or it goes on with a blank. -/
def EndsWord (rest : List Char) : Prop := rest = [] ∨ ∃ behind, rest = ' ' :: behind

theorem EndsWord.endsNumber {rest : List Char} (ends : EndsWord rest) : EndsNumber rest := by
  rcases ends with rfl | ⟨behind, rfl⟩
  · rintro character ⟨⟩
  · rintro character ⟨⟩
    rfl

theorem isSpace_digit {character : Char} (isDigit : character.isDigit = true) :
    isSpace character = false := by
  obtain ⟨digit, rfl⟩ := exists_digit isDigit
  exact (digitChar_plain digit).1

/-- `%s` reads digits up to a blank or the end. -/
theorem scanWord_digits {digits rest : List Char} (some_digit : digits ≠ [])
    (characters : ∀ character ∈ digits, character.isDigit = true) (ends : EndsWord rest) :
    scanWord (digits ++ rest) = some (digits, rest) := by
  obtain ⟨digit, more, rfl⟩ := List.exists_cons_of_ne_nil some_digit
  have skip : skipSpace (digit :: more ++ rest) = digit :: more ++ rest :=
    skipSpace_of_head (isSpace_digit (characters digit List.mem_cons_self))
  have inside : ∀ character ∈ digit :: more, (!isSpace character) = true := by
    intro character member
    rw [isSpace_digit (characters character member)]
    rfl
  have behind : rest.takeWhile (fun character => !isSpace character) = [] ∧
      rest.dropWhile (fun character => !isSpace character) = rest := by
    rcases ends with rfl | ⟨behind, rfl⟩
    · exact ⟨rfl, rfl⟩
    · have blank : isSpace ' ' = true := by decide
      simp [blank]
  rw [scanWord, skip, List.takeWhile_append_of_pos inside, List.dropWhile_append_of_pos inside,
    behind.1, behind.2, List.append_nil, if_neg (List.cons_ne_nil _ _)]

/-- `"%d.%s"` reads seconds with or without a fraction. -/
theorem sscanf_seconds (limit width : Nat) (sec : Int) (rest : List Char) {fsec : Int}
    {fraction : List Char}
    (nonneg : 0 ≤ fsec) (isFraction : FractionText fsec fraction) (ends : EndsWord rest)
    (fits : (printInt false width sec).length ≤ limit) :
    sscanf [.int limit, .literal '.', .word] (printInt false width sec ++ (fraction ++ rest)) =
      ⟨[sec], (fractionWord fraction).toList⟩ := by
  cases isFraction with
  | whole zero =>
      rw [List.nil_append]
      simp only [sscanf, scanInt_printInt _ _ _ _ fits ends.endsNumber]
      rcases ends with rfl | ⟨behind, rfl⟩
      · simp [fractionWord]
      · simp [fractionWord]
  | digits places some_place le exact =>
      have part : 0 ≤ fsec / 10 ^ (6 - places) := Int.ediv_nonneg nonneg (by positivity)
      have number := scanInt_printInt width limit sec
        ('.' :: (printInt false places (fsec / 10 ^ (6 - places)) ++ rest)) fits
        (by rintro character ⟨⟩; rfl)
      have word := scanWord_digits (printInt_ne_nil false places (fsec / 10 ^ (6 - places)))
        (printInt_digits _ part).1 ends
      rw [List.cons_append]
      simp only [sscanf, number, word, if_true]
      simp [fractionWord]

/-- A clock is read from its text. -/
theorem sscanf_clock {t : Int} {fraction : List Char} {limit width : Nat}
    (isFraction : FractionText (fsecPart t) fraction)
    (fits : (clockText width t fraction).length ≤ limit) :
    sscanf (clockFormat limit) (clockText width t fraction) =
      ⟨[hourPart t, minPart t, secPart t], (fractionWord fraction).toList⟩ := by
  simp only [clockText, List.length_append, List.length_cons] at fits
  have fsec : 0 ≤ fsecPart t := Int.emod_nonneg _ (by decide)
  have colon (rest : List Char) : EndsNumber (':' :: rest) := by
    rintro character ⟨⟩
    rfl
  have hour := scanInt_printInt width limit (hourPart t)
    (':' :: (printInt false 2 (minPart t) ++ ':' :: (printInt false 2 (secPart t) ++
      fraction))) (by omega) (colon _)
  have min := scanInt_printInt 2 limit (minPart t)
    (':' :: (printInt false 2 (secPart t) ++ fraction)) (by omega) (colon _)
  have sec := sscanf_seconds limit 2 (secPart t) [] fsec isFraction
    (Or.inl rfl) (by omega)
  rw [List.append_nil] at sec
  rw [clockFormat, clockText, sscanf, hour]
  dsimp only
  rw [sscanf_literal, sscanf, min]
  dsimp only
  rw [sscanf_literal, sec]

/-! ## The fraction -/

theorem decimal_zeros (digits : List Char) (count : Nat) :
    decimal (digits ++ List.replicate count '0') = decimal digits * 10 ^ count := by
  induction count with
  | zero => simp
  | succ count ih =>
      have zero : '0'.toNat - '0'.toNat = 0 := rfl
      rw [List.replicate_succ', ← List.append_assoc, decimal_append, ih, zero, Nat.pow_succ]
      ring

/-- `atoi` of a sign and digits. -/
theorem atoi_sign (negative : Bool) {digits : List Char} (some_digit : digits ≠ [])
    (characters : ∀ character ∈ digits, character.isDigit = true)
    (small : decimal digits < 1000000) :
    atoi ((if negative then '-' else '+') :: digits) =
      if negative then -(decimal digits : Int) else decimal digits := by
  obtain ⟨values, same⟩ := exists_digitText characters
  have span : spanDigits digits.length (digitText values ++ []) = (digitText values, []) :=
    spanDigits_digitText (by rw [same]; simp) (Or.inl (by rw [same]; simp))
  rw [← same, List.append_nil] at span
  have skip : ∀ sign : Char, isSpace sign = false →
      skipSpace (sign :: digits) = sign :: digits := fun sign plain => skipSpace_of_head plain
  have bound : (decimal digits : Int) < 1000000 := by exact_mod_cast small
  have long : ∀ value : Int, -1000000 < value → value < 1000000 →
      wrap 4 (max (-(2 ^ 63)) (min (2 ^ 63 - 1) value)) = value := by
    intro value low high
    rw [min_eq_right (by norm_num; omega), max_eq_right (by norm_num; omega)]
    exact wrap_of_range (by norm_num; omega) (by norm_num; omega)
  cases negative with
  | true =>
      have read : scanInt ('-' :: digits).length ('-' :: digits) =
          some (-(decimal digits : Int), []) := by
        rw [scanInt, skip '-' (by decide), scanSign]
        simp [span, some_digit]
      simp only [if_true, atoi, strtol, read]
      exact long _ (by omega) (by omega)
  | false =>
      have read : scanInt ('+' :: digits).length ('+' :: digits) =
          some ((decimal digits : Int), []) := by
        rw [scanInt, skip '+' (by decide), scanSign]
        simp [span, some_digit]
      simp only [Bool.false_eq_true, if_false, atoi, strtol, read]
      exact long _ (by omega) (by omega)

/-- The array for the fraction holds its sign and its six digits in the end. -/
theorem micr_digits (negative : Bool) (digits : List Char) (short : digits.length ≤ 6)
    (plain : '\x00' ∉ digits) :
    ((storeString "+000000000\x00".toList 1 digits).bind fun stored =>
        if negative then store stored 0 ['-'] else some stored).bind (fun stored =>
      (fillZeros (7 - (cString stored).length) (cString stored).length stored).bind fun padded =>
        (store padded 7 ['\x00']).map cString) =
      some ((if negative then '-' else '+') ::
        (digits ++ List.replicate (6 - digits.length) '0')) := by
  obtain ⟨sign, isSign⟩ : ∃ sign, sign = if negative then '-' else '+' := ⟨_, rfl⟩
  have notEnd : sign ≠ '\x00' := by
    cases negative <;> simp [isSign]
  have array : ("+000000000\x00".toList).take 1 = ['+'] ∧ ("+000000000\x00".toList).length = 11 := by
    decide
  obtain ⟨tail, isTail⟩ : ∃ tail, tail = ("+000000000\x00".toList).drop (1 + (digits.length + 1)) :=
    ⟨_, rfl⟩
  have tailLength : tail.length = 9 - digits.length := by
    rw [isTail, List.length_drop, array.2]
    omega
  have first : storeString "+000000000\x00".toList 1 digits =
      some ('+' :: (digits ++ '\x00' :: tail)) := by
    rw [storeString, store_fits _ _ _ (by rw [array.2]; simp; omega), array.1]
    simp [isTail]
  have signed : (if negative then store ('+' :: (digits ++ '\x00' :: tail)) 0 ['-']
      else some ('+' :: (digits ++ '\x00' :: tail))) =
        some (sign :: (digits ++ '\x00' :: tail)) := by
    cases negative with
    | true =>
        rw [if_pos rfl, store_fits _ _ _ (by simp), isSign]
        simp
    | false => simp [isSign]
  have text : cString (sign :: (digits ++ '\x00' :: tail)) = sign :: digits := by
    rw [← List.cons_append]
    exact cString_append (by simp [notEnd.symm, plain])
  have size : (sign :: (digits ++ '\x00' :: tail)).length = 11 := by
    simp [tailLength]
    omega
  have front : (sign :: (digits ++ '\x00' :: tail)).take (digits.length + 1) = sign :: digits := by
    simp
  obtain ⟨zeros, isZeros⟩ : ∃ zeros, zeros = List.replicate (6 - digits.length) '0' := ⟨_, rfl⟩
  have seven : (sign :: digits ++ zeros).length = 7 := by
    simp [isZeros]
    omega
  have noEnd : '\x00' ∉ sign :: digits ++ zeros := by
    simp [isZeros, notEnd.symm, plain]
  rw [first, Option.bind_some, signed, Option.bind_some, text, List.length_cons,
    fillZeros_eq _ _ _ (by omega), Option.bind_some, front, show 7 - (digits.length + 1) =
      6 - digits.length by omega, ← isZeros, ← isSign]
  have last : ((sign :: (digits ++ '\x00' :: tail)).drop
      (digits.length + 1 + (6 - digits.length))).length = 4 := by
    rw [List.length_drop, size]
    omega
  generalize (sign :: (digits ++ '\x00' :: tail)).drop (digits.length + 1 + (6 - digits.length)) =
    behind at last
  rw [store_fits _ _ _ (by rw [List.length_append, seven, last]; decide), Option.map_some,
    List.take_left' seven, List.append_assoc, List.singleton_append, cString_append noEnd,
    List.cons_append]

/-- What the function returns once the fields are read. -/
theorem parse_fields (front : Char) {buf : List Char} {buf_len : Nat} {fields : IntervalFields}
    (isFields : scanInterval front buf buf_len = fields) {fsec : Int} {fraction : List Char}
    (nonneg : 0 ≤ fsec) (lt : fsec < 1000000) (isFraction : FractionText fsec fraction)
    (isWord : fields.word = fractionWord fraction) :
    parse_intervald2s front buf buf_len =
      some ⟨unsigned 4 fields.day, unsigned 4 fields.hour, unsigned 4 fields.min,
        unsigned 4 fields.sec, unsigned 4 (if fields.negative then -fsec else fsec)⟩ := by
  have result : ∀ text : List Char, atoi text = (if fields.negative then -fsec else fsec) →
      ((storeMicr fields).bind fun stored =>
        (fillZeros (7 - (cString stored).length) (cString stored).length stored).bind fun padded =>
          (store padded 7 ['\x00']).map cString) = some text →
      parse_intervald2s front buf buf_len =
        some ⟨unsigned 4 fields.day, unsigned 4 fields.hour, unsigned 4 fields.min,
          unsigned 4 fields.sec, unsigned 4 (if fields.negative then -fsec else fsec)⟩ := by
    intro text value stored
    simp only [Option.bind_eq_some_iff, Option.map_eq_some_iff] at stored
    obtain ⟨array, first, padded, second, micr, third, rfl⟩ := stored
    rw [parse_intervald2s, isFields]
    dsimp only
    rw [first, Option.bind_some, second, Option.bind_some, third, Option.map_some, value]
  cases isFraction with
  | whole zero =>
      have none : fields.word = none := isWord.trans (by simp [fractionWord])
      refine result ((if fields.negative then '-' else '+') :: "000000".toList) ?_ ?_
      · rw [zero]
        cases fields.negative <;> decide
      · rw [storeMicr, none]
        cases fields.negative <;> decide
  | digits places some_place le exact =>
      have part : 0 ≤ fsec / 10 ^ (6 - places) := Int.ediv_nonneg nonneg (by positivity)
      obtain ⟨characters, -⟩ := printInt_digits places part
      have power : (10 : Int) ^ (6 - places) * 10 ^ places = 1000000 := by
        rw [← pow_add, Nat.sub_add_cancel le]
        norm_num
      have length : (printInt false places (fsec / 10 ^ (6 - places))).length = places := by
        refine printInt_length some_place part ?_
        rw [Nat.cast_pow]
        exact Int.ediv_lt_of_lt_mul (by positivity) (by push_cast; rw [mul_comm, power]; exact lt)
      have isSome : fields.word = some (printInt false places (fsec / 10 ^ (6 - places))) :=
        isWord.trans (by simp [fractionWord])
      have zeros : ∀ character ∈ printInt false places (fsec / 10 ^ (6 - places)) ++
          List.replicate (6 - places) '0', character.isDigit = true := by
        intro character member
        rcases List.mem_append.mp member with digit | zero
        · exact characters character digit
        · rw [List.eq_of_mem_replicate zero]
          rfl
      have whole : (decimal (printInt false places (fsec / 10 ^ (6 - places)) ++
          List.replicate (6 - places) '0') : Int) = fsec := by
        rw [decimal_zeros, Nat.cast_mul, decimal_printInt places part, Nat.cast_pow]
        exact Int.ediv_mul_cancel (Int.dvd_of_emod_eq_zero exact)
      refine result ((if fields.negative then '-' else '+') ::
        (printInt false places (fsec / 10 ^ (6 - places)) ++
          List.replicate (6 - places) '0')) ?_ ?_
      · rw [atoi_sign fields.negative (by simp [printInt_ne_nil]) zeros (by omega), whole]
      · rw [storeMicr, isSome]
        have stored := micr_digits fields.negative
          (printInt false places (fsec / 10 ^ (6 - places))) (by omega)
          (printInt_plain _ _ _)
        rw [length] at stored
        exact stored

/-! ## The parts of an interval -/

theorem parts_bounds {t : Int} (low : -9223372036854775808 ≤ t) (high : t ≤ 9223372036854775807) :
    (0 ≤ dayPart t ∧ dayPart t ≤ 106751991) ∧ (0 ≤ hourPart t ∧ hourPart t ≤ 23) ∧
      (0 ≤ minPart t ∧ minPart t ≤ 59) ∧ (0 ≤ secPart t ∧ secPart t ≤ 59) ∧
        (0 ≤ fsecPart t ∧ fsecPart t ≤ 999999) ∧
          dayPart t * 86400000000 + hourPart t * 3600000000 + minPart t * 60000000 +
            secPart t * 1000000 + fsecPart t = |t| := by
  have nonneg := abs_nonneg t
  have le : |t| ≤ 9223372036854775808 := abs_le.mpr ⟨low, by omega⟩
  unfold dayPart hourPart minPart secPart fsecPart
  generalize |t| = size at *
  omega

/-- Fields that are an `int` each say their sum. -/
theorem microseconds_fields {day hour min sec fsec : Int}
    (days : -2147483648 ≤ day ∧ day ≤ 2147483647) (hours : -59 ≤ hour ∧ hour ≤ 59)
    (mins : -59 ≤ min ∧ min ≤ 59) (secs : -59 ≤ sec ∧ sec ≤ 59)
    (fraction : -999999 ≤ fsec ∧ fsec ≤ 999999) :
    IntervalD2s.microseconds ⟨unsigned 4 day, unsigned 4 hour, unsigned 4 min, unsigned 4 sec,
      unsigned 4 fsec⟩ =
        day * 86400000000 + hour * 3600000000 + min * 60000000 + sec * 1000000 + fsec := by
  rw [IntervalD2s.microseconds, signed_int days.1 days.2, signed_int (by omega) (by omega),
    signed_int (by omega) (by omega), signed_int (by omega) (by omega),
    signed_int (by omega) (by omega)]

/-- A part with a sign or without. -/
def negateIf (negative : Bool) (part : Int) : Int := if negative then -part else part

/-- The parts of an interval with one sign say the interval. -/
theorem microseconds_parts {t : Int} (low : -9223372036854775808 ≤ t)
    (high : t ≤ 9223372036854775807) {day : Int} {negative : Bool}
    (isDay : day = withSign t (dayPart t))
    (isNegative : negative = decide (t < 0) ∨ t % 86400000000 = 0) :
    IntervalD2s.microseconds ⟨unsigned 4 day, unsigned 4 (negateIf negative (hourPart t)),
      unsigned 4 (negateIf negative (minPart t)), unsigned 4 (negateIf negative (secPart t)),
      unsigned 4 (negateIf negative (fsecPart t))⟩ = t := by
  obtain ⟨days, hours, mins, secs, fraction, sum⟩ := parts_bounds low high
  have range (part : Int) {bound : Int} (inside : 0 ≤ part ∧ part ≤ bound) :
      -bound ≤ negateIf negative part ∧ negateIf negative part ≤ bound := by
    rw [negateIf]
    split_ifs <;> omega
  have dayRange : -2147483648 ≤ day ∧ day ≤ 2147483647 := by
    rw [isDay, withSign]
    split_ifs <;> omega
  have hourRange := range (hourPart t) hours
  rw [microseconds_fields dayRange ⟨by omega, by omega⟩ (range _ mins) (range _ secs)
    (range _ fraction), isDay]
  have whole : t % 86400000000 = 0 →
      hourPart t = 0 ∧ minPart t = 0 ∧ secPart t = 0 ∧ fsecPart t = 0 := by
    intro zero
    have multiple : |t| % 86400000000 = 0 :=
      by rcases abs_choice t with same | same <;> rw [same] <;> omega
    unfold hourPart minPart secPart fsecPart
    omega
  unfold withSign negateIf
  rcases Int.lt_or_le t 0 with below | above
  · rw [abs_of_neg below] at sum
    rw [if_pos below]
    rcases isNegative with rfl | zero
    · simp only [below, decide_true, if_true]
      omega
    · obtain ⟨noHour, noMin, noSec, noFraction⟩ := whole zero
      split_ifs <;> omega
  · rw [abs_of_nonneg above] at sum
    rw [if_neg (by omega)]
    rcases isNegative with rfl | zero
    · simp only [Int.not_lt.mpr above, decide_false, Bool.false_eq_true, if_false]
      omega
    · obtain ⟨noHour, noMin, noSec, noFraction⟩ := whole zero
      split_ifs <;> omega

/-! ## The styles of the server -/

/-- A character of a text without letters. -/
def isClockCharacter (character : Char) : Bool :=
  character == ' ' || character == ':' || isDigitOrMinus character || character == '.'

theorem scanInterval_text (front : Char) {text : List Char} (plain : '\x00' ∉ text)
    (more : List Char) :
    scanInterval front (text ++ '\x00' :: more) text.length =
      if text.any fun character => !(character == '@' || isClockCharacter character) then
        let day := searchField front text ['d', 'a', 'y'] 0
        if '@' ∈ text then verboseInterval front text day.1 day.2
        else clockInterval text day.1 day.2
      else plainInterval (decide (' ' ∈ text)) text := by
  obtain ⟨isText, isSeen⟩ := cString_text plain more
  have same : ∀ character : Char, (character == '@' || character == ' ' || character == ':' ||
      isDigitOrMinus character || character == '.') =
        (character == '@' || isClockCharacter character) := by
    intro character
    simp only [isClockCharacter, Bool.or_assoc]
  simp only [scanInterval, isText, isSeen, same]

theorem FractionText.characters {fsec : Int} {fraction : List Char} (nonneg : 0 ≤ fsec)
    (isFraction : FractionText fsec fraction) :
    ∀ character ∈ fraction, character = '.' ∨ character.isDigit = true := by
  cases isFraction with
  | whole zero => intro character member; cases member
  | digits places some_place le exact =>
      intro character member
      rcases List.mem_cons.mp member with rfl | digit
      · exact Or.inl rfl
      · exact Or.inr ((printInt_digits _ (Int.ediv_nonneg nonneg (by positivity))).1 character digit)

theorem clockText_characters {t : Int} {fraction : List Char} (width : Nat)
    (isFraction : FractionText (fsecPart t) fraction) :
    ∀ character ∈ clockText width t fraction,
      character = ':' ∨ character = '.' ∨ character.isDigit = true := by
  have fsec : 0 ≤ fsecPart t := Int.emod_nonneg _ (by decide)
  have hour : 0 ≤ hourPart t := Int.emod_nonneg _ (by decide)
  have min : 0 ≤ minPart t := Int.emod_nonneg _ (by decide)
  have sec : 0 ≤ secPart t := Int.emod_nonneg _ (by decide)
  intro character member
  simp only [clockText, List.mem_append, List.mem_cons] at member
  rcases member with inHour | colon | inMin | colon | inSec | inFraction
  · exact Or.inr (Or.inr ((printInt_digits _ hour).1 character inHour))
  · exact Or.inl colon
  · exact Or.inr (Or.inr ((printInt_digits _ min).1 character inMin))
  · exact Or.inl colon
  · exact Or.inr (Or.inr ((printInt_digits _ sec).1 character inSec))
  · exact Or.inr (isFraction.characters fsec character inFraction)

/-- A clock begins with a digit. -/
theorem clockText_cons {t : Int} (width : Nat) (fraction : List Char) :
    ∃ character rest, clockText width t fraction = character :: rest ∧
      character.isDigit = true := by
  have hour : 0 ≤ hourPart t := Int.emod_nonneg _ (by decide)
  obtain ⟨character, digits, same⟩ :=
    List.exists_cons_of_ne_nil (printInt_ne_nil false width (hourPart t))
  refine ⟨character, _, by rw [clockText, same, List.cons_append], ?_⟩
  exact (printInt_digits width hour).1 character (by simp [same])

/-- The branch without letters, with or without days. -/
theorem plainInterval_text {t : Int} {fraction : List Char} (has_days negative : Bool) (width : Nat)
    (low : -9223372036854775808 ≤ t) (high : t ≤ 9223372036854775807)
    (isFraction : FractionText (fsecPart t) fraction) :
    plainInterval has_days (minusIf negative ++
        ((if has_days then printInt false 0 (dayPart t) ++ [' '] else []) ++
          clockText width t fraction)) =
      ⟨if has_days then negateIf negative (dayPart t) else 0, negateIf negative (hourPart t),
        negateIf negative (minPart t), negateIf negative (secPart t), negative,
        fractionWord fraction⟩ := by
  obtain ⟨days, hours, mins, secs, -, -⟩ := parts_bounds low high
  obtain ⟨character, clock, isClock, isDigit⟩ := clockText_cons (t := t) width fraction
  obtain ⟨buf, isBuf⟩ : ∃ buf, buf = (if has_days then printInt false 0 (dayPart t) ++ [' ']
      else []) ++ clockText width t fraction := ⟨_, rfl⟩
  have head : buf.head? ≠ some '-' := by
    cases has_days with
    | true =>
        rw [isBuf, if_pos rfl, List.append_assoc]
        exact printInt_head 0 days.1 _
    | false =>
        rw [isBuf, if_neg (by decide), List.nil_append, isClock, List.head?_cons]
        rintro ⟨⟩
        exact absurd isDigit (by decide)
  have sign : (minusIf negative ++ buf).head? = some '-' ↔ negative = true := by
    cases negative <;> simp [minusIf, head]
  have text : (if negative = true then (minusIf negative ++ buf).tail
      else minusIf negative ++ buf) = buf := by
    cases negative <;> simp [minusIf]
  have fits : (clockText width t fraction).length ≤ buf.length := by
    rw [isBuf, List.length_append]
    omega
  -- the directives of the clock read the same with and without days
  have read : (if has_days then sscanf (.int buf.length :: .space :: clockFormat buf.length) buf
      else sscanf (clockFormat buf.length) buf) =
        ⟨(if has_days then [dayPart t] else []) ++ [hourPart t, minPart t, secPart t],
          (fractionWord fraction).toList⟩ := by
    cases has_days with
    | true =>
        have number := scanInt_printInt 0 buf.length (dayPart t)
          (' ' :: clockText width t fraction)
          (by rw [isBuf, if_pos rfl]; simp only [List.length_append]; omega)
          (by rintro character ⟨⟩; rfl)
        have bufText : buf = printInt false 0 (dayPart t) ++ ' ' :: clockText width t fraction := by
          rw [isBuf, if_pos rfl, List.append_assoc, List.singleton_append]
        rw [← bufText] at number
        have clockRead := sscanf_clock isFraction fits
        rw [if_pos rfl, sscanf, number]
        dsimp only
        rw [isClock, sscanf_space _ (isSpace_digit isDigit), ← isClock, clockRead]
        rfl
    | false =>
        have bufText : buf = clockText width t fraction := by
          rw [isBuf, if_neg (by decide), List.nil_append]
        have clockRead := sscanf_clock isFraction fits
        rw [← bufText] at clockRead
        rw [if_neg (by decide), clockRead]
        rfl
  have field (index : Nat) {value bound : Int} (scanned : Scanned)
      (isValue : scanned.ints[index]? = some value) (range : 0 ≤ value ∧ value ≤ bound)
      (small : bound ≤ 106751991) : intField scanned index 0 = value :=
    intField_eq 0 isValue (by omega) (by omega)
  have flip (value : Int) (nonneg : 0 ≤ value) : (if 0 < value then -value else value) = -value := by
    split_ifs <;> omega
  rw [← isBuf, plainInterval]
  simp only [sign, text, read]
  cases has_days with
  | true =>
      have day := field 0 ⟨[dayPart t] ++ [hourPart t, minPart t, secPart t],
        (fractionWord fraction).toList⟩ rfl days (by decide)
      have hour := field 1 ⟨[dayPart t] ++ [hourPart t, minPart t, secPart t],
        (fractionWord fraction).toList⟩ rfl hours (by decide)
      have min := field 2 ⟨[dayPart t] ++ [hourPart t, minPart t, secPart t],
        (fractionWord fraction).toList⟩ rfl mins (by decide)
      have sec := field 3 ⟨[dayPart t] ++ [hourPart t, minPart t, secPart t],
        (fractionWord fraction).toList⟩ rfl secs (by decide)
      simp only [if_true, Nat.reduceAdd, day, hour, min, sec, Option.head?_toList,
        flip _ days.1, flip _ hours.1, flip _ mins.1]
      cases negative <;> rfl
  | false =>
      have hour := field 0 ⟨[] ++ [hourPart t, minPart t, secPart t],
        (fractionWord fraction).toList⟩ rfl hours (by decide)
      have min := field 1 ⟨[] ++ [hourPart t, minPart t, secPart t],
        (fractionWord fraction).toList⟩ rfl mins (by decide)
      have sec := field 2 ⟨[] ++ [hourPart t, minPart t, secPart t],
        (fractionWord fraction).toList⟩ rfl secs (by decide)
      simp only [Bool.false_eq_true, if_false, Nat.reduceAdd, hour, min, sec,
        Option.head?_toList, flip _ hours.1, flip _ mins.1]
      cases negative <;> rfl

/-- The branch that looks for the clock behind the days. -/
theorem clockInterval_text {t day : Int} {fraction buf before : List Char} (minus : Bool)
    {search_pos : Nat} (low : -9223372036854775808 ≤ t) (high : t ≤ 9223372036854775807)
    (isFraction : FractionText (fsecPart t) fraction)
    (letters : ∀ character ∈ before, isDigitOrMinus character = false)
    (rest : buf.drop search_pos = before ++ (minusIf minus ++ clockText 2 t fraction)) :
    clockInterval buf day search_pos =
      ⟨day, negateIf minus (hourPart t), negateIf minus (minPart t), negateIf minus (secPart t),
        minus, fractionWord fraction⟩ := by
  obtain ⟨-, hours, mins, secs, -, -⟩ := parts_bounds low high
  obtain ⟨character, clock, isClock, isDigit⟩ := clockText_cons (t := t) 2 fraction
  have found : (buf.drop search_pos).dropWhile (fun character => !isDigitOrMinus character) =
      minusIf minus ++ clockText 2 t fraction := by
    rw [rest, List.dropWhile_append_of_pos (by simpa using letters)]
    cases minus with
    | true => rfl
    | false => simp [minusIf, isClock, isDigitOrMinus, isDigit]
  have fits : (clockText 2 t fraction).length ≤ buf.length := by
    have length := congrArg List.length rest
    simp only [List.length_drop, List.length_append] at length
    omega
  have clockRead := sscanf_clock isFraction fits
  have field (index : Nat) {value bound : Int} (scanned : Scanned)
      (isValue : scanned.ints[index]? = some value) (range : 0 ≤ value ∧ value ≤ bound)
      (small : bound ≤ 59) : intField scanned index 0 = value :=
    intField_eq 0 isValue (by omega) (by omega)
  have hour := field 0 ⟨[hourPart t, minPart t, secPart t], (fractionWord fraction).toList⟩ rfl
    hours (by decide)
  have min := field 1 ⟨[hourPart t, minPart t, secPart t], (fractionWord fraction).toList⟩ rfl
    mins (by decide)
  have sec := field 2 ⟨[hourPart t, minPart t, secPart t], (fractionWord fraction).toList⟩ rfl
    secs (by decide)
  rw [clockInterval, found]
  cases minus with
  | true =>
      simp only [minusIf, if_true, List.singleton_append, sscanf_literal, clockRead, hour, min, sec,
        Option.head?_toList, negateIf]
  | false =>
      have noMinus : character ≠ '-' := by
        rintro rfl
        exact absurd isDigit (by decide)
      have same : minusIf false ++ clockText 2 t fraction = character :: clock := isClock
      rw [isClock] at clockRead
      rw [same]
      dsimp only
      split
      · rename_i none
        cases none
      · rename_i first
        exact absurd (List.cons.inj first).1 noMinus
      · simp only [clockRead, hour, min, sec, Option.head?_toList, negateIf, Bool.false_eq_true,
          if_false]

/-! ## The verbose style -/

/-- The words where a search stands: the sign in front, or a unit that was found. -/
def StandsOn (units : List (List Char)) (words : List (List Char)) : Prop :=
  words = [['@']] ∨ ∃ unit ∈ units, ∃ plural : Bool, words = [unit ++ if plural then ['s'] else []]

theorem StandsOn.absent {units words : List (List Char)} {name : List Char}
    (stands : StandsOn units words) (sign : ¬ name <:+: ['@'])
    (other : ∀ unit ∈ units, ∀ plural : Bool, ¬ name <:+: unit ++ if plural then ['s'] else []) :
    ∀ word ∈ words, ¬ name <:+: word := by
  intro word member
  rcases stands with rfl | ⟨unit, isUnit, plural, rfl⟩
  · rwa [List.mem_singleton.mp member]
  · rw [List.mem_singleton.mp member]
    exact other unit isUnit plural

theorem unit_letter {name : List Char}
    (known : name ∈ [['d', 'a', 'y'], ['h', 'o', 'u', 'r'], ['m', 'i', 'n']]) :
    ∃ character ∈ name, isDigitOrMinus character = false ∧ character ≠ '.' ∧
      character.isDigit = false := by
  simp only [List.mem_cons, List.not_mem_nil, or_false] at known
  rcases known with rfl | rfl | rfl
  · exact ⟨'d', by decide, by decide⟩
  · exact ⟨'h', by decide, by decide⟩
  · exact ⟨'m', by decide, by decide⟩

/-- The search for a unit from another one on reads its number, or it stays where it is. -/
theorem searchField_verbose (front : Char) (name : List Char) {units : List (List Char)}
    (known : name ∈ [['d', 'a', 'y'], ['h', 'o', 'u', 'r'], ['m', 'i', 'n']]) {value : Int}
    {shown : Bool} (plural : Bool) (left : List (List Char)) {mid rest : List (List Char)}
    (stands : StandsOn units mid)
    (other : ∀ unit ∈ units, ∀ plural : Bool, ¬ name <:+: unit ++ if plural then ['s'] else [])
    (behind : ∀ word ∈ rest, ¬ name <:+: word) (isShown : shown = true ∨ value = 0)
    (low : -2147483648 ≤ value) (high : value ≤ 2147483647) :
    ∃ left' mid', left ++ (mid ++ (unitWords shown plural value name ++ rest)) =
        left' ++ (mid' ++ rest) ∧
      searchField front (spaced (left ++ (mid ++ (unitWords shown plural value name ++ rest)))) name
        (leading left).length = (value, (leading left').length) ∧
      StandsOn (name :: units) mid' := by
  have plain : ∀ name ∈ [['d', 'a', 'y'], ['h', 'o', 'u', 'r'], ['m', 'i', 'n']],
      ' ' ∉ name ∧ ¬ name <:+: ['@'] := by
    decide
  obtain ⟨blank, sign⟩ := plain name known
  obtain ⟨character, member, other_character, -⟩ := unit_letter known
  have more : mid ++ rest ≠ [] := by
    rcases stands with rfl | ⟨unit, -, plural, rfl⟩ <;> simp
  obtain ⟨left', mid', words, read, isMid⟩ := searchField_unit front name value shown plural left
    mid rest blank ⟨character, member, other_character⟩ (stands.absent sign other) behind
    (Or.inl more) low high
  refine ⟨left', mid', words, ?_, ?_⟩
  · rw [read]
    rcases isShown with rfl | rfl
    · rfl
    · rw [ite_self]
  · rcases isMid with ⟨rfl, -⟩ | ⟨rfl, -⟩
    · exact stands.imp_right fun ⟨unit, member, plural, same⟩ =>
        ⟨unit, List.mem_cons_of_mem _ member, plural, same⟩
    · exact Or.inr ⟨name, List.mem_cons_self, plural, rfl⟩

section
variable {t : Int} {fraction : List Char}

/-- The words of a verbose text behind the minutes. -/
def secondWords (t : Int) (fraction : List Char) (plural ago : Bool) : List (List Char) :=
  (printInt false 0 (secPart t) ++ fraction) :: (['s', 'e', 'c'] ++ if plural then ['s'] else []) ::
    if ago then [['a', 'g', 'o']] else []

/-- A needle with a letter is not in the word of the seconds. -/
theorem secondWord_absent (isFraction : FractionText (fsecPart t) fraction) {name : List Char}
    (letter : ∃ character ∈ name, character ≠ '.' ∧ character.isDigit = false) :
    ¬ name <:+: printInt false 0 (secPart t) ++ fraction := by
  obtain ⟨character, member, noPoint, noDigit⟩ := letter
  intro inside
  rcases List.mem_append.mp (inside.subset member) with digit | inFraction
  · rw [(printInt_digits _ (Int.emod_nonneg _ (by decide))).1 character digit] at noDigit
    cases noDigit
  · rcases isFraction.characters (Int.emod_nonneg _ (by decide)) character inFraction with
      point | digit
    · exact noPoint point
    · rw [digit] at noDigit
      cases noDigit

/-- No other unit is named behind the minutes. -/
theorem secondWords_absent (isFraction : FractionText (fsecPart t) fraction) (plural ago : Bool)
    (name : List Char) (known : name ∈ [['d', 'a', 'y'], ['h', 'o', 'u', 'r'], ['m', 'i', 'n']]) :
    ∀ word ∈ secondWords t fraction plural ago, ¬ name <:+: word := by
  have behind : ∀ name ∈ [['d', 'a', 'y'], ['h', 'o', 'u', 'r'], ['m', 'i', 'n']],
      ∀ word ∈ (['s', 'e', 'c'] ++ if plural then ['s'] else []) ::
        (if ago then [['a', 'g', 'o']] else []), ¬ name <:+: word := by
    cases plural <;> cases ago <;> decide
  intro word member
  rcases List.mem_cons.mp member with rfl | last
  · obtain ⟨character, inside, -, other⟩ := unit_letter known
    exact secondWord_absent isFraction ⟨character, inside, other⟩
  · exact behind name known word last

theorem secondWords_plain (isFraction : FractionText (fsecPart t) fraction) (plural ago : Bool) :
    ∀ word ∈ secondWords t fraction plural ago, '\x00' ∉ word := by
  have behind : ∀ word ∈ (['s', 'e', 'c'] ++ if plural then ['s'] else []) ::
      (if ago then [['a', 'g', 'o']] else []), '\x00' ∉ word := by
    cases plural <;> cases ago <;> decide
  intro word member
  rcases List.mem_cons.mp member with rfl | last
  · intro inside
    rcases List.mem_append.mp inside with digit | inFraction
    · exact printInt_plain _ _ _ digit
    · exact absurd (isFraction.characters (Int.emod_nonneg _ (by decide)) _ inFraction)
        (by decide)
  · exact behind word last

/-- The unit of the seconds is found behind their word. -/
theorem strstr_seconds (isFraction : FractionText (fsecPart t) fraction) (plural ago : Bool)
    (left : List (List Char)) {mid : List (List Char)}
    (absent : ∀ word ∈ mid, ¬ ['s', 'e', 'c'] <:+: word) :
    strstr ['s', 'e', 'c'] ((spaced (left ++ (mid ++ secondWords t fraction plural ago))).drop
        (leading left).length) (leading left).length =
      some (leading ((left ++ mid) ++ [printInt false 0 (secPart t) ++ fraction])).length := by
  have words : mid ++ secondWords t fraction plural ago =
      (mid ++ [printInt false 0 (secPart t) ++ fraction]) ++
        (['s', 'e', 'c'] ++ if plural then ['s'] else []) ::
          if ago then [['a', 'g', 'o']] else [] := by
    simp [secondWords]
  have before : ∀ word ∈ mid ++ [printInt false 0 (secPart t) ++ fraction],
      ¬ ['s', 'e', 'c'] <:+: word := by
    intro word member
    rcases List.mem_append.mp member with inside | number
    · exact absent word inside
    · rw [List.mem_singleton.mp number]
      exact secondWord_absent isFraction ⟨'s', by decide, by decide⟩
  rw [drop_leading left (by simp [secondWords]), words, strstr_unit (by decide) before
    (List.prefix_append _ _) (by simp), List.append_assoc, leading_append left, List.length_append]

/-- The seconds are read from the word in front of their unit. -/
theorem sscanf_secondWords (isFraction : FractionText (fsecPart t) fraction) (front : Char)
    (words : List (List Char)) (plural ago : Bool) {text : List Char}
    (isText : text = spaced (words ++ secondWords t fraction plural ago)) :
    sscanf [.int (text.length + 1), .literal '.', .word] (numberBefore front text
        (fun character => isDigitOrMinus character || character == '.')
        (leading (words ++ [printInt false 0 (secPart t) ++ fraction])).length) =
      ⟨[secPart t], (fractionWord fraction).toList⟩ := by
  have fsec : 0 ≤ fsecPart t := Int.emod_nonneg _ (by decide)
  have characters : ∀ character ∈ printInt false 0 (secPart t) ++ fraction,
      (isDigitOrMinus character || character == '.') = true := by
    intro character member
    rcases List.mem_append.mp member with digit | inFraction
    · rw [printInt_inNumber character digit]
      rfl
    · rcases isFraction.characters fsec character inFraction with rfl | digit
      · rfl
      · rw [isDigitOrMinus, digit]
        rfl
  have fits : (printInt false 0 (secPart t)).length ≤ text.length + 1 := by
    rw [isText, secondWords, spaced_append _ (List.cons_ne_nil _ _),
      spaced_cons _ (List.cons_ne_nil _ _)]
    simp only [List.length_append]
    omega
  have number := numberBefore_unit front (by decide) characters words
    (['s', 'e', 'c'] ++ if plural then ['s'] else []) (if ago then [['a', 'g', 'o']] else [])
  rw [← secondWords, ← isText, List.append_assoc] at number
  rw [number]
  exact sscanf_seconds (text.length + 1) 0 (secPart t) _ fsec isFraction (Or.inr ⟨_, rfl⟩) fits

variable (t fraction) in
/-- The word for a negative interval is found when it is there. -/
theorem strstr_ago (words : List (List Char)) (plural ago : Bool) :
    (strstr ['a', 'g', 'o'] ((spaced (words ++ secondWords t fraction plural ago)).drop
        (leading (words ++ [printInt false 0 (secPart t) ++ fraction])).length)
      (leading (words ++ [printInt false 0 (secPart t) ++ fraction])).length).isSome = ago := by
  have order : words ++ secondWords t fraction plural ago =
      (words ++ [printInt false 0 (secPart t) ++ fraction]) ++
        ([['s', 'e', 'c'] ++ if plural then ['s'] else []] ++
          if ago then [['a', 'g', 'o']] else []) := by
    simp [secondWords]
  have absent : ∀ word ∈ [['s', 'e', 'c'] ++ if plural then ['s'] else []],
      ¬ ['a', 'g', 'o'] <:+: word := by
    cases plural <;> decide
  rw [order, drop_leading _ (by simp)]
  cases ago with
  | true =>
      rw [if_pos rfl, strstr_unit (by decide) absent (List.prefix_refl ['a', 'g', 'o']) (by decide)]
      rfl
  | false =>
      rw [if_neg Bool.false_ne_true, List.append_nil, strstr_missing (by decide) absent]
      rfl

/-- The verbose branch, from the unit of the days or from the start on. -/
theorem verboseInterval_text {day : Int} (front : Char) (left : List (List Char))
    {mid : List (List Char)} {hours mins : Bool} (plural₁ plural₂ plural₃ ago : Bool)
    (low : -9223372036854775808 ≤ t) (high : t ≤ 9223372036854775807)
    (isFraction : FractionText (fsecPart t) fraction)
    (shownHours : hours = true ∨ hourPart t = 0) (shownMins : mins = true ∨ minPart t = 0)
    (stands : StandsOn [['d', 'a', 'y']] mid) :
    verboseInterval front (spaced (left ++ (mid ++
        (unitWords hours plural₁ (hourPart t) ['h', 'o', 'u', 'r'] ++
          (unitWords mins plural₂ (minPart t) ['m', 'i', 'n'] ++
            secondWords t fraction plural₃ ago))))) day (leading left).length =
      ⟨negateIf ago day, negateIf ago (hourPart t), negateIf ago (minPart t),
        negateIf ago (secPart t), ago, fractionWord fraction⟩ := by
  obtain ⟨-, hourRange, minRange, secRange, -, -⟩ := parts_bounds low high
  have noHour : ∀ word ∈ unitWords mins plural₂ (minPart t) ['m', 'i', 'n'] ++
      secondWords t fraction plural₃ ago, ¬ ['h', 'o', 'u', 'r'] <:+: word := by
    intro word member
    rcases List.mem_append.mp member with unit | later
    · exact unitWords_absent _ _ _ ⟨'h', by decide, by decide⟩ (by decide) word unit
    · exact secondWords_absent isFraction plural₃ ago ['h', 'o', 'u', 'r'] (by decide) word later
  obtain ⟨left₁, mid₁, words₁, read₁, stands₁⟩ := searchField_verbose front ['h', 'o', 'u', 'r']
    (by decide) plural₁ left stands (by decide) noHour shownHours (by omega) (by omega)
  obtain ⟨left₂, mid₂, words₂, read₂, stands₂⟩ := searchField_verbose front ['m', 'i', 'n']
    (by decide) plural₂ left₁ stands₁ (by decide)
    (secondWords_absent isFraction plural₃ ago ['m', 'i', 'n'] (by decide)) shownMins (by omega)
    (by omega)
  have noSecond : ∀ word ∈ mid₂, ¬ ['s', 'e', 'c'] <:+: word :=
    stands₂.absent (by decide) (by decide)
  have isSec := strstr_seconds isFraction plural₃ ago left₂ noSecond
  rw [← words₁] at read₂
  rw [← words₂, ← words₁] at isSec
  have order := words₁.trans (words₂.trans (List.append_assoc left₂ mid₂ _).symm)
  have scanned := sscanf_secondWords isFraction front (left₂ ++ mid₂) plural₃ ago
    (congrArg spaced order)
  have isAgo := strstr_ago t fraction (left₂ ++ mid₂) plural₃ ago
  rw [← order] at isAgo
  have sec : intField ⟨[secPart t], (fractionWord fraction).toList⟩ 0 0 = secPart t :=
    intField_eq 0 rfl (by omega) (by omega)
  have plus : decide (secPart t < 0) = false := by
    rw [decide_eq_false_iff_not]
    omega
  rw [verboseInterval, read₁]
  dsimp only
  rw [read₂]
  dsimp only
  rw [isSec]
  simp only [Option.getD_some, scanned]
  split
  · rename_i found
    rw [found] at isAgo
    obtain rfl : true = ago := isAgo
    simp only [sec, Option.head?_toList, negateIf, if_true]
  · rename_i missing
    rw [missing] at isAgo
    obtain rfl : false = ago := isAgo
    simp only [sec, plus, Option.head?_toList, negateIf, Bool.false_eq_true, if_false]

end

/-! ## The texts of the server -/

/-- The fields of an interval with one sign are the interval. -/
theorem parse_parts (front : Char) {t day : Int} {fraction buf : List Char} {buf_len : Nat}
    {negative : Bool} (low : -9223372036854775808 ≤ t) (high : t ≤ 9223372036854775807)
    (isFraction : FractionText (fsecPart t) fraction)
    (isFields : scanInterval front buf buf_len =
      ⟨day, negateIf negative (hourPart t), negateIf negative (minPart t),
        negateIf negative (secPart t), negative, fractionWord fraction⟩)
    (isDay : day = withSign t (dayPart t))
    (isNegative : negative = decide (t < 0) ∨ t % 86400000000 = 0) :
    ∃ d2s, parse_intervald2s front buf buf_len = some d2s ∧ d2s.microseconds = t := by
  obtain ⟨-, -, -, -, fraction', -⟩ := parts_bounds low high
  exact ⟨_, parse_fields front isFields fraction'.1 (by omega) isFraction rfl,
    microseconds_parts low high isDay isNegative⟩

theorem isClockCharacter_digit {character : Char} (isDigit : character.isDigit = true) :
    isClockCharacter character = true := by
  simp [isClockCharacter, isDigitOrMinus, isDigit]

theorem withSign_eq (t part : Int) : negateIf (decide (t < 0)) part = withSign t part := by
  simp [negateIf, withSign]

/-- A text without letters. -/
theorem scanInterval_plain (front : Char) {text : List Char}
    (characters : ∀ character ∈ text, isClockCharacter character = true) (more : List Char) :
    scanInterval front (text ++ '\x00' :: more) text.length =
      plainInterval (decide (' ' ∈ text)) text := by
  have plain : '\x00' ∉ text := by
    intro member
    exact absurd (characters _ member) (by decide)
  have none : (text.any fun character => !(character == '@' || isClockCharacter character)) =
      false := by
    rw [List.any_eq_false]
    intro character member
    simp [characters character member]
  rw [scanInterval_text front plain, none, if_neg (by decide)]

/-- A text with a letter. -/
theorem scanInterval_letters (front letter : Char) {text : List Char} (plain : '\x00' ∉ text)
    (member : letter ∈ text)
    (isLetter : (letter == '@' || isClockCharacter letter) = false) (more : List Char) :
    scanInterval front (text ++ '\x00' :: more) text.length =
      let day := searchField front text ['d', 'a', 'y'] 0
      if '@' ∈ text then verboseInterval front text day.1 day.2
      else clockInterval text day.1 day.2 := by
  have found : (text.any fun character => !(character == '@' || isClockCharacter character)) =
      true := by
    rw [List.any_eq_true]
    exact ⟨letter, member, by rw [isLetter]; rfl⟩
  rw [scanInterval_text front plain, found, if_pos rfl]

theorem minusIf_characters (minus : Bool) {t : Int} {fraction : List Char} (width : Nat)
    (isFraction : FractionText (fsecPart t) fraction) :
    ∀ character ∈ minusIf minus ++ clockText width t fraction,
      character = '-' ∨ character = ':' ∨ character = '.' ∨ character.isDigit = true := by
  intro character member
  rcases List.mem_append.mp member with sign | inClock
  · rw [minusIf] at sign
    split at sign
    · exact Or.inl (List.mem_singleton.mp sign)
    · cases sign
  · exact Or.inr (clockText_characters width isFraction character inClock)

theorem isClockCharacter_clock {character : Char}
    (one : character = '-' ∨ character = ':' ∨ character = '.' ∨ character.isDigit = true) :
    isClockCharacter character = true := by
  rcases one with rfl | rfl | rfl | digit
  · decide
  · decide
  · decide
  · exact isClockCharacter_digit digit

section
variable {t : Int} {fraction : List Char}

/-- A text in memory that ends is read as the interval. -/
def ReadsAs (front : Char) (more : List Char) (t : Int) (text : List Char) : Prop :=
  ∃ d2s, parse_intervald2s front (text ++ '\x00' :: more) text.length = some d2s ∧
    d2s.microseconds = t

theorem readsAs_sqlStandard (front : Char) (more : List Char) (low : -9223372036854775808 ≤ t)
    (high : t ≤ 9223372036854775807) (isFraction : FractionText (fsecPart t) fraction) :
    ReadsAs front more t (minusIf (decide (t < 0)) ++
      (printInt false 0 (dayPart t) ++ ' ' :: clockText 0 t fraction)) := by
  obtain ⟨days, -⟩ := parts_bounds low high
  have read := plainInterval_text true (decide (t < 0)) 0 low high isFraction
  simp only [if_true, List.append_assoc, List.singleton_append] at read
  have characters : ∀ character ∈ minusIf (decide (t < 0)) ++
      (printInt false 0 (dayPart t) ++ ' ' :: clockText 0 t fraction),
      isClockCharacter character = true := by
    intro character member
    have clock := minusIf_characters (decide (t < 0)) 0 isFraction character
    simp only [List.mem_append, List.mem_cons] at member clock
    rcases member with sign | digit | rfl | inClock
    · exact isClockCharacter_clock (clock (Or.inl sign))
    · exact isClockCharacter_digit ((printInt_digits _ days.1).1 character digit)
    · decide
    · exact isClockCharacter_clock (clock (Or.inr inClock))
  refine parse_parts front low high isFraction
    ((scanInterval_plain front characters more).trans ?_) (withSign_eq t _) (Or.inl rfl)
  rw [decide_eq_true (by simp), read]

/-- The style `postgres` without days. -/
theorem readsAs_clock (front : Char) (more : List Char) (low : -9223372036854775808 ≤ t)
    (high : t ≤ 9223372036854775807) (isFraction : FractionText (fsecPart t) fraction)
    {minus : Bool} (none : dayPart t = 0)
    (isMinus : minus = decide (t < 0) ∨ t % 86400000000 = 0) :
    ReadsAs front more t (minusIf minus ++ clockText 2 t fraction) := by
  have clock := minusIf_characters minus 2 isFraction
  have read := plainInterval_text false minus 2 low high isFraction
  simp only [Bool.false_eq_true, if_false, List.nil_append] at read
  have blank : ' ' ∉ minusIf minus ++ clockText 2 t fraction := by
    intro member
    exact absurd (clock _ member) (by decide)
  have isDay : (0 : Int) = withSign t (dayPart t) := by simp [none, withSign]
  refine parse_parts front low high isFraction ((scanInterval_plain front
    (fun character member => isClockCharacter_clock (clock character member))
    more).trans ?_) isDay isMinus
  rw [decide_eq_false blank, read]

/-- A letter that is not in the unit of the days is not in a text of days and a clock. -/
theorem daysText_absent (isFraction : FractionText (fsecPart t) fraction) (shown plural minus : Bool)
    (value : Int) (letter : Char) (blank : letter ≠ ' ')
    (other : isDigitOrMinus letter = false ∧ letter ≠ 's' ∧ letter ∉ ['d', 'a', 'y'])
    (noClock : isClockCharacter letter = false) :
    letter ∉ spaced (unitWords shown plural value ['d', 'a', 'y'] ++
      [minusIf minus ++ clockText 2 t fraction]) := by
  intro member
  rcases mem_spaced member with isBlank | ⟨word, inside, there⟩
  · exact blank isBlank
  · rcases List.mem_append.mp inside with unit | last
    · exact unitWords_plain _ _ _ other word unit there
    · rw [List.mem_singleton.mp last] at there
      rw [isClockCharacter_clock (minusIf_characters minus 2 isFraction letter there)] at noClock
      cases noClock

/-- The style `postgres` with days. -/
theorem readsAs_days (front : Char) (more : List Char) (low : -9223372036854775808 ≤ t)
    (high : t ≤ 9223372036854775807) (isFraction : FractionText (fsecPart t) fraction)
    (plural : Bool) {minus : Bool} (isMinus : minus = decide (t < 0) ∨ t % 86400000000 = 0) :
    ReadsAs front more t (spaced (unitWords true plural (withSign t (dayPart t)) ['d', 'a', 'y'] ++
      [minusIf minus ++ clockText 2 t fraction])) := by
  obtain ⟨days, -⟩ := parts_bounds low high
  have range : -2147483648 ≤ withSign t (dayPart t) ∧ withSign t (dayPart t) ≤ 2147483647 := by
    rw [withSign]
    split_ifs <;> omega
  have noDay : ∀ word ∈ [minusIf minus ++ clockText 2 t fraction], ¬ ['d', 'a', 'y'] <:+: word := by
    intro word member inside
    rw [List.mem_singleton.mp member] at inside
    exact absurd (minusIf_characters minus 2 isFraction 'd' (inside.subset (by decide)))
      (by decide)
  obtain ⟨left, mid, words, read, isMid⟩ := searchField_unit front
    ['d', 'a', 'y'] (withSign t (dayPart t)) true plural [] []
    [minusIf minus ++ clockText 2 t fraction] (by decide) ⟨'d', by decide, by decide⟩
    (by simp) noDay (Or.inr rfl) range.1 range.2
  have isUnit : mid = [['d', 'a', 'y'] ++ if plural then ['s'] else []] :=
    (isMid.resolve_left (by simp)).1
  simp only [List.nil_append] at words read
  have plain := daysText_absent isFraction true plural minus (withSign t (dayPart t)) '\x00'
    (by decide) (by decide) (by decide)
  have noAt := daysText_absent isFraction true plural minus (withSign t (dayPart t)) '@'
    (by decide) (by decide) (by decide)
  have isLetter : 'd' ∈ spaced (unitWords true plural (withSign t (dayPart t)) ['d', 'a', 'y'] ++
      [minusIf minus ++ clockText 2 t fraction]) :=
    spaced_mem (['d', 'a', 'y'] ++ if plural then ['s'] else []) (by simp [unitWords]) (by simp)
  have behind : (spaced (unitWords true plural (withSign t (dayPart t)) ['d', 'a', 'y'] ++
      [minusIf minus ++ clockText 2 t fraction])).drop (leading left).length =
        (['d', 'a', 'y'] ++ (if plural then ['s'] else []) ++ [' ']) ++
          (minusIf minus ++ clockText 2 t fraction) := by
    rw [words, isUnit, drop_leading left (by simp), List.singleton_append,
      spaced_cons _ (List.cons_ne_nil _ _)]
    simp [spaced]
  refine parse_parts front low high isFraction ((scanInterval_letters front 'd' plain isLetter
    (by decide) more).trans ?_) rfl isMinus
  have start : searchField front (spaced (unitWords true plural (withSign t (dayPart t))
      ['d', 'a', 'y'] ++ [minusIf minus ++ clockText 2 t fraction])) ['d', 'a', 'y'] 0 =
    (withSign t (dayPart t), (leading left).length) := read
  rw [start, if_neg noAt]
  refine clockInterval_text minus low high isFraction (fun character member =>
    Bool.eq_false_of_not_eq_true (List.any_eq_false.mp ?_ character member)) behind
  cases plural <;> decide

theorem readsAs_verbose (front : Char) (more : List Char) (low : -9223372036854775808 ≤ t)
    (high : t ≤ 9223372036854775807) (isFraction : FractionText (fsecPart t) fraction)
    {days hours mins : Bool} (plural : Fin 4 → Bool) (shownDays : days = true ∨ dayPart t = 0)
    (shownHours : hours = true ∨ hourPart t = 0) (shownMins : mins = true ∨ minPart t = 0) :
    ReadsAs front more t (spaced (['@'] :: (unitWords days (plural 0) (dayPart t) ['d', 'a', 'y'] ++
      (unitWords hours (plural 1) (hourPart t) ['h', 'o', 'u', 'r'] ++
        (unitWords mins (plural 2) (minPart t) ['m', 'i', 'n'] ++
          secondWords t fraction (plural 3) (decide (t < 0))))))) := by
  obtain ⟨dayRange, -⟩ := parts_bounds low high
  have noDay : ∀ word ∈ unitWords hours (plural 1) (hourPart t) ['h', 'o', 'u', 'r'] ++
      (unitWords mins (plural 2) (minPart t) ['m', 'i', 'n'] ++
        secondWords t fraction (plural 3) (decide (t < 0))), ¬ ['d', 'a', 'y'] <:+: word := by
    intro word member
    simp only [List.mem_append] at member
    rcases member with hour | min | second
    · exact unitWords_absent _ _ _ ⟨'d', by decide, by decide⟩ (by decide) word hour
    · exact unitWords_absent _ _ _ ⟨'d', by decide, by decide⟩ (by decide) word min
    · exact secondWords_absent isFraction _ _ ['d', 'a', 'y'] (by decide) word second
  have sign : StandsOn [] [['@']] := Or.inl rfl
  obtain ⟨left, mid, words, read, stands⟩ := searchField_verbose front ['d', 'a', 'y'] (by decide)
    (plural 0) [] sign (by simp) noDay shownDays (by omega) (by omega)
  rw [List.nil_append, List.singleton_append] at words read
  obtain ⟨text, isText⟩ : ∃ text, text = spaced (['@'] ::
      (unitWords days (plural 0) (dayPart t) ['d', 'a', 'y'] ++
        (unitWords hours (plural 1) (hourPart t) ['h', 'o', 'u', 'r'] ++
          (unitWords mins (plural 2) (minPart t) ['m', 'i', 'n'] ++
            secondWords t fraction (plural 3) (decide (t < 0)))))) := ⟨_, rfl⟩
  rw [← isText] at read ⊢
  have plain : '\x00' ∉ text := by
    intro member
    rw [isText] at member
    rcases mem_spaced member with blank | ⟨word, inside, there⟩
    · cases blank
    · simp only [List.mem_append, List.mem_cons] at inside
      rcases inside with rfl | day | hour | min | second
      · exact absurd there (by decide)
      · exact unitWords_plain _ _ _ (by decide) word day there
      · exact unitWords_plain _ _ _ (by decide) word hour there
      · exact unitWords_plain _ _ _ (by decide) word min there
      · exact secondWords_plain isFraction _ _ word second there
  have isAt : '@' ∈ text := by
    rw [isText]
    exact spaced_mem _ List.mem_cons_self (by decide)
  have isLetter : 'e' ∈ text := by
    rw [isText]
    exact spaced_mem (['s', 'e', 'c'] ++ if plural 3 then ['s'] else []) (by simp [secondWords])
      (by simp)
  have start : searchField front text ['d', 'a', 'y'] 0 = (dayPart t, (leading left).length) := read
  refine parse_parts front low high isFraction ((scanInterval_letters front 'e' plain isLetter
    (by decide) more).trans ?_) (withSign_eq t (dayPart t)) (Or.inl rfl)
  rw [start, if_pos isAt, isText, words]
  exact verboseInterval_text front left (plural 1) (plural 2) (plural 3) (decide (t < 0)) low high
    isFraction shownHours shownMins stands

/-- What the server prints for days and seconds is read as the interval it was printed for. -/
theorem parse_intervald2s_server (low : -9223372036854775808 ≤ t)
    (high : t ≤ 9223372036854775807) {text : List Char} (isText : DaySecondText t text)
    (front : Char) (more : List Char) : ReadsAs front more t text := by
  cases isText with
  | sql_standard isFraction => exact readsAs_sqlStandard front more low high isFraction
  | postgres isFraction shown plural minus shownDays isMinus =>
      cases shown with
      | false =>
          exact readsAs_clock front more low high isFraction (shownDays.resolve_left (by decide))
            isMinus
      | true => exact readsAs_days front more low high isFraction plural isMinus
  | postgres_verbose isFraction shownDay shownHour shownMin plural shownDays shownHours shownMins =>
      have read := readsAs_verbose front more low high isFraction plural shownDays shownHours
        shownMins
      simp only [secondWords, decide_eq_true_eq] at read
      exact read

end

/-! ## The driver's own texts -/

theorem divideTime_neg (time : Int) : divideTime (-time) =
    (-(divideTime time).1, -(divideTime time).2.1, -(divideTime time).2.2.1,
      -(divideTime time).2.2.2) := by
  simp only [divideTime, Int.neg_tdiv, Prod.mk.injEq, true_and]
  have hour : -time - -(time.tdiv 3600000000) * 3600000000 =
      -(time - time.tdiv 3600000000 * 3600000000) := by ring
  simp only [hour, Int.neg_tdiv, true_and]
  have min : ∀ left minutes : Int, -left - -minutes * 60000000 = -(left - minutes * 60000000) := by
    intros
    ring
  simp only [min, Int.neg_tdiv, true_and]
  ring

/-- The fields of an interval are its parts, all with its sign. -/
theorem interval2tm_parts {t : Int} (months : Int) :
    interval2tm t months = (⟨months.tdiv 12, months.tmod 12, withSign t (dayPart t),
      withSign t (hourPart t), withSign t (minPart t), withSign t (secPart t)⟩,
        withSign t (fsecPart t)) := by
  have forward : ∀ size : Int, 0 ≤ size →
      divideTime (size - size.tdiv microsecondsPerDay * microsecondsPerDay) =
        (size / 3600000000 % 24, size / 60000000 % 60, size / 1000000 % 60, size % 1000000) := by
    intro size nonneg
    rw [microsecondsPerDay, Int.tdiv_eq_ediv_of_nonneg nonneg]
    obtain ⟨rest, isRest⟩ : ∃ rest, rest = size - size / 86400000000 * 86400000000 := ⟨_, rfl⟩
    rw [← isRest]
    have bounds : 0 ≤ rest ∧ rest < microsecondsPerDay := by
      rw [microsecondsPerDay]
      omega
    obtain ⟨hour, min, sec, fsec, divided⟩ : ∃ hour min sec fsec,
        divideTime rest = (hour, min, sec, fsec) := ⟨_, _, _, _, rfl⟩
    obtain ⟨⟨hours, mins, secs, fraction⟩, same⟩ := divideTime_spec bounds.1 bounds.2 divided
    rw [timeOfDay] at same
    rw [divided]
    simp only [Prod.mk.injEq]
    omega
  unfold withSign dayPart hourPart minPart secPart fsecPart
  rcases Int.lt_or_le t 0 with below | above
  · have opposite : t = -(-t) := (Int.neg_neg t).symm
    have rest : t - t.tdiv microsecondsPerDay * microsecondsPerDay =
        -(-t - (-t).tdiv microsecondsPerDay * microsecondsPerDay) := by
      rw [Int.neg_tdiv]
      ring
    have day : t.tdiv microsecondsPerDay = -((-t) / 86400000000) := by
      rw [← Int.tdiv_eq_ediv_of_nonneg (by omega), Int.neg_tdiv, Int.neg_neg]
      rfl
    simp only [interval2tm, rest, divideTime_neg, forward (-t) (by omega)]
    simp only [day, if_pos below, abs_of_neg below]
  · have day : t.tdiv microsecondsPerDay = t / 86400000000 := Int.tdiv_eq_ediv_of_nonneg above
    simp only [interval2tm, forward t above]
    simp only [day, if_neg (Int.not_lt.mpr above), abs_of_nonneg above]

/-- The words that `intervald2s_out` prints. -/
theorem daySecondText_words (d2s : IntervalD2s) : ∃ second : List Char,
    (∀ character ∈ second, character = '-' ∨ character = '.' ∨ character.isDigit = true) ∧
    daySecondText d2s = spaced [printInt false 0 (signed 4 d2s.day), ['d', 'a', 'y', 's'],
      printInt false 0 (signed 4 d2s.hour), ['h', 'o', 'u', 'r', 's'],
      printInt false 0 (signed 4 d2s.minute), ['m', 'i', 'n', 's'], second,
      ['s', 'e', 'c', 's']] := by
  refine ⟨(if (normalSeconds d2s).1 = 0 ∧ (normalSeconds d2s).2 < 0 then ['-'] else []) ++
    (printInt false 0 (normalSeconds d2s).1 ++
      '.' :: printInt false 6 |(normalSeconds d2s).2|), ?_, ?_⟩
  · intro character member
    rcases List.mem_append.mp member with sign | number
    · split at sign
      · exact Or.inl (List.mem_singleton.mp sign)
      · cases sign
    · rcases List.mem_append.mp number with digit | point
      · have one := printInt_inNumber character digit
        rw [isDigitOrMinus, Bool.or_eq_true, beq_iff_eq] at one
        exact one.elim (fun digit => Or.inr (Or.inr digit)) Or.inl
      · rcases List.mem_cons.mp point with rfl | digit
        · exact Or.inr (Or.inl rfl)
        · exact Or.inr (Or.inr ((printInt_digits _ (abs_nonneg _)).1 character digit))
  · simp [daySecondText, spaced]

/-- A letter of no word of the driver's own text. -/
theorem daySecondText_absent (d2s : IntervalD2s) (letter : Char) (noBlank : letter ≠ ' ')
    (other : isDigitOrMinus letter = false ∧ letter ≠ '.' ∧ letter ∉ "dayshourminsec".toList) :
    letter ∉ daySecondText d2s := by
  obtain ⟨second, isSecond, words⟩ := daySecondText_words d2s
  have number : ∀ value : Int, letter ∉ printInt false 0 value := by
    intro value inside
    rw [printInt_inNumber letter inside] at other
    exact absurd other.1 (by decide)
  have units : ∀ unit ∈ [['d', 'a', 'y', 's'], ['h', 'o', 'u', 'r', 's'], ['m', 'i', 'n', 's'],
      ['s', 'e', 'c', 's']], letter ∉ unit := by
    have inside : ∀ unit ∈ [['d', 'a', 'y', 's'], ['h', 'o', 'u', 'r', 's'],
        ['m', 'i', 'n', 's'], ['s', 'e', 'c', 's']], unit ⊆ "dayshourminsec".toList := by
      decide
    exact fun unit isUnit there => other.2.2 (inside unit isUnit there)
  intro member
  rw [words] at member
  rcases mem_spaced member with blank | ⟨word, inside, there⟩
  · exact noBlank blank
  · simp only [List.mem_cons, List.not_mem_nil, or_false] at inside
    rcases inside with rfl | rfl | rfl | rfl | rfl | rfl | rfl | rfl
    · exact number _ there
    · exact units _ (by decide) there
    · exact number _ there
    · exact units _ (by decide) there
    · exact number _ there
    · exact units _ (by decide) there
    · rcases isSecond letter there with rfl | rfl | digit
      · exact absurd other.1 (by decide)
      · exact other.2.1 rfl
      · rw [isDigitOrMinus, digit] at other
        exact absurd other.1 (by simp)
    · exact units _ (by decide) there

/-- The hours are the first number behind the days, and no colon follows them. -/
theorem clockInterval_hours {text tail : List Char} {day hour : Int} {search_pos : Nat}
    (hours : -59 ≤ hour ∧ hour ≤ 59)
    (behind : text.drop search_pos = "days ".toList ++ (printInt false 0 hour ++ ' ' :: tail)) :
    clockInterval text day search_pos = ⟨day, hour, 0, 0, decide (hour < 0), none⟩ := by
  have found : (text.drop search_pos).dropWhile (fun character => !isDigitOrMinus character) =
      printInt false 0 hour ++ ' ' :: tail := by
    obtain ⟨character, digits, same⟩ :=
      List.exists_cons_of_ne_nil (printInt_ne_nil false 0 hour)
    have first : isDigitOrMinus character = true :=
      printInt_inNumber character (by rw [same]; exact List.mem_cons_self)
    rw [behind, List.dropWhile_append_of_pos (List.all_eq_true.mp (by decide)), same]
    simp [first]
  have fits : (printInt false 0 hour).length ≤ text.length := by
    have length := congrArg List.length behind
    simp only [List.length_drop, List.length_append] at length
    omega
  have ends : EndsNumber (' ' :: tail) := by
    rintro character ⟨⟩
    rfl
  rw [clockInterval, found]
  by_cases negative : hour < 0
  · rw [printInt_sign (Or.inr negative), if_pos negative, Nat.zero_sub] at fits ⊢
    have number := scanInt_printInt 0 text.length |hour| (' ' :: tail)
      (by rw [List.length_cons] at fits; omega) ends
    have value : intField ⟨[|hour|], []⟩ 0 0 = |hour| :=
      intField_eq 0 rfl (by have := abs_nonneg hour; omega) (abs_le.mpr ⟨by omega, by omega⟩)
    have others : intField ⟨[|hour|], []⟩ 1 0 = 0 ∧ intField ⟨[|hour|], []⟩ 2 0 = 0 := ⟨rfl, rfl⟩
    have scanned : sscanf (.literal '-' :: clockFormat text.length)
        ('-' :: (printInt false 0 |hour| ++ ' ' :: tail)) = ⟨[|hour|], []⟩ := by
      simp [clockFormat, sscanf, number]
    rw [List.cons_append]
    simp only [scanned, value, others, Int.neg_zero, List.head?_nil, negative, decide_true]
    rw [abs_of_neg negative, Int.neg_neg]
  · have number := scanInt_printInt 0 text.length hour (' ' :: tail) fits ends
    have value : intField ⟨[hour], []⟩ 0 0 = hour := intField_eq 0 rfl (by omega) (by omega)
    have others : intField ⟨[hour], []⟩ 1 0 = 0 ∧ intField ⟨[hour], []⟩ 2 0 = 0 := ⟨rfl, rfl⟩
    have head := printInt_head 0 (Int.not_lt.mp negative) (' ' :: tail)
    have scanned : sscanf (clockFormat text.length) (printInt false 0 hour ++ ' ' :: tail) =
        ⟨[hour], []⟩ := by
      simp [clockFormat, sscanf, number]
    obtain ⟨character, rest, same⟩ := List.exists_cons_of_ne_nil
      (List.append_ne_nil_of_left_ne_nil (printInt_ne_nil false 0 hour) (' ' :: tail))
    rw [same] at scanned head ⊢
    dsimp only
    split
    · rename_i none
      cases none
    · rename_i first
      rw [first] at head
      exact absurd rfl head
    · simp [scanned, value, others, negative]

/-- The days and hours of the driver's own text are read, and nothing behind them. -/
theorem parse_intervald2s_own (front : Char) (more : List Char) {d2s : IntervalD2s}
    {day hour : Int} (isDay : signed 4 d2s.day = day) (isHour : signed 4 d2s.hour = hour)
    (days : -2147483648 ≤ day ∧ day ≤ 2147483647) (hours : -59 ≤ hour ∧ hour ≤ 59) :
    ∃ read, parse_intervald2s front (daySecondText d2s ++ '\x00' :: more)
        (daySecondText d2s).length = some read ∧
      read.microseconds = day * 86400000000 + hour * 3600000000 := by
  have plain := daySecondText_absent d2s '\x00' (by decide) (by decide)
  have noAt := daySecondText_absent d2s '@' (by decide) (by decide)
  obtain ⟨second, -, words⟩ := daySecondText_words d2s
  rw [isDay, isHour] at words
  generalize daySecondText d2s = text at plain noAt words ⊢
  have isLetter : 'd' ∈ text := by
    rw [words]
    exact spaced_mem _ (List.mem_cons_of_mem _ List.mem_cons_self) (by decide)
  have start : searchField front text ['d', 'a', 'y'] 0 =
      (day, (leading [printInt false 0 day]).length) := by
    rw [words]
    exact searchField_found front day [] [] _ (by decide) ⟨'d', by decide, by decide⟩
      (by simp) (by decide) days.1 days.2
  obtain ⟨tail, behind⟩ : ∃ tail, text.drop (leading [printInt false 0 day]).length =
      "days ".toList ++ (printInt false 0 hour ++ ' ' :: tail) := by
    have split := drop_leading [printInt false 0 day] (List.cons_ne_nil ['d', 'a', 'y', 's']
      [printInt false 0 hour, ['h', 'o', 'u', 'r', 's'], printInt false 0 (signed 4 d2s.minute),
        ['m', 'i', 'n', 's'], second, ['s', 'e', 'c', 's']])
    rw [List.singleton_append, ← words] at split
    exact ⟨_, split⟩
  have scan : scanInterval front (text ++ '\x00' :: more) text.length =
      ⟨day, hour, 0, 0, decide (hour < 0), none⟩ := by
    rw [scanInterval_letters front 'd' plain isLetter (by decide), start, if_neg noAt,
      clockInterval_hours hours behind]
  have fields := parse_fields front scan (Int.le_refl 0) (by decide)
    (FractionText.whole rfl) rfl
  refine ⟨_, fields, ?_⟩
  have nothing : (if decide (hour < 0) = true then -(0 : Int) else 0) = 0 := by simp
  have small : -59 ≤ (0 : Int) ∧ (0 : Int) ≤ 59 := by decide
  rw [nothing, microseconds_fields days hours small small (by decide)]
  ring

/-- What `intervald2s_out` leaves in a buffer that has room for all of it. -/
theorem start_text (memory : List Char) {text : List Char} {size : Nat} (plain : '\x00' ∉ text)
    (fits : text.length < size) (small : size ≤ 2147483647) :
    cString (Printed.start size memory text).memory = text := by
  have whole : (text ++ ([] : List (List Char)).flatten).length < size := by simpa using fits
  have result := Printed.pieces_text memory plain (by simp) (by omega) whole
  rw [List.flatten_nil, List.append_nil] at result
  exact result

theorem daySecondText_plain (d2s : IntervalD2s) : '\x00' ∉ daySecondText d2s := by
  obtain ⟨second, isSecond, words⟩ := daySecondText_words d2s
  rw [words]
  intro member
  rcases mem_spaced member with blank | ⟨word, inside, there⟩
  · cases blank
  · simp only [List.mem_cons, List.not_mem_nil, or_false] at inside
    rcases inside with rfl | rfl | rfl | rfl | rfl | rfl | rfl | rfl
    · exact printInt_plain _ _ _ there
    · exact absurd there (by decide)
    · exact printInt_plain _ _ _ there
    · exact absurd there (by decide)
    · exact printInt_plain _ _ _ there
    · exact absurd there (by decide)
    · exact absurd (isSecond _ there) (by decide)
    · exact absurd there (by decide)

theorem intervalOf_parts {t : Int} (low : -9223372036854775808 ≤ t)
    (high : t ≤ 9223372036854775807) :
    signed 4 (intervalOf t).day = withSign t (dayPart t) ∧
      signed 4 (intervalOf t).hour = withSign t (hourPart t) ∧
      (-2147483648 ≤ withSign t (dayPart t) ∧ withSign t (dayPart t) ≤ 2147483647) ∧
      (-59 ≤ withSign t (hourPart t) ∧ withSign t (hourPart t) ≤ 59) := by
  obtain ⟨days, hours, -⟩ := parts_bounds low high
  have dayRange : -2147483648 ≤ withSign t (dayPart t) ∧ withSign t (dayPart t) ≤ 2147483647 := by
    rw [withSign]
    split_ifs <;> omega
  have hourRange : -59 ≤ withSign t (hourPart t) ∧ withSign t (hourPart t) ≤ 59 := by
    rw [withSign]
    split_ifs <;> omega
  have tm := interval2tm_parts (t := t) 0
  have hour : signed 4 (unsigned 4 (withSign t (hourPart t))) = withSign t (hourPart t) :=
    signed_int (by omega) (by omega)
  rw [intervalOf, tm]
  exact ⟨signed_int dayRange.1 dayRange.2, hour, dayRange, hourRange⟩

/-- The days and hours of an interval are all of it when it is a number of hours. -/
theorem hours_iff {t : Int} (low : -9223372036854775808 ≤ t) (high : t ≤ 9223372036854775807) :
    withSign t (dayPart t) * 86400000000 + withSign t (hourPart t) * 3600000000 = t ↔
      t % 3600000000 = 0 := by
  obtain ⟨days, hours, mins, secs, fsec, sum⟩ := parts_bounds low high
  unfold withSign
  rcases Int.lt_or_le t 0 with below | above
  · rw [abs_of_neg below] at sum
    rw [if_pos below, if_pos below]
    omega
  · rw [abs_of_nonneg above] at sum
    rw [if_neg (by omega), if_neg (by omega)]
    omega

theorem yearMonthText_own {m : Int} (low : -2147483648 ≤ m) (high : m ≤ 2147483647) :
    YearMonthText m (yearMonthText (yearMonthOf m)) := by
  have parts : m.tdiv 12 = withSign m (|m| / 12) ∧ m.tmod 12 = withSign m (|m| % 12) := by
    unfold withSign
    rcases Int.lt_or_le m 0 with below | above
    · have opposite : m = -(-m) := (Int.neg_neg m).symm
      rw [if_pos below, if_pos below, abs_of_neg below, ← Int.tdiv_eq_ediv_of_nonneg (by omega),
        ← Int.tmod_eq_emod_of_nonneg (by omega), Int.neg_tdiv, Int.neg_tmod, Int.neg_neg,
        Int.neg_neg]
      exact ⟨rfl, rfl⟩
    · rw [if_neg (by omega), if_neg (by omega), abs_of_nonneg above,
        Int.tdiv_eq_ediv_of_nonneg above, Int.tmod_eq_emod_of_nonneg above]
      exact ⟨rfl, rfl⟩
  have range : (-2147483648 ≤ m.tdiv 12 ∧ m.tdiv 12 ≤ 2147483647) ∧
      -2147483648 ≤ m.tmod 12 ∧ m.tmod 12 ≤ 2147483647 := by
    have nonneg := abs_nonneg m
    have le : |m| ≤ 2147483648 := abs_le.mpr ⟨low, by omega⟩
    rw [parts.1, parts.2, withSign, withSign]
    split_ifs <;> omega
  rw [parts.1, parts.2] at range
  have words := YearMonthText.postgres (m := m) true true true true (Or.inl rfl) (Or.inl rfl)
    (Or.inl rfl)
  have same : yearMonthText (yearMonthOf m) = spaced (unitWords true true (withSign m (|m| / 12))
      ['y', 'e', 'a', 'r'] ++ unitWords true true (withSign m (|m| % 12)) ['m', 'o', 'n']) := by
    simp only [yearMonthOf, interval2tm, yearMonthText, parts, signed_int range.1.1 range.1.2,
      signed_int range.2.1 range.2.2]
    simp [unitWords, spaced]
  rw [same]
  exact words

/-! ## All texts of intervals -/

theorem yearMonthText_plain (y2m : IntervalY2m) : '\x00' ∉ yearMonthText y2m := by
  simp [yearMonthText, printInt_plain]

/--
Every text of the server for days and seconds, and every text for years and months
but the verbose one, is read as the interval it was printed for.  The verbose one is
when the interval is not negative, and the driver's own text for days and seconds
when the interval is a whole number of hours.
-/
theorem interval_read_iff (front : Char) (more : List Char) :
    (∀ (t : Int) (text : List Char), -9223372036854775808 ≤ t → t ≤ 9223372036854775807 →
      DaySecondText t text →
        ∃ d2s, parse_intervald2s front (text ++ '\x00' :: more) text.length = some d2s ∧
          d2s.microseconds = t) ∧
    (∀ (t : Int) (memory : List Char) (size : Nat), -9223372036854775808 ≤ t →
      t ≤ 9223372036854775807 → (daySecondText (intervalOf t)).length < size →
      size ≤ 2147483647 →
        let text := cString (intervald2s_out memory (intervalOf t) size).1.memory
        ((∃ d2s, parse_intervald2s front (text ++ '\x00' :: more) text.length = some d2s ∧
          d2s.microseconds = t) ↔ t % 3600000000 = 0)) ∧
    (∀ (m : Int) (text : List Char), -2147483648 ≤ m → m ≤ 2147483647 → YearMonthText m text →
      (parse_intervaly2m front (text ++ '\x00' :: more) text.length).months = m) ∧
    (∀ (m : Int) (memory : List Char) (size : Nat), -2147483648 ≤ m → m ≤ 2147483647 →
      (yearMonthText (yearMonthOf m)).length < size → size ≤ 2147483647 →
        let text := cString (intervaly2m_out memory (yearMonthOf m) size).memory
        (parse_intervaly2m front (text ++ '\x00' :: more) text.length).months = m) ∧
    (∀ (m : Int) (text : List Char), -2147483648 ≤ m → m ≤ 2147483647 → VerboseYearMonth m text →
      ((parse_intervaly2m front (text ++ '\x00' :: more) text.length).months = m ↔ 0 ≤ m)) := by
  refine ⟨fun t text low high isText => parse_intervald2s_server low high isText front more,
    ?_, fun m text low high isText => parse_intervaly2m_server low high isText front more, ?_, ?_⟩
  · intro t memory size low high fits small
    obtain ⟨day, hour, days, hours⟩ := intervalOf_parts low high
    obtain ⟨own, read, value⟩ := parse_intervald2s_own front more day hour days hours
    have written : cString (intervald2s_out memory (intervalOf t) size).1.memory =
        daySecondText (intervalOf t) := start_text memory (daySecondText_plain _) fits small
    dsimp only
    rw [written, read, ← hours_iff low high, ← value]
    constructor
    · rintro ⟨d2s, same, sum⟩
      rw [Option.some.inj same]
      exact sum
    · exact fun sum => ⟨own, rfl, sum⟩
  · intro m memory size low high fits small
    have written : cString (intervaly2m_out memory (yearMonthOf m) size).memory =
        yearMonthText (yearMonthOf m) := start_text memory (yearMonthText_plain _) fits small
    dsimp only
    rw [written]
    exact parse_intervaly2m_server low high (yearMonthText_own low high) front more
  · intro m text low high isText
    rw [parse_intervaly2m_verbose low high isText front more]
    exact abs_eq_self

/-- A day and two hours in the server's format and in the driver's own, and a month ago. -/
theorem interval_read_hours :
    (∃ d2s, parse_intervald2s ' ' ("1 day 02:00:00".toList ++ ['\x00']) 14 = some d2s ∧
      d2s.microseconds = 93600000000) ∧
    (∃ d2s, parse_intervald2s ' ' ("1 days 2 hours 0 mins 0.000000 secs".toList ++ ['\x00']) 35 =
      some d2s ∧ d2s.microseconds = 93600000000) ∧
    (parse_intervaly2m ' ' ("-1 mons".toList ++ ['\x00']) 7).months = -1 :=
  ⟨(interval_read_iff ' ' []).1 93600000000 "1 day 02:00:00".toList (by decide) (by decide)
      (.postgres (.whole (by decide)) true false false (Or.inl rfl) (Or.inl (by decide))),
    ((interval_read_iff ' ' []).2.1 93600000000 [] 40 (by decide) (by decide) (by decide)
      (by decide)).mpr (by decide),
    (interval_read_iff ' ' []).2.2.1 (-1) "-1 mons".toList (by decide) (by decide)
      (.postgres false true true true (Or.inr (by decide)) (Or.inl rfl) (Or.inr rfl))⟩

/-- The driver does not read the minutes it prints, nor that a month is one ago. -/
theorem interval_read_wrong :
    ¬ (∃ d2s, parse_intervald2s ' ' (daySecondText (intervalOf 60000000) ++ ['\x00'])
        (daySecondText (intervalOf 60000000)).length = some d2s ∧ d2s.microseconds = 60000000) ∧
    VerboseYearMonth (-1) "@ 1 mon ago".toList ∧
    (parse_intervaly2m ' ' ("@ 1 mon ago".toList ++ ['\x00']) 11).months ≠ -1 := by
  refine ⟨?_, .postgres_verbose false true true false (Or.inr (by decide)) (Or.inl rfl)
    (Or.inr rfl), by decide⟩
  rintro ⟨d2s, read, sum⟩
  have own : parse_intervald2s ' ' (daySecondText (intervalOf 60000000) ++ ['\x00'])
      (daySecondText (intervalOf 60000000)).length = some ⟨0, 0, 0, 0, 0⟩ := by decide
  rw [own] at read
  obtain rfl := Option.some.inj read
  exact absurd sum (by decide)

end RedshiftOdbc.Convert
