import RedshiftOdbc.Convert.IntervalWords

/-!
# The texts of intervals

The server prints an interval in one of three styles, and the driver has a format
of its own.  `parse_intervald2s` and `parse_intervaly2m` guess the style from the
characters of a text.  What the server prints for days and seconds is always read
as the interval it was printed for.
-/

namespace RedshiftOdbc.Convert

open RedshiftOdbc.Scanf RedshiftOdbc.Words RedshiftOdbc.Printf

def parse_intervaly2m (front : Char) (buf : List Char) (buf_len : Nat) : IntervalY2m :=
  let text := cString buf
  if (buf.take buf_len).all isDigitOrMinus then
    let is_neg := text.head? = some '-'
    let text := if is_neg then text.tail else text
    let width := text.length
    let scanned := sscanf [.int width, .literal '-', .int width] text
    let year := intField scanned 0 0
    let month := intField scanned 1 0
    if is_neg then ⟨unsigned 4 (-year), unsigned 4 (-month)⟩
    else ⟨unsigned 4 year, unsigned 4 month⟩
  else
    let year := searchField front text ['y', 'e', 'a', 'r'] 0
    let month := searchField front text ['m', 'o', 'n'] year.2
    ⟨unsigned 4 year.1, unsigned 4 month.1⟩

def IntervalY2m.months (y2m : IntervalY2m) : Int := 12 * signed 4 y2m.year + signed 4 y2m.month

def IntervalD2s.microseconds (d2s : IntervalD2s) : Int :=
  signed 4 d2s.day * 86400000000 + signed 4 d2s.hour * 3600000000 +
    signed 4 d2s.minute * 60000000 + signed 4 d2s.second * 1000000 + signed 4 d2s.fraction

/-- The interval of days and seconds for a number of microseconds. -/
def intervalOf (time : Int) : IntervalD2s :=
  let (tm, fsec) := interval2tm time 0
  ⟨unsigned 4 tm.tm_mday, unsigned 4 tm.tm_hour, unsigned 4 tm.tm_min, unsigned 4 tm.tm_sec,
    unsigned 4 fsec⟩

/-- The interval of years and months for a number of months. -/
def yearMonthOf (months : Int) : IntervalY2m :=
  let (tm, _) := interval2tm 0 months
  ⟨unsigned 4 tm.tm_year, unsigned 4 tm.tm_mon⟩

/-! ## What the server prints -/

def dayPart (t : Int) : Int := |t| / 86400000000
def hourPart (t : Int) : Int := |t| / 3600000000 % 24
def minPart (t : Int) : Int := |t| / 60000000 % 60
def secPart (t : Int) : Int := |t| / 1000000 % 60
def fsecPart (t : Int) : Int := |t| % 1000000

def withSign (t part : Int) : Int := if t < 0 then -part else part

/-- `[.f]`: up to six digits of a fraction of a second. -/
inductive FractionText (fsec : Int) : List Char → Prop where
  | whole (zero : fsec = 0) : FractionText fsec []
  | digits (places : Nat) (some_place : 1 ≤ places) (le : places ≤ 6)
      (exact : fsec % 10 ^ (6 - places) = 0) :
      FractionText fsec ('.' :: printInt false places (fsec / 10 ^ (6 - places)))

/-- `H:MM:SS[.f]`, with the hours of some width. -/
def clockText (width : Nat) (t : Int) (fraction : List Char) : List Char :=
  printInt false width (hourPart t) ++ ':' :: (printInt false 2 (minPart t) ++
    ':' :: (printInt false 2 (secPart t) ++ fraction))

/-- A number and its unit, in the plural or not, or nothing. -/
def unitWords (shown plural : Bool) (value : Int) (unit : List Char) : List (List Char) :=
  if shown then [printInt false 0 value, unit ++ if plural then ['s'] else []] else []

/-- A sign in front of a text. -/
def minusIf (negative : Bool) : List Char := if negative then ['-'] else []

/--
The texts of an interval of days and seconds in the styles `sql_standard`,
`postgres` and `postgres_verbose`.  A unit that is zero may be missing.
-/
inductive DaySecondText (t : Int) : List Char → Prop where
  | sql_standard {fraction : List Char} (isFraction : FractionText (fsecPart t) fraction) :
      DaySecondText t (minusIf (decide (t < 0)) ++
        (printInt false 0 (dayPart t) ++ ' ' :: clockText 0 t fraction))
  | postgres {fraction : List Char} (isFraction : FractionText (fsecPart t) fraction)
      (days plural minus : Bool) (shown : days = true ∨ dayPart t = 0)
      (isMinus : minus = decide (t < 0) ∨ t % 86400000000 = 0) :
      DaySecondText t (spaced (unitWords days plural (withSign t (dayPart t)) ['d', 'a', 'y'] ++
        [minusIf minus ++ clockText 2 t fraction]))
  | postgres_verbose {fraction : List Char} (isFraction : FractionText (fsecPart t) fraction)
      (days hours mins : Bool) (plural : Fin 4 → Bool) (shownDays : days = true ∨ dayPart t = 0)
      (shownHours : hours = true ∨ hourPart t = 0) (shownMins : mins = true ∨ minPart t = 0) :
      DaySecondText t (spaced (['@'] :: (unitWords days (plural 0) (dayPart t) ['d', 'a', 'y'] ++
        (unitWords hours (plural 1) (hourPart t) ['h', 'o', 'u', 'r'] ++
          (unitWords mins (plural 2) (minPart t) ['m', 'i', 'n'] ++
            ((printInt false 0 (secPart t) ++ fraction) ::
              (['s', 'e', 'c'] ++ if plural 3 then ['s'] else []) ::
                if t < 0 then [['a', 'g', 'o']] else []))))))

/-- The texts of an interval of years and months in the styles other than the verbose one. -/
inductive YearMonthText (m : Int) : List Char → Prop where
  | sql_standard : YearMonthText m (minusIf (decide (m < 0)) ++
      (printInt false 0 (|m| / 12) ++ '-' :: printInt false 0 (|m| % 12)))
  | postgres (years months pluralYear pluralMonth : Bool)
      (shownYears : years = true ∨ |m| / 12 = 0) (shownMonths : months = true ∨ |m| % 12 = 0)
      (some_unit : years = true ∨ months = true) :
      YearMonthText m (spaced (unitWords years pluralYear (withSign m (|m| / 12))
          ['y', 'e', 'a', 'r'] ++
        unitWords months pluralMonth (withSign m (|m| % 12)) ['m', 'o', 'n']))

/-- The text of an interval of years and months in the verbose style. -/
inductive VerboseYearMonth (m : Int) : List Char → Prop where
  | postgres_verbose (years months pluralYear pluralMonth : Bool)
      (shownYears : years = true ∨ |m| / 12 = 0) (shownMonths : months = true ∨ |m| % 12 = 0)
      (some_unit : years = true ∨ months = true) :
      VerboseYearMonth m (spaced (['@'] ::
        (unitWords years pluralYear (|m| / 12) ['y', 'e', 'a', 'r'] ++
          (unitWords months pluralMonth (|m| % 12) ['m', 'o', 'n'] ++
            if m < 0 then [['a', 'g', 'o']] else []))))

/-! ## Words -/

theorem mem_spaced {words : List (List Char)} {character : Char} :
    character ∈ spaced words → character = ' ' ∨ ∃ word ∈ words, character ∈ word := by
  induction words with
  | nil => intro member; cases member
  | cons word words ih =>
      cases words with
      | nil => exact fun member => Or.inr ⟨word, List.mem_singleton_self _, member⟩
      | cons second rest =>
          intro member
          rw [spaced_cons word (List.cons_ne_nil _ _), List.mem_append, List.mem_cons] at member
          rcases member with here | blank | later
          · exact Or.inr ⟨word, List.mem_cons_self, here⟩
          · exact Or.inl blank
          · obtain blank | ⟨inside, member, there⟩ := ih later
            · exact Or.inl blank
            · exact Or.inr ⟨inside, List.mem_cons_of_mem _ member, there⟩

theorem spaced_mem (word : List Char) {words : List (List Char)} {character : Char}
    (member : word ∈ words) (inside : character ∈ word) : character ∈ spaced words := by
  obtain ⟨left, right, rfl⟩ := List.append_of_mem member
  rw [spaced_append left (List.cons_ne_nil _ _)]
  refine List.mem_append_right _ ?_
  cases right with
  | nil => exact inside
  | cons second rest => exact List.mem_append_left _ inside

/-- What a text in a longer memory is seen as. -/
theorem cString_text {text : List Char} (plain : '\x00' ∉ text) (more : List Char) :
    cString (text ++ '\x00' :: more) = text ∧ (text ++ '\x00' :: more).take text.length = text :=
  ⟨cString_append plain, List.take_left⟩

/-- The end of a unit is a plural or not. -/
theorem unitWords_absent {name unit : List Char} (shown plural : Bool) (value : Int)
    (letter : ∃ character ∈ name, isDigitOrMinus character = false)
    (other : ∀ plural : Bool, ¬ name <:+: unit ++ if plural then ['s'] else []) :
    ∀ word ∈ unitWords shown plural value unit, ¬ name <:+: word := by
  intro word member
  rw [unitWords] at member
  split at member
  · rcases List.mem_cons.mp member with rfl | unit
    · exact printInt_absent letter value
    · rw [List.mem_singleton.mp unit]
      exact other plural
  · cases member

/-- A character that is in no number and no unit. -/
theorem unitWords_plain {unit : List Char} {letter : Char} (shown plural : Bool) (value : Int)
    (other : isDigitOrMinus letter = false ∧ letter ≠ 's' ∧ letter ∉ unit) :
    ∀ word ∈ unitWords shown plural value unit, letter ∉ word := by
  intro word member inside
  rw [unitWords] at member
  split at member
  · rcases List.mem_cons.mp member with rfl | isUnit
    · rw [printInt_inNumber letter inside] at other
      exact absurd other.1 (by decide)
    · rw [List.mem_singleton.mp isUnit] at inside
      rcases List.mem_append.mp inside with inUnit | last
      · exact other.2.2 inUnit
      · split at last
        · exact other.2.1 (List.mem_singleton.mp last)
        · cases last
  · cases member

/--
One field of a text with units: the search ends at the unit, or it stays where it
is when the unit is missing.
-/
theorem searchField_unit (front : Char) (name : List Char) (value : Int) (shown plural : Bool)
    (left mid rest : List (List Char)) (blank : ' ' ∉ name)
    (letter : ∃ character ∈ name, isDigitOrMinus character = false)
    (absent : ∀ word ∈ mid, ¬ name <:+: word)
    (behind : ∀ word ∈ rest, ¬ name <:+: word) (more : mid ++ rest ≠ [] ∨ shown = true)
    (low : -2147483648 ≤ value) (high : value ≤ 2147483647) :
    ∃ left' mid', left ++ (mid ++ (unitWords shown plural value name ++ rest)) =
        left' ++ (mid' ++ rest) ∧
      searchField front (spaced (left ++ (mid ++ (unitWords shown plural value name ++ rest)))) name
        (leading left).length = (if shown then value else 0, (leading left').length) ∧
      (mid' = mid ∧ shown = false ∨
        mid' = [name ++ if plural then ['s'] else []] ∧ shown = true) := by
  cases shown with
  | true =>
      refine ⟨left ++ (mid ++ [printInt false 0 value]),
        [name ++ if plural then ['s'] else []], ?_, ?_, Or.inr ⟨rfl, rfl⟩⟩
      · simp [unitWords]
      · exact searchField_found front value left mid rest blank letter absent
          (List.prefix_append _ _) low high
  | false =>
      refine ⟨left, mid, by simp [unitWords], ?_, Or.inl ⟨rfl, rfl⟩⟩
      refine searchField_missing front left (mid ++ rest) (more.resolve_right (by simp)) blank ?_
      intro word member
      rcases List.mem_append.mp member with inside | later
      · exact absent word inside
      · exact behind word later

/-! ## Years and months -/

/-- Years and months between words without a digit in front and behind. -/
theorem parse_intervaly2m_words (front : Char) (more : List Char)
    (before behind : List (List Char)) {year month : Int}
    (years months pluralYear pluralMonth : Bool) (shownYears : years = true ∨ year = 0)
    (shownMonths : months = true ∨ month = 0) (some_unit : years = true ∨ months = true)
    (isBefore : before = [] ∨ before = [['@']])
    (isBehind : behind = [] ∨ behind = [['a', 'g', 'o']])
    (yearRange : -2147483648 ≤ year ∧ year ≤ 2147483647)
    (monthRange : -2147483648 ≤ month ∧ month ≤ 2147483647) :
    let text := spaced (before ++ (unitWords years pluralYear year ['y', 'e', 'a', 'r'] ++
      (unitWords months pluralMonth month ['m', 'o', 'n'] ++ behind)))
    parse_intervaly2m front (text ++ '\x00' :: more) text.length =
      ⟨unsigned 4 year, unsigned 4 month⟩ := by
  intro text
  have wordBefore : ∀ name ∈ [['y', 'e', 'a', 'r'], ['m', 'o', 'n']],
      ∀ word ∈ before, ¬ name <:+: word := by
    rcases isBefore with rfl | rfl <;> decide
  have wordBehind : ∀ name ∈ [['y', 'e', 'a', 'r'], ['m', 'o', 'n']],
      ∀ word ∈ behind, ¬ name <:+: word := by
    rcases isBehind with rfl | rfl <;> decide
  have plain : '\x00' ∉ text := by
    intro member
    rcases mem_spaced member with blank | ⟨word, inside, there⟩
    · cases blank
    · have noEnd : ∀ word ∈ before ++ behind, '\x00' ∉ word := by
        rcases isBefore with rfl | rfl <;> rcases isBehind with rfl | rfl <;> decide
      simp only [List.mem_append] at inside noEnd
      rcases inside with first | units | mons | last
      · exact noEnd word (Or.inl first) there
      · exact unitWords_plain _ _ _ (by decide) word units there
      · exact unitWords_plain _ _ _ (by decide) word mons there
      · exact noEnd word (Or.inr last) there
  have letters : text.all isDigitOrMinus = false := by
    rw [List.all_eq_false]
    rcases some_unit with rfl | rfl
    · exact ⟨'y', spaced_mem (['y', 'e', 'a', 'r'] ++ if pluralYear then ['s'] else [])
        (by simp [unitWords]) (by simp), by decide⟩
    · exact ⟨'m', spaced_mem (['m', 'o', 'n'] ++ if pluralMonth then ['s'] else [])
        (by simp [unitWords]) (by simp), by decide⟩
  obtain ⟨isText, isSeen⟩ := cString_text plain more
  -- the search for the years, from the start of the text on
  obtain ⟨left, mid, words, first, isMid⟩ := searchField_unit front ['y', 'e', 'a', 'r'] year
    years pluralYear [] before (unitWords months pluralMonth month ['m', 'o', 'n'] ++ behind)
    (by decide) ⟨'y', by decide, by decide⟩ (wordBefore _ (by decide))
    (by
      intro word member
      rcases List.mem_append.mp member with mons | last
      · exact unitWords_absent _ _ _ ⟨'y', by decide, by decide⟩ (by decide) word mons
      · exact wordBehind _ (by decide) word last)
    (by
      rcases some_unit with rfl | rfl
      · exact Or.inr rfl
      · left
        simp [unitWords])
    yearRange.1 yearRange.2
  rw [List.nil_append] at words first
  -- the search for the months, from the unit of the years or from the start on
  obtain ⟨left', -, -, second, -⟩ := searchField_unit front ['m', 'o', 'n'] month
    months pluralMonth left mid behind (by decide) ⟨'m', by decide, by decide⟩
    (by
      rcases isMid with ⟨rfl, -⟩ | ⟨rfl, -⟩
      · exact wordBefore _ (by decide)
      · cases pluralYear <;> decide)
    (wordBehind _ (by decide))
    (by
      rcases some_unit with rfl | rfl
      · rcases isMid with ⟨-, none⟩ | ⟨rfl, -⟩
        · cases none
        · exact Or.inl (by simp)
      · exact Or.inr rfl)
    monthRange.1 monthRange.2
  rw [← words] at second
  have isYear : (if years = true then year else 0) = year := by
    rcases shownYears with rfl | rfl <;> simp
  have isMonth : (if months = true then month else 0) = month := by
    rcases shownMonths with rfl | rfl <;> simp
  rw [isYear] at first
  rw [isMonth] at second
  rw [parse_intervaly2m, isSeen, isText, letters]
  simp only [Bool.false_eq_true, if_false]
  rw [show (leading ([] : List (List Char))).length = 0 from rfl] at first
  rw [first]
  dsimp only
  rw [second]

/-- Digits do not begin with a minus. -/
theorem printInt_head (width : Nat) {value : Int} (nonneg : 0 ≤ value) (rest : List Char) :
    (printInt false width value ++ rest).head? ≠ some '-' := by
  obtain ⟨character, digits, same⟩ := List.exists_cons_of_ne_nil (printInt_ne_nil false width value)
  have isDigit := (printInt_digits width nonneg).1 character (by simp [same])
  rw [same, List.cons_append, List.head?_cons]
  rintro ⟨⟩
  exact absurd isDigit (by decide)

theorem scanInt_end (width limit : Nat) (value : Int)
    (fits : (printInt false width value).length ≤ limit) :
    scanInt limit (printInt false width value) = some (value, []) := by
  have read := scanInt_printInt width limit value [] fits (by rintro character ⟨⟩)
  rwa [List.append_nil] at read

theorem parse_intervaly2m_standard (front : Char) (more : List Char) (negative : Bool)
    {year month : Int} (yearRange : 0 ≤ year ∧ year ≤ 2147483647)
    (monthRange : 0 ≤ month ∧ month ≤ 2147483647) :
    let text := minusIf negative ++ (printInt false 0 year ++ '-' :: printInt false 0 month)
    parse_intervaly2m front (text ++ '\x00' :: more) text.length =
      if negative then ⟨unsigned 4 (-year), unsigned 4 (-month)⟩
      else ⟨unsigned 4 year, unsigned 4 month⟩ := by
  intro text
  have plain : '\x00' ∉ text := by
    cases negative <;> simp [text, minusIf, printInt_plain]
  have digits : text.all isDigitOrMinus = true := by
    have year' := @printInt_inNumber year
    have month' := @printInt_inNumber month
    have minus : isDigitOrMinus '-' = true := by decide
    rw [List.all_eq_true]
    intro character member
    simp only [text, List.mem_append, List.mem_cons] at member
    rcases member with sign | inYear | rfl | inMonth
    · rw [minusIf] at sign
      split at sign
      · rw [List.mem_singleton.mp sign]
        exact minus
      · cases sign
    · exact year' character inYear
    · exact minus
    · exact month' character inMonth
  obtain ⟨isText, isSeen⟩ := cString_text plain more
  have read : sscanf [.int (printInt false 0 year ++ '-' :: printInt false 0 month).length,
      .literal '-', .int (printInt false 0 year ++ '-' :: printInt false 0 month).length]
        (printInt false 0 year ++ '-' :: printInt false 0 month) = ⟨[year, month], []⟩ := by
    have first := scanInt_printInt 0
      (printInt false 0 year ++ '-' :: printInt false 0 month).length year
      ('-' :: printInt false 0 month) (by simp) (by rintro character ⟨⟩; rfl)
    have second := scanInt_end 0
      (printInt false 0 year ++ '-' :: printInt false 0 month).length month
      (by simp only [List.length_append, List.length_cons]; omega)
    simp only [sscanf, first, second, if_true]
  have isYear : intField ⟨[year, month], []⟩ 0 0 = year :=
    intField_eq 0 rfl (by omega) yearRange.2
  have isMonth : intField ⟨[year, month], []⟩ 1 0 = month :=
    intField_eq 0 rfl (by omega) monthRange.2
  rw [parse_intervaly2m, isSeen, isText, digits]
  cases negative with
  | true =>
      simp only [text, minusIf, if_true, List.singleton_append, List.head?_cons, List.tail_cons,
        read, isYear, isMonth]
  | false =>
      have head : text.head? ≠ some '-' := printInt_head 0 yearRange.1 _
      simp only [if_true, if_neg head, Bool.false_eq_true, if_false]
      simp only [text, minusIf, Bool.false_eq_true, if_false, List.nil_append, read, isYear,
        isMonth]

theorem signed_int {value : Int} (low : -2147483648 ≤ value) (high : value ≤ 2147483647) :
    signed 4 (unsigned 4 value) = value := by
  refine signed_unsigned ?_ ?_ <;> norm_num <;> omega

/-- The parts of a number of months. -/
theorem months_withSign {m : Int} (low : -2147483648 ≤ m) (high : m ≤ 2147483648) :
    IntervalY2m.months ⟨unsigned 4 (withSign m (|m| / 12)), unsigned 4 (withSign m (|m| % 12))⟩ =
      m := by
  rw [IntervalY2m.months, withSign, withSign]
  rcases Int.lt_or_le m 0 with negative | nonneg
  · rw [if_pos negative, if_pos negative, abs_of_neg negative, signed_int (by omega) (by omega),
      signed_int (by omega) (by omega)]
    omega
  · rw [if_neg (by omega), if_neg (by omega), abs_of_nonneg nonneg,
      signed_int (by omega) (by omega), signed_int (by omega) (by omega)]
    omega

theorem parse_intervaly2m_server {m : Int} (low : -2147483648 ≤ m) (high : m ≤ 2147483647)
    {text : List Char} (isText : YearMonthText m text) (front : Char) (more : List Char) :
    (parse_intervaly2m front (text ++ '\x00' :: more) text.length).months = m := by
  have parts : 0 ≤ |m| / 12 ∧ |m| / 12 ≤ 2147483647 ∧ 0 ≤ |m| % 12 ∧ |m| % 12 ≤ 2147483647 := by
    have nonneg := abs_nonneg m
    have le : |m| ≤ 2147483648 := abs_le.mpr ⟨low, by omega⟩
    omega
  have months := months_withSign low (by omega)
  cases isText with
  | sql_standard =>
      rw [parse_intervaly2m_standard front more _ ⟨parts.1, parts.2.1⟩ parts.2.2]
      rw [withSign, withSign] at months
      by_cases negative : m < 0
      · simpa [negative] using months
      · simpa [negative] using months
  | postgres years months' pluralYear pluralMonth shownYears shownMonths some_unit =>
      have zero (part : Int) : part = 0 → withSign m part = 0 := by
        rintro rfl
        simp [withSign]
      have range (part : Int) : 0 ≤ part → part ≤ 2147483647 →
          -2147483648 ≤ withSign m part ∧ withSign m part ≤ 2147483647 := by
        intro nonneg le
        rw [withSign]
        split_ifs <;> omega
      have read := parse_intervaly2m_words front more [] [] years months' pluralYear pluralMonth
        (shownYears.imp id (zero _)) (shownMonths.imp id (zero _)) some_unit (Or.inl rfl) (Or.inl rfl)
        (range _ parts.1 parts.2.1)
        (range _ parts.2.2.1 parts.2.2.2)
      simp only [List.nil_append, List.append_nil] at read
      rw [read]
      exact months

/-- The verbose style has no sign but its last word, which is not read. -/
theorem parse_intervaly2m_verbose {m : Int} (low : -2147483648 ≤ m) (high : m ≤ 2147483647)
    {text : List Char} (isText : VerboseYearMonth m text) (front : Char) (more : List Char) :
    (parse_intervaly2m front (text ++ '\x00' :: more) text.length).months = |m| := by
  have size : |m| ≤ 2147483648 := abs_le.mpr ⟨by omega, by omega⟩
  have nonneg := abs_nonneg m
  obtain ⟨years, months', pluralYear, pluralMonth, shownYears, shownMonths, some_unit⟩ := isText
  have read := parse_intervaly2m_words front more [['@']]
    (if m < 0 then [['a', 'g', 'o']] else []) years months' pluralYear pluralMonth
    shownYears shownMonths some_unit (Or.inr rfl)
    (by split_ifs <;> simp) (by omega) (by omega)
  have months := months_withSign (m := |m|) (by omega) size
  rw [withSign, withSign, if_neg (by omega), if_neg (by omega), abs_abs] at months
  rw [List.singleton_append] at read
  rw [read]
  exact months

end RedshiftOdbc.Convert
