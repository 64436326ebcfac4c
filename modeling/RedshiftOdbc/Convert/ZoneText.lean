import RedshiftOdbc.Convert.TemporalText
import Mathlib.Algebra.Order.Group.Abs

/-!
# Reading a time with its zone

What a time with a zone says: the time of day, and an offset of hours and
minutes that its sign is for.  The zone that `time_out` prints is read back
unless it lies less than an hour west.
-/

namespace RedshiftOdbc.Convert

open RedshiftOdbc.Words RedshiftOdbc.Printf

/-- A number of so many digits, and what follows it. -/
def readNumber (count : Nat) (text : List Char) : Option (Nat × List Char) :=
  let digits := text.take count
  if digits.length = count ∧ digits.all Char.isDigit = true then
    some (Nat.ofDigitChars 10 digits 0, text.drop count)
  else none

def readCharacter (character : Char) : List Char → Option (List Char)
  | first :: rest => if first = character then some rest else none
  | [] => none

/-- `HH:MM:SS` or `HH:MM:SS.ffffff`, as microseconds. -/
def readClock (text : List Char) : Option (Int × List Char) := do
  let (hour, text) ← readNumber 2 text
  let text ← readCharacter ':' text
  let (min, text) ← readNumber 2 text
  let text ← readCharacter ':' text
  let (sec, text) ← readNumber 2 text
  match readCharacter '.' text with
  | none => return (timeOfDay hour min sec 0, text)
  | some text =>
      let (fsec, text) ← readNumber 6 text
      return (timeOfDay hour min sec fsec, text)

/-- `HH` or `HH:MM`, as seconds. -/
def readOffset (text : List Char) : Option Int := do
  let (hour, text) ← readNumber 2 text
  match text with
  | [] => return hour * 3600
  | text =>
      let text ← readCharacter ':' text
      let (min, text) ← readNumber 2 text
      if text = [] then return hour * 3600 + min * 60 else none

/-- The zone behind a time: east of UTC with a plus, and counted to the west. -/
def readZone : List Char → Option Int
  | '+' :: text => (readOffset text).map fun offset => -offset
  | '-' :: text => readOffset text
  | _ => none

/-- A time of day with its zone. -/
def readTimeTz (text : List Char) : Option (Int × Int) := do
  let (time, text) ← readClock text
  let zone ← readZone text
  return (time, zone)

/-! ## Reading what was printed -/

theorem readNumber_printInt {width : Nat} {value : Int} (pos : 0 < width) (nonneg : 0 ≤ value)
    (small : value < (10 ^ width : Nat)) (rest : List Char) :
    readNumber width (printInt false width value ++ rest) = some (value.toNat, rest) := by
  have length := printInt_length pos nonneg small
  obtain ⟨digits, number⟩ := printInt_digits width nonneg
  have front : (printInt false width value ++ rest).take width = printInt false width value := by
    rw [List.take_append_of_le_length length.ge, List.take_of_length_le length.le]
  have behind : (printInt false width value ++ rest).drop width = rest := by
    rw [List.drop_append_of_le_length length.ge, List.drop_of_length_le length.le, List.nil_append]
  rw [readNumber, front, behind, number, if_pos ⟨length, List.all_eq_true.mpr digits⟩]

theorem readTwo {value : Int} (nonneg : 0 ≤ value) (small : value ≤ 99) (rest : List Char) :
    readNumber 2 (printInt false 2 value ++ rest) = some (value.toNat, rest) :=
  readNumber_printInt (by decide) nonneg (by norm_num; omega) rest

@[simp]
theorem readCharacter_cons (character : Char) (rest : List Char) :
    readCharacter character (character :: rest) = some rest := by
  simp [readCharacter]

/-- The clock is read back from its text when no digit or point follows. -/
theorem readClock_text {hour min sec fsec : Int} (fields : IsTimeOfDay hour min sec fsec)
    {rest : List Char} (ends : readCharacter '.' rest = none) :
    readClock (minuteText hour min ++ (secondText sec fsec ++ rest)) =
      some (timeOfDay hour min sec fsec, rest) := by
  obtain ⟨hours, mins, secs, fraction⟩ := fields
  have hour' : ((hour.toNat : Nat) : Int) = hour := Int.toNat_of_nonneg hours.1
  have min' : ((min.toNat : Nat) : Int) = min := Int.toNat_of_nonneg mins.1
  have sec' : ((sec.toNat : Nat) : Int) = sec := Int.toNat_of_nonneg secs.1
  have fsec' : ((fsec.toNat : Nat) : Int) = fsec := Int.toNat_of_nonneg fraction.1
  by_cases whole : fsec = 0
  · simp [readClock, minuteText, secondText, whole, readTwo, ends, hours.1, mins.1, secs.1,
      hour', min', sec', hours.2.trans, mins.2.trans, secs.2.trans]
  · have six := readNumber_printInt (show 0 < 6 by decide) fraction.1
      (by norm_num; exact fraction.2) rest
    simp [readClock, minuteText, secondText, whole, readTwo, six, hours.1, mins.1, secs.1,
      hour', min', sec', fsec', hours.2.trans, mins.2.trans, secs.2.trans]

/-- An offset of hours and minutes, the minutes only when there are some. -/
theorem readOffset_text (hour min : Int) (hours : 0 ≤ hour ∧ hour ≤ 99)
    (mins : 0 ≤ min ∧ min ≤ 59) :
    readOffset (printInt false 2 hour ++ if min = 0 then [] else ':' :: printInt false 2 min) =
      some (hour * 3600 + min * 60) := by
  have hour' : ((hour.toNat : Nat) : Int) = hour := Int.toNat_of_nonneg hours.1
  have min' : ((min.toNat : Nat) : Int) = min := Int.toNat_of_nonneg mins.1
  by_cases whole : min = 0
  · have two := readTwo hours.1 hours.2 []
    rw [List.append_nil] at two
    simp [readOffset, whole, two, hour']
  · have two := readTwo mins.1 (show min ≤ 99 by omega) []
    rw [List.append_nil] at two
    simp [readOffset, whole, readTwo hours.1 hours.2, two, hour', min']

/-- The sign that is printed is the one of the hours alone. -/
theorem zoneText_eq {tz : Int} (low : -86400 < tz) (high : tz < 86400) :
    zoneText tz = (if 3600 ≤ tz then '-' else '+') :: (printInt false 2 (|tz| / 3600) ++
      if |tz| / 60 % 60 = 0 then [] else ':' :: printInt false 2 (|tz| / 60 % 60)) := by
  have nonneg := abs_nonneg tz
  have less : |tz| < 86400 := abs_lt.mpr ⟨low, high⟩
  have small : wrap 4 |tz| = |tz| := wrap_of_range (by norm_num; omega) (by norm_num; omega)
  have min : ((wrap 4 |tz|).tdiv 60).tmod 60 = |tz| / 60 % 60 := by
    rw [small, Int.tdiv_eq_ediv_of_nonneg nonneg, Int.tmod_eq_emod_of_nonneg (by omega)]
  have hour : |-(tz.tdiv 3600)| = |tz| / 3600 ∧ (-(tz.tdiv 3600) < 0 ↔ 3600 ≤ tz) := by
    rcases Int.le_total 0 tz with east | west
    · rw [abs_neg, Int.tdiv_eq_ediv_of_nonneg east, abs_of_nonneg east, abs_of_nonneg (by omega)]
      exact ⟨rfl, by omega⟩
    · have opposite : tz.tdiv 3600 = -((-tz) / 3600) := by
        rw [← Int.tdiv_eq_ediv_of_nonneg (by omega), Int.neg_tdiv, Int.neg_neg]
      rw [opposite, Int.neg_neg, abs_of_nonpos west, abs_of_nonneg (by omega)]
      exact ⟨rfl, by omega⟩
  rw [zoneText, min, printInt_sign (Or.inl rfl), hour.1]
  simp only [hour.2, Nat.reduceSub]
  split_ifs <;> simp_all

/-- The zone is read back unless it lies less than an hour west. -/
theorem readZone_zoneText {tz : Int} (low : -86400 < tz) (high : tz < 86400)
    (whole : tz % 60 = 0) :
    readZone (zoneText tz) = some (if 0 < tz ∧ tz < 3600 then -tz else tz) := by
  have nonneg := abs_nonneg tz
  have less : |tz| < 86400 := abs_lt.mpr ⟨low, high⟩
  have offset := readOffset_text (|tz| / 3600) (|tz| / 60 % 60) (by omega) (by omega)
  have sum : |tz| / 3600 * 3600 + |tz| / 60 % 60 * 60 = |tz| := by
    have minutes : |tz| % 60 = 0 := by
      rcases abs_choice tz with same | same <;> rw [same] <;> omega
    omega
  rw [sum] at offset
  rw [zoneText_eq low high]
  by_cases hours : 3600 ≤ tz
  · rw [if_pos hours, readZone, offset, abs_of_nonneg (by omega), if_neg (by omega)]
  · rw [if_neg hours, readZone, offset, Option.map_some]
    by_cases west : 0 < tz
    · rw [if_pos ⟨west, by omega⟩, abs_of_pos west]
    · rw [if_neg (by omega), abs_of_nonpos (by omega), Int.neg_neg]

/-! ## The whole text -/

theorem zoneText_ends {tz : Int} (low : -86400 < tz) (high : tz < 86400) :
    readCharacter '.' (zoneText tz) = none := by
  rw [zoneText_eq low high, readCharacter]
  split_ifs <;> simp_all

theorem zoneText_length {tz : Int} (low : -86400 < tz) (high : tz < 86400) :
    (zoneText tz).length ≤ 6 := by
  have nonneg := abs_nonneg tz
  have less : |tz| < 86400 := abs_lt.mpr ⟨low, high⟩
  rw [zoneText_eq low high, List.length_cons, List.length_append,
    two_length (by omega) (by omega)]
  split_ifs
  · simp
  · rw [List.length_cons, two_length (by omega) (by omega)]

/--
The text of a time with a zone of whole minutes, below a day, is read back to the
time and the zone exactly when the zone does not lie less than an hour west.
-/
theorem time_out_read_iff (memory : List Char) {size : Nat} (room : 22 ≤ size)
    (small : size ≤ 2147483647) {time tz : Int} (nonneg : 0 ≤ time) (lt : time < 86400000000)
    (low : -86400 < tz) (high : tz < 86400) (whole : tz % 60 = 0) :
    readTimeTz (cString (time_out memory time size (some tz)).memory) = some (time, tz) ↔
      ¬ (0 < tz ∧ tz < 3600) := by
  obtain ⟨hour, min, sec, fsec, fields, same, out, -⟩ :=
    time_out_eq memory size (some tz) nonneg lt
  have length : (minuteText hour min ++ (secondText sec fsec ::
      ((some tz).map zoneText).toList).flatten).length < size := by
    have first := minuteText_length fields.hour fields.min
    have second := secondText_length fields.sec fields.fsec
    have third := zoneText_length low high
    simp only [Option.map_some, Option.toList_some, List.flatten_cons, List.flatten_nil,
      List.append_nil, List.length_append, first, second]
    split_ifs <;> omega
  have text : cString (time_out memory time size (some tz)).memory =
      minuteText hour min ++ (secondText sec fsec ++ zoneText tz) := by
    rw [out, cString, Printed.pieces_text memory (minuteText_plain hour min) ?_ (by omega) length]
    · simp
    · intro piece member
      rw [Option.map_some, Option.toList_some, List.mem_cons, List.mem_singleton] at member
      rcases member with rfl | rfl
      · exact ⟨secondText_ne_nil sec fsec, secondText_plain sec fsec⟩
      · exact ⟨(zoneText_plain tz).2, (zoneText_plain tz).1⟩
  have read : readTimeTz (minuteText hour min ++ (secondText sec fsec ++ zoneText tz)) =
      some (time, if 0 < tz ∧ tz < 3600 then -tz else tz) := by
    simp [readTimeTz, readClock_text fields (zoneText_ends low high), same,
      readZone_zoneText low high whole]
  rw [text, read, Option.some.injEq, Prod.mk.injEq]
  split_ifs with west
  · simp only [west, not_true_eq_false, iff_false, true_and]
    omega
  · simp [west]

/-- Noon in India. -/
theorem time_out_read_india :
    readTimeTz (cString (time_out [] 43200000000 22 (some (-19800))).memory) =
      some (43200000000, -19800) :=
  (time_out_read_iff [] (by decide) (by decide) (by decide) (by decide) (by decide) (by decide)
    (by decide)).mpr (by decide)

/-- Half an hour west of UTC reads as half an hour east. -/
theorem time_out_read_wrong : ¬ ∀ (memory : List Char) (size : Nat) (time tz : Int),
    22 ≤ size → size ≤ 2147483647 → 0 ≤ time → time < 86400000000 → -86400 < tz → tz < 86400 →
    tz % 60 = 0 →
      readTimeTz (cString (time_out memory time size (some tz)).memory) = some (time, tz) := by
  intro always
  exact absurd (always [] 22 0 1800 (by decide) (by decide) (by decide) (by decide) (by decide)
    (by decide) (by decide)) (by decide)

end RedshiftOdbc.Convert
