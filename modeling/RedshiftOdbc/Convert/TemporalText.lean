import RedshiftOdbc.Convert.ScratchBuffers
import RedshiftOdbc.Convert.TemporalFields
import RedshiftOdbc.Library.Printf

/-!
# The text of temporal values

`date_out`, `time_out`, `timestamp_out` and the two functions for intervals print
the fields of a value into the application's buffer.  Times and timestamps are
printed in pieces, each with the size of the buffer less the lengths of the
pieces before it, which nobody keeps from becoming negative.
-/

namespace RedshiftOdbc.Convert

open RedshiftOdbc.Words RedshiftOdbc.Calendar RedshiftOdbc.Printf

structure IntervalY2m where
  year : Nat
  month : Nat
  deriving DecidableEq, Repr

/-! ## The pieces -/

/-- `"%04d-%02d-%02d"`. -/
def dayText (year month day : Int) : List Char :=
  printInt false 4 year ++ '-' :: (printInt false 2 month ++ '-' :: printInt false 2 day)

/-- `"%02d:%02d"`. -/
def minuteText (hour min : Int) : List Char :=
  printInt false 2 hour ++ ':' :: printInt false 2 min

/-- `":%02d.%06lld"` or `":%02d"`. -/
def secondText (sec fsec : Int) : List Char :=
  if fsec ≠ 0 then ':' :: (printInt false 2 sec ++ '.' :: printInt false 6 fsec)
  else ':' :: printInt false 2 sec

/-- `"%+03d:%02d"` or `"%+03d"` for the hours and minutes of a zone. -/
def zoneText (tz : Int) : List Char :=
  let hour := -(tz.tdiv 3600)
  let min := ((wrap 4 |tz|).tdiv 60).tmod 60
  if min ≠ 0 then printInt true 3 hour ++ ':' :: printInt false 2 min else printInt true 3 hour

/-- `"%d years %d mons"`. -/
def yearMonthText (y2m : IntervalY2m) : List Char :=
  printInt false 0 (signed 4 y2m.year) ++
    (" years ".toList ++ (printInt false 0 (signed 4 y2m.month) ++ " mons".toList))

/-- The seconds and the fraction of an interval, with one sign and less than a second. -/
def normalSeconds (d2s : IntervalD2s) : Int × Int :=
  let fraction := signed 4 d2s.fraction
  let second := wrap 4 (signed 4 d2s.second + fraction.tdiv 1000000)
  let fraction := fraction.tmod 1000000
  if 0 < second ∧ fraction < 0 then (second - 1, fraction + 1000000)
  else if second < 0 ∧ 0 < fraction then (second + 1, fraction - 1000000)
  else (second, fraction)

/-- `"%d days %d hours %d mins %s%d.%06d secs"`. -/
def daySecondText (d2s : IntervalD2s) : List Char :=
  let (second, fraction) := normalSeconds d2s
  printInt false 0 (signed 4 d2s.day) ++ (" days ".toList ++
    (printInt false 0 (signed 4 d2s.hour) ++ (" hours ".toList ++
      (printInt false 0 (signed 4 d2s.minute) ++ (" mins ".toList ++
        ((if second = 0 ∧ fraction < 0 then ['-'] else []) ++
          (printInt false 0 second ++ '.' :: (printInt false 6 |fraction| ++ " secs".toList))))))))

/-! ## The functions -/

/-- One character at the start of the buffer, and no length. -/
def oneCharacter (memory : List Char) (character : Char) : Printed :=
  (Printed.mk memory 0 0).put 0 [character]

def date_out (memory : List Char) (date buf_len : Int) : Printed :=
  let tm := j2date (date + postgresEpochJdate)
  if tm.month < 1 ∨ tm.month > 12 then oneCharacter memory '\x00'
  else if 0 < tm.year then
    Printed.start buf_len memory (dayText tm.year tm.month tm.day)
  else
    Printed.start buf_len memory (dayText (-(tm.year - 1)) tm.month tm.day ++ " BC".toList)

/-- `DT_NOBEGIN` and `DT_NOEND`. -/
def dtNobegin : Int := -9223372036854775808
def dtNoend : Int := 9223372036854775807

/-- `timestamp_out`; all that matters of the zone of the session is whether there is one. -/
def timestamp_out (memory : List Char) (timestamp buf_len : Int) (session_timezone : Bool) :
    Printed :=
  if timestamp = dtNobegin then Printed.start buf_len memory "-infinity".toList
  else if timestamp = dtNoend then Printed.start buf_len memory "infinity".toList
  else
    match timestamp2tm timestamp with
    | none => oneCharacter memory '0'
    | some (tm, fsec) =>
        let year := if 0 < tm.tm_year then tm.tm_year else -(tm.tm_year - 1)
        let printed := Printed.start buf_len memory
          (dayText year tm.tm_mon tm.tm_mday ++ ' ' :: minuteText tm.tm_hour tm.tm_min)
        let printed := printed.append buf_len (secondText tm.tm_sec fsec)
        let printed :=
          if session_timezone then printed.append buf_len " UTC".toList else printed
        if tm.tm_year ≤ 0 then printed.append buf_len " BC".toList else printed

/-- `time_out`; the zone is missing for a time without one. -/
def time_out (memory : List Char) (time buf_len : Int) (tzp : Option Int) : Printed :=
  match time2tm time with
  | none => oneCharacter memory '0'
  | some (tm, fsec) =>
      if tm.tm_hour < 0 ∨ tm.tm_hour > 24 then oneCharacter memory '0'
      else
        let printed := Printed.start buf_len memory (minuteText tm.tm_hour tm.tm_min)
        let printed := printed.append buf_len (secondText tm.tm_sec fsec)
        match tzp with
        | none => printed
        | some tz => printed.append buf_len (zoneText tz)

def intervaly2m_out (memory : List Char) (y2m : IntervalY2m) (buf_len : Int) : Printed :=
  Printed.start buf_len memory (yearMonthText y2m)

/-- `intervald2s_out`; the seconds and the fraction of its argument are set, too. -/
def intervald2s_out (memory : List Char) (d2s : IntervalD2s) (buf_len : Int) :
    Printed × IntervalD2s :=
  let (second, fraction) := normalSeconds d2s
  (Printed.start buf_len memory (daySecondText d2s),
    { d2s with second := unsigned 4 second, fraction := unsigned 4 fraction })

/-! ## The whole text of a value -/

def dateText (date : Int) : List Char :=
  let day := j2date (date + 2451545)
  if 0 < day.year then dayText day.year day.month day.day
  else dayText (1 - day.year) day.month day.day ++ " BC".toList

/-- The text of a timestamp; one that is out of range has none. -/
def timestampText (timestamp : Int) (session_timezone : Bool) : List Char :=
  if timestamp = dtNobegin then "-infinity".toList
  else if timestamp = dtNoend then "infinity".toList
  else
    match timestamp2tm timestamp with
    | none => []
    | some (tm, fsec) =>
        dayText (if 0 < tm.tm_year then tm.tm_year else 1 - tm.tm_year) tm.tm_mon tm.tm_mday ++
          ' ' :: minuteText tm.tm_hour tm.tm_min ++ secondText tm.tm_sec fsec ++
          (if session_timezone then " UTC".toList else []) ++
          if 0 < tm.tm_year then [] else " BC".toList

def timeText (time : Int) (tzp : Option Int) : List Char :=
  match time2tm time with
  | none => []
  | some (tm, fsec) =>
      minuteText tm.tm_hour tm.tm_min ++ secondText tm.tm_sec fsec ++ (tzp.map zoneText).getD []

/-! ## The room the pieces need -/

def yearWidth (timestamp : Int) : Nat :=
  if timestamp < 252455616000000000 then 4
  else if timestamp < 3092581296000000000 then 5
  else 6

/-- The length of all pieces of a timestamp but the last one. -/
def timestampRoom (timestamp : Int) (session_timezone : Bool) : Nat :=
  let seconds := if timestamp % 1000000 = 0 then 3 else 10
  let bc := decide (timestamp < -63082281600000000)
  yearWidth timestamp + 12 + (if session_timezone || bc then seconds else 0) +
    if session_timezone && bc then 4 else 0

/-- The length of all pieces of a time but the last one. -/
def timeRoom (time : Int) (tzp : Option Int) : Nat :=
  if tzp = none then 5 else if time % 1000000 = 0 then 8 else 15

/-! ## Lengths -/

/-- A character without an end is no text. -/
theorem oneCharacter_digit (memory : List Char) (size : Nat) :
    ¬ (oneCharacter memory '0').Respects size [] := by
  rintro ⟨-, ⟨shown, none, -, rest, same⟩, -⟩
  obtain rfl := List.prefix_nil.mp none
  simp [oneCharacter, Printed.put] at same

theorem minuteText_plain (hour min : Int) : '\x00' ∉ minuteText hour min := by
  simp [minuteText, printInt_plain]

theorem secondText_plain (sec fsec : Int) : '\x00' ∉ secondText sec fsec := by
  rw [secondText]
  split_ifs <;> simp [printInt_plain]

theorem secondText_ne_nil (sec fsec : Int) : secondText sec fsec ≠ [] := by
  rw [secondText]
  split_ifs <;> simp

theorem zoneText_plain (tz : Int) : '\x00' ∉ zoneText tz ∧ zoneText tz ≠ [] := by
  rw [zoneText]
  split_ifs <;> simp [printInt_plain, printInt_ne_nil]

theorem dayText_plain (year month day : Int) : '\x00' ∉ dayText year month day := by
  simp [dayText, printInt_plain]

/-- Two digits. -/
theorem two_length {value : Int} (nonneg : 0 ≤ value) (small : value < 100) :
    (printInt false 2 value).length = 2 :=
  printInt_length (by decide) nonneg (by norm_num; omega)

theorem minuteText_length {hour min : Int} (hours : 0 ≤ hour ∧ hour ≤ 23)
    (mins : 0 ≤ min ∧ min ≤ 59) : (minuteText hour min).length = 5 := by
  rw [minuteText, List.length_append, List.length_cons, two_length hours.1 (by omega),
    two_length mins.1 (by omega)]

theorem secondText_length {sec fsec : Int} (secs : 0 ≤ sec ∧ sec ≤ 59)
    (fraction : 0 ≤ fsec ∧ fsec < 1000000) :
    (secondText sec fsec).length = if fsec = 0 then 3 else 10 := by
  have two := two_length secs.1 (show sec < 100 by omega)
  have six : (printInt false 6 fsec).length = 6 :=
    printInt_length (by decide) fraction.1 (by norm_num; omega)
  by_cases whole : fsec = 0
  · simp [secondText, whole, two]
  · simp [secondText, whole, two, six]

theorem dayText_length {year month day : Int} (months : 1 ≤ month ∧ month ≤ 12)
    (days : 1 ≤ day ∧ day ≤ 31) :
    (dayText year month day).length = (printInt false 4 year).length + 6 := by
  rw [dayText, List.length_append, List.length_cons, List.length_append, List.length_cons,
    two_length (by omega) (by omega), two_length (by omega) (by omega)]

/-! ## Times -/

theorem fsec_eq_zero {hour min sec fsec time : Int} (fields : IsTimeOfDay hour min sec fsec)
    (same : timeOfDay hour min sec fsec = time) : fsec = 0 ↔ time % 1000000 = 0 := by
  have fraction := fields.fsec
  rw [timeOfDay] at same
  omega

/-- A time in range is printed in pieces, and its text is made of them. -/
theorem time_out_eq (memory : List Char) {time : Int} (buf_len : Int) (tzp : Option Int)
    (nonneg : 0 ≤ time) (lt : time < 86400000000) :
    ∃ hour min sec fsec, IsTimeOfDay hour min sec fsec ∧ timeOfDay hour min sec fsec = time ∧
      time_out memory time buf_len tzp = Printed.pieces buf_len memory (minuteText hour min)
        (secondText sec fsec :: (tzp.map zoneText).toList) ∧
      timeText time tzp =
        minuteText hour min ++ (secondText sec fsec :: (tzp.map zoneText).toList).flatten := by
  obtain ⟨hour, min, sec, fsec, divided⟩ : ∃ hour min sec fsec,
      divideTime time = (hour, min, sec, fsec) := ⟨_, _, _, _, rfl⟩
  obtain ⟨fields, same⟩ := divideTime_spec nonneg lt divided
  have tm : time2tm time = some (⟨0, 0, 0, hour, min, sec⟩, fsec) := by
    rw [time2tm, if_neg (by rw [microsecondsPerDay]; omega), divided]
  have inDay : ¬ (hour < 0 ∨ hour > 24) := by
    have hours := fields.hour
    omega
  refine ⟨hour, min, sec, fsec, fields, same, ?_, ?_⟩
  · simp only [time_out, tm, if_neg inDay]
    cases tzp <;> rfl
  · simp only [timeText, tm]
    cases tzp <;> simp

theorem time_out_respects_iff {size : Nat} (memory : List Char) (time : Int) (tzp : Option Int)
    (room : 1 ≤ size) (small : size ≤ 2147483647) :
    (time_out memory time size tzp).Respects size (timeText time tzp) ↔
      0 ≤ time ∧ time < 86400000000 ∧ timeRoom time tzp ≤ size := by
  by_cases inside : 0 ≤ time ∧ time < 86400000000
  · obtain ⟨hour, min, sec, fsec, fields, same, out, text⟩ :=
      time_out_eq memory size tzp inside.1 inside.2
    have first := minuteText_length fields.hour fields.min
    have second := secondText_length fields.sec fields.fsec
    simp only [fsec_eq_zero fields same] at second
    rw [out, text, Printed.pieces_respects_iff memory (minuteText_plain hour min) room]
    · cases tzp with
      | none => simp [first, inside, timeRoom]
      | some tz =>
          simp only [reduceCtorEq, false_or, Option.map_some, Option.toList_some,
            List.dropLast_cons_cons, List.dropLast_singleton, List.flatten_cons, List.flatten_nil,
            List.append_nil, List.length_append, first, second, inside, timeRoom, if_false,
            true_and]
          split_ifs <;> rfl
    · intro piece member
      rcases List.mem_cons.mp member with rfl | zone
      · exact ⟨secondText_ne_nil sec fsec, secondText_plain sec fsec⟩
      · rw [Option.mem_toList, Option.map_eq_some_iff] at zone
        obtain ⟨tz, -, rfl⟩ := zone
        exact ⟨(zoneText_plain tz).2, (zoneText_plain tz).1⟩
    · omega
    · cases tzp with
      | none => simp [first]
      | some tz =>
          simp only [Option.map_some, Option.toList_some, List.dropLast_cons_cons,
            List.dropLast_singleton, List.flatten_cons, List.flatten_nil, List.append_nil,
            List.length_append, first, second]
          split_ifs <;> norm_num
  · have none : time2tm time = none := by
      rw [time2tm, if_pos (by rw [microsecondsPerDay]; omega)]
    rw [time_out, timeText, none]
    constructor
    · exact fun respects => absurd respects (oneCharacter_digit memory size)
    · rintro ⟨nonneg, lt, -⟩
      exact absurd ⟨nonneg, lt⟩ inside

/-! ## Timestamps -/

/-- The number of digits of the year that is shown. -/
theorem year_length {timestamp : Int} {date : Date} (valid : date.Valid)
    (day : date.julianDay = timestamp / 86400000000 + 2451545)
    (nonneg : 0 ≤ timestamp / 86400000000 + 2451545) (small : timestamp < 9223372036854775808) :
    (date.year ≤ 0 ↔ timestamp < -63082281600000000) ∧
      (printInt false 4 (if 0 < date.year then date.year else 1 - date.year)).length =
        yearWidth timestamp := by
  have reaches : ∀ year : Int,
      year ≤ date.year ↔ Date.julianDay ⟨year, 1, 1⟩ ≤ timestamp / 86400000000 + 2451545 :=
    fun year => day ▸ year_le_iff valid year
  have one := reaches 1
  have five := reaches 10000
  have six := reaches 100000
  have seven := reaches 1000000
  have early := reaches (-4713)
  rw [show Date.julianDay ⟨1, 1, 1⟩ = 1721426 by decide] at one
  rw [show Date.julianDay ⟨10000, 1, 1⟩ = 5373485 by decide] at five
  rw [show Date.julianDay ⟨100000, 1, 1⟩ = 38245310 by decide] at six
  rw [show Date.julianDay ⟨1000000, 1, 1⟩ = 366963560 by decide] at seven
  rw [show Date.julianDay ⟨-4713, 1, 1⟩ = -327 by decide] at early
  refine ⟨by omega, ?_⟩
  obtain ⟨shown, isShown⟩ :
      ∃ shown, shown = if 0 < date.year then date.year else 1 - date.year := ⟨_, rfl⟩
  have pos : 0 ≤ shown := by
    rw [isShown]
    split_ifs <;> omega
  have width : ∀ count, 0 < count →
      ((printInt false 4 shown).length ≤ count ↔ 4 ≤ count ∧ shown < (10 ^ count : Nat)) :=
    fun count some => printInt_length_le pos some
  have three := width 3 (by decide)
  have four := width 4 (by decide)
  have fifth := width 5 (by decide)
  have sixth := width 6 (by decide)
  norm_num at three four fifth sixth
  rw [← isShown, yearWidth]
  split_ifs at isShown ⊢ <;> omega

/-- The pieces of a timestamp behind its minutes. -/
def timestampRest (sec fsec year : Int) (session_timezone : Bool) : List (List Char) :=
  secondText sec fsec ::
    ((if session_timezone then [" UTC".toList] else []) ++
      if year ≤ 0 then [" BC".toList] else [])

theorem timestampRest_plain (sec fsec year : Int) (session_timezone : Bool) :
    ∀ piece ∈ timestampRest sec fsec year session_timezone, piece ≠ [] ∧ '\x00' ∉ piece := by
  intro piece member
  rcases List.mem_cons.mp member with rfl | later
  · exact ⟨secondText_ne_nil sec fsec, secondText_plain sec fsec⟩
  · rcases List.mem_append.mp later with zone | era
    · split at zone
      · rw [List.mem_singleton.mp zone]
        decide
      · cases zone
    · split at era
      · rw [List.mem_singleton.mp era]
        decide
      · cases era

theorem timestampRest_length (sec fsec year : Int) (session_timezone : Bool) :
    (timestampRest sec fsec year session_timezone).dropLast.flatten.length =
      (if session_timezone || decide (year ≤ 0) then (secondText sec fsec).length else 0) +
        if session_timezone && decide (year ≤ 0) then 4 else 0 := by
  rw [timestampRest]
  by_cases era : year ≤ 0
  · cases session_timezone <;> simp [era]
  · cases session_timezone <;> simp [era]

/-- A timestamp in range is printed in pieces, and its text is made of them. -/
theorem timestamp_out_eq (memory : List Char) {timestamp : Int} (buf_len : Int)
    (session_timezone : Bool) (low : dtNobegin < timestamp) (high : timestamp < dtNoend)
    (nonneg : 0 ≤ timestamp / 86400000000 + 2451545) :
    ∃ tm fsec, Date.Valid ⟨tm.tm_year, tm.tm_mon, tm.tm_mday⟩ ∧
      IsTimeOfDay tm.tm_hour tm.tm_min tm.tm_sec fsec ∧ timestampOf tm fsec = timestamp ∧
      timestamp_out memory timestamp buf_len session_timezone =
        Printed.pieces buf_len memory
          (dayText (if 0 < tm.tm_year then tm.tm_year else 1 - tm.tm_year) tm.tm_mon tm.tm_mday ++
            ' ' :: minuteText tm.tm_hour tm.tm_min)
          (timestampRest tm.tm_sec fsec tm.tm_year session_timezone) ∧
      timestampText timestamp session_timezone =
        (dayText (if 0 < tm.tm_year then tm.tm_year else 1 - tm.tm_year) tm.tm_mon tm.tm_mday ++
            ' ' :: minuteText tm.tm_hour tm.tm_min) ++
          (timestampRest tm.tm_sec fsec tm.tm_year session_timezone).flatten := by
  have range : -9223372036854775808 ≤ timestamp ∧ timestamp < 9223372036854775808 := by
    rw [dtNobegin] at low
    rw [dtNoend] at high
    omega
  obtain ⟨isNone, fields⟩ := timestamp2tm_fields range.1 range.2
  cases found : timestamp2tm timestamp with
  | none =>
      have early := isNone.mp found
      omega
  | some result =>
      obtain ⟨tm, fsec⟩ := result
      obtain ⟨valid, time, same⟩ := fields tm fsec found
      refine ⟨tm, fsec, valid, time, same, ?_, ?_⟩
      · have year : -(tm.tm_year - 1) = 1 - tm.tm_year := by omega
        simp only [timestamp_out, if_neg low.ne', if_neg high.ne, found, year]
        cases session_timezone <;> by_cases era : tm.tm_year ≤ 0 <;>
          simp [timestampRest, Printed.pieces, era]
      · simp only [timestampText, if_neg low.ne', if_neg high.ne, found]
        cases session_timezone <;> by_cases era : tm.tm_year ≤ 0 <;>
          simp [timestampRest, era, Int.not_lt.mpr, Int.not_le.mp]

theorem timestamp_out_respects_iff {size : Nat} (memory : List Char) {timestamp : Int}
    (session_timezone : Bool) (room : 1 ≤ size) (small : size ≤ 2147483647)
    (low : dtNobegin ≤ timestamp) (high : timestamp ≤ dtNoend) :
    (timestamp_out memory timestamp size session_timezone).Respects size
        (timestampText timestamp session_timezone) ↔
      timestamp = dtNobegin ∨ timestamp = dtNoend ∨
        0 ≤ timestamp / 86400000000 + 2451545 ∧
          timestampRoom timestamp session_timezone ≤ size := by
  have printed (text : List Char) :
      (Printed.start size memory text).Respects size text :=
    (Printed.start_holds memory text room (by omega)).respects room
  by_cases begins : timestamp = dtNobegin
  · simp only [begins, true_or, iff_true, timestamp_out, timestampText, if_pos]
    exact printed _
  by_cases ends : timestamp = dtNoend
  · have other : dtNoend ≠ dtNobegin := by decide
    simp only [ends, true_or, or_true, iff_true, timestamp_out, timestampText, if_neg other, if_pos]
    exact printed _
  simp only [begins, ends, false_or]
  by_cases inside : 0 ≤ timestamp / 86400000000 + 2451545
  · obtain ⟨tm, fsec, valid, time, same, out, text⟩ := timestamp_out_eq memory size
      session_timezone (lt_of_le_of_ne low (Ne.symm begins)) (lt_of_le_of_ne high ends) inside
    have fraction : fsec = 0 ↔ timestamp % 1000000 = 0 := by
      have bounds := time.fsec
      rw [timestampOf, timeOfDay, microsecondsPerDay] at same
      omega
    have isDay : Date.julianDay ⟨tm.tm_year, tm.tm_mon, tm.tm_mday⟩ =
        timestamp / 86400000000 + 2451545 := by
      obtain ⟨hours, mins, secs, bounds⟩ := time
      rw [timestampOf, timeOfDay, microsecondsPerDay, postgresEpochJdate] at same
      omega
    obtain ⟨era, width⟩ := year_length valid isDay inside (by rw [dtNoend] at high; omega)
    have month : 1 ≤ tm.tm_mon ∧ tm.tm_mon ≤ 12 := ⟨valid.month_pos, valid.month_le⟩
    have day : 1 ≤ tm.tm_mday ∧ tm.tm_mday ≤ 31 := by
      refine ⟨valid.day_pos, valid.day_le.trans ?_⟩
      rw [monthLength]
      split_ifs <;> decide
    have first : (dayText (if 0 < tm.tm_year then tm.tm_year else 1 - tm.tm_year) tm.tm_mon
        tm.tm_mday ++ ' ' :: minuteText tm.tm_hour tm.tm_min).length =
          yearWidth timestamp + 12 := by
      rw [List.length_append, List.length_cons, dayText_length month day, width,
        minuteText_length time.hour time.min]
    have second := secondText_length time.sec time.fsec
    simp only [fraction] at second
    have plain : '\x00' ∉ dayText (if 0 < tm.tm_year then tm.tm_year else 1 - tm.tm_year)
        tm.tm_mon tm.tm_mday ++ ' ' :: minuteText tm.tm_hour tm.tm_min := by
      simp [dayText_plain, minuteText_plain]
    have yearLe : yearWidth timestamp ≤ 6 := by
      rw [yearWidth]
      split_ifs <;> decide
    have needed : (timestampRest tm.tm_sec fsec tm.tm_year session_timezone).dropLast.flatten.length
        + (yearWidth timestamp + 12) = timestampRoom timestamp session_timezone := by
      have same : decide (tm.tm_year ≤ 0) = decide (timestamp < -63082281600000000) :=
        decide_eq_decide.mpr era
      rw [timestampRest_length, second, same, timestampRoom]
      omega
    rw [out, text, Printed.pieces_respects_iff memory plain room
      (timestampRest_plain _ _ _ _) (by omega)]
    · rw [List.length_append, first]
      simp only [inside, true_and, timestampRest, reduceCtorEq, false_or] at needed ⊢
      omega
    · rw [List.length_append, first]
      have bound : timestampRoom timestamp session_timezone ≤ 32 := by
        rw [timestampRoom]
        split_ifs <;> omega
      omega
  · have early : timestamp2tm timestamp = none :=
      (timestamp2tm_fields (by rw [dtNobegin] at low; omega) (by rw [dtNoend] at high; omega)).1.mpr
        (by omega)
    simp only [inside, false_and, iff_false, timestamp_out, timestampText, if_neg begins,
      if_neg ends, early]
    exact oneCharacter_digit memory size

/-! ## All temporal values -/

/--
Dates and intervals always respect the buffer; times and timestamps do exactly
when they are in range and the buffer has room for all pieces but the last one.
-/
theorem temporal_out_respects_iff (memory : List Char) (size : Nat) (room : 1 ≤ size)
    (small : size ≤ 2147483647) :
    (∀ date : Int, (date_out memory date size).Respects size (dateText date)) ∧
    (∀ y2m : IntervalY2m, (intervaly2m_out memory y2m size).Respects size (yearMonthText y2m)) ∧
    (∀ d2s : IntervalD2s, (intervald2s_out memory d2s size).1.Respects size (daySecondText d2s)) ∧
    (∀ (time : Int) (tzp : Option Int),
      (time_out memory time size tzp).Respects size (timeText time tzp) ↔
        0 ≤ time ∧ time < 86400000000 ∧ timeRoom time tzp ≤ size) ∧
    ∀ (timestamp : Int) (session_timezone : Bool), dtNobegin ≤ timestamp → timestamp ≤ dtNoend →
      ((timestamp_out memory timestamp size session_timezone).Respects size
          (timestampText timestamp session_timezone) ↔
        timestamp = dtNobegin ∨ timestamp = dtNoend ∨
          0 ≤ timestamp / 86400000000 + 2451545 ∧
            timestampRoom timestamp session_timezone ≤ size) := by
  have printed (text : List Char) :
      (Printed.start size memory text).Respects size text :=
    (Printed.start_holds memory text room (by omega)).respects room
  refine ⟨fun date => ?_, fun y2m => printed _, fun d2s => printed _,
    fun time tzp => time_out_respects_iff memory time tzp room small,
    fun timestamp session_timezone low high =>
      timestamp_out_respects_iff memory session_timezone room small low high⟩
  have month : ¬ ((j2date (date + postgresEpochJdate)).month < 1 ∨
      (j2date (date + postgresEpochJdate)).month > 12) := by
    simp only [j2date]
    omega
  simp only [date_out, if_neg month, dateText]
  by_cases ad : 0 < (j2date (date + postgresEpochJdate)).year
  · rw [if_pos ad, if_pos (show 0 < (j2date (date + 2451545)).year from ad)]
    exact printed _
  · rw [if_neg ad, if_neg (show ¬ 0 < (j2date (date + 2451545)).year from ad), Int.neg_sub]
    exact printed _

/-- Half past twelve and its seconds have room in five characters, and so has a timestamp in sixteen. -/
theorem temporal_out_respects_five :
    (time_out [] 45296000000 5 none).Respects 5 (timeText 45296000000 none) ∧
      (timestamp_out [] 0 16 false).Respects 16 (timestampText 0 false) :=
  ⟨((temporal_out_respects_iff [] 5 (by decide) (by decide)).2.2.2.1 45296000000 none).mpr
      (by decide),
    ((temporal_out_respects_iff [] 16 (by decide) (by decide)).2.2.2.2 0 false (by decide)
      (by decide)).mpr (by decide)⟩

/-- Four characters are too few: the seconds are written behind them. -/
theorem temporal_out_respects_wrong : ¬ ∀ (memory : List Char) (size : Nat) (time : Int)
    (tzp : Option Int), 1 ≤ size → size ≤ 2147483647 →
      (time_out memory time size tzp).Respects size (timeText time tzp) := by
  intro always
  have inside := (always [] 4 45296000000 none (by decide) (by decide)).1
  exact absurd inside (by decide)

end RedshiftOdbc.Convert
