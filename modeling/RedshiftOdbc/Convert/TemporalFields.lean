import RedshiftOdbc.Library.Calendar
import RedshiftOdbc.Library.Words
import Mathlib.Tactic.Ring

/-!
# Fields of temporal values

Timestamps, times and intervals are counts of microseconds; what the driver
prints and returns are their fields.  A timestamp is divided into a Julian day
and a time of day, and `j2date` turns the day into a date of the calendar.
-/

namespace RedshiftOdbc.Convert

open RedshiftOdbc.Words RedshiftOdbc.Calendar

def postgresEpochJdate : Int := 2451545

def microsecondsPerDay : Int := 86400000000

def j2date (jd : Int) : Date :=
  let julian := unsigned 4 (unsigned 4 jd + 32044)
  let quad := julian / 146097
  let extra := unsigned 4 (((julian - quad * 146097) * 4 + 3 : Nat))
  let julian := unsigned 4 ((julian + (60 + quad * 3 + extra / 146097) : Nat))
  let quad := julian / 1461
  let julian := julian - quad * 1461
  let y := julian * 4 / 1461
  let julian := (if y ≠ 0 then (julian + 305) % 365 else (julian + 306) % 366) + 123
  let y := wrap 4 ((y + quad * 4 : Nat))
  let quad := julian * 2141 / 65536
  { year := y - 4800
    month := ((quad + 10) % 12 + 1 : Nat)
    day := (julian - 7834 * quad / 256 : Nat) }

structure PgTm where
  tm_year : Int
  tm_mon : Int
  tm_mday : Int
  tm_hour : Int
  tm_min : Int
  tm_sec : Int
  deriving DecidableEq, Repr

/-- The hours, minutes, seconds and microseconds of a time, divided off one by one. -/
def divideTime (time : Int) : Int × Int × Int × Int :=
  let hour := time.tdiv 3600000000
  let time := time - hour * 3600000000
  let min := time.tdiv 60000000
  let time := time - min * 60000000
  let sec := time.tdiv 1000000
  (hour, min, sec, time - sec * 1000000)

def dt2time (jd : Int) : Int × Int × Int × Int := divideTime jd

/-- `timestamp2tm`: the fields and the microseconds. -/
def timestamp2tm (dt : Int) : Option (PgTm × Int) :=
  let date := dt.tdiv microsecondsPerDay
  let time := if date ≠ 0 then dt - date * microsecondsPerDay else dt
  let (time, date) := if time < 0 then (time + microsecondsPerDay, date - 1) else (time, date)
  let date := date + postgresEpochJdate
  if date < 0 ∨ date > 2147483647 then none
  else
    let day := j2date date
    let (hour, min, sec, fsec) := dt2time time
    some (⟨day.year, day.month, day.day, hour, min, sec⟩, fsec)

/-- `time2tm`: without a value the time is negative or a day long. -/
def time2tm (time : Int) : Option (PgTm × Int) :=
  if time < 0 ∨ time ≥ microsecondsPerDay then none
  else
    let (hour, min, sec, fsec) := divideTime time
    some (⟨0, 0, 0, hour, min, sec⟩, fsec)

def interval2tm (time months : Int) : PgTm × Int :=
  let day := time.tdiv microsecondsPerDay
  let (hour, min, sec, fsec) := divideTime (time - day * microsecondsPerDay)
  (⟨months.tdiv 12, months.tmod 12, day, hour, min, sec⟩, fsec)

/-! ## The Julian day -/

/-- The first part of `j2date`: the day within four years that begin with a March. -/
theorem quad_years (f : Nat) (within : f < 1461) :
    let julian := (f + 60) % 1461
    let y := julian * 4 / 1461
    let march := min 3 (f / 365)
    (if y ≠ 0 then (julian + 305) % 365 else (julian + 306) % 366) = f - 365 * march ∧
      4 * ((f + 60) / 1461) + y = march + if 306 ≤ f - 365 * march then 1 else 0 := by
  revert f
  decide +kernel

/-- The second part: the month and the day from the day of a year that begins with March. -/
theorem month_of_marchDay (v : Nat) (within : v < 366) :
    let quad := (v + 123) * 2141 / 65536
    let month : Int := ((quad + 10) % 12 + 1 : Nat)
    let day : Int := (v + 123 - 7834 * quad / 256 : Nat)
    1 ≤ month ∧ month ≤ 12 ∧ 1 ≤ day ∧ monthStart month + day - 1 = v ∧
      (month ≤ 2 ↔ 306 ≤ v) ∧ day ≤ (if month = 2 then if v = 365 then 29 else 28
        else if month = 4 ∨ month = 6 ∨ month = 9 ∨ month = 11 then 30 else 31) := by
  revert v
  decide +kernel

theorem unsigned_four {value : Nat} (small : value < 4294967296) : unsigned 4 (value : Int) = value :=
  unsigned_natCast small

/-- The year of `j2date` by the March years, and the day in it. -/
theorem j2date_spec (jd : Nat) (le : jd ≤ 2147483647) :
    ∃ year : Int, ∃ v : Nat, v < 366 ∧ (v = 365 → IsLeap (year + 1)) ∧
      marchDays year + v + 1721120 = jd ∧
      let quad := (v + 123) * 2141 / 65536
      j2date jd = ⟨year + (if 306 ≤ v then 1 else 0), ((quad + 10) % 12 + 1 : Nat),
        (v + 123 - 7834 * quad / 256 : Nat)⟩ := by
  -- four hundred years, hundred years, four years and years, each from a March on
  obtain ⟨q, isQ⟩ : ∃ q, q = (jd + 32044) / 146097 := ⟨_, rfl⟩
  obtain ⟨r, isR⟩ : ∃ r, r = (jd + 32044) % 146097 := ⟨_, rfl⟩
  obtain ⟨c, isC⟩ : ∃ c, c = (4 * r + 3) / 146097 := ⟨_, rfl⟩
  obtain ⟨w, isW⟩ : ∃ w, w = r - 36524 * c := ⟨_, rfl⟩
  obtain ⟨e, isE⟩ : ∃ e, e = w / 1461 := ⟨_, rfl⟩
  obtain ⟨f, isF⟩ : ∃ f, f = w % 1461 := ⟨_, rfl⟩
  obtain ⟨g, isG⟩ : ∃ g, g = min 3 (f / 365) := ⟨_, rfl⟩
  obtain ⟨v, isV⟩ : ∃ v, v = f - 365 * g := ⟨_, rfl⟩
  have cLe : c ≤ 3 ∧ r = 36524 * c + w := by omega
  have wLe : w ≤ 36524 ∧ (w = 36524 → c = 3) := by omega
  have eLe : e ≤ 24 ∧ w = 1461 * e + f ∧ f < 1461 := by omega
  have gLe : g ≤ 3 ∧ f = 365 * g + v ∧ v < 366 ∧ (v = 365 → g = 3) := by omega
  have days : jd + 32044 = 146097 * q + r := by omega
  refine ⟨400 * q + 100 * c + 4 * e + g - 4800, v, gLe.2.2.1, ?_, ?_, ?_⟩
  · intro isLast
    have last : g = 3 ∧ f = 1460 := by omega
    constructor
    · omega
    · by_cases century : e = 24
      · right; omega
      · left; omega
  · have fourth : (400 * (q : Int) + 100 * c + 4 * e + g - 4800) / 4 =
        100 * q + 25 * c + e - 1200 := by omega
    have hundredth : (400 * (q : Int) + 100 * c + 4 * e + g - 4800) / 100 = 4 * q + c - 48 := by
      omega
    have cycle : (400 * (q : Int) + 100 * c + 4 * e + g - 4800) / 400 = q - 12 := by omega
    have whole : jd + 32044 = 146097 * q + 36524 * c + 1461 * e + 365 * g + v := by
      rw [days, cLe.2, eLe.2.1, gLe.2.1]
      ring
    rw [marchDays, fourth, hundredth, cycle]
    clear isQ isR isC isW isE isF isG isV
    omega
  · have julian : unsigned 4 (unsigned 4 jd + 32044) = jd + 32044 := by
      rw [unsigned_four (by omega)]
      exact unsigned_four (show jd + 32044 < 4294967296 by omega)
    have quad : (jd + 32044) / 146097 = q := isQ.symm
    have extra : unsigned 4 ((((jd + 32044) - q * 146097) * 4 + 3 : Nat)) = 4 * r + 3 := by
      rw [unsigned_four (by omega)]
      omega
    have century : (4 * r + 3) / 146097 = c := isC.symm
    have sum : unsigned 4 ((jd + 32044 + (60 + q * 3 + c) : Nat)) =
        1461 * (100 * q + 25 * c + e) + (f + 60) := by
      rw [unsigned_four (by omega)]
      omega
    have quad' : (1461 * (100 * q + 25 * c + e) + (f + 60)) / 1461 =
        100 * q + 25 * c + e + (f + 60) / 1461 := by omega
    have rest : 1461 * (100 * q + 25 * c + e) + (f + 60) -
        (100 * q + 25 * c + e + (f + 60) / 1461) * 1461 = (f + 60) % 1461 := by omega
    obtain ⟨marchDay, years⟩ := quad_years f eLe.2.2
    simp only [← isG, ← isV] at marchDay years
    simp only [j2date, julian, quad, extra, century, sum, quad', rest, marchDay, Date.mk.injEq,
      and_true]
    have year : wrap 4 (((f + 60) % 1461 * 4 / 1461 +
        (100 * q + 25 * c + e + (f + 60) / 1461) * 4 : Nat)) =
        (400 * q + 100 * c + 4 * e + (g + if 306 ≤ v then 1 else 0) : Nat) := by
      have count : (f + 60) % 1461 * 4 / 1461 + (100 * q + 25 * c + e + (f + 60) / 1461) * 4 =
          400 * q + 100 * c + 4 * e + (g + if 306 ≤ v then 1 else 0) := by omega
      have power : (256 ^ 4 : Nat) = 4294967296 := by decide
      have small : 400 * q + 100 * c + 4 * e + (g + if 306 ≤ v then 1 else 0) < 2147483648 := by
        split_ifs <;> omega
      rw [count, wrap_of_range] <;> rw [power] <;> omega
    rw [year]
    split_ifs <;> push_cast <;> ring

/-- `j2date` is the date of the Julian day. -/
theorem j2date_exact {jd : Int} (nonneg : 0 ≤ jd) (le : jd ≤ 2147483647) :
    (j2date jd).Valid ∧ (j2date jd).julianDay = jd := by
  obtain ⟨jd, rfl⟩ : ∃ n : Nat, jd = n := ⟨jd.toNat, by omega⟩
  obtain ⟨year, v, within, leap, days, same⟩ := j2date_spec jd (by omega)
  have fields := month_of_marchDay v within
  simp only at same fields
  -- from here on the month and the day are two numbers
  generalize (((v + 123) * 2141 / 65536 + 10) % 12 + 1 : Nat) = month at same fields
  generalize (v + 123 - 7834 * ((v + 123) * 2141 / 65536) / 256 : Nat) = day at same fields
  obtain ⟨month_pos, month_le, day_pos, start, early, day_le⟩ := fields
  generalize j2date jd = date at same ⊢
  subst same
  refine ⟨⟨month_pos, month_le, day_pos, day_le.trans ?_⟩, ?_⟩
  · simp only [monthLength]
    split_ifs with february isLast isLeap <;> simp_all
  · have marchYear : Date.marchYear ⟨year + (if 306 ≤ v then 1 else 0), month, day⟩ = year := by
      simp only [Date.marchYear]
      split_ifs <;> omega
    rw [Date.julianDay, marchYear, Date.marchDay, start]
    omega

/-- Consecutive Julian days are consecutive dates. -/
theorem j2date_next {jd : Int} (nonneg : 0 ≤ jd) (le : jd + 1 ≤ 2147483647) :
    j2date (jd + 1) = (j2date jd).next := by
  obtain ⟨valid, day⟩ := j2date_exact nonneg (by omega)
  obtain ⟨valid', day'⟩ := j2date_exact (show 0 ≤ jd + 1 by omega) le
  refine julianDay_injective valid' (next_valid valid) ?_
  rw [day', julianDay_next valid, day]

/-! ## Timestamps -/

/-- The fields of a time of day, and the microseconds. -/
structure IsTimeOfDay (hour min sec fsec : Int) : Prop where
  hour : 0 ≤ hour ∧ hour ≤ 23
  min : 0 ≤ min ∧ min ≤ 59
  sec : 0 ≤ sec ∧ sec ≤ 59
  fsec : 0 ≤ fsec ∧ fsec < 1000000

def timeOfDay (hour min sec fsec : Int) : Int := ((hour * 60 + min) * 60 + sec) * 1000000 + fsec

theorem divideTime_spec {time : Int} (nonneg : 0 ≤ time) (lt : time < microsecondsPerDay)
    {hour min sec fsec : Int} (divided : divideTime time = (hour, min, sec, fsec)) :
    IsTimeOfDay hour min sec fsec ∧ timeOfDay hour min sec fsec = time := by
  unfold microsecondsPerDay at lt
  simp only [divideTime, Prod.mk.injEq] at divided
  obtain ⟨isHour, isMin, isSec, isFsec⟩ := divided
  rw [isHour] at isMin isSec isFsec
  rw [Int.tdiv_eq_ediv_of_nonneg nonneg] at isHour
  rw [isMin] at isSec isFsec
  rw [Int.tdiv_eq_ediv_of_nonneg (by omega)] at isMin
  rw [isSec] at isFsec
  rw [Int.tdiv_eq_ediv_of_nonneg (by omega)] at isSec
  refine ⟨⟨?_, ?_, ?_, ?_⟩, ?_⟩
  · omega
  · omega
  · omega
  · omega
  · rw [timeOfDay]
    omega

/-- The microseconds since the epoch that the fields of a timestamp say. -/
def timestampOf (tm : PgTm) (fsec : Int) : Int :=
  (Date.julianDay ⟨tm.tm_year, tm.tm_mon, tm.tm_mday⟩ - postgresEpochJdate) * microsecondsPerDay +
    timeOfDay tm.tm_hour tm.tm_min tm.tm_sec fsec

theorem timestamp2tm_spec {dt : Int} :
    timestamp2tm dt =
      let date := dt / microsecondsPerDay + postgresEpochJdate
      if date < 0 ∨ date > 2147483647 then none
      else
        let day := j2date date
        let (hour, min, sec, fsec) := divideTime (dt % microsecondsPerDay)
        some (⟨day.year, day.month, day.day, hour, min, sec⟩, fsec) := by
  have floor : (let date := dt.tdiv microsecondsPerDay
      let time := if date ≠ 0 then dt - date * microsecondsPerDay else dt
      if time < 0 then (time + microsecondsPerDay, date - 1) else (time, date)) =
        (dt % microsecondsPerDay, dt / microsecondsPerDay) := by
    unfold microsecondsPerDay
    by_cases exact : 0 ≤ dt ∨ dt % 86400000000 = 0
    · have quotient : dt.tdiv 86400000000 = dt / 86400000000 := by
        simp only [Int.tdiv_eq_ediv, Int.dvd_iff_emod_eq_zero, if_pos exact, Int.add_zero]
      simp only [quotient]
      have rest : (if dt / 86400000000 ≠ 0 then dt - dt / 86400000000 * 86400000000 else dt) =
          dt % 86400000000 := by
        split_ifs <;> omega
      rw [rest, if_neg (by omega)]
    · have quotient : dt.tdiv 86400000000 = dt / 86400000000 + 1 := by
        simp only [Int.tdiv_eq_ediv, Int.dvd_iff_emod_eq_zero, if_neg exact]
        rfl
      simp only [quotient]
      split_ifs <;> simp only [Prod.mk.injEq] <;> omega
  simp only at floor
  simp only [timestamp2tm, floor, dt2time]

theorem timestamp2tm_fields {dt : Int} (low : -9223372036854775808 ≤ dt)
    (high : dt < 9223372036854775808) :
    (timestamp2tm dt = none ↔ dt / 86400000000 + 2451545 < 0) ∧
      ∀ tm fsec, timestamp2tm dt = some (tm, fsec) →
        Date.Valid ⟨tm.tm_year, tm.tm_mon, tm.tm_mday⟩ ∧
          IsTimeOfDay tm.tm_hour tm.tm_min tm.tm_sec fsec ∧ timestampOf tm fsec = dt := by
  rw [timestamp2tm_spec]
  simp only [microsecondsPerDay, postgresEpochJdate]
  have small : ¬ dt / 86400000000 + 2451545 > 2147483647 := by omega
  by_cases early : dt / 86400000000 + 2451545 < 0
  · simp [early]
  · obtain ⟨valid, day⟩ := j2date_exact (show 0 ≤ dt / 86400000000 + 2451545 by omega) (by omega)
    obtain ⟨hour, min, sec, fsec, divided⟩ : ∃ hour min sec fsec,
        divideTime (dt % 86400000000) = (hour, min, sec, fsec) := ⟨_, _, _, _, rfl⟩
    obtain ⟨time, isTime⟩ := divideTime_spec (Int.emod_nonneg dt (by decide))
      (Int.emod_lt_of_pos dt (by decide)) divided
    simp only [early, small, or_self, if_false, divided, reduceCtorEq, Option.some.injEq,
      Prod.mk.injEq, true_and]
    rintro tm fsec ⟨rfl, rfl⟩
    refine ⟨valid, time, ?_⟩
    simp only [timestampOf, isTime, day, postgresEpochJdate, microsecondsPerDay]
    omega

/--
Every timestamp of a non-negative Julian day is divided into a date of the
calendar and a time of day that say it, and the days are those of the calendar.
-/
theorem timestamp2tm_exact :
    (∀ dt : Int, -9223372036854775808 ≤ dt → dt < 9223372036854775808 →
      (timestamp2tm dt = none ↔ dt / 86400000000 + 2451545 < 0) ∧
      ∀ tm fsec, timestamp2tm dt = some (tm, fsec) →
        Date.Valid ⟨tm.tm_year, tm.tm_mon, tm.tm_mday⟩ ∧
          IsTimeOfDay tm.tm_hour tm.tm_min tm.tm_sec fsec ∧ timestampOf tm fsec = dt) ∧
    ∀ jd : Int, 0 ≤ jd → jd + 1 ≤ 2147483647 →
      (j2date jd).Valid ∧ j2date (jd + 1) = (j2date jd).next :=
  ⟨fun _ low high => timestamp2tm_fields low high, fun _ nonneg le =>
    ⟨(j2date_exact nonneg (by omega)).1, j2date_next nonneg le⟩⟩

/-- The last microsecond before the epoch, and the leap day of the epoch's year. -/
theorem timestamp2tm_before_epoch :
    (Date.Valid ⟨1999, 12, 31⟩ ∧ IsTimeOfDay 23 59 59 999999 ∧
      timestampOf ⟨1999, 12, 31, 23, 59, 59⟩ 999999 = -1) ∧
    j2date 2451604 = ⟨2000, 2, 29⟩ ∧ j2date 2451605 = (j2date 2451604).next :=
  ⟨(timestamp2tm_exact.1 (-1) (by decide) (by decide)).2 ⟨1999, 12, 31, 23, 59, 59⟩ 999999
      (by decide), by decide,
    (timestamp2tm_exact.2 2451604 (by decide) (by decide)).2⟩

end RedshiftOdbc.Convert
