import Mathlib.Tactic.IntervalCases

/-!
# The proleptic Gregorian calendar

Dates of the Gregorian calendar in all years, where the year before the year one
is the year zero.  Days are numbered by the Julian day; the number is fixed by the
number of one date and by the day that follows a date.
-/

namespace RedshiftOdbc.Calendar

structure Date where
  year : Int
  month : Int
  day : Int
  deriving DecidableEq, Repr

def IsLeap (year : Int) : Prop := year % 4 = 0 ∧ (year % 100 ≠ 0 ∨ year % 400 = 0)

instance (year : Int) : Decidable (IsLeap year) := inferInstanceAs (Decidable (_ ∧ _))

def monthLength (year month : Int) : Int :=
  if month = 2 then if IsLeap year then 29 else 28
  else if month = 4 ∨ month = 6 ∨ month = 9 ∨ month = 11 then 30
  else 31

structure Date.Valid (date : Date) : Prop where
  month_pos : 1 ≤ date.month
  month_le : date.month ≤ 12
  day_pos : 1 ≤ date.day
  day_le : date.day ≤ monthLength date.year date.month

def Date.next (date : Date) : Date :=
  if date.day < monthLength date.year date.month then { date with day := date.day + 1 }
  else if date.month < 12 then ⟨date.year, date.month + 1, 1⟩
  else ⟨date.year + 1, 1, 1⟩

/-- The year that begins with the March before a date. -/
def Date.marchYear (date : Date) : Int := if 3 ≤ date.month then date.year else date.year - 1

/-- The days from the first of March to the first of a month. -/
def monthStart (month : Int) : Int := (153 * ((month + 9) % 12) + 2) / 5

/-- The days from the first of March to a date. -/
def Date.marchDay (date : Date) : Int := monthStart date.month + date.day - 1

/-- The days from the first of March of the year zero to that of another year. -/
def marchDays (year : Int) : Int := 365 * year + year / 4 - year / 100 + year / 400

def Date.julianDay (date : Date) : Int := marchDays date.marchYear + date.marchDay + 1721120

/-- From one March to the next there are as many days as the February between them says. -/
theorem marchDays_succ (year : Int) :
    marchDays (year + 1) = marchDays year + if IsLeap (year + 1) then 366 else 365 := by
  unfold marchDays IsLeap
  split_ifs <;> omega

theorem marchDays_mono {first second : Int} (before : first ≤ second) :
    marchDays first ≤ marchDays second := by
  unfold marchDays
  omega

/-- The month after a month other than February begins when its days are over. -/
theorem monthStart_next {month : Int} (pos : 1 ≤ month) (le : month ≤ 12) (other : month ≠ 2)
    (year : Int) : monthStart (month % 12 + 1) = monthStart month + monthLength year month := by
  interval_cases month <;> first | exact absurd rfl other | rfl

theorem monthLength_pos (year month : Int) : 28 ≤ monthLength year month := by
  unfold monthLength
  split_ifs <;> omega

theorem julianDay_next {date : Date} (valid : date.Valid) :
    date.next.julianDay = date.julianDay + 1 := by
  obtain ⟨year, month, day⟩ := date
  obtain ⟨month_pos, month_le, day_pos, day_le⟩ := valid
  simp only at month_pos month_le day_pos day_le
  rw [Date.next]
  by_cases within : day < monthLength year month
  · rw [if_pos within]
    simp only [Date.julianDay, Date.marchYear, Date.marchDay]
    omega
  have isLast : day = monthLength year month := by omega
  rw [if_neg within]
  simp only [Date.julianDay, Date.marchYear, Date.marchDay, isLast]
  by_cases february : month = 2
  · subst february
    have start : monthStart 2 = 337 ∧ monthStart 3 = 0 := by decide
    have succ := marchDays_succ (year - 1)
    rw [Int.sub_add_cancel] at succ
    simp only [monthLength, if_pos]
    split_ifs at succ ⊢ <;> simp_all <;> omega
  · have start := monthStart_next month_pos month_le february year
    by_cases december : month < 12
    · rw [Int.emod_eq_of_lt (by omega) december] at start
      have same : 3 ≤ month + 1 ↔ 3 ≤ month := by omega
      simp only [if_pos december, start, same]
      omega
    · obtain rfl : month = 12 := by omega
      simp only [if_neg december, show (12 : Int) % 12 + 1 = 1 by decide] at start ⊢
      rw [start]
      simp
      omega

theorem next_valid {date : Date} (valid : date.Valid) : date.next.Valid := by
  obtain ⟨year, month, day⟩ := date
  obtain ⟨month_pos, month_le, day_pos, day_le⟩ := valid
  simp only at month_pos month_le day_pos day_le
  rw [Date.next]
  by_cases within : day < monthLength year month
  · rw [if_pos within]
    exact ⟨month_pos, month_le, by simp only; omega, within⟩
  rw [if_neg within]
  by_cases december : month < 12
  · rw [if_pos december]
    have long := monthLength_pos year (month + 1)
    exact ⟨by simp only; omega, by simp only; omega, Int.le_refl 1, by simp only; omega⟩
  · rw [if_neg december]
    have long := monthLength_pos (year + 1) 1
    exact ⟨Int.le_refl 1, by simp, Int.le_refl 1, by simp only; omega⟩

/-- A date lies before the first of the next month, and the last month is February. -/
theorem marchDay_lt {date : Date} (valid : date.Valid) :
    date.month = 2 ∨
      (date.month + 9) % 12 < 11 ∧
        date.marchDay < (153 * ((date.month + 9) % 12 + 1) + 2) / 5 := by
  obtain ⟨year, month, day⟩ := date
  obtain ⟨month_pos, month_le, day_pos, day_le⟩ := valid
  simp only at month_pos month_le day_pos day_le
  by_cases february : month = 2
  · exact Or.inl february
  · right
    have short : (month + 9) % 12 < 11 := by omega
    have bound : monthStart month + monthLength year month ≤
        (153 * ((month + 9) % 12 + 1) + 2) / 5 := by
      simp only [monthLength, if_neg february]
      interval_cases month <;> first | exact absurd rfl february | decide
    refine ⟨short, ?_⟩
    simp only [Date.marchDay]
    omega

/-- A date lies in its March year. -/
theorem marchDay_bounds {date : Date} (valid : date.Valid) :
    0 ≤ date.marchDay ∧
      marchDays date.marchYear + date.marchDay < marchDays (date.marchYear + 1) := by
  have succ := marchDays_succ date.marchYear
  have before := marchDay_lt valid
  obtain ⟨year, month, day⟩ := date
  obtain ⟨month_pos, month_le, day_pos, day_le⟩ := valid
  simp only at month_pos month_le day_pos day_le before
  have pos : 0 ≤ Date.marchDay ⟨year, month, day⟩ := by
    simp only [Date.marchDay, monthStart]
    omega
  refine ⟨pos, ?_⟩
  rw [succ]
  rcases before with rfl | ⟨short, bound⟩
  · have year' : Date.marchYear ⟨year, 2, day⟩ + 1 = year := by simp [Date.marchYear]
    have start : Date.marchDay ⟨year, 2, day⟩ = 337 + day - 1 := rfl
    rw [start, year']
    simp only [monthLength, if_pos] at day_le
    split_ifs at day_le ⊢ <;> omega
  · split_ifs <;> omega

/-- The day of the March year determines the month and its day. -/
theorem marchDay_injective {first second : Date} (validFirst : first.Valid)
    (validSecond : second.Valid) (year : first.marchYear = second.marchYear)
    (day : first.marchDay = second.marchDay) : first = second := by
  have beforeFirst := marchDay_lt validFirst
  have beforeSecond := marchDay_lt validSecond
  obtain ⟨year₁, month₁, day₁⟩ := first
  obtain ⟨year₂, month₂, day₂⟩ := second
  obtain ⟨pos₁, le₁, dayPos₁, _⟩ := validFirst
  obtain ⟨pos₂, le₂, dayPos₂, _⟩ := validSecond
  simp only [Date.marchDay, monthStart] at *
  have month : month₁ = month₂ := by omega
  subst month
  have sameDay : day₁ = day₂ := by omega
  simp only [Date.marchYear] at year
  have sameYear : year₁ = year₂ := by split_ifs at year <;> omega
  rw [sameDay, sameYear]

/-- The Julian day determines the date. -/
theorem julianDay_injective {first second : Date} (validFirst : first.Valid)
    (validSecond : second.Valid) (same : first.julianDay = second.julianDay) : first = second := by
  have boundsFirst := marchDay_bounds validFirst
  have boundsSecond := marchDay_bounds validSecond
  simp only [Date.julianDay] at same
  have year : first.marchYear = second.marchYear := by
    rcases Int.lt_trichotomy first.marchYear second.marchYear with before | same | behind
    · have mono := marchDays_mono (show first.marchYear + 1 ≤ second.marchYear from before)
      omega
    · exact same
    · have mono := marchDays_mono (show second.marchYear + 1 ≤ first.marchYear from behind)
      omega
  exact marchDay_injective validFirst validSecond year (by rw [year] at same; omega)

/-- The first of January is the day 306 of its March year. -/
theorem marchDay_january {date : Date} (valid : date.Valid) :
    3 ≤ date.month ↔ date.marchDay < 306 := by
  have before := marchDay_lt valid
  obtain ⟨year, month, day⟩ := date
  obtain ⟨month_pos, month_le, day_pos, day_le⟩ := valid
  simp only [Date.marchDay, monthStart] at *
  omega

/-- A date lies in a year or behind it exactly when it is not before its first of January. -/
theorem year_le_iff {date : Date} (valid : date.Valid) (year : Int) :
    year ≤ date.year ↔ Date.julianDay ⟨year, 1, 1⟩ ≤ date.julianDay := by
  have bounds := marchDay_bounds valid
  have january := marchDay_january valid
  have first : Date.julianDay ⟨year, 1, 1⟩ = marchDays (year - 1) + 306 + 1721120 := by
    simp [Date.julianDay, Date.marchYear, Date.marchDay, monthStart]
  rw [first, Date.julianDay]
  -- whether the date lies before its year's March decides which two years are compared
  rcases Int.lt_trichotomy date.marchYear (year - 1) with before | same | behind
  · have mono := marchDays_mono (show date.marchYear + 1 ≤ year - 1 from before)
    rw [Date.marchYear] at *
    split_ifs at * <;> omega
  · rw [Date.marchYear] at *
    split_ifs at * with late
    · have inside := january.mp late
      rw [same]
      omega
    · have outside := mt january.mpr late
      rw [same]
      omega
  · have mono := marchDays_mono (show year - 1 + 1 ≤ date.marchYear from behind)
    have succ := marchDays_succ (year - 1)
    rw [Date.marchYear] at *
    split_ifs at * <;> omega

end RedshiftOdbc.Calendar
