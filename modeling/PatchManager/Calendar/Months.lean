import PatchManager.Calendar.Civil
import Mathlib.Order.Monotone.Basic

/-! # Months

The days of a month, counted from the civil calendar: a month has one number, twelve times its
year plus its place in the year from January as `0`, so that the months before and after it are
the numbers next to it.  `firstOfMonth` is the day number of its first day.

Main results:

* `firstOfMonth_monthNumber`: a day is the first of its month and as many days more as its date
  says, so that `firstOfMonth` inverts `civilOfDays`.
* `monthNumber_eq_iff`: a month is the days from its first to the first of the next.
-/

namespace PatchManager.Calendar

/-- The number of the month a day lies in. -/
def monthNumber (day : Int) : Int := 12 * (civilOfDays day).year + ((civilOfDays day).month - 1)

/-- 1 March of a year. -/
def firstOfMarch (year : Int) : Int := 365 * year + year / 4 - year / 100 + year / 400 - 719468

/-- The first day of a month. -/
def firstOfMonth (month : Int) : Int :=
  firstOfMarch ((month - 2) / 12) + (153 * ((month - 2) % 12) + 2) / 5

def daysInMonth (month : Int) : Int := firstOfMonth (month + 1) - firstOfMonth month

example : firstOfMonth 0 = -719528 := by decide
example : firstOfMonth (12 * 1970) = 0 := by decide
example : daysInMonth (12 * 2024 + 1) = 29 := by decide
example : daysInMonth (12 * 2100 + 1) = 28 := by decide

/-! ## Years counted from March -/

/-- The year in which a day lies, counted from March. -/
def marchYear (day : Int) : Int :=
  yearOfEra (dayOfEra day) + (day + 719468) / 146097 * 400

/-- The years of one century `c` of an era: a day comes before the first day of the next year. -/
theorem lt_next_year {doe c e y : Int} (few : 0 ≤ c ∧ c ≤ 3)
    (century : 36524 * c ≤ doe ∧ doe < 36524 * c + 36524)
    (block : 1460 * e ≤ doe ∧ doe < 1460 * e + 1460)
    (year : 365 * y ≤ doe - e + c ∧ doe - e + c < 365 * y + 365) :
    doe < 365 * (y + 1) + (y + 1) / 4 - (y + 1) / 100 := by
  obtain ⟨hundreds, fours, blocks⟩ := yearOfEra_century century few block year
  rcases lt_or_ge y (100 * c + 99) with inner | last
  · have next : (y + 1) / 100 = c := by omega
    have begun : (y + 1) / 4 = e ∨ (y + 1) / 4 = e + 1 ∨ (y + 1) / 4 = e - 1 := by omega
    have leap : y % 4 = 0 ∨ y % 4 = 1 ∨ y % 4 = 2 ∨ y % 4 = 3 := by omega
    rw [next]
    omega
  · have next : (y + 1) / 100 = c + 1 := by omega
    rw [next]
    omega

/-- The last day of an era is the leap day of its last year. -/
theorem yearOfEra_span {doe : Int} (lo : 0 ≤ doe) (hi : doe < 146097) :
    0 ≤ yearOfEra doe ∧ yearOfEra doe ≤ 399 ∧
      doe < 365 * (yearOfEra doe + 1) + (yearOfEra doe + 1) / 4 - (yearOfEra doe + 1) / 100
        + (yearOfEra doe + 1) / 400 := by
  rcases Int.lt_or_eq_of_le (show doe ≤ 146096 by omega) with inner | rfl
  · have year : 365 * yearOfEra doe ≤ doe - doe / 1460 + doe / 36524 ∧
        doe - doe / 1460 + doe / 36524 < 365 * yearOfEra doe + 365 := by
      unfold yearOfEra; omega
    have few : 0 ≤ doe / 36524 ∧ doe / 36524 ≤ 3 := by omega
    have century : 36524 * (doe / 36524) ≤ doe ∧ doe < 36524 * (doe / 36524) + 36524 := by omega
    have next := lt_next_year few century (e := doe / 1460) (by omega) year
    obtain ⟨hundreds, -, -⟩ := yearOfEra_century century few (e := doe / 1460) (by omega) year
    refine ⟨?_, ?_, ?_⟩ <;> omega
  · decide

/-- The year of a day starts no later than the day, and the next one after it. -/
theorem firstOfMarch_marchYear (day : Int) :
    firstOfMarch (marchYear day) + dayOfYear (dayOfEra day) = day ∧
      day < firstOfMarch (marchYear day + 1) := by
  have era := dayOfEra_bounds day
  obtain ⟨lo, hi, next⟩ := yearOfEra_span era.1 era.2
  have split : day + 719468 = 146097 * ((day + 719468) / 146097) + dayOfEra day := by
    unfold dayOfEra; omega
  unfold firstOfMarch marchYear dayOfYear
  generalize (day + 719468) / 146097 = k at *
  generalize yearOfEra (dayOfEra day) = y at *
  generalize dayOfEra day = doe at *
  constructor
  · omega
  · have fours : (y + k * 400 + 1) / 4 = (y + 1) / 4 + 100 * k := by omega
    have hundreds : (y + k * 400 + 1) / 100 = (y + 1) / 100 + 4 * k := by omega
    have eras : (y + k * 400 + 1) / 400 = (y + 1) / 400 + k := by omega
    rw [fours, hundreds, eras]
    omega

theorem firstOfMarch_year (year : Int) :
    365 ≤ firstOfMarch (year + 1) - firstOfMarch year ∧
      firstOfMarch (year + 1) - firstOfMarch year ≤ 366 := by
  unfold firstOfMarch
  omega

/-! ## Months -/

/-- The month of a day, counted from March of its year. -/
def monthOfYear (day : Int) : Int := (5 * dayOfYear (dayOfEra day) + 2) / 153

theorem monthOfYear_bounds (day : Int) : 0 ≤ monthOfYear day ∧ monthOfYear day ≤ 11 := by
  have era := dayOfEra_bounds day
  have bounds := dayOfYear_bounds era.1 era.2
  unfold monthOfYear
  omega

theorem monthNumber_eq (day : Int) : monthNumber day = 12 * marchYear day + monthOfYear day + 2 := by
  have bounds := monthOfYear_bounds day
  unfold monthOfYear at *
  simp only [monthNumber, civilOfDays, marchYear]
  split <;> split <;> omega

theorem day_eq (day : Int) :
    (civilOfDays day).day = dayOfYear (dayOfEra day) - (153 * monthOfYear day + 2) / 5 + 1 := rfl

/-- The year and the month of a day, from the number of its month. -/
theorem civil_of_monthNumber (day : Int) :
    (civilOfDays day).year = monthNumber day / 12 ∧
      (civilOfDays day).month = monthNumber day % 12 + 1 := by
  have bounds := monthOfYear_bounds day
  have month : 1 ≤ (civilOfDays day).month ∧ (civilOfDays day).month ≤ 12 := by
    unfold monthOfYear at bounds
    simp only [civilOfDays]
    split <;> omega
  unfold monthNumber
  omega

theorem firstOfMonth_march (year month : Int) (few : 0 ≤ month ∧ month ≤ 11) :
    firstOfMonth (12 * year + month + 2) = firstOfMarch year + (153 * month + 2) / 5 := by
  have years : (12 * year + month + 2 - 2) / 12 = year := by omega
  have months : (12 * year + month + 2 - 2) % 12 = month := by omega
  rw [firstOfMonth, years, months]

/-- A date counts the days from the first of its month, as `1`. -/
theorem firstOfMonth_monthNumber (day : Int) :
    firstOfMonth (monthNumber day) + ((civilOfDays day).day - 1) = day := by
  have year := (firstOfMarch_marchYear day).1
  rw [monthNumber_eq, firstOfMonth_march _ _ (monthOfYear_bounds day), day_eq]
  omega

theorem daysInMonth_bounds (month : Int) : 28 ≤ daysInMonth month ∧ daysInMonth month ≤ 31 := by
  have year := firstOfMarch_year ((month - 2) / 12)
  unfold daysInMonth firstOfMonth
  rcases lt_or_ge ((month - 2) % 12) 11 with inner | last
  · have years : (month + 1 - 2) / 12 = (month - 2) / 12 := by omega
    have months : (month + 1 - 2) % 12 = (month - 2) % 12 + 1 := by omega
    rw [years, months]
    omega
  · have years : (month + 1 - 2) / 12 = (month - 2) / 12 + 1 := by omega
    have months : (month + 1 - 2) % 12 = 0 := by omega
    have february : (month - 2) % 12 = 11 := by omega
    rw [years, months, february]
    omega

theorem firstOfMonth_strictMono {m n : Int} (less : m < n) : firstOfMonth m < firstOfMonth n := by
  refine strictMono_int_of_lt_succ (fun month => ?_) less
  have := daysInMonth_bounds month
  unfold daysInMonth at this
  omega

theorem firstOfMonth_mono {m n : Int} (le : m ≤ n) : firstOfMonth m ≤ firstOfMonth n := by
  rcases Int.lt_or_eq_of_le le with less | rfl
  · exact Int.le_of_lt (firstOfMonth_strictMono less)
  · exact Int.le_refl _

/-- A day lies in its month. -/
theorem firstOfMonth_le (day : Int) :
    firstOfMonth (monthNumber day) ≤ day ∧ day < firstOfMonth (monthNumber day + 1) := by
  have date := firstOfMonth_monthNumber day
  have bounds := civilOfDays_day_bounds day
  refine ⟨by omega, ?_⟩
  have months := monthOfYear_bounds day
  obtain ⟨year, next⟩ := firstOfMarch_marchYear day
  rw [monthNumber_eq]
  rcases lt_or_ge (monthOfYear day) 11 with inner | february
  · have := firstOfMonth_march (marchYear day) (monthOfYear day + 1) (by omega)
    rw [show 12 * marchYear day + monthOfYear day + 2 + 1
      = 12 * marchYear day + (monthOfYear day + 1) + 2 by omega, this]
    unfold monthOfYear at *
    omega
  · have := firstOfMonth_march (marchYear day + 1) 0 (by omega)
    rw [show 12 * marchYear day + monthOfYear day + 2 + 1
      = 12 * (marchYear day + 1) + 0 + 2 by omega, this]
    omega

/-- A month is the days from its first to the first of the next. -/
theorem monthNumber_eq_iff {day month : Int} :
    monthNumber day = month ↔ firstOfMonth month ≤ day ∧ day < firstOfMonth (month + 1) := by
  have own := firstOfMonth_le day
  constructor
  · rintro rfl
    exact own
  · rintro ⟨after, before⟩
    rcases lt_trichotomy (monthNumber day) month with earlier | same | later
    · have := firstOfMonth_mono (Int.add_one_le_of_lt earlier)
      omega
    · exact same
    · have := firstOfMonth_mono (Int.add_one_le_of_lt later)
      omega

@[simp] theorem monthNumber_firstOfMonth (month : Int) : monthNumber (firstOfMonth month) = month :=
  monthNumber_eq_iff.mpr ⟨le_refl _, firstOfMonth_strictMono (by omega)⟩

/-- The date of a day that stands at a place of its month. -/
theorem civil_day_of {day month d : Int} (place : day = firstOfMonth month + (d - 1)) (lo : 1 ≤ d)
    (hi : d ≤ daysInMonth month) : monthNumber day = month ∧ (civilOfDays day).day = d := by
  have same : monthNumber day = month := by
    rw [monthNumber_eq_iff]
    unfold daysInMonth at hi
    omega
  have date := firstOfMonth_monthNumber day
  rw [same] at date
  exact ⟨same, by omega⟩

theorem day_le_daysInMonth (day : Int) : (civilOfDays day).day ≤ daysInMonth (monthNumber day) := by
  have date := firstOfMonth_monthNumber day
  have next := (monthNumber_eq_iff.mp (rfl : monthNumber day = _)).2
  unfold daysInMonth
  omega

end PatchManager.Calendar
