import PatchManager.Calendar.Slot

/-! # Civil dates

The proleptic Gregorian calendar over day numbers, day `0` being 1970-01-01: the date of
a day and its day of the week.  Years are counted from March inside 400-year eras, so
that the leap day is the last day of a year.
-/

namespace PatchManager.Calendar

structure CivilDate where
  year : Int
  month : Int
  day : Int
deriving DecidableEq, Repr

/-- Day of the 400-year era, `0` to `146096`, counted from 1 March. -/
def dayOfEra (day : Int) : Int := (day + 719468) % 146097

/-- Year of the era, `0` to `399`. -/
def yearOfEra (doe : Int) : Int := (doe - doe / 1460 + doe / 36524 - doe / 146096) / 365

/-- Day of the year counted from 1 March, `0` to `365`. -/
def dayOfYear (doe : Int) : Int :=
  doe - (365 * yearOfEra doe + yearOfEra doe / 4 - yearOfEra doe / 100)

/-- The date of a day number. -/
def civilOfDays (day : Int) : CivilDate :=
  let doe := dayOfEra day
  let doy := dayOfYear doe
  let mp := (5 * doy + 2) / 153
  let month := if mp < 10 then mp + 3 else mp - 9
  { year := yearOfEra doe + (day + 719468) / 146097 * 400 + if month ≤ 2 then 1 else 0
    month
    day := doy - (153 * mp + 2) / 5 + 1 }

/-- Day of the week, `0` for Sunday. -/
def dayOfWeek (day : Int) : Int := (day + 4) % 7

example : civilOfDays 0 = ⟨1970, 1, 1⟩ := by decide
example : civilOfDays 19782 = ⟨2024, 2, 29⟩ := by decide
example : civilOfDays (-1) = ⟨1969, 12, 31⟩ := by decide

theorem dayOfEra_bounds (day : Int) : 0 ≤ dayOfEra day ∧ dayOfEra day < 146097 := by
  unfold dayOfEra; omega

/-- The year count inside one century `c` of an era: it stays in the century, and its
    leap years are the four-year blocks begun. -/
theorem yearOfEra_century {doe e y c : Int} (century : 36524 * c ≤ doe ∧ doe < 36524 * c + 36524)
    (few : 0 ≤ c ∧ c ≤ 3) (block : 1460 * e ≤ doe ∧ doe < 1460 * e + 1460)
    (year : 365 * y ≤ doe - e + c ∧ doe - e + c < 365 * y + 365) :
    y / 100 = c ∧ y / 4 ≤ e ∧ e ≤ y / 4 + 1 := by
  refine ⟨?_, ?_, ?_⟩
  · have lower : 100 * c ≤ y := by omega
    have upper : y < 100 * c + 100 := by omega
    omega
  · by_contra more
    have before : e + 1 ≤ y / 4 := by omega
    have : 4 * (e + 1) ≤ y := by omega
    omega
  · have : 4 * e - 4 ≤ y := by omega
    omega

theorem dayOfYear_bounds {doe : Int} (lo : 0 ≤ doe) (hi : doe < 146097) :
    0 ≤ dayOfYear doe ∧ dayOfYear doe ≤ 365 := by
  rcases Int.lt_or_eq_of_le (show doe ≤ 146096 by omega) with inner | rfl
  · have century : 36524 * (doe / 36524) ≤ doe ∧ doe < 36524 * (doe / 36524) + 36524 := by omega
    have year : 365 * yearOfEra doe ≤ doe - doe / 1460 + doe / 36524 ∧
        doe - doe / 1460 + doe / 36524 < 365 * yearOfEra doe + 365 := by
      unfold yearOfEra; omega
    obtain ⟨hundreds, fours, blocks⟩ :=
      yearOfEra_century century (by omega) (e := doe / 1460) (by omega) year
    unfold dayOfYear
    omega
  · decide

/-- The day of the month lies between 1 and 31. -/
theorem civilOfDays_day_bounds (day : Int) :
    1 ≤ (civilOfDays day).day ∧ (civilOfDays day).day ≤ 31 := by
  have era := dayOfEra_bounds day
  have bounds := dayOfYear_bounds era.1 era.2
  simp only [civilOfDays]
  omega

/-- Every day of the month occurs: January 1970 has all of them. -/
theorem exists_day_of_month {d : Int} (lo : 1 ≤ d) (hi : d ≤ 31) :
    ∃ day, (civilOfDays day).day = d := by
  have january : ∀ k < 31, (civilOfDays (k : Nat)).day = k + 1 := by decide
  have date := january (d - 1).toNat (by omega)
  rw [Int.toNat_of_nonneg (by omega), Int.sub_add_cancel] at date
  exact ⟨d - 1, date⟩

theorem dayOfWeek_bounds (day : Int) : 0 ≤ dayOfWeek day ∧ dayOfWeek day ≤ 6 := by
  unfold dayOfWeek; omega

theorem exists_day_of_week {d : Int} (lo : 0 ≤ d) (hi : d ≤ 6) : ∃ day, dayOfWeek day = d :=
  ⟨d - 4, by unfold dayOfWeek; omega⟩

end PatchManager.Calendar
