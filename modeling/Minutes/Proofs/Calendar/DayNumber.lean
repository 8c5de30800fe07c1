import Mathlib
import Minutes.Calendar.Date

/-!
The days of the calendar by number, from the first day of the year 0. A later date has a greater
number, so that a number stands for one day only.
-/
namespace Minutes

def daysInYear (year : Int) : Nat := if isLeapYear year then 366 else 365

/-- The days before a year, with one more for each leap year before it. -/
def daysBeforeYear (year : Int) : Int :=
  365 * year + (year + 3) / 4 - (year + 99) / 100 + (year + 399) / 400

def daysBeforeMonth (year : Int) (month : Nat) : Nat :=
  ((List.range' 1 (month - 1)).map (daysInMonth year)).sum

theorem daysBeforeYear_add_one (year : Int) :
    daysBeforeYear (year + 1) = daysBeforeYear year + daysInYear year := by
  unfold daysBeforeYear daysInYear isLeapYear
  split_ifs with h <;> simp at h <;> omega

theorem daysBeforeYear_add_le {year later : Int} (h : year < later) :
    daysBeforeYear year + daysInYear year ≤ daysBeforeYear later := by
  induction later, h using Int.leInduction with
  | base => exact (daysBeforeYear_add_one year).ge
  | succ later _ ih =>
    rw [daysBeforeYear_add_one later]
    omega

theorem daysBeforeMonth_add_one (year : Int) {month : Nat} (h : 1 ≤ month) :
    daysBeforeMonth year (month + 1) = daysBeforeMonth year month + daysInMonth year month := by
  obtain ⟨n, rfl⟩ := Nat.exists_eq_add_of_le' h
  simp [daysBeforeMonth, List.range'_concat, Nat.add_comm]

theorem daysBeforeMonth_add_le (year : Int) {month later : Nat} (hm : 1 ≤ month)
    (h : month < later) :
    daysBeforeMonth year month + daysInMonth year month ≤ daysBeforeMonth year later := by
  induction later, h using Nat.le_induction with
  | base => exact (daysBeforeMonth_add_one year hm).ge
  | succ later hlater ih =>
    rw [daysBeforeMonth_add_one year (by omega)]
    omega

/-- The twelve months of a year are the year. -/
theorem daysBeforeMonth_thirteen (year : Int) : daysBeforeMonth year 13 = daysInYear year := by
  cases hleap : isLeapYear year <;>
    simp [daysBeforeMonth, daysInYear, daysInMonth, hleap, List.range']

namespace Date

/-- The number of days from the first day of the year 0 to a date. -/
def dayNumber (d : Date) : Int :=
  daysBeforeYear d.year + daysBeforeMonth d.year d.month + (d.day - 1)

theorem dayNumber_lt_of_year {d e : Date} (h : d.year < e.year) : d.dayNumber < e.dayNumber := by
  obtain ⟨-, -, hmonth, hmonth', hday, hday'⟩ := d.isDay
  obtain ⟨-, -, -, -, heday, -⟩ := e.isDay
  have hyear := daysBeforeYear_add_le h
  have hrest := daysBeforeMonth_add_le d.year hmonth (Nat.lt_succ_of_le hmonth')
  rw [daysBeforeMonth_thirteen] at hrest
  unfold dayNumber
  omega

theorem dayNumber_lt_of_month {d e : Date} (hyear : d.year = e.year) (h : d.month < e.month) :
    d.dayNumber < e.dayNumber := by
  obtain ⟨-, -, hmonth, -, hday, hday'⟩ := d.isDay
  obtain ⟨-, -, -, -, heday, -⟩ := e.isDay
  have hrest := daysBeforeMonth_add_le d.year hmonth h
  unfold dayNumber
  rw [← hyear]
  omega

/-- The number of a day tells the date. -/
theorem dayNumber_injective : Function.Injective dayNumber := by
  intro d e h
  have hyear : d.year = e.year := by
    rcases lt_trichotomy d.year e.year with hlt | heq | hgt
    · exact absurd h (dayNumber_lt_of_year hlt).ne
    · exact heq
    · exact absurd h (dayNumber_lt_of_year hgt).ne'
  have hmonth : d.month = e.month := by
    rcases lt_trichotomy d.month e.month with hlt | heq | hgt
    · exact absurd h (dayNumber_lt_of_month hyear hlt).ne
    · exact heq
    · exact absurd h (dayNumber_lt_of_month hyear.symm hgt).ne'
  have hday : d.day = e.day := by
    unfold dayNumber at h
    rw [hyear, hmonth] at h
    omega
  have hd : of? e.year e.month e.day = some d := of?_eq_some_iff.mpr ⟨hyear, hmonth, hday⟩
  exact Option.some.inj (hd.symm.trans (of?_self e))

end Date
end Minutes
