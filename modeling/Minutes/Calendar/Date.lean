/-!
Dates of the Gregorian calendar, extended to all supported years.
-/
namespace Minutes

def isLeapYear (year : Int) : Bool := year % 4 == 0 && (year % 100 != 0 || year % 400 == 0)

def daysInMonth (year : Int) (month : Nat) : Nat :=
  if month = 2 then if isLeapYear year then 29 else 28
  else if month = 4 ∨ month = 6 ∨ month = 9 ∨ month = 11 then 30
  else 31

/-- The days that the calendar has, in the supported years. -/
def IsDay (year : Int) (month day : Nat) : Prop :=
  -262143 ≤ year ∧ year ≤ 262142 ∧ 1 ≤ month ∧ month ≤ 12 ∧ 1 ≤ day ∧ day ≤ daysInMonth year month

instance (year : Int) (month day : Nat) : Decidable (IsDay year month day) := by
  unfold IsDay; infer_instance

structure Date where
  year : Int
  month : Nat
  day : Nat
  isDay : IsDay year month day
  deriving DecidableEq

namespace Date

def of? (year : Int) (month day : Nat) : Option Date :=
  if h : IsDay year month day then some ⟨year, month, day, h⟩ else none

@[simp] theorem of?_self (d : Date) : of? d.year d.month d.day = some d := by
  simp [of?, d.isDay]

theorem of?_eq_some_iff {year : Int} {month day : Nat} {d : Date} :
    of? year month day = some d ↔ d.year = year ∧ d.month = month ∧ d.day = day := by
  constructor
  · intro h
    unfold of? at h
    split at h
    · cases h; exact ⟨rfl, rfl, rfl⟩
    · cases h
  · rintro ⟨rfl, rfl, rfl⟩; exact of?_self d

/-- The decimal digits of a number, with zeros before them up to `width` digits. -/
def digits (width n : Nat) : List Char :=
  let shown := Nat.toDigits 10 n
  List.replicate (width - shown.length) '0' ++ shown

/-- A year has at least four digits, and a sign unless it lies between 0 and 9999. -/
def yearChars (year : Int) : List Char :=
  if 0 ≤ year ∧ year ≤ 9999 then digits 4 year.toNat
  else (if year < 0 then '-' else '+') :: digits 4 year.natAbs

/-- A date written as year, month and day with hyphens. -/
def iso (d : Date) : String :=
  String.ofList (yearChars d.year ++ '-' :: digits 2 d.month ++ '-' :: digits 2 d.day)

end Date
end Minutes
