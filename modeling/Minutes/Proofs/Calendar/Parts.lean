import Mathlib
import Minutes.Proofs.Calendar.Digits

/-!
The parts of written dates. A part is read as it was written where the text after it does not go on
with the part.
-/
namespace Minutes.Calendar
open Text

/-- A text that does not go on with a character of a class. -/
def StopsAt (p : Char → Bool) (s : List Char) : Prop := s.head?.all (!p ·) = true

theorem stopsAt_cons {p : Char → Bool} {c : Char} {s : List Char} :
    StopsAt p (c :: s) ↔ p c = false := by
  simp [StopsAt]

section Years

theorem exists_digits_eq_cons (width n : Nat) :
    ∃ c s, Date.digits width n = c :: s ∧ isDigit c = true := by
  obtain ⟨c, s, hs⟩ := List.exists_cons_of_ne_nil (digits_ne_nil width n)
  exact ⟨c, s, hs, isDigit_of_mem_digits (hs ▸ List.mem_cons_self)⟩

/-- A year is written in four digits, or with a sign before its digits. -/
theorem yearChars_cases (year : Int) :
    (0 ≤ year ∧ year ≤ 9999 ∧ Date.yearChars year = Date.digits 4 year.toNat) ∨
      year < 0 ∧ Date.yearChars year = '-' :: Date.digits 4 year.natAbs ∨
      9999 < year ∧ Date.yearChars year = '+' :: Date.digits 4 year.natAbs := by
  unfold Date.yearChars
  split_ifs with hplain hneg
  · exact .inl ⟨hplain.1, hplain.2, rfl⟩
  · exact .inr (.inl ⟨hneg, rfl⟩)
  · exact .inr (.inr ⟨by omega, rfl⟩)

theorem yearChars_of_fourDigits {year : Int} (h : 0 ≤ year ∧ year ≤ 9999) :
    Date.yearChars year = Date.digits 4 year.toNat := if_pos h

theorem iso_toList (d : Date) : d.iso.toList =
    Date.yearChars d.year ++ '-' :: (Date.digits 2 d.month ++ '-' :: Date.digits 2 d.day) := by
  rw [Date.iso, String.toList_ofList, List.append_assoc, List.cons_append]

/-- A year begins with a digit or a sign. -/
theorem exists_yearChars_eq_cons (year : Int) : ∃ c s, Date.yearChars year = c :: s ∧
    (isDigit c = true ∨ c = '-' ∨ c = '+') := by
  rcases yearChars_cases year with ⟨-, -, hy⟩ | ⟨-, hy⟩ | ⟨-, hy⟩
  · obtain ⟨c, s, hs, hc⟩ := exists_digits_eq_cons 4 year.toNat
    exact ⟨c, s, hy.trans hs, .inl hc⟩
  · exact ⟨_, _, hy, .inr (.inl rfl)⟩
  · exact ⟨_, _, hy, .inr (.inr rfl)⟩

theorem year?_of_isDigit {c : Char} (hc : isDigit c = true) (s : List Char) :
    year? (c :: s) = (number? (some 4) (c :: s)).map fun r => ((r.1 : Int), r.2) := by
  unfold year?
  split
  · rename_i h
    obtain ⟨rfl, -⟩ := List.cons.inj h
    exact absurd hc (by decide)
  · rename_i h
    obtain ⟨rfl, -⟩ := List.cons.inj h
    exact absurd hc (by decide)
  · rfl

theorem year?_eq_none {c : Char} (hc : isDigit c = false) (hminus : c ≠ '-') (hplus : c ≠ '+')
    (s : List Char) : year? (c :: s) = none := by
  unfold year?
  split
  · rename_i h
    exact absurd (List.cons.inj h).1 hminus
  · rename_i h
    exact absurd (List.cons.inj h).1 hplus
  · rw [number?_eq_none (stopsAt_cons.mpr hc), Option.map_none]

theorem year?_append (year : Int) {rest : List Char} (hrest : StopsAt isDigit rest) :
    year? (Date.yearChars year ++ rest) = some (year, rest) := by
  have hdigits (n : Nat) : ∀ c ∈ Date.digits 4 n, isDigit c = true := fun c hc =>
    isDigit_of_mem_digits hc
  have hsigned (n : Nat) : number? none (Date.digits 4 n ++ rest) = some (n, rest) := by
    rw [number?_none_append (digits_ne_nil 4 n) (hdigits n) hrest, numeral_digits]
  rcases yearChars_cases year with ⟨hlo, hhi, hy⟩ | ⟨hneg, hy⟩ | ⟨hbig, hy⟩
  · obtain ⟨c, s, hs, hc⟩ := exists_digits_eq_cons 4 year.toNat
    have hfour : (Date.digits 4 year.toNat).length = 4 := length_digits (by decide) (by omega)
    have hn : number? (some 4) (Date.digits 4 year.toNat ++ rest) =
        some (numeral (Date.digits 4 year.toNat), rest) :=
      number?_some_append (digits_ne_nil 4 year.toNat) (hdigits _) (.inl hfour)
    rw [hs, List.cons_append] at hn
    rw [hy, hs, List.cons_append, year?_of_isDigit hc, hn, ← hs, numeral_digits, Option.map_some]
    simp [hlo]
  · rw [hy, List.cons_append, year?, hsigned, Option.map_some]
    congr 2
    omega
  · rw [hy, List.cons_append, year?, hsigned, Option.map_some]
    congr 2
    omega

end Years

section Months

theorem abbreviation?_append {month : Nat} (hm : 1 ≤ month ∧ month ≤ 12) (rest : List Char) :
    abbreviation? (monthAbbreviation month ++ rest) = some (month, rest) := by
  obtain ⟨h1, h2⟩ := hm
  interval_cases month <;> rfl

theorem afterName?_append (name rest : List Char) : afterName? name (name ++ rest) = some rest := by
  induction name with
  | nil => rfl
  | cons n name ih => rw [List.cons_append, afterName?, if_pos rfl, ih]

theorem monthName?_append {month : Nat} (hm : 1 ≤ month ∧ month ≤ 12) (rest : List Char) :
    monthName? (monthName month ++ rest) = some (month, rest) := by
  have hparts : monthName month = monthAbbreviation month ++ (monthName month).drop 3 :=
    (List.take_append_drop 3 _).symm
  rw [hparts, List.append_assoc, monthName?, abbreviation?_append hm]
  simp only [Option.map_some, afterName?_append, Option.getD_some]

/-- A month may be read by its name where only the first three letters of it are written. -/
theorem monthName?_abbreviation_append {month : Nat} (hm : 1 ≤ month ∧ month ≤ 12)
    (rest : List Char) :
    monthName? (monthAbbreviation month ++ ' ' :: rest) = some (month, ' ' :: rest) := by
  have hgap : (afterName? ((monthName month).drop 3) (' ' :: rest)).getD (' ' :: rest) =
      ' ' :: rest := by
    obtain ⟨h1, h2⟩ := hm
    interval_cases month <;> rfl
  rw [monthName?, abbreviation?_append hm]
  simp only [Option.map_some, hgap]

/-- After the abbreviation, the name of a month is over or goes on with a letter. -/
theorem drop_monthName {month : Nat} (hm : 1 ≤ month ∧ month ≤ 12) :
    monthName month = monthAbbreviation month ∨
      ∃ c s, monthName month = monthAbbreviation month ++ c :: s ∧ c.isAlpha = true := by
  obtain ⟨h1, h2⟩ := hm
  interval_cases month <;> first | exact .inl rfl | exact .inr ⟨_, _, rfl, rfl⟩

/-- The name of a month begins with a letter. -/
theorem exists_monthAbbreviation_eq_cons {month : Nat} (hm : 1 ≤ month ∧ month ≤ 12) :
    ∃ c s, monthAbbreviation month = c :: s ∧ c.isAlpha = true := by
  obtain ⟨h1, h2⟩ := hm
  interval_cases month <;> exact ⟨_, _, rfl, rfl⟩

theorem abbreviation?_eq_none {c : Char} (hc : c.isAlpha = false) (s : List Char) :
    abbreviation? (c :: s) = none := by
  rw [abbreviation?, List.findSome?_eq_none_iff]
  intro month hmonth
  have hm : 1 ≤ month ∧ month ≤ 12 := by
    rw [List.mem_range'_1] at hmonth
    omega
  obtain ⟨l, name, hname, hl⟩ := exists_monthAbbreviation_eq_cons hm
  have hne : ¬ c.toLower = l.toLower := by
    intro h
    rw [← Char.isAlpha_toLower_eq_isAlpha, h, Char.isAlpha_toLower_eq_isAlpha, hl] at hc
    cases hc
  rw [hname, afterName?, if_neg hne, Option.map_none]

end Months

/-- A reading after a part that has been written for a date. -/
def Reading.enter (d : Date) (r : Reading) : Part → Reading
  | .year => { r with year := d.year }
  | .month | .monthName | .monthAbbreviation => { r with month := d.month }
  | .day => { r with day := d.day }
  | .gap | .mark _ => r

theorem day_lt_hundred (d : Date) : d.day < 100 := by
  obtain ⟨-, -, -, -, -, hday⟩ := d.isDay
  have hdays : daysInMonth d.year d.month ≤ 31 := by
    unfold daysInMonth
    split_ifs <;> omega
  omega

namespace Part

/-- Whether a part is over where a text goes on: a year would take more digits, and a gap more
white space. -/
def EndsAt (rest : List Char) : Part → Prop
  | .year => StopsAt isDigit rest
  | .gap => StopsAt isBlank rest
  | _ => True

theorem endsAt_nil (part : Part) : part.EndsAt [] := by
  cases part <;> simp [EndsAt, StopsAt]

theorem trimStart_digits_append (width n : Nat) (rest : List Char) :
    trimStart (Date.digits width n ++ rest) = Date.digits width n ++ rest := by
  obtain ⟨c, s, hs, hc⟩ := exists_digits_eq_cons width n
  rw [hs]
  exact trimStart_of_head? (stopsAt_cons.mpr (isBlank_of_isDigit hc))

theorem number?_digits_append {n : Nat} (hn : n < 100) (rest : List Char) :
    number? (some 2) (Date.digits 2 n ++ rest) = some (n, rest) := by
  have hlength : (Date.digits 2 n).length = 2 := length_digits (by decide) (by omega)
  rw [number?_some_append (digits_ne_nil 2 n) (fun c hc => isDigit_of_mem_digits hc) (.inl hlength),
    numeral_digits]

theorem trimStart_yearChars_append (year : Int) (rest : List Char) :
    trimStart (Date.yearChars year ++ rest) = Date.yearChars year ++ rest := by
  obtain ⟨c, s, hs, hc⟩ := exists_yearChars_eq_cons year
  have hink : isBlank c = false := by
    rcases hc with hc | rfl | rfl
    · exact isBlank_of_isDigit hc
    · decide
    · decide
  rw [hs]
  exact trimStart_of_head? (stopsAt_cons.mpr hink)

/-- A part that is over is read as it was written. -/
theorem read_write (d : Date) (r : Reading) (part : Part) {rest : List Char}
    (h : part.EndsAt rest) : part.read r (part.write d ++ rest) = some (r.enter d part, rest) := by
  obtain ⟨-, -, hmonth, hmonth', -, -⟩ := d.isDay
  cases part with
  | year =>
    rw [read, write, trimStart_yearChars_append, year?_append d.year h]
    rfl
  | month =>
    rw [read, write, trimStart_digits_append, number?_digits_append (by omega)]
    rfl
  | day =>
    rw [read, write, trimStart_digits_append, number?_digits_append (day_lt_hundred d)]
    rfl
  | monthName =>
    rw [read, write, monthName?_append ⟨hmonth, hmonth'⟩]
    rfl
  | monthAbbreviation =>
    rw [read, write, abbreviation?_append ⟨hmonth, hmonth'⟩]
    rfl
  | gap =>
    have hgap : trimStart ([' '] ++ rest) = trimStart rest := rfl
    rw [read, write, hgap, trimStart_of_head? h]
    rfl
  | mark c =>
    rw [write, List.singleton_append, read, if_pos rfl]
    rfl

/-- What a part may begin with. -/
def Begins (c : Char) : Part → Prop
  | .year => isDigit c = true ∨ c = '-' ∨ c = '+'
  | .month | .day => isDigit c = true
  | .monthName | .monthAbbreviation => c.isAlpha = true
  | .gap => c = ' '
  | .mark m => c = m

theorem exists_write_eq_cons (d : Date) (part : Part) :
    ∃ c s, part.write d = c :: s ∧ part.Begins c := by
  obtain ⟨-, -, hmonth, hmonth', -, -⟩ := d.isDay
  cases part with
  | year => exact exists_yearChars_eq_cons d.year
  | month => exact exists_digits_eq_cons 2 d.month
  | day => exact exists_digits_eq_cons 2 d.day
  | monthName =>
    obtain ⟨c, s, hs, hc⟩ := exists_monthAbbreviation_eq_cons ⟨hmonth, hmonth'⟩
    refine ⟨c, s ++ (Calendar.monthName d.month).drop 3, ?_, hc⟩
    rw [write, ← List.cons_append, ← hs]
    exact (List.take_append_drop 3 _).symm
  | monthAbbreviation => exact exists_monthAbbreviation_eq_cons ⟨hmonth, hmonth'⟩
  | gap => exact ⟨' ', [], rfl, rfl⟩
  | mark c => exact ⟨c, [], rfl, rfl⟩

/-- Whether a part is over where another one begins. -/
def endsBefore : Part → Part → Bool
  | .year, .year | .year, .month | .year, .day | .gap, .gap => false
  | .year, .mark c => !isDigit c
  | .gap, .mark c => !isBlank c
  | _, _ => true

theorem isBlank_of_begins {part : Part} {c : Char} (hc : part.Begins c)
    (hpart : part ∈ [.year, .month, .day, .monthName, .monthAbbreviation]) : isBlank c = false := by
  simp only [List.mem_cons, List.not_mem_nil, or_false] at hpart
  rcases hpart with rfl | rfl | rfl | rfl | rfl
  · rcases hc with hc | rfl | rfl
    · exact isBlank_of_isDigit hc
    · decide
    · decide
  · exact isBlank_of_isDigit hc
  · exact isBlank_of_isDigit hc
  · exact isBlank_of_isAlpha hc
  · exact isBlank_of_isAlpha hc

theorem endsAt_of_endsBefore {part next : Part} (h : part.endsBefore next = true) {c : Char}
    (hc : next.Begins c) (s : List Char) : part.EndsAt (c :: s) := by
  cases part with
  | year =>
    rw [EndsAt, stopsAt_cons]
    cases next with
    | year | month | day => cases h
    | monthName | monthAbbreviation => exact isDigit_of_isAlpha hc
    | gap =>
      obtain rfl : c = ' ' := hc
      decide
    | mark m =>
      obtain rfl : c = m := hc
      simpa [endsBefore] using h
  | gap =>
    rw [EndsAt, stopsAt_cons]
    cases next with
    | year | month | day | monthName | monthAbbreviation => exact isBlank_of_begins hc (by simp)
    | gap => cases h
    | mark m =>
      obtain rfl : c = m := hc
      simpa [endsBefore] using h
  | _ => trivial

end Part

end Minutes.Calendar
