import Minutes.Proofs.Calendar.DayNumber
import Minutes.Proofs.Calendar.Forms

/-!
Time stamps. The date of a stamp is the day at its place, which at night is often not the day in
universal time.
-/
namespace Minutes.Calendar
open Text

/-- How an offset from universal time is written. -/
inductive Zone where
  | universal (letter : Char)
  | shifted (sign : Char) (hours minutes : Nat)

namespace Zone

def IsZone : Zone → Prop
  | universal letter => letter = 'Z' ∨ letter = 'z'
  | shifted sign hours minutes =>
    (sign = '+' ∨ sign = '-' ∨ sign = Char.ofNat 0x2212) ∧ hours ≤ 23 ∧ minutes ≤ 59

/-- The offset in minutes. -/
def offset : Zone → Int
  | universal _ => 0
  | shifted sign hours minutes =>
    if sign = '+' then hours * 60 + minutes else -(hours * 60 + minutes)

def write : Zone → List Char
  | universal letter => [letter]
  | shifted sign hours minutes => sign :: (Date.digits 2 hours ++ ':' :: Date.digits 2 minutes)

end Zone

theorem fixed?_digits {width n : Nat} (hw : 0 < width) (hn : n < 10 ^ width) (rest : List Char) :
    fixed? width (Date.digits width n ++ rest) = some (n, rest) := by
  have hdigits : ∀ c ∈ Date.digits width n, isDigit c = true := fun c hc =>
    isDigit_of_mem_digits hc
  have hread := fixed?_append hdigits rest
  rwa [length_digits hw hn, numeral_digits] at hread

theorem fixed?_two {n : Nat} (hn : n < 100) (rest : List Char) :
    fixed? 2 (Date.digits 2 n ++ rest) = some (n, rest) := fixed?_digits (by decide) hn rest

theorem mark?_cons (c : Char) (rest : List Char) : mark? c (c :: rest) = some rest := if_pos rfl

theorem offset?_write {zone : Zone} (h : zone.IsZone) :
    offset? zone.write = some (zone.offset, []) := by
  cases zone with
  | universal letter =>
    rcases h with rfl | rfl
    · rfl
    · rfl
  | shifted sign hours minutes =>
    obtain ⟨hsign, hh, hm⟩ := h
    have hhours := fixed?_two (show hours < 100 by omega) (':' :: Date.digits 2 minutes)
    have hminutes := fixed?_two (show minutes < 100 by omega) []
    rw [List.append_nil] at hminutes
    rcases hsign with rfl | rfl | rfl <;>
      simp [Zone.write, Zone.offset, offset?, hhours, mark?_cons, hminutes, hh, hm]

/-- An offset begins with neither a point nor a digit. -/
theorem Zone.exists_write_eq_cons {zone : Zone} (h : zone.IsZone) :
    ∃ c s, zone.write = c :: s ∧ c ≠ '.' ∧ isDigit c = false := by
  cases zone with
  | universal letter =>
    rcases h with rfl | rfl
    · exact ⟨_, _, rfl, by decide, by decide⟩
    · exact ⟨_, _, rfl, by decide, by decide⟩
  | shifted sign hours minutes =>
    rcases h.1 with rfl | rfl | rfl
    · exact ⟨_, _, rfl, by decide, by decide⟩
    · exact ⟨_, _, rfl, by decide, by decide⟩
    · exact ⟨_, _, rfl, by decide, by decide⟩

/-- It ends with a letter or a digit. -/
theorem Zone.getLast?_write {zone : Zone} (h : zone.IsZone) :
    zone.write.getLast?.all (!isBlank ·) = true := by
  cases zone with
  | universal letter => rcases h with rfl | rfl <;> decide
  | shifted sign hours minutes =>
    have hwrite : Zone.write (shifted sign hours minutes) =
        sign :: (Date.digits 2 hours ++ [':']) ++ Date.digits 2 minutes := by
      simp [Zone.write]
    rw [hwrite, getLast?_append_digits]

/-- A time stamp in its parts. No digits after the point mean that there is no point either. -/
structure WrittenStamp where
  date : Date
  separator : Char
  hour : Nat
  minute : Nat
  second : Nat
  fraction : List Char
  zone : Zone
  fourDigits : 0 ≤ date.year ∧ date.year ≤ 9999
  separated : isSeparator separator = true
  isTime : hour ≤ 23 ∧ minute ≤ 59 ∧ second ≤ 60
  isFraction : ∀ c ∈ fraction, isDigit c = true
  isZone : zone.IsZone

namespace WrittenStamp
variable (w : WrittenStamp)

def fractionChars : List Char := if w.fraction = [] then [] else '.' :: w.fraction

def timeChars : List Char :=
  Date.digits 2 w.hour ++ ':' :: Date.digits 2 w.minute ++ ':' :: Date.digits 2 w.second ++
    w.fractionChars

def write : List Char := w.date.iso.toList ++ w.separator :: (w.timeChars ++ w.zone.write)

def stamp : Stamp := ⟨w.date, w.hour, w.minute, w.second, w.zone.offset⟩

end WrittenStamp

/-- The minute of a stamp in universal time, from the first day of the year 0. -/
def Stamp.universalMinute (s : Stamp) : Int :=
  (s.date.dayNumber * 24 + s.hour) * 60 + s.minute - s.offset

/-- The number of the day on which a minute of universal time falls where the clock is ahead. -/
def localDay (minute offset : Int) : Int := (minute + offset) / (24 * 60)

theorem localDay_universalMinute {s : Stamp} (hhour : s.hour ≤ 23) (hminute : s.minute ≤ 59) :
    localDay s.universalMinute s.offset = s.date.dayNumber := by
  unfold localDay Stamp.universalMinute
  omega

namespace WrittenStamp
variable (w : WrittenStamp)

theorem afterFraction?_write :
    afterFraction? (w.fractionChars ++ w.zone.write) = some w.zone.write := by
  obtain ⟨c, s, hs, hpoint, hdigit⟩ := Zone.exists_write_eq_cons w.isZone
  unfold fractionChars
  split_ifs with hnone
  · rw [hs, List.nil_append]
    unfold afterFraction?
    split
    · rename_i h
      exact absurd (List.cons.inj h).1 hpoint
    · rfl
  · obtain ⟨hrun, hrest⟩ := takeWhile_dropWhile_iff.mpr
      ⟨rfl, w.isFraction, show w.zone.write.head?.all (!isDigit ·) = true by simp [hs, hdigit]⟩
    rw [List.cons_append, afterFraction?, hrun, hrest, if_neg (by simpa using hnone)]

theorem write_eq : w.write =
    (yearFirst '-').write w.date ++ w.separator :: (w.timeChars ++ w.zone.write) := by
  rw [write, iso_toList, yearFirst_write]

/-- A time stamp is read as the moment that it writes. -/
theorem read?_write : Stamp.read? w.write = some w.stamp := by
  obtain ⟨-, -, hmonth, hmonth', -, -⟩ := w.date.isDay
  obtain ⟨hyear, hyear'⟩ := w.fourDigits
  obtain ⟨hhour, hminute, hsecond⟩ := w.isTime
  have hdate : Date.of? (w.date.year.toNat : Int) w.date.month w.date.day = some w.date := by
    rw [Int.toNat_of_nonneg hyear, Date.of?_self]
  rw [write_eq, yearFirst_write, yearChars_of_fourDigits w.fourDigits, timeChars]
  simp only [List.append_assoc, List.cons_append]
  -- the reader takes one number or mark after the other, each as it was written
  refine Option.bind_eq_some_iff.mpr ⟨_, fixed?_digits (by decide) (by omega) _, ?_⟩
  refine Option.bind_eq_some_iff.mpr ⟨_, mark?_cons '-' _, ?_⟩
  refine Option.bind_eq_some_iff.mpr ⟨_, fixed?_two (show w.date.month < 100 by omega) _, ?_⟩
  refine Option.bind_eq_some_iff.mpr ⟨_, mark?_cons '-' _, ?_⟩
  refine Option.bind_eq_some_iff.mpr ⟨_, fixed?_two (day_lt_hundred w.date) _, ?_⟩
  refine (if_pos w.separated).trans ?_
  refine Option.bind_eq_some_iff.mpr ⟨_, rfl, ?_⟩
  refine Option.bind_eq_some_iff.mpr ⟨_, fixed?_two (show w.hour < 100 by omega) _, ?_⟩
  refine Option.bind_eq_some_iff.mpr ⟨_, mark?_cons ':' _, ?_⟩
  refine Option.bind_eq_some_iff.mpr ⟨_, fixed?_two (show w.minute < 100 by omega) _, ?_⟩
  refine Option.bind_eq_some_iff.mpr ⟨_, mark?_cons ':' _, ?_⟩
  refine Option.bind_eq_some_iff.mpr ⟨_, fixed?_two (show w.second < 100 by omega) _, ?_⟩
  refine Option.bind_eq_some_iff.mpr ⟨_, w.afterFraction?_write, ?_⟩
  refine Option.bind_eq_some_iff.mpr ⟨_, offset?_write w.isZone, ?_⟩
  refine Option.bind_eq_some_iff.mpr ⟨_, hdate, ?_⟩
  exact if_pos ⟨rfl, hhour, hminute, hsecond⟩

/-- The form with hyphens reads the date of a stamp but not the time of day after it. -/
theorem forms_read?_write {form : Form} (hf : form ∈ forms) : form.read? w.write = none := by
  have hhyphen : (yearFirst '-').read? w.write = none := by
    rw [write_eq, Form.read?, Form.readParts_append w.date (by decide) (fun part hpart => ?_)]
    · rfl
    · obtain rfl : Part.day = part := Option.some.inj hpart
      trivial
  have hyear : w.write = Date.yearChars w.date.year ++ '-' :: (Date.digits 2 w.date.month ++
      '-' :: (Date.digits 2 w.date.day ++ w.separator :: (w.timeChars ++ w.zone.write))) := by
    simp [write_eq, yearFirst_write]
  cases hf using forms_cases with
  | hyphens => exact hhyphen
  | slashes => rw [hyear, yearFirst_of_mark (by decide) (by decide)]
  | name => rw [hyear, nameFirst_of_year w.date.year (by simp)]
  | abbreviation => rw [hyear, nameFirst_of_year w.date.year (by simp)]
  | day => rw [hyear, dayFirst_of_year]

/-- A stamp begins with a digit of the year, and ends with a letter Z or a digit of the offset. -/
theorem ends_write : w.write.head?.all (!isBlank ·) = true ∧
    w.write.getLast?.all (!isBlank ·) = true := by
  obtain ⟨c, s, hs, hc⟩ := exists_digits_eq_cons 4 w.date.year.toNat
  constructor
  · rw [w.write_eq, yearFirst_write, yearChars_of_fourDigits w.fourDigits, hs]
    simp [isBlank_of_isDigit hc]
  · obtain ⟨z, t, hz, -, -⟩ := Zone.exists_write_eq_cons w.isZone
    have hwrite : w.write =
        (w.date.iso.toList ++ w.separator :: w.timeChars) ++ w.zone.write := by
      simp [write]
    rw [hwrite, List.getLast?_append_of_ne_nil _ (by simp [hz]), Zone.getLast?_write w.isZone]

end WrittenStamp

/-- A time stamp is read as the date that is written in it, whatever the time of day and the offset
are, and no form of a date line reads it. This is also the day that the clock at the place shows at
the moment of the stamp: from that minute in universal time and the offset, the same day comes
back. -/
theorem stamped_date_read (w : WrittenStamp) {before after : List Char}
    (hb : ∀ c ∈ before, isBlank c = true) (ha : ∀ c ∈ after, isBlank c = true) :
    Date.read? (String.ofList (before ++ w.write ++ after)) = some w.date ∧
      (∀ form ∈ forms, form.read? w.write = none) ∧
      Stamp.read? w.write = some w.stamp ∧
      ∀ d : Date, d.dayNumber = localDay w.stamp.universalMinute w.zone.offset ↔ d = w.date := by
  obtain ⟨hfirst, hlast⟩ := w.ends_write
  have hforms : forms.findSome? (·.read? w.write) = none :=
    List.findSome?_eq_none_iff.mpr fun form hf => w.forms_read?_write hf
  have hlocal := localDay_universalMinute (s := w.stamp) w.isTime.1 w.isTime.2.1
  refine ⟨?_, fun form hf => w.forms_read?_write hf, w.read?_write, fun d => ?_⟩
  · rw [Date.read?, readDate?, String.toList_ofList, trimmed_append hb ha hfirst hlast, hforms,
      w.read?_write]
    rfl
  · rw [show localDay w.stamp.universalMinute w.zone.offset = w.date.dayNumber from hlocal]
    exact Date.dayNumber_injective.eq_iff

/-- Half an hour before midnight at the end of a year, where universal time is already in the next
year. -/
theorem stamped_date_read_new_year :
    let w : WrittenStamp :=
      ⟨⟨2013, 12, 31, by decide⟩, 'T', 23, 30, 0, ['5'], .shifted '-' 5 0, by decide, by decide,
        by decide, List.forall_mem_singleton.mpr (by decide), by unfold Zone.IsZone; decide⟩
    isBlank ' ' = true ∧ String.ofList w.write = "2013-12-31T23:30:00.5-05:00" ∧
      localDay w.stamp.universalMinute 0 = (⟨2014, 1, 1, by decide⟩ : Date).dayNumber ∧
      Date.read? " 2013-12-31T23:30:00.5-05:00" = some ⟨2013, 12, 31, by decide⟩ := by
  intro w
  have hblank : ∀ c ∈ [' '], isBlank c = true := List.forall_mem_singleton.mpr (by decide)
  have hnone : ∀ c ∈ ([] : List Char), isBlank c = true := fun c hc => absurd hc List.not_mem_nil
  have hread := (stamped_date_read w hblank hnone).1
  have htext : String.ofList ([' '] ++ w.write ++ []) = " 2013-12-31T23:30:00.5-05:00" := by
    decide +kernel
  rw [htext] at hread
  exact ⟨by decide, by decide +kernel, by decide, hread⟩

end Minutes.Calendar
