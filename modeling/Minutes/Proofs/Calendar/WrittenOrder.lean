import Minutes.Proofs.Calendar.DayNumber
import Minutes.Proofs.Calendar.Parts

/-!
Dates in the order of their written form. Since every part is filled up with zeros to its width and
the greatest part comes first, the order of the characters is that of the calendar.
-/
namespace Minutes.Calendar

theorem lt_or_lt_of_append_lt {s t u v : List Char} (hlength : s.length = t.length)
    (h : s ++ u < t ++ v) : s < t ∨ s = t ∧ u < v := by
  induction s generalizing t with
  | nil =>
    obtain rfl : t = [] := List.length_eq_zero_iff.mp hlength.symm
    exact .inr ⟨rfl, h⟩
  | cons c s ih =>
    obtain ⟨d, t, rfl⟩ := List.exists_cons_of_length_eq_add_one hlength.symm
    simp only [List.cons_append, List.cons_lt_cons_iff, List.cons.injEq] at h ⊢
    rcases h with h | ⟨rfl, h⟩
    · exact .inl (.inl h)
    · rcases ih (by simpa using hlength) h with hst | ⟨rfl, huv⟩
      · exact .inl (.inr ⟨rfl, hst⟩)
      · exact .inr ⟨⟨rfl, rfl⟩, huv⟩

theorem numeral_cons (c : Char) (s : List Char) :
    numeral (c :: s) = (c.toNat - 48) * 10 ^ s.length + numeral s := by
  induction s using List.reverseRecOn with
  | nil => simp [numeral]
  | append_singleton s d ih =>
    rw [← List.cons_append, numeral_concat, numeral_concat, ih, List.length_append,
      List.length_singleton, Nat.pow_succ]
    ring

/-- Of two rows of digits of one length, the one with the greater digit where they first differ has
the greater number. -/
theorem numeral_lt_of_lt {s t : List Char} (hs : ∀ c ∈ s, isDigit c = true)
    (ht : ∀ c ∈ t, isDigit c = true) (hlength : s.length = t.length) (h : s < t) :
    numeral s < numeral t := by
  induction s generalizing t with
  | nil =>
    obtain rfl : t = [] := List.length_eq_zero_iff.mp hlength.symm
    exact absurd h (List.lt_irrefl [])
  | cons c s ih =>
    cases t with
    | nil => simp at hlength
    | cons d t =>
      obtain ⟨hc, hsdigit⟩ := List.forall_mem_cons.mp hs
      obtain ⟨hd, htdigit⟩ := List.forall_mem_cons.mp ht
      have htail : s.length = t.length := by simpa using hlength
      rw [numeral_cons, numeral_cons, htail]
      rcases List.cons_lt_cons_iff.mp h with hcd | ⟨rfl, hst⟩
      · have hcd : c.toNat + 1 ≤ d.toNat := hcd
        have hc := isDigit_iff.mp hc
        have hrest := numeral_lt hsdigit
        have hmul : (c.toNat - 48 + 1) * 10 ^ t.length ≤ (d.toNat - 48) * 10 ^ t.length :=
          Nat.mul_le_mul_right _ (by omega)
        rw [htail] at hrest
        rw [Nat.add_mul, Nat.one_mul] at hmul
        omega
      · exact Nat.add_lt_add_left (ih hsdigit htdigit htail hst) _

theorem lt_of_digits_lt {width m n : Nat} (hw : 0 < width) (hm : m < 10 ^ width)
    (hn : n < 10 ^ width) (h : Date.digits width m < Date.digits width n) : m < n := by
  have hlength : (Date.digits width m).length = (Date.digits width n).length := by
    rw [length_digits hw hm, length_digits hw hn]
  have hlt := numeral_lt_of_lt (fun c hc => isDigit_of_mem_digits hc)
    (fun c hc => isDigit_of_mem_digits hc) hlength h
  rwa [numeral_digits, numeral_digits] at hlt

/-- Numbers of a fixed width before more text are told apart by their value, or by the text. -/
theorem lt_or_lt_of_digits_append_lt {width m n : Nat} {s t : List Char} (hw : 0 < width)
    (hm : m < 10 ^ width) (hn : n < 10 ^ width)
    (h : Date.digits width m ++ s < Date.digits width n ++ t) : m < n ∨ m = n ∧ s < t := by
  have hlength : (Date.digits width m).length = (Date.digits width n).length := by
    rw [length_digits hw hm, length_digits hw hn]
  rcases lt_or_lt_of_append_lt hlength h with h | ⟨heq, h⟩
  · exact .inl (lt_of_digits_lt hw hm hn h)
  · have hnumeral := congrArg numeral heq
    rw [numeral_digits, numeral_digits] at hnumeral
    exact .inr ⟨hnumeral, h⟩

theorem lt_of_mark_lt {c : Char} {s t : List Char} (h : c :: s < c :: t) : s < t := by
  rcases List.cons_lt_cons_iff.mp h with h | ⟨-, h⟩
  · exact absurd h (Char.lt_irrefl c)
  · exact h

/-- Dates with years of four digits, written as year, month and day, stand in the order of the
calendar. -/
theorem dayNumber_lt_of_iso_lt {d e : Date} (hd : 0 ≤ d.year ∧ d.year ≤ 9999)
    (he : 0 ≤ e.year ∧ e.year ≤ 9999) (h : d.iso < e.iso) : d.dayNumber < e.dayNumber := by
  obtain ⟨-, -, -, hdmonth, hdday, -⟩ := d.isDay
  obtain ⟨-, -, -, hemonth, heday, -⟩ := e.isDay
  have h : d.iso.toList < e.iso.toList := h
  rw [iso_toList, iso_toList, yearChars_of_fourDigits hd, yearChars_of_fourDigits he] at h
  rcases lt_or_lt_of_digits_append_lt (by decide) (by omega) (by omega) h with hyear | ⟨hyear, h⟩
  · exact Date.dayNumber_lt_of_year (by omega)
  have hyear : d.year = e.year := by omega
  rcases lt_or_lt_of_digits_append_lt (by decide) (by omega) (by omega) (lt_of_mark_lt h) with
    hmonth | ⟨hmonth, h⟩
  · exact Date.dayNumber_lt_of_month hyear hmonth
  have hday := lt_of_digits_lt (by decide) (day_lt_hundred d) (day_lt_hundred e) (lt_of_mark_lt h)
  unfold Date.dayNumber
  rw [hyear, hmonth]
  omega

end Minutes.Calendar
