import Minutes.Proofs.Calendar.Parts

/-!
Dates written in the forms of a date line. A form whose parts are told apart reads back what it
writes. No form reads another date from what is written in any of them, so that their order does
not matter.
-/
namespace Minutes.Calendar
open Text

namespace Form

/-- Whether the parts of a form are told apart, each being over where the next one begins. -/
def isParted : Form → Bool
  | part :: next :: form => part.endsBefore next && isParted (next :: form)
  | _ => true

theorem write_cons (part : Part) (form : Form) (d : Date) :
    write (part :: form) d = part.write d ++ write form d := rfl

theorem readParts_of_read {part : Part} {r r' : Reading} {s rest : List Char}
    (h : part.read r s = some (r', rest)) (form : Form) :
    readParts (part :: form) r s = readParts form r' rest := by
  rw [readParts, h]
  rfl

theorem readParts_of_read_eq_none {part : Part} {r : Reading} {s : List Char}
    (h : part.read r s = none) (form : Form) : readParts (part :: form) r s = none := by
  rw [readParts, h]
  rfl

/-- A form reads what it writes, and leaves a text in which its last part does not go on. -/
theorem readParts_append (d : Date) {form : Form} (h : isParted form = true) {rest : List Char}
    (hrest : ∀ part, form.getLast? = some part → part.EndsAt rest) (r : Reading) :
    readParts form r (write form d ++ rest) = readParts [] (form.foldl (·.enter d) r) rest := by
  induction form generalizing r with
  | nil => rfl
  | cons part form ih =>
    have hend : part.EndsAt (write form d ++ rest) := by
      cases form with
      | nil => exact hrest part rfl
      | cons next form =>
        have hbefore : part.endsBefore next = true := (Bool.and_eq_true_iff.mp h).1
        obtain ⟨c, s, hs, hc⟩ := next.exists_write_eq_cons d
        rw [write_cons, hs]
        exact Part.endsAt_of_endsBefore hbefore hc _
    have hparted : isParted form = true := by
      cases form with
      | nil => rfl
      | cons next form => exact (Bool.and_eq_true_iff.mp h).2
    have hlast : ∀ last, List.getLast? form = some last → last.EndsAt rest := by
      intro last hl
      exact hrest last (by rw [List.getLast?_cons, hl, Option.getD_some])
    rw [write_cons, List.append_assoc, readParts_of_read (part.read_write d r hend)]
    exact ih hparted hlast (r.enter d part)

end Form

/-- The year first, with the same mark between the numbers. -/
def yearFirst (mark : Char) : Form := [.year, .mark mark, .month, .mark mark, .day]

/-- The month first, by its name. -/
def nameFirst (name : Part) : Form := [name, .gap, .day, .mark ',', .gap, .year]

def dayFirst : Form := [.day, .gap, .monthName, .gap, .year]

theorem forms_eq : forms =
    [yearFirst '-', yearFirst '/', nameFirst .monthName, nameFirst .monthAbbreviation, dayFirst] :=
  rfl

@[elab_as_elim] theorem forms_cases {motive : (form : Form) → form ∈ forms → Prop}
    (hyphens : motive (yearFirst '-') (by simp [forms_eq]))
    (slashes : motive (yearFirst '/') (by simp [forms_eq]))
    (name : motive (nameFirst .monthName) (by simp [forms_eq]))
    (abbreviation : motive (nameFirst .monthAbbreviation) (by simp [forms_eq]))
    (day : motive dayFirst (by simp [forms_eq])) {form : Form} (h : form ∈ forms) :
    motive form h := by
  have hmem := h
  simp only [forms_eq, List.mem_cons, List.not_mem_nil, or_false] at hmem
  rcases hmem with rfl | rfl | rfl | rfl | rfl
  · exact hyphens
  · exact slashes
  · exact name
  · exact abbreviation
  · exact day

/-- A form reads back the date that it writes. -/
theorem read?_write {form : Form} (h : form ∈ forms) (d : Date) :
    form.read? (form.write d) = some d := by
  have hparted : ∀ form ∈ forms, Form.isParted form = true := by decide
  have hall : (form.foldl (·.enter d) ({} : Reading)).date? = some d := by
    cases h using forms_cases <;> exact Date.of?_self d
  have hread : readParts form {} (form.write d ++ []) = readParts [] _ [] :=
    Form.readParts_append d (hparted form h) (fun part _ => part.endsAt_nil) {}
  rw [List.append_nil] at hread
  rw [Form.read?, hread, readParts, Option.bind_some, hall]

section Rejected
variable {c : Char} {s : List Char}

theorem read?_eq_none {part : Part} (h : part.read {} s = none) (form : Form) :
    Form.read? (part :: form) s = none := by
  rw [Form.read?, Form.readParts_of_read_eq_none h, Option.bind_none]

/-- A form that begins with a number reads no text that begins with a letter. -/
theorem yearFirst_of_isAlpha (hc : c.isAlpha = true) (mark : Char) :
    (yearFirst mark).read? (c :: s) = none := by
  have hminus : c ≠ '-' := by
    rintro rfl
    cases hc
  have hplus : c ≠ '+' := by
    rintro rfl
    cases hc
  apply read?_eq_none
  rw [Part.read, trimStart_of_head? (stopsAt_cons.mpr (isBlank_of_isAlpha hc)),
    year?_eq_none (isDigit_of_isAlpha hc) hminus hplus, Option.map_none]

theorem dayFirst_of_not_isDigit (hdigit : isDigit c = false) (hink : isBlank c = false) :
    dayFirst.read? (c :: s) = none := by
  apply read?_eq_none
  rw [Part.read, trimStart_of_head? (stopsAt_cons.mpr hink),
    number?_eq_none (stopsAt_cons.mpr hdigit), Option.map_none]

/-- A form that begins with the name of a month reads no text that begins otherwise. -/
theorem nameFirst_of_not_isAlpha (hc : c.isAlpha = false) {name : Part}
    (hname : name ∈ [Part.monthName, .monthAbbreviation]) :
    (nameFirst name).read? (c :: s) = none := by
  apply read?_eq_none
  simp only [List.mem_cons, List.not_mem_nil, or_false] at hname
  rcases hname with rfl | rfl
  · rw [Part.read, monthName?, abbreviation?_eq_none hc, Option.map_none, Option.map_none]
  · rw [Part.read, abbreviation?_eq_none hc, Option.map_none]

/-- After the year, another mark is not read. -/
theorem yearFirst_of_mark {mark : Char} (hdigit : isDigit c = false) (hmark : c ≠ mark)
    (year : Int) : (yearFirst mark).read? (Date.yearChars year ++ c :: s) = none := by
  have hyear : Part.read .year {} (Date.yearChars year ++ c :: s) =
      some ({ year }, c :: s) := by
    rw [Part.read, Part.trimStart_yearChars_append, year?_append year (stopsAt_cons.mpr hdigit),
      Option.map_some]
  have hread : Part.read (.mark mark) { year } (c :: s) = none := by rw [Part.read, if_neg hmark]
  rw [Form.read?, yearFirst, Form.readParts_of_read hyear, Form.readParts_of_read_eq_none hread,
    Option.bind_none]

/-- A day at the head of a text is a year without a mark after it. -/
theorem yearFirst_of_day {mark : Char} (hdigit : isDigit c = false) (hmark : c ≠ mark) {n : Nat}
    (hn : n < 100) : (yearFirst mark).read? (Date.digits 2 n ++ c :: s) = none := by
  have htwo : (Date.digits 2 n).length = 2 := length_digits (by decide) (by omega)
  have hyear : Part.read .year {} (Date.digits 2 n ++ c :: s) =
      some ({ year := (n : Int) }, c :: s) := by
    obtain ⟨d, t, hd, hdigit'⟩ := exists_digits_eq_cons 2 n
    have hnumber : number? (some 4) (Date.digits 2 n ++ c :: s) =
        some (numeral (Date.digits 2 n), c :: s) :=
      number?_some_append (digits_ne_nil 2 n) (fun c hc => isDigit_of_mem_digits hc)
        (.inr ⟨by omega, stopsAt_cons.mpr hdigit⟩)
    rw [hd, List.cons_append] at hnumber
    rw [Part.read, Part.trimStart_digits_append, hd, List.cons_append, year?_of_isDigit hdigit',
      hnumber, ← hd, numeral_digits]
    rfl
  have hread : Part.read (.mark mark) { year := (n : Int) } (c :: s) = none := by
    rw [Part.read, if_neg hmark]
  rw [Form.read?, yearFirst, Form.readParts_of_read hyear, Form.readParts_of_read_eq_none hread,
    Option.bind_none]

/-- A number of more than two digits is no day before the name of a month. -/
theorem dayFirst_of_digits {a b : Char} (ha : isDigit a = true) (hb : isDigit b = true)
    (hc : isDigit c = true) : dayFirst.read? (a :: b :: c :: s) = none := by
  have hday : Part.read .day {} (a :: b :: c :: s) =
      some ({ day := numeral [a, b] }, c :: s) := by
    have hnumber : number? (some 2) ([a, b] ++ c :: s) = some (numeral [a, b], c :: s) :=
      number?_some_append (by simp) (by simp [ha, hb]) (.inl rfl)
    rw [Part.read, trimStart_of_head? (stopsAt_cons.mpr (isBlank_of_isDigit ha))]
    exact congrArg (Option.map _) hnumber
  have hgap : Part.read .gap { day := numeral [a, b] } (c :: s) =
      some ({ day := numeral [a, b] }, c :: s) := by
    rw [Part.read, trimStart_of_head? (stopsAt_cons.mpr (isBlank_of_isDigit hc))]
  have hname : Part.read .monthName { day := numeral [a, b] } (c :: s) = none := by
    rw [Part.read, monthName?, abbreviation?_eq_none (isAlpha_of_isDigit hc), Option.map_none,
      Option.map_none]
  rw [Form.read?, dayFirst, Form.readParts_of_read hday, Form.readParts_of_read hgap,
    Form.readParts_of_read_eq_none hname, Option.bind_none]

theorem dayFirst_of_year (year : Int) : dayFirst.read? (Date.yearChars year ++ s) = none := by
  rcases yearChars_cases year with ⟨hlo, hhi, hy⟩ | ⟨-, hy⟩ | ⟨-, hy⟩
  · have hfour : (Date.digits 4 year.toNat).length = 4 := length_digits (by decide) (by omega)
    have hdigit : ∀ c ∈ Date.digits 4 year.toNat, isDigit c = true := fun c hc =>
      isDigit_of_mem_digits hc
    obtain ⟨a, b, c, e, hs⟩ := List.length_eq_four.mp hfour
    rw [hs] at hdigit
    rw [hy, hs]
    exact dayFirst_of_digits (hdigit a (by simp)) (hdigit b (by simp)) (hdigit c (by simp))
  · rw [hy]
    exact dayFirst_of_not_isDigit (by decide) (by decide)
  · rw [hy]
    exact dayFirst_of_not_isDigit (by decide) (by decide)

theorem nameFirst_of_year (year : Int) {name : Part}
    (hname : name ∈ [Part.monthName, .monthAbbreviation]) :
    (nameFirst name).read? (Date.yearChars year ++ s) = none := by
  obtain ⟨c, t, hy, hc⟩ := exists_yearChars_eq_cons year
  have halpha : c.isAlpha = false := by
    rcases hc with hc | rfl | rfl
    · exact isAlpha_of_isDigit hc
    · rfl
    · rfl
  rw [hy]
  exact nameFirst_of_not_isAlpha halpha hname

end Rejected

section Agreement
variable (d : Date)

theorem yearFirst_write (mark : Char) : (yearFirst mark).write d =
    Date.yearChars d.year ++ mark :: (Date.digits 2 d.month ++ mark :: Date.digits 2 d.day) := by
  simp [yearFirst, Form.write, Part.write]

theorem nameFirst_write (name : Part) : (nameFirst name).write d =
    name.write d ++ ' ' :: (Date.digits 2 d.day ++ ',' :: ' ' :: Date.yearChars d.year) := by
  simp [nameFirst, Form.write, Part.write]

theorem dayFirst_write : dayFirst.write d =
    Date.digits 2 d.day ++ ' ' :: (monthName d.month ++ ' ' :: Date.yearChars d.year) := by
  simp [dayFirst, Form.write, Part.write]

/-- No form reads another date than the one that is written with the year first. -/
theorem read?_yearFirst {mark : Char} (hm : mark ∈ ['-', '/']) {other : Form}
    (ho : other ∈ forms) : other.read? ((yearFirst mark).write d) = none ∨
      other.read? ((yearFirst mark).write d) = some d := by
  have hdigit : ∀ c ∈ ['-', '/'], isDigit c = false :=
    List.forall_mem_cons.mpr ⟨by decide, List.forall_mem_singleton.mpr (by decide)⟩
  have hmarks : ∀ c ∈ ['-', '/'], yearFirst c ∈ forms := by simp [forms_eq]
  have hother : ∀ c ∈ ['-', '/'], (yearFirst c).read? ((yearFirst mark).write d) = none ∨
      (yearFirst c).read? ((yearFirst mark).write d) = some d := by
    intro c hc
    by_cases hcm : mark = c
    · exact .inr (by rw [hcm, read?_write (hmarks c hc)])
    · exact .inl (by rw [yearFirst_write, yearFirst_of_mark (hdigit mark hm) hcm])
  cases ho using forms_cases with
  | hyphens => exact hother '-' (by simp)
  | slashes => exact hother '/' (by simp)
  | name => exact .inl (by rw [yearFirst_write, nameFirst_of_year d.year (by simp)])
  | abbreviation => exact .inl (by rw [yearFirst_write, nameFirst_of_year d.year (by simp)])
  | day => exact .inl (by rw [yearFirst_write, dayFirst_of_year])

theorem read?_dayFirst {other : Form} (ho : other ∈ forms) :
    other.read? (dayFirst.write d) = none ∨ other.read? (dayFirst.write d) = some d := by
  obtain ⟨c, s, hs, hc⟩ := exists_digits_eq_cons 2 d.day
  have hyear : ∀ mark, mark ≠ ' ' → (yearFirst mark).read? (dayFirst.write d) = none := by
    intro mark hmark
    rw [dayFirst_write, yearFirst_of_day (by decide) hmark.symm (day_lt_hundred d)]
  have hname : ∀ name ∈ [Part.monthName, .monthAbbreviation],
      (nameFirst name).read? (dayFirst.write d) = none := by
    intro name hname
    rw [dayFirst_write, hs, List.cons_append,
      nameFirst_of_not_isAlpha (isAlpha_of_isDigit hc) hname]
  cases ho using forms_cases with
  | hyphens => exact .inl (hyear '-' (by decide))
  | slashes => exact .inl (hyear '/' (by decide))
  | name => exact .inl (hname .monthName (by simp))
  | abbreviation => exact .inl (hname .monthAbbreviation (by simp))
  | day => exact .inr (read?_write (by simp [forms_eq]) d)

/-- An abbreviated month is read as a name that is cut off. -/
theorem monthName_reads_abbreviation :
    (nameFirst .monthName).read? ((nameFirst .monthAbbreviation).write d) = some d := by
  obtain ⟨-, -, hmonth, hmonth', -, -⟩ := d.isDay
  have hmem : nameFirst .monthAbbreviation ∈ forms := by simp [forms_eq]
  have hown := read?_write hmem d
  rw [nameFirst_write, Part.write] at hown ⊢
  have hshort (rest : List Char) : Part.read .monthAbbreviation {}
      (monthAbbreviation d.month ++ rest) = some ({ month := d.month }, rest) :=
    Part.read_write d {} .monthAbbreviation trivial
  have hlong (rest : List Char) : Part.read .monthName {}
      (monthAbbreviation d.month ++ ' ' :: rest) = some ({ month := d.month }, ' ' :: rest) := by
    rw [Part.read, monthName?_abbreviation_append ⟨hmonth, hmonth'⟩]
    rfl
  rw [Form.read?, nameFirst, Form.readParts_of_read (hshort _)] at hown
  rw [Form.read?, nameFirst, Form.readParts_of_read (hlong _)]
  exact hown

/-- A month in full is read as an abbreviation only if it is one. -/
theorem monthAbbreviation_reads_name :
    (nameFirst .monthAbbreviation).read? ((nameFirst .monthName).write d) = none ∨
      (nameFirst .monthAbbreviation).read? ((nameFirst .monthName).write d) = some d := by
  obtain ⟨-, -, hmonth, hmonth', -, -⟩ := d.isDay
  rcases drop_monthName ⟨hmonth, hmonth'⟩ with hsame | ⟨c, s, hmore, hc⟩
  · have hwrite : (nameFirst .monthName).write d = (nameFirst .monthAbbreviation).write d := by
      rw [nameFirst_write, nameFirst_write, Part.write, Part.write, hsame]
    exact .inr (by rw [hwrite, read?_write (by simp [forms_eq])])
  · refine .inl ?_
    have hink := isBlank_of_isAlpha hc
    rw [nameFirst_write, Part.write, hmore, List.append_assoc, List.cons_append]
    have hshort (rest : List Char) : Part.read .monthAbbreviation {}
        (monthAbbreviation d.month ++ rest) = some ({ month := d.month }, rest) :=
      Part.read_write d {} .monthAbbreviation trivial
    have hgap (rest : List Char) : Part.read .gap { month := d.month } (c :: rest) =
        some ({ month := d.month }, c :: rest) := by
      rw [Part.read, trimStart_of_head? (stopsAt_cons.mpr hink)]
    have hday (rest : List Char) : Part.read .day { month := d.month } (c :: rest) = none := by
      rw [Part.read, trimStart_of_head? (stopsAt_cons.mpr hink),
        number?_eq_none (stopsAt_cons.mpr (isDigit_of_isAlpha hc)), Option.map_none]
    rw [Form.read?, nameFirst, Form.readParts_of_read (hshort _), Form.readParts_of_read (hgap _),
      Form.readParts_of_read_eq_none (hday _), Option.bind_none]

/-- Where the month is given by its name, the two forms of it may read each other. -/
theorem read?_nameFirst {name : Part} (hname : name ∈ [Part.monthName, .monthAbbreviation])
    {other : Form} (ho : other ∈ forms) : other.read? ((nameFirst name).write d) = none ∨
      other.read? ((nameFirst name).write d) = some d := by
  obtain ⟨c, s, hs, hc⟩ : ∃ c s, name.write d = c :: s ∧ c.isAlpha = true := by
    obtain ⟨c, s, hs, hc⟩ := name.exists_write_eq_cons d
    simp only [List.mem_cons, List.not_mem_nil, or_false] at hname
    rcases hname with rfl | rfl
    · exact ⟨c, s, hs, hc⟩
    · exact ⟨c, s, hs, hc⟩
  have hyear : ∀ mark, (yearFirst mark).read? ((nameFirst name).write d) = none := by
    intro mark
    rw [nameFirst_write, hs, List.cons_append, yearFirst_of_isAlpha hc]
  have hday : dayFirst.read? ((nameFirst name).write d) = none := by
    rw [nameFirst_write, hs, List.cons_append,
      dayFirst_of_not_isDigit (isDigit_of_isAlpha hc) (isBlank_of_isAlpha hc)]
  have hown : nameFirst name ∈ forms := by
    simp only [List.mem_cons, List.not_mem_nil, or_false] at hname
    rcases hname with rfl | rfl <;> simp [forms_eq]
  simp only [List.mem_cons, List.not_mem_nil, or_false] at hname
  cases ho using forms_cases with
  | hyphens => exact .inl (hyear '-')
  | slashes => exact .inl (hyear '/')
  | name =>
    rcases hname with rfl | rfl
    · exact .inr (read?_write hown d)
    · exact .inr (monthName_reads_abbreviation d)
  | abbreviation =>
    rcases hname with rfl | rfl
    · exact monthAbbreviation_reads_name d
    · exact .inr (read?_write hown d)
  | day => exact .inl hday

/-- No form reads another date from what a form writes. -/
theorem read?_write_or {form other : Form} (hf : form ∈ forms) (ho : other ∈ forms) :
    other.read? (form.write d) = none ∨ other.read? (form.write d) = some d := by
  cases hf using forms_cases with
  | hyphens => exact read?_yearFirst d (by simp) ho
  | slashes => exact read?_yearFirst d (by simp) ho
  | name => exact read?_nameFirst d (by simp) ho
  | abbreviation => exact read?_nameFirst d (by simp) ho
  | day => exact read?_dayFirst d ho

theorem getLast?_append_digits (s : List Char) (width n : Nat) :
    (s ++ Date.digits width n).getLast?.all (!isBlank ·) = true := by
  have hlast := isDigit_of_mem_digits (List.getLast_mem (digits_ne_nil width n))
  simp [List.getLast?_append, List.getLast?_eq_some_getLast (digits_ne_nil width n),
    isBlank_of_isDigit hlast]

theorem getLast?_append_yearChars (s : List Char) (year : Int) :
    (s ++ Date.yearChars year).getLast?.all (!isBlank ·) = true := by
  rcases yearChars_cases year with ⟨-, -, hy⟩ | ⟨-, hy⟩ | ⟨-, hy⟩
  · rw [hy]
    exact getLast?_append_digits s 4 _
  · rw [hy, List.append_cons]
    exact getLast?_append_digits _ 4 _
  · rw [hy, List.append_cons]
    exact getLast?_append_digits _ 4 _

/-- A written date begins with a number or the name of a month, and ends with a number. -/
theorem ends_write {form : Form} (hf : form ∈ forms) :
    (form.write d).head?.all (!isBlank ·) = true ∧
      (form.write d).getLast?.all (!isBlank ·) = true := by
  have hfirst : ∀ part ∈ [Part.year, .month, .day, .monthName, .monthAbbreviation],
      ∀ form : Form, StopsAt isBlank (Form.write (part :: form) d) := by
    intro part hpart form
    obtain ⟨c, s, hs, hc⟩ := part.exists_write_eq_cons d
    rw [Form.write_cons, hs, List.cons_append, stopsAt_cons]
    exact Part.isBlank_of_begins hc hpart
  have hyear : ∀ mark, (yearFirst mark).write d = (Date.yearChars d.year ++
      mark :: (Date.digits 2 d.month ++ [mark])) ++ Date.digits 2 d.day := by
    simp [yearFirst_write]
  have hname : ∀ name, (nameFirst name).write d = (name.write d ++
      ' ' :: (Date.digits 2 d.day ++ [',', ' '])) ++ Date.yearChars d.year := by
    simp [nameFirst_write]
  have hday : dayFirst.write d = (Date.digits 2 d.day ++
      ' ' :: (monthName d.month ++ [' '])) ++ Date.yearChars d.year := by
    simp [dayFirst_write]
  cases hf using forms_cases with
  | hyphens => exact ⟨hfirst .year (by simp) _, by rw [hyear, getLast?_append_digits]⟩
  | slashes => exact ⟨hfirst .year (by simp) _, by rw [hyear, getLast?_append_digits]⟩
  | name => exact ⟨hfirst .monthName (by simp) _, by rw [hname, getLast?_append_yearChars]⟩
  | abbreviation => exact ⟨hfirst .monthAbbreviation (by simp) _, by rw [hname, getLast?_append_yearChars]⟩
  | day => exact ⟨hfirst .day (by simp) _, by rw [hday, getLast?_append_yearChars]⟩

/-- A date that is written in one of the forms, with white space around it, is read back. It does
not matter in which order the forms are tried: none of them reads another date there. -/
theorem written_date_read {form : Form} (hf : form ∈ forms) {before after : List Char}
    (hb : ∀ c ∈ before, isBlank c = true) (ha : ∀ c ∈ after, isBlank c = true) :
    Date.read? (String.ofList (before ++ form.write d ++ after)) = some d ∧
      ∀ other ∈ forms, other.read? (form.write d) = none ∨ other.read? (form.write d) = some d := by
  refine ⟨?_, fun other ho => read?_write_or d hf ho⟩
  obtain ⟨hfirst, hlast⟩ := ends_write d hf
  have hfound : forms.findSome? (·.read? (form.write d)) = some d := by
    cases hfind : forms.findSome? (·.read? (form.write d)) with
    | none =>
      have hown := List.findSome?_eq_none_iff.mp hfind form hf
      rw [read?_write hf d] at hown
      cases hown
    | some e =>
      obtain ⟨other, ho, hread⟩ := List.exists_of_findSome?_eq_some hfind
      rcases read?_write_or d hf ho with hnone | hsome
      · rw [hnone] at hread
        cases hread
      · exact hread.symm.trans hsome
  rw [Date.read?, readDate?, String.toList_ofList, trimmed_append hb ha hfirst hlast, hfound,
    Option.some_or]

theorem written_date_read_before_christ :
    let d : Date := ⟨-44, 3, 15, by decide⟩
    let form : Form := [.monthAbbreviation, .gap, .day, .mark ',', .gap, .year]
    (form ∈ forms ∧ isBlank '\t' = true) ∧ form.write d = "Mar 15, -0044".toList ∧
      Date.read? "\tMar 15, -0044\t" = some d := by
  intro d form
  have hf : form ∈ forms := by decide
  have hblank : ∀ c ∈ ['\t'], isBlank c = true := List.forall_mem_singleton.mpr (by decide)
  have hread := (written_date_read d hf hblank hblank).1
  have htext : String.ofList (['\t'] ++ form.write d ++ ['\t']) = "\tMar 15, -0044\t" := by
    decide +kernel
  rw [htext] at hread
  exact ⟨⟨hf, by decide⟩, by decide +kernel, hread⟩

end Agreement

end Minutes.Calendar
