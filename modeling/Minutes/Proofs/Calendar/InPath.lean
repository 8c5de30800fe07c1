import Minutes.Calendar.InPath
import Minutes.Proofs.Calendar.Parts
import Minutes.Proofs.Files.Path

/-!
The date of a path. A name is dated by its first piece of the shape of a date, and a path by its
last dated component.
-/
namespace Minutes.Calendar
open Text

theorem isDecimalDigit_of_isDigit {c : Char} (h : isDigit c = true) : isDecimalDigit c = true :=
  inRanges_iff.mpr ⟨(48, 57), List.mem_cons_self, isDigit_iff.mp h⟩

/-- Four decimal digits, two and two with hyphens between them. -/
def IsDateShaped (piece : List Char) : Prop :=
  ∃ y m d, piece = y ++ '-' :: (m ++ '-' :: d) ∧ y.length = 4 ∧ m.length = 2 ∧ d.length = 2 ∧
    ∀ c ∈ y ++ (m ++ d), isDecimalDigit c = true

section Shape
variable {p : Char → Bool} {ps : List (Char → Bool)} {s : List Char}

theorem hasShape_cons_iff : hasShape (p :: ps) s = true ↔
    ∃ c rest, s = c :: rest ∧ p c = true ∧ hasShape ps rest = true := by
  cases s <;> simp [hasShape]

theorem hasShape_replicate_append_iff {n : Nat} :
    hasShape (List.replicate n p ++ ps) s = true ↔ ∃ run rest, s = run ++ rest ∧
      run.length = n ∧ (∀ c ∈ run, p c = true) ∧ hasShape ps rest = true := by
  induction n generalizing s with
  | zero => simp
  | succ n ih =>
    rw [List.replicate_succ, List.cons_append, hasShape_cons_iff]
    constructor
    · rintro ⟨c, t, rfl, hc, ht⟩
      obtain ⟨run, rest, rfl, hn, hrun, hrest⟩ := ih.mp ht
      exact ⟨c :: run, rest, rfl, by simp [hn], List.forall_mem_cons.mpr ⟨hc, hrun⟩, hrest⟩
    · rintro ⟨run, rest, rfl, hn, hrun, hrest⟩
      obtain ⟨c, run, rfl⟩ := List.exists_cons_of_length_eq_add_one hn
      obtain ⟨hc, hrun⟩ := List.forall_mem_cons.mp hrun
      exact ⟨c, run ++ rest, rfl, hc, ih.mpr ⟨run, rest, rfl, by simpa using hn, hrun, hrest⟩⟩

theorem isHyphen_iff {c : Char} : isHyphen c = true ↔ c = '-' := beq_iff_eq

/-- A text has the shape of a date if it begins with such a piece. -/
theorem hasShape_dateShape_iff : hasShape dateShape s = true ↔
    ∃ piece rest, s = piece ++ rest ∧ IsDateShaped piece := by
  have hlast (t : List Char) : hasShape (List.replicate 2 isDecimalDigit) t = true ↔
      ∃ run rest, t = run ++ rest ∧ run.length = 2 ∧ ∀ c ∈ run, isDecimalDigit c = true := by
    rw [← List.append_nil (List.replicate 2 isDecimalDigit), hasShape_replicate_append_iff]
    simp [hasShape]
  have hshape : dateShape = List.replicate 4 isDecimalDigit ++ (isHyphen ::
      (List.replicate 2 isDecimalDigit ++ (isHyphen :: List.replicate 2 isDecimalDigit))) := rfl
  rw [hshape, hasShape_replicate_append_iff]
  constructor
  · rintro ⟨y, s, rfl, hy, hydigit, hs⟩
    obtain ⟨c, s, rfl, hc, hs⟩ := hasShape_cons_iff.mp hs
    obtain ⟨m, s, rfl, hm, hmdigit, hs⟩ := hasShape_replicate_append_iff.mp hs
    obtain ⟨e, s, rfl, he, hs⟩ := hasShape_cons_iff.mp hs
    obtain ⟨d, s, rfl, hd, hddigit⟩ := (hlast s).mp hs
    rw [isHyphen_iff] at hc he
    subst hc he
    refine ⟨y ++ '-' :: (m ++ '-' :: d), s, by simp, y, m, d, rfl, hy, hm, hd, ?_⟩
    simp only [List.forall_mem_append]
    exact ⟨hydigit, hmdigit, hddigit⟩
  · rintro ⟨piece, rest, rfl, y, m, d, rfl, hy, hm, hd, hdigit⟩
    simp only [List.forall_mem_append] at hdigit
    obtain ⟨hydigit, hmdigit, hddigit⟩ := hdigit
    refine ⟨y, '-' :: (m ++ '-' :: d) ++ rest, by simp, hy, hydigit, ?_⟩
    refine hasShape_cons_iff.mpr ⟨'-', (m ++ '-' :: d) ++ rest, rfl, rfl, ?_⟩
    refine hasShape_replicate_append_iff.mpr ⟨m, '-' :: d ++ rest, by simp, hm, hmdigit, ?_⟩
    refine hasShape_cons_iff.mpr ⟨'-', d ++ rest, rfl, rfl, ?_⟩
    exact (hlast _).mpr ⟨d, rest, rfl, hd, hddigit⟩

theorem IsDateShaped.length {piece : List Char} (h : IsDateShaped piece) : piece.length = 10 := by
  obtain ⟨y, m, d, rfl, hy, hm, hd, -⟩ := h
  simp [hy, hm, hd]

theorem IsDateShaped.exists_eq_cons {piece : List Char} (h : IsDateShaped piece) :
    ∃ c s, piece = c :: s ∧ isDecimalDigit c = true := by
  obtain ⟨y, m, d, rfl, hy, -, -, hdigit⟩ := h
  obtain ⟨c, y, rfl⟩ := List.exists_cons_of_length_eq_add_one hy
  exact ⟨c, _, rfl, hdigit c List.mem_cons_self⟩

end Shape

/-- A piece of a name is the first one of the shape of a date. -/
structure IsFirstDated (name before piece after : List Char) : Prop where
  parts : name = before ++ (piece ++ after)
  shaped : IsDateShaped piece
  first : ∀ b p a, name = b ++ (p ++ a) → IsDateShaped p → before.length ≤ b.length

theorem IsFirstDated.unique {name b p a b' p' a' : List Char} (h : IsFirstDated name b p a)
    (h' : IsFirstDated name b' p' a') : p = p' := by
  have hlength : b.length = b'.length :=
    (h.first b' p' a' h'.parts h'.shaped).antisymm (h'.first b p a h.parts h.shaped)
  have hrest := (List.append_inj (h.parts.symm.trans h'.parts) hlength).2
  exact (List.append_inj hrest (h.shaped.length.trans h'.shaped.length.symm)).1

theorem datePiece?_eq_none {name b p a : List Char} (h : datePiece? name = none)
    (hname : name = b ++ (p ++ a)) : ¬ IsDateShaped p := by
  intro hp
  induction name generalizing b with
  | nil =>
    obtain ⟨c, s, rfl, -⟩ := hp.exists_eq_cons
    simp at hname
  | cons c s ih =>
    rw [datePiece?] at h
    split_ifs at h with hshape
    cases b with
    | nil => exact hshape (hasShape_dateShape_iff.mpr ⟨p, a, hname, hp⟩)
    | cons e b => exact ih h (List.cons.inj hname).2

theorem isFirstDated_of_datePiece? {name piece : List Char} (h : datePiece? name = some piece) :
    ∃ before after, IsFirstDated name before piece after := by
  induction name with
  | nil => cases h
  | cons c s ih =>
    rw [datePiece?] at h
    split_ifs at h with hshape
    · obtain ⟨p, a, hs, hp⟩ := hasShape_dateShape_iff.mp hshape
      have htake : p = piece := by
        rw [hs, ← hp.length, List.take_left] at h
        exact Option.some.inj h
      exact ⟨[], a, by rw [hs, htake]; rfl, htake ▸ hp, fun b _ _ _ _ => Nat.zero_le b.length⟩
    · obtain ⟨before, after, hparts, hpiece, hfirst⟩ := ih h
      refine ⟨c :: before, after, by rw [hparts]; rfl, hpiece, fun b p a hs hp => ?_⟩
      cases b with
      | nil => exact absurd (hasShape_dateShape_iff.mpr ⟨p, a, hs, hp⟩) hshape
      | cons e b => exact Nat.succ_le_succ (hfirst b p a (List.cons.inj hs).2 hp)

theorem datePiece?_of_isFirstDated {name before piece after : List Char}
    (h : IsFirstDated name before piece after) : datePiece? name = some piece := by
  cases hfind : datePiece? name with
  | none => exact absurd h.shaped (datePiece?_eq_none hfind h.parts)
  | some p =>
    obtain ⟨b, a, hp⟩ := isFirstDated_of_datePiece? hfind
    rw [hp.unique h]

/-- A number in digits is read from the one way to write it in as many digits. -/
theorem asciiNumber?_eq_some_iff {s : List Char} (hs : s ≠ []) {n : Nat} :
    asciiNumber? s = some n ↔ Date.digits s.length n = s := by
  rw [asciiNumber?]
  constructor
  · intro h
    split_ifs at h with hdigit
    rw [← Option.some.inj h, digits_numeral hs (List.all_eq_true.mp hdigit)]
  · intro h
    have hdigit : s.all isDigit = true := by
      rw [← h, List.all_eq_true]
      exact fun c hc => isDigit_of_mem_digits hc
    rw [if_pos hdigit, ← h, numeral_digits]

theorem lt_of_length_digits {width n : Nat} (h : (Date.digits width n).length = width) :
    n < 10 ^ width := by
  have hlt := numeral_lt (s := Date.digits width n) fun c hc => isDigit_of_mem_digits hc
  rwa [numeral_digits, h] at hlt

section Names
variable {name : List Char} {d : Date}

/-- A date of four digits in the year has the shape of one. -/
theorem isDateShaped_iso (hd : 0 ≤ d.year ∧ d.year ≤ 9999) : IsDateShaped d.iso.toList := by
  obtain ⟨-, -, -, hmonth, -, -⟩ := d.isDay
  refine ⟨_, _, _, by rw [iso_toList, yearChars_of_fourDigits hd], length_digits (by decide)
    (by omega), length_digits (by decide) (by omega),
    length_digits (by decide) (day_lt_hundred d), ?_⟩
  simp only [List.forall_mem_append]
  exact ⟨fun c hc => isDecimalDigit_of_isDigit (isDigit_of_mem_digits hc),
    fun c hc => isDecimalDigit_of_isDigit (isDigit_of_mem_digits hc),
    fun c hc => isDecimalDigit_of_isDigit (isDigit_of_mem_digits hc)⟩

/-- Another year is written with a sign, which no date in a name has. -/
theorem fourDigits_of_isDateShaped (h : IsDateShaped d.iso.toList) :
    0 ≤ d.year ∧ d.year ≤ 9999 := by
  obtain ⟨c, s, hs, hc⟩ := h.exists_eq_cons
  rw [iso_toList] at hs
  rcases yearChars_cases d.year with ⟨hlo, hhi, -⟩ | ⟨-, hy⟩ | ⟨-, hy⟩
  · exact ⟨hlo, hhi⟩
  · rw [hy] at hs
    rw [← (List.cons.inj hs).1] at hc
    exact absurd hc (by decide)
  · rw [hy] at hs
    rw [← (List.cons.inj hs).1] at hc
    exact absurd hc (by decide)

theorem dateOfName?_of_numbers {y m e : List Char}
    (hname : datePiece? name = some (y ++ '-' :: (m ++ '-' :: e))) (hy : y.length = 4)
    (hm : m.length = 2) (he : e.length = 2) : dateOfName? name = some d ↔
      ∃ year : Nat, d.year = year ∧ Date.digits 4 year = y ∧ Date.digits 2 d.month = m ∧
        Date.digits 2 d.day = e := by
  have hyear : (y ++ '-' :: (m ++ '-' :: e)).take 4 = y := List.take_left' hy
  have hmonth : ((y ++ '-' :: (m ++ '-' :: e)).drop 5).take 2 = m := by
    rw [List.append_cons, List.drop_left' (by simp [hy]), List.take_left' hm]
  have hday : ((y ++ '-' :: (m ++ '-' :: e)).drop 8).take 2 = e := by
    have hparts : y ++ '-' :: (m ++ '-' :: e) = (y ++ '-' :: (m ++ ['-'])) ++ e := by simp
    rw [hparts, List.drop_left' (by simp [hy, hm]), List.take_of_length_le he.le]
  have hne {s : List Char} {n : Nat} (hs : s.length = n + 1) : s ≠ [] :=
    List.ne_nil_of_length_eq_add_one hs
  rw [dateOfName?, hname]
  simp only [Option.bind_eq_bind, Option.bind_some, hyear, hmonth, hday, Option.bind_eq_some_iff,
    asciiNumber?_eq_some_iff (hne hy), asciiNumber?_eq_some_iff (hne hm),
    asciiNumber?_eq_some_iff (hne he), Date.of?_eq_some_iff, hy, hm, he]
  constructor
  · rintro ⟨year, hyear, month, hmonth, day, hday, hdyear, rfl, rfl⟩
    exact ⟨year, hdyear, hyear, hmonth, hday⟩
  · rintro ⟨year, hdyear, hyear, hmonth, hday⟩
    exact ⟨year, hyear, _, hmonth, _, hday, hdyear, rfl, rfl⟩

/-- The numbers of a piece are those of a date exactly if the piece is the date as written. -/
theorem dateOfName?_of_datePiece? {piece : List Char} (hname : datePiece? name = some piece)
    (hpiece : IsDateShaped piece) : dateOfName? name = some d ↔ piece = d.iso.toList := by
  have hshaped := hpiece
  obtain ⟨y, m, e, rfl, hy, hm, he, -⟩ := hpiece
  rw [dateOfName?_of_numbers hname hy hm he]
  constructor
  · rintro ⟨year, hyear, rfl, rfl, rfl⟩
    have hlt := lt_of_length_digits hy
    rw [iso_toList, hyear, yearChars_of_fourDigits (by omega), Int.toNat_natCast]
  · intro h
    obtain ⟨-, -, -, hmonth, -, -⟩ := d.isDay
    have hd := fourDigits_of_isDateShaped (h ▸ hshaped)
    have hfour : (Date.digits 4 d.year.toNat).length = 4 := length_digits (by decide) (by omega)
    have htwo : (Date.digits 2 d.month).length = 2 := length_digits (by decide) (by omega)
    rw [iso_toList, yearChars_of_fourDigits hd] at h
    obtain ⟨hyear, hrest⟩ := List.append_inj h (hy.trans hfour.symm)
    obtain ⟨hmonth, hrest⟩ := List.append_inj (List.cons.inj hrest).2 (hm.trans htwo.symm)
    exact ⟨d.year.toNat, (Int.toNat_of_nonneg hd.1).symm, hyear.symm, hmonth.symm,
      (List.cons.inj hrest).2.symm⟩

/-- The date of a name is the one written in its first dated piece. -/
theorem dateOfName?_eq_some_iff :
    dateOfName? name = some d ↔ ∃ before after, IsFirstDated name before d.iso.toList after := by
  constructor
  · intro h
    cases hname : datePiece? name with
    | none =>
      rw [dateOfName?, hname] at h
      cases h
    | some piece =>
      obtain ⟨before, after, hfirst⟩ := isFirstDated_of_datePiece? hname
      obtain rfl := (dateOfName?_of_datePiece? hname hfirst.shaped).mp h
      exact ⟨before, after, hfirst⟩
  · rintro ⟨before, after, hfirst⟩
    exact (dateOfName?_of_datePiece? (datePiece?_of_isFirstDated hfirst) hfirst.shaped).mpr rfl

/-- A date is the first dated piece of a name if no digit comes before it. -/
theorem isFirstDated_iso (hd : 0 ≤ d.year ∧ d.year ≤ 9999) {before : List Char}
    (hb : ∀ c ∈ before, isDecimalDigit c = false) (after : List Char) :
    IsFirstDated (before ++ (d.iso.toList ++ after)) before d.iso.toList after := by
  refine ⟨rfl, isDateShaped_iso hd, fun b p a hname hp => ?_⟩
  by_contra hlt
  obtain ⟨c, s, rfl, hc⟩ := hp.exists_eq_cons
  obtain ⟨t, hbefore, -⟩ | ⟨t, rfl, hrest⟩ := List.append_eq_append_iff.mp hname
  · simp [hbefore] at hlt
  · cases t with
    | nil => simp at hlt
    | cons e t =>
      obtain ⟨rfl, -⟩ := List.cons.inj hrest
      rw [hb c (by simp)] at hc
      cases hc

end Names

/-- The date of a name. -/
def IsDateOf (d : Date) (name : String) : Prop :=
  ∃ before after, IsFirstDated name.toList before d.iso.toList after

end Minutes.Calendar

namespace Minutes.Files.Path

/-- The components of a path: the root folder, or a point at the start, and all pieces that are
neither empty nor a point. -/
def components (p : Path) : List String :=
  (if p.isAbsolute then ["/"] else if p.pieces.head? = some "." then ["."] else []) ++
    p.pieces.filter fun piece => piece ≠ "" ∧ piece ≠ "."

theorem pieces_ne_nil (p : Path) : p.pieces ≠ [] := by
  simp [pieces, List.splitOn_ne_nil]

/-- A name after a path is one component more. -/
theorem components_join (parent : Path) {name : Path} (hn : IsName name) :
    (parent.join name).components = parent.components ++ [name] := by
  obtain ⟨hne, hpoint, hslash⟩ := hn
  by_cases hp : parent = ""
  · have hempty : pieces "" = [""] := pieces_of_notMem (by simp)
    rw [hp, empty_join, components, components, isAbsolute_of_notMem hslash,
      pieces_of_notMem hslash, hempty]
    simp [hne, hpoint, isAbsolute]
  · obtain ⟨names, hpieces, hparent⟩ := pieces_join hp hslash
    have hnames : names ≠ [] := by
      rintro rfl
      rcases hparent with hnil | hempty
      · exact pieces_ne_nil parent hnil
      · have hjoined := intercalate_pieces parent
        rw [hempty] at hjoined
        exact hp hjoined.symm
    have hhead (piece : String) : (names ++ [piece]).head? = names.head? :=
      List.head?_append_of_ne_nil _ hnames
    rw [components, components, isAbsolute_join hp hslash, hpieces, hhead]
    rcases hparent with hparent | hparent
    · simp [hparent, hne, hpoint]
    · simp [hparent, hhead, hne, hpoint]

end Minutes.Files.Path

namespace Minutes.Calendar
open Text

/-- The pieces of a path that are no components, and the root folder, have no date. -/
theorem ofPath?_eq (path : Files.Path) : Date.ofPath? path =
    (path.components.reverse).findSome? fun name => dateOfName? name.toList := by
  have hpieces : Date.ofPath? path =
      (path.pieces.reverse).findSome? fun name => dateOfName? name.toList := rfl
  rw [hpieces, ← List.getLast?_filterMap, ← List.getLast?_filterMap]
  congr 1
  have hstart : (if path.isAbsolute then ["/"] else
      if path.pieces.head? = some "." then ["."] else []).filterMap
        (fun name : String => dateOfName? name.toList) = [] := by
    split_ifs <;> rfl
  rw [Files.Path.components, List.filterMap_append, hstart, List.nil_append,
    List.filterMap_filter]
  refine List.filterMap_congr fun name _ => ?_
  by_cases hname : name = "" ∨ name = "."
  · have hnone : dateOfName? name.toList = none := by rcases hname with rfl | rfl <;> rfl
    rw [hnone, ite_self]
  · simp [not_or.mp hname]

theorem isDateOf_iff {d : Date} {name : String} :
    IsDateOf d name ↔ dateOfName? name.toList = some d := dateOfName?_eq_some_iff.symm

theorem undated_iff {name : String} :
    (∀ d, ¬ IsDateOf d name) ↔ dateOfName? name.toList = none := by
  simp only [isDateOf_iff, Option.eq_none_iff_forall_ne_some, ne_eq]

theorem ofPath?_eq_some_iff {path : Files.Path} {d : Date} :
    Date.ofPath? path = some d ↔ ∃ outer name inner,
      path.components = outer ++ name :: inner ∧ IsDateOf d name ∧
        ∀ n ∈ inner, ∀ e, ¬ IsDateOf e n := by
  simp only [undated_iff]
  simp only [isDateOf_iff, ofPath?_eq, List.findSome?_eq_some_iff]
  constructor
  · rintro ⟨inner, name, outer, hparts, hdate, hinner⟩
    have hreverse := congrArg List.reverse hparts
    refine ⟨outer.reverse, name, inner.reverse, by simpa using hreverse, hdate, fun n hn => ?_⟩
    exact hinner n (List.mem_reverse.mp hn)
  · rintro ⟨outer, name, inner, hparts, hdate, hinner⟩
    refine ⟨inner.reverse, name, outer.reverse, by simp [hparts], hdate, fun n hn => ?_⟩
    exact hinner n (List.mem_reverse.mp hn)

theorem ofPath?_eq_none_iff {path : Files.Path} :
    Date.ofPath? path = none ↔ ∀ name ∈ path.components, ∀ d, ¬ IsDateOf d name := by
  simp only [undated_iff, ofPath?_eq, List.findSome?_eq_none_iff, List.mem_reverse]

theorem isName_of_iso {d : Date} (hd : 0 ≤ d.year ∧ d.year ≤ 9999) {before after : String}
    (hb : '/' ∉ before.toList) (ha : '/' ∉ after.toList) :
    Files.Path.IsName (before ++ d.iso ++ after) := by
  have hslash : '/' ∉ d.iso.toList := by
    have hdigits (width n : Nat) : '/' ∉ Date.digits width n := fun h =>
      absurd (isDigit_of_mem_digits h) (by decide)
    simp [iso_toList, yearChars_of_fourDigits hd, hdigits]
  have hlength : 10 ≤ (before ++ d.iso ++ after).toList.length := by
    have hiso := (isDateShaped_iso hd).length
    simp only [String.toList_append, List.length_append]
    omega
  refine ⟨?_, ?_, by simp [hb, ha, hslash]⟩
  · intro h
    rw [h] at hlength
    exact absurd hlength (by decide)
  · intro h
    rw [h] at hlength
    exact absurd hlength (by decide)

/-- A path has the date of its last dated component, and no date only if none is dated. In
particular a date that ends the path, in a name without digits before it, is the date of the path,
whatever dates are in the path of its folder. -/
theorem dated_path_read :
    (∀ (d : Date) (before after : String), 0 ≤ d.year ∧ d.year ≤ 9999 →
      (∀ c ∈ before.toList, isDecimalDigit c = false) → '/' ∉ before.toList →
      '/' ∉ after.toList → ∀ parent : Files.Path,
        (parent.join (before ++ d.iso ++ after)).components =
          parent.components ++ [before ++ d.iso ++ after] ∧
        Date.ofPath? (parent.join (before ++ d.iso ++ after)) = some d) ∧
      (∀ path d, Date.ofPath? path = some d ↔ ∃ outer name inner,
        Files.Path.components path = outer ++ name :: inner ∧ IsDateOf d name ∧
          ∀ n ∈ inner, ∀ e, ¬ IsDateOf e n) ∧
      ∀ path, Date.ofPath? path = none ↔
        ∀ name ∈ Files.Path.components path, ∀ e, ¬ IsDateOf e name := by
  refine ⟨fun d before after hd hdigit hb ha parent => ?_, fun path d => ofPath?_eq_some_iff,
    fun path => ofPath?_eq_none_iff⟩
  have hcomponents := Files.Path.components_join parent (isName_of_iso hd hb ha)
  have hdate : IsDateOf d (before ++ d.iso ++ after) := by
    refine ⟨before.toList, after.toList, ?_⟩
    rw [String.toList_append, String.toList_append, List.append_assoc]
    exact isFirstDated_iso hd hdigit after.toList
  refine ⟨hcomponents, ofPath?_eq_some_iff.mpr ⟨parent.components, _, [], hcomponents, hdate, ?_⟩⟩
  exact fun n hn => absurd hn List.not_mem_nil

/-- The parent has a date of its own, and another date follows. -/
theorem dated_path_read_leap_day :
    let d : Date := ⟨2000, 2, 29, by decide⟩
    (0 ≤ d.year ∧ d.year ≤ 9999) ∧ Date.ofPath? "/srv/2012-01-01" = some ⟨2012, 1, 1, by decide⟩ ∧
      Date.ofPath? "/srv/2012-01-01/week-2000-02-290-2013-01-01" = some d := by
  intro d
  have hd : 0 ≤ d.year ∧ d.year ≤ 9999 := by decide
  have hb : ∀ c ∈ "week-".toList, isDecimalDigit c = false := by
    have hall : ("week-".toList.all fun c => !isDecimalDigit c) = true := by decide +kernel
    simpa using hall
  have hread := (dated_path_read.1 d "week-" "0-2013-01-01" hd hb (by decide) (by decide)
    "/srv/2012-01-01").2
  have hpath : Files.Path.join "/srv/2012-01-01" ("week-" ++ d.iso ++ "0-2013-01-01") =
      "/srv/2012-01-01/week-2000-02-290-2013-01-01" := by
    decide +kernel
  rw [hpath] at hread
  exact ⟨hd, by decide +kernel, hread⟩

end Minutes.Calendar
