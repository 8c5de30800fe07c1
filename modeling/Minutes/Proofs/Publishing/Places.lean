import Minutes.Proofs.Publishing.Template

/-!
Templates as literal text with places in it. A place is found wherever one is written, and a value
is put in the stead of a place as it is.
-/
namespace Minutes.Template
open Text

/-- The braces on one side of a place: two, or three. -/
inductive Braces where
  | two
  | three
  deriving DecidableEq

def Braces.chars (c : Char) : Braces → List Char
  | .two => [c, c]
  | .three => [c, c, c]

def IsName (name : List Char) : Prop :=
  name.head?.any isNameStart = true ∧ name.tail.all isAsciiWordChar = true

instance (name : List Char) : Decidable (IsName name) := inferInstanceAs (Decidable (_ ∧ _))

/-- A place as it is written: a name, with white space around it, between braces. -/
structure Place where
  opening : Braces := .two
  before : List Char := []
  name : String
  after : List Char := []
  closing : Braces := .two
  before_blank : ∀ c ∈ before, isBlank c = true := by simp
  name_isName : IsName name.toList := by decide
  after_blank : ∀ c ∈ after, isBlank c = true := by simp

def Place.chars (p : Place) : List Char :=
  p.opening.chars '{' ++ (p.before ++ (p.name.toList ++ (p.after ++ p.closing.chars '}')))

/-- What a place leaves of the text after it: a third brace closes the place. -/
def Place.leaves (p : Place) (s : List Char) : List Char :=
  match p.closing, s with
  | .two, '}' :: rest => rest
  | _, s => s

theorem isName_iff {name : List Char} : IsName name ↔
    ∃ c tail, name = c :: tail ∧ isNameStart c = true ∧
      ∀ d ∈ tail, isAsciiWordChar d = true := by
  cases name with
  | nil => simp [IsName]
  | cons c tail => simp [IsName]

theorem isBlank_of_isNameStart {c : Char} (h : isNameStart c = true) : isBlank c = false := by
  refine isBlank_of_isAsciiWordChar ?_
  rcases Bool.or_eq_true_iff.mp h with h | h
  · simp [isAsciiWordChar, Char.isAlphanum, h]
  · simp [isAsciiWordChar, h]

theorem Place.chars_ne_nil (p : Place) : p.chars ≠ [] := by
  unfold Place.chars
  cases p.opening <;> exact List.cons_ne_nil _ _

/-- No third brace stands where a name is to follow. -/
theorem Place.head?_inside (p : Place) (s : List Char) :
    (p.before ++ (p.name.toList ++ s)).head? ≠ some '{' := by
  obtain ⟨c, tail, hname, hc, -⟩ := isName_iff.mp p.name_isName
  cases hb : p.before with
  | nil =>
    rw [hname]
    rintro h
    obtain rfl : c = '{' := by simpa using h
    cases hc
  | cons d before =>
    intro h
    obtain rfl : d = '{' := by simpa using h
    have hblank := p.before_blank '{' (hb ▸ List.mem_cons_self)
    cases hblank

/-- A name is read up to the braces that close its place. -/
theorem Place.nameAt?_inside (p : Place) (s : List Char) :
    nameAt? (p.before ++ (p.name.toList ++ (p.after ++ '}' :: s))) =
      some (p.name.toList, '}' :: s) := by
  obtain ⟨c, tail, hname, hc, htail⟩ := isName_iff.mp p.name_isName
  have hstart : trimStart (p.before ++ (p.name.toList ++ (p.after ++ '}' :: s))) =
      c :: (tail ++ (p.after ++ '}' :: s)) := by
    rw [hname, trimStart, List.dropWhile_append_of_pos p.before_blank]
    exact trimStart_of_head? (by simp [isBlank_of_isNameStart hc])
  have hend : (p.after ++ '}' :: s).head?.all (!isAsciiWordChar ·) = true := by
    cases ha : p.after with
    | nil => rfl
    | cons d after =>
      have hd := p.after_blank d (ha ▸ List.mem_cons_self)
      have hword : isAsciiWordChar d = false := by
        rw [← Bool.not_eq_true]
        intro hword
        rw [isBlank_of_isAsciiWordChar hword] at hd
        cases hd
      simp [hword]
  obtain ⟨htake, hdrop⟩ := takeWhile_dropWhile_iff.mpr ⟨rfl, htail, hend⟩
  have hafter : trimStart (p.after ++ '}' :: s) = '}' :: s := by
    rw [trimStart, List.dropWhile_append_of_pos p.after_blank]
    exact trimStart_of_head? rfl
  rw [nameAt?, hstart]
  simp only
  rw [if_pos hc, htake, hdrop, hafter, hname]

theorem Place.afterClosing?_append (p : Place) (s : List Char) :
    afterClosing? (p.closing.chars '}' ++ s) = some (p.leaves s) := by
  unfold Place.leaves
  cases p.closing with
  | three => rfl
  | two =>
    cases s with
    | nil => rfl
    | cons c s =>
      by_cases hc : c = '}'
      · rw [hc]
        rfl
      · simp [Braces.chars, afterClosing?, hc]

/-- Where a place is written, it is found, whatever follows it. -/
theorem placeAt?_append (p : Place) (s : List Char) :
    placeAt? (p.chars ++ s) = some (p.name.toList, p.leaves s) := by
  have hclosing : ∃ t, p.closing.chars '}' ++ s = '}' :: t := by
    cases p.closing <;> exact ⟨_, rfl⟩
  obtain ⟨t, ht⟩ := hclosing
  have hinside : p.chars ++ s =
      p.opening.chars '{' ++ (p.before ++ (p.name.toList ++ (p.after ++ '}' :: t))) := by
    simp only [Place.chars, List.append_assoc, ht]
  have hname := p.nameAt?_inside t
  have hhead := p.head?_inside (p.after ++ '}' :: t)
  have hafter := p.afterClosing?_append s
  rw [ht] at hafter
  rw [hinside]
  generalize p.before ++ (p.name.toList ++ (p.after ++ '}' :: t)) = inside at hname hhead
  unfold placeAt?
  cases p.opening with
  | three => simp [Braces.chars, hname, hafter]
  | two =>
    cases inside with
    | nil => cases hname
    | cons c inside =>
      have hc : c ≠ '{' := fun h => hhead (congrArg some h)
      simp [Braces.chars, hc, hname, hafter]

theorem exists_of_nameAt? {s name rest : List Char} (h : nameAt? s = some (name, rest)) :
    ∃ before after, s = before ++ (name ++ (after ++ rest)) ∧
      (∀ c ∈ before, isBlank c = true) ∧ IsName name ∧ ∀ c ∈ after, isBlank c = true := by
  unfold nameAt? at h
  split at h
  · next c tail htail =>
    split_ifs at h with hc
    obtain ⟨rfl, rfl⟩ : c :: tail.takeWhile isAsciiWordChar = name ∧ _ = rest := by simpa using h
    have hs : s = s.takeWhile isBlank ++ c :: tail := by
      rw [← htail]
      exact List.takeWhile_append_dropWhile.symm
    have hrest : tail.dropWhile isAsciiWordChar =
        (tail.dropWhile isAsciiWordChar).takeWhile isBlank ++
          trimStart (tail.dropWhile isAsciiWordChar) :=
      List.takeWhile_append_dropWhile.symm
    refine ⟨s.takeWhile isBlank, (tail.dropWhile isAsciiWordChar).takeWhile isBlank, ?_,
      fun d hd => List.mem_takeWhile_imp hd,
      isName_iff.mpr ⟨c, _, rfl, hc, fun d hd => List.mem_takeWhile_imp hd⟩,
      fun d hd => List.mem_takeWhile_imp hd⟩
    rw [← hrest, List.cons_append, List.takeWhile_append_dropWhile]
    exact hs
  · cases h

theorem exists_of_afterClosing? {s rest : List Char} (h : afterClosing? s = some rest) :
    ∃ closing : Braces, s = closing.chars '}' ++ rest := by
  unfold afterClosing? at h
  split at h
  · obtain rfl := Option.some.inj h
    exact ⟨.three, rfl⟩
  · obtain rfl := Option.some.inj h
    exact ⟨.two, rfl⟩
  · cases h

/-- What is found is a place that is written there. -/
theorem exists_of_placeAt? {s name after : List Char} (h : placeAt? s = some (name, after)) :
    ∃ p : Place, p.name.toList = name ∧ s = p.chars ++ after := by
  unfold placeAt? at h
  simp only [Option.bind_eq_bind, Option.bind_eq_some_iff] at h
  obtain ⟨inside, hinside, ⟨found, rest⟩, hname, after', hclose, heq⟩ := h
  obtain ⟨rfl, rfl⟩ : found = name ∧ after' = after := by simpa using heq
  have hopening : ∃ opening : Braces, s = opening.chars '{' ++ inside := by
    split at hinside
    · obtain rfl := Option.some.inj hinside
      exact ⟨.three, rfl⟩
    · obtain rfl := Option.some.inj hinside
      exact ⟨.two, rfl⟩
    · cases hinside
  obtain ⟨opening, rfl⟩ := hopening
  obtain ⟨before, blank, rfl, hbefore, hisName, hblank⟩ := exists_of_nameAt? hname
  obtain ⟨closing, rfl⟩ := exists_of_afterClosing? hclose
  refine ⟨⟨opening, before, String.ofList found, blank, closing, hbefore, ?_, hblank⟩, ?_, ?_⟩
  · rwa [String.toList_ofList]
  · exact String.toList_ofList
  · simp [Place.chars]

/-- No place is written in a text. -/
def IsLiteral (s : List Char) : Prop := ∀ p : Place, ¬ p.chars <:+: s

theorem isLiteral_nil : IsLiteral [] :=
  fun p h => p.chars_ne_nil (List.eq_nil_of_infix_nil h)

theorem IsLiteral.cons {c : Char} {s : List Char} (hc : ∀ p : Place, ¬ p.chars <+: c :: s)
    (h : IsLiteral s) : IsLiteral (c :: s) := by
  intro p hp
  rcases List.infix_cons_iff.mp hp with hp | hp
  · exact hc p hp
  · exact h p hp

/-- A text with places in it: the literal text up to the first place, and each place with the
literal text after it. -/
structure Layout where
  first : String
  rest : List (Place × String) := []

namespace Layout

def literals (t : Layout) : List String := t.first :: t.rest.map (·.2)

def text (t : Layout) : String :=
  t.first ++ String.join (t.rest.map fun (p, literal) => String.ofList p.chars ++ literal)

/-- The text with a value in the stead of each place, or with nothing if none is given. -/
def filled (values : List (String × String)) (t : Layout) : String :=
  t.first ++ String.join (t.rest.map fun (p, literal) => (values.lookup p.name).getD "" ++ literal)

def pieces (t : Layout) : List Piece :=
  t.first.toList.map .plain ++
    t.rest.flatMap fun (p, literal) => .place p.name.toList :: literal.toList.map .plain

theorem toList_text (t : Layout) : t.text.toList =
    t.first.toList ++ t.rest.flatMap fun part => part.1.chars ++ part.2.toList := by
  simp [text, List.flatMap_map]

end Layout

theorem toList_lookup (values : List (String × String)) (name : String) :
    ((values.lookup name).getD "").toList = value values name.toList := by
  induction values with
  | nil => rfl
  | cons v values ih =>
    rw [value_cons, List.lookup_cons]
    by_cases h : v.1 = name
    · simp [h]
    · have hne : (name == v.1) = false := beq_false_of_ne (Ne.symm h)
      rw [hne, if_neg h]
      exact ih

/-- A text is filled piece by piece. -/
theorem Layout.toList_filled (values : List (String × String)) (t : Layout) :
    (t.filled values).toList = t.pieces.flatMap (Piece.render values) := by
  have hplain (s : List Char) : (s.map Piece.plain).flatMap (Piece.render values) = s := by
    simp [List.flatMap_map, Piece.render]
  simp only [filled, pieces, String.toList_append, String.toList_join, List.flatMap_append,
    List.flatMap_map, List.flatMap_assoc, List.flatMap_cons, hplain, Piece.render, toList_lookup]

/-- A template is read as a text with places in it, none of which is missed. -/
theorem exists_layout (s : List Char) : ∃ t : Layout, t.text.toList = s ∧
    t.pieces = pieces s ∧ ∀ literal ∈ t.literals, IsLiteral literal.toList := by
  fun_induction pieces s with
  | case1 => exact ⟨⟨"", []⟩, rfl, rfl, by simpa [Layout.literals] using isLiteral_nil⟩
  | case2 c rest hnone ih =>
    obtain ⟨t, rfl, hpieces, hliterals⟩ := ih
    obtain ⟨hfirst, hrest⟩ := List.forall_mem_cons.mp hliterals
    have hc (p : Place) : ¬ p.chars <+: c :: t.first.toList := by
      rintro ⟨u, hu⟩
      rw [t.toList_text, ← List.cons_append, ← hu, List.append_assoc, placeAt?_append] at hnone
      cases hnone
    refine ⟨{ t with first := String.ofList (c :: t.first.toList) }, ?_, ?_, ?_⟩
    · simp [Layout.toList_text]
    · simp [← hpieces, Layout.pieces]
    · refine List.forall_mem_cons.mpr ⟨?_, hrest⟩
      rw [String.toList_ofList]
      exact hfirst.cons hc
  | case3 c rest name after found _ ih =>
    obtain ⟨t, rfl, hpieces, hliterals⟩ := ih
    obtain ⟨p, rfl, hs⟩ := exists_of_placeAt? found
    refine ⟨⟨"", (p, t.first) :: t.rest⟩, ?_, ?_, ?_⟩
    · simp [Layout.toList_text, hs]
    · simp [← hpieces, Layout.pieces]
    · exact List.forall_mem_cons.mpr ⟨isLiteral_nil, hliterals⟩

/-- Values are put in as they are. A template is literal text with places in it, whatever values it
is filled with, and filling it puts the value of each place between the literal texts; what stands
in a value is not read as a place. -/
theorem exists_layout_filled (template : String) : ∃ t : Layout, t.text = template ∧
    (∀ literal ∈ t.literals, ∀ p : Place, ¬ p.chars <:+: literal.toList) ∧
    ∀ values, fillTemplate template values = t.filled values := by
  obtain ⟨t, htext, hpieces, hliterals⟩ := exists_layout template.toList
  refine ⟨t, String.toList_injective htext, hliterals, fun values => String.toList_injective ?_⟩
  rw [fillTemplate, String.toList_ofList, ← hpieces, t.toList_filled]

end Minutes.Template
