import Minutes.Html.Node
import Mathlib.Tactic

/-!
HTML as it is read. A text is scanned, character by character, into tags and the characters between
them; what is scanned from a text are its parts, and a printed tree is scanned into its tags and
its escaped text.
-/
namespace Minutes.Html

/-- A tag as it is written, with the values of its attributes still escaped. -/
structure Tag where
  name : String
  attributes : List (String × String) := []
  deriving DecidableEq

inductive Token where
  | char (c : Char)
  | opening (tag : Tag)
  | closing (name : String)
  | void (tag : Tag)
  deriving DecidableEq

def Tag.written (tag : Tag) : List Char :=
  tag.name.toList ++ tag.attributes.flatMap fun (name, value) =>
    ' ' :: name.toList ++ '=' :: '"' :: value.toList ++ ['"']

def Token.written : Token → List Char
  | .char c => [c]
  | .opening tag => '<' :: tag.written ++ ['>']
  | .closing name => '<' :: '/' :: name.toList ++ ['>']
  | .void tag => '<' :: tag.written ++ [' ', '/', '>']

def isNameChar (c : Char) : Bool := c.isAlphanum

def Tag.addAttribute (tag : Tag) (name value : List Char) : Tag :=
  { tag with attributes := tag.attributes ++ [(String.ofList name, String.ofList value)] }

/-- Where a scan stands, with what it has read of a tag. -/
inductive Place where
  | text
  | mark
  | closingName (name : List Char)
  | openingName (name : List Char)
  | attributeName (tag : Tag) (name : List Char)
  | quote (tag : Tag) (name : List Char)
  | value (tag : Tag) (name value : List Char)
  | afterValue (tag : Tag)
  | slash (tag : Tag)

/-- The tokens of a text from a place on. A tag has its attributes after single spaces, with their
values between double quotes, and there is nothing else between its marks. -/
def scan : Place → List Char → Option (List Token)
  | .text, [] => some []
  | _, [] => none
  | .text, c :: s => if c = '<' then scan .mark s else (scan .text s).map (.char c :: ·)
  | .mark, c :: s =>
    if c = '/' then scan (.closingName []) s
    else if isNameChar c then scan (.openingName [c]) s
    else none
  | .closingName name, c :: s =>
    if c = '>' then (scan .text s).map (.closing (String.ofList name) :: ·)
    else if isNameChar c then scan (.closingName (name ++ [c])) s
    else none
  | .openingName name, c :: s =>
    if c = '>' then (scan .text s).map (.opening ⟨String.ofList name, []⟩ :: ·)
    else if c = ' ' then scan (.attributeName ⟨String.ofList name, []⟩ []) s
    else if isNameChar c then scan (.openingName (name ++ [c])) s
    else none
  | .attributeName tag name, c :: s =>
    if c = '=' then scan (.quote tag name) s
    else if c = '/' ∧ name = [] then scan (.slash tag) s
    else if isNameChar c then scan (.attributeName tag (name ++ [c])) s
    else none
  | .quote tag name, c :: s => if c = '"' then scan (.value tag name []) s else none
  | .value tag name v, c :: s =>
    if c = '"' then scan (.afterValue (tag.addAttribute name v)) s
    else scan (.value tag name (v ++ [c])) s
  | .afterValue tag, c :: s =>
    if c = '>' then (scan .text s).map (.opening tag :: ·)
    else if c = ' ' then scan (.attributeName tag []) s
    else none
  | .slash tag, c :: s => if c = '>' then (scan .text s).map (.void tag :: ·) else none

-- every lemma below reads a text by the equations of a scan
attribute [local simp] scan

/-- The tokens of a text, if it is made of tags and characters. -/
def tokens? (s : String) : Option (List Token) := scan .text s.toList

/-- What a scan has read of a tag. -/
def Place.written : Place → List Char
  | .text => []
  | .mark => ['<']
  | .closingName name => '<' :: '/' :: name
  | .openingName name => '<' :: name
  | .attributeName tag name => '<' :: tag.written ++ ' ' :: name
  | .quote tag name => '<' :: tag.written ++ ' ' :: name ++ ['=']
  | .value tag name v => '<' :: tag.written ++ ' ' :: name ++ '=' :: '"' :: v
  | .afterValue tag => '<' :: tag.written
  | .slash tag => '<' :: tag.written ++ [' ', '/']

@[simp] theorem written_addAttribute (tag : Tag) (name value : List Char) :
    (tag.addAttribute name value).written =
      tag.written ++ ' ' :: name ++ '=' :: '"' :: value ++ ['"'] := by
  simp [Tag.written, Tag.addAttribute]

@[simp] theorem written_bare (name : String) : (Tag.mk name []).written = name.toList := by
  simp [Tag.written]

/-- Nothing of a scanned text is lost or added. -/
theorem written_of_scan {place : Place} {s : List Char} {ts : List Token}
    (h : scan place s = some ts) : ts.flatMap Token.written = place.written ++ s := by
  fun_induction scan place s generalizing ts with
  | case1 =>
    cases h
    rfl
  | case16 tag name c s _ hc ih =>
    obtain ⟨rfl, rfl⟩ := hc
    rw [ih h]
    simp [Place.written]
  | _ =>
    -- The scan stops, or a token is complete, or one more character of a tag is read.
    first
    | contradiction
    | rename_i ih
      obtain ⟨rest, hr, rfl⟩ := Option.map_eq_some_iff.mp h
      rw [List.flatMap_cons, ih hr]
      simp [Place.written, Token.written]
    | rename_i ih
      rw [ih h]
      simp [Place.written]

def IsName (s : List Char) : Prop := s ≠ [] ∧ ∀ c ∈ s, isNameChar c = true

instance (s : List Char) : Decidable (IsName s) :=
  decidable_of_iff (s ≠ [] ∧ s.all isNameChar = true) (by rw [IsName, List.all_eq_true])

/-- Tags whose names are names and whose values do not end before they are over. -/
def Tag.IsPlain (tag : Tag) : Prop :=
  IsName tag.name.toList ∧
    ∀ a ∈ tag.attributes, IsName a.1.toList ∧ '"' ∉ a.2.toList

/-- Tokens that are read back as they are written. -/
def Token.IsPlain : Token → Prop
  | .char c => c ≠ '<'
  | .opening tag | .void tag => tag.IsPlain
  | .closing name => IsName name.toList

theorem ne_of_isNameChar {c d : Char} (h : isNameChar c = true) (hd : isNameChar d = false) :
    c ≠ d := by
  rintro rfl
  rw [hd] at h
  cases h

theorem scan_closingName (done name s : List Char) (h : ∀ c ∈ name, isNameChar c = true) :
    scan (.closingName done) (name ++ '>' :: s) =
      (scan .text s).map (.closing (String.ofList (done ++ name)) :: ·) := by
  induction name generalizing done with
  | nil => simp
  | cons c name ih =>
    have hc := h c List.mem_cons_self
    have hne : c ≠ '>' := ne_of_isNameChar hc rfl
    simp only [List.cons_append, scan, if_neg hne, if_pos hc]
    rw [ih _ fun d hd => h d (List.mem_cons_of_mem c hd)]
    simp

theorem scan_openingName (done name s : List Char) (h : ∀ c ∈ name, isNameChar c = true) :
    scan (.openingName done) (name ++ s) = scan (.openingName (done ++ name)) s := by
  induction name generalizing done with
  | nil => simp
  | cons c name ih =>
    have hc := h c List.mem_cons_self
    have hne : c ≠ '>' := ne_of_isNameChar hc rfl
    have hne' : c ≠ ' ' := ne_of_isNameChar hc rfl
    simp only [List.cons_append, scan, if_neg hne, if_neg hne', if_pos hc]
    rw [ih _ fun d hd => h d (List.mem_cons_of_mem c hd)]
    simp

theorem scan_attributeName (tag : Tag) (done name s : List Char)
    (h : ∀ c ∈ name, isNameChar c = true) :
    scan (.attributeName tag done) (name ++ '=' :: '"' :: s) =
      scan (.value tag (done ++ name) []) s := by
  induction name generalizing done with
  | nil => simp
  | cons c name ih =>
    have hc := h c List.mem_cons_self
    have hne : c ≠ '=' := ne_of_isNameChar hc rfl
    have hne' : ¬(c = '/' ∧ done = []) := fun hs => ne_of_isNameChar hc rfl hs.1
    simp only [List.cons_append, scan, if_neg hne, if_neg hne', if_pos hc]
    rw [ih _ fun d hd => h d (List.mem_cons_of_mem c hd)]
    simp

theorem scan_value (tag : Tag) (name done v s : List Char) (h : '"' ∉ v) :
    scan (.value tag name done) (v ++ '"' :: s) =
      scan (.afterValue (tag.addAttribute name (done ++ v))) s := by
  induction v generalizing done with
  | nil => simp
  | cons c v ih =>
    have hc : c ≠ '"' := fun hc => h (hc ▸ List.mem_cons_self)
    simp only [List.cons_append, scan, if_neg hc]
    rw [ih _ fun hv => h (List.mem_cons_of_mem c hv)]
    simp

/-- A tag in which attributes may follow: the place is after its name or after a value. -/
def Place.Holds (place : Place) (tag : Tag) : Prop :=
  place = .afterValue tag ∨ ∃ name, tag = ⟨String.ofList name, []⟩ ∧ place = .openingName name

theorem scan_space {place : Place} {tag : Tag} (h : place.Holds tag) (s : List Char) :
    scan place (' ' :: s) = scan (.attributeName tag []) s := by
  rcases h with rfl | ⟨name, rfl, rfl⟩ <;> simp

theorem scan_mark {place : Place} {tag : Tag} (h : place.Holds tag) (s : List Char) :
    scan place ('>' :: s) = (scan .text s).map (.opening tag :: ·) := by
  rcases h with rfl | ⟨name, rfl, rfl⟩ <;> simp

theorem scan_attributes (place : Place) (tag : Tag) (h : place.Holds tag)
    (attributes : List (String × String))
    (hp : ∀ a ∈ attributes, IsName a.1.toList ∧ '"' ∉ a.2.toList) (s : List Char) :
    ∃ place' : Place, place'.Holds { tag with attributes := tag.attributes ++ attributes } ∧
      scan place ((attributes.flatMap fun (name, value) =>
        ' ' :: name.toList ++ '=' :: '"' :: value.toList ++ ['"']) ++ s) = scan place' s := by
  induction attributes generalizing place tag with
  | nil => exact ⟨place, by simpa using h, rfl⟩
  | cons a attributes ih =>
    obtain ⟨hn, hv⟩ := hp a List.mem_cons_self
    have ht : tag.addAttribute a.1.toList a.2.toList =
        { tag with attributes := tag.attributes ++ [a] } := by
      simp [Tag.addAttribute]
    obtain ⟨place', hh, hs⟩ := ih (.afterValue (tag.addAttribute a.1.toList a.2.toList)) _
      (.inl rfl) fun b hb => hp b (List.mem_cons_of_mem a hb)
    refine ⟨place', by simpa [ht] using hh, ?_⟩
    rw [← hs]
    simp only [List.flatMap_cons, List.cons_append, List.append_assoc, List.nil_append]
    rw [scan_space h, scan_attributeName _ _ _ _ hn.2, scan_value _ _ _ _ _ hv]
    rfl

theorem scan_tag {tag : Tag} (h : tag.IsPlain) (s : List Char) :
    ∃ place : Place, place.Holds tag ∧ scan .text ('<' :: tag.written ++ s) = scan place s := by
  obtain ⟨⟨hne, hn⟩, hp⟩ := h
  obtain ⟨c, name, hname⟩ := List.exists_cons_of_ne_nil hne
  rw [hname] at hn
  have hc := hn c List.mem_cons_self
  have hslash : c ≠ '/' := ne_of_isNameChar hc rfl
  obtain ⟨place, hh, hs⟩ := scan_attributes (.openingName (c :: name)) _
    (.inr ⟨_, rfl, rfl⟩) tag.attributes hp s
  rw [← hname, String.ofList_toList, List.nil_append] at hh
  refine ⟨place, hh, ?_⟩
  rw [← hs, Tag.written, hname]
  simp only [List.cons_append, List.append_assoc, scan, if_true, if_neg hslash, if_pos hc]
  exact scan_openingName [c] name _ fun d hd => hn d (List.mem_cons_of_mem c hd)

theorem scan_token {t : Token} (h : t.IsPlain) (s : List Char) :
    scan .text (t.written ++ s) = (scan .text s).map (t :: ·) := by
  cases t with
  | char c => exact if_neg h
  | opening tag =>
    obtain ⟨place, hh, hs⟩ := scan_tag h ('>' :: s)
    simp only [Token.written, List.append_assoc, List.singleton_append]
    rw [hs, scan_mark hh]
  | closing name =>
    have hs := scan_closingName [] name.toList s h.2
    simpa [Token.written] using hs
  | void tag =>
    obtain ⟨place, hh, hs⟩ := scan_tag h (' ' :: '/' :: '>' :: s)
    simp only [Token.written, List.append_assoc, List.cons_append, List.nil_append] at hs ⊢
    rw [hs, scan_space hh]
    simp

/-- Plain tokens are read back from what is written of them. -/
theorem scan_written {ts : List Token} (h : ∀ t ∈ ts, t.IsPlain) :
    scan .text (ts.flatMap Token.written) = some ts := by
  induction ts with
  | nil => rfl
  | cons t ts ih =>
    rw [List.flatMap_cons, scan_token (h t List.mem_cons_self),
      ih fun u hu => h u (List.mem_cons_of_mem t hu)]
    rfl

end Minutes.Html
