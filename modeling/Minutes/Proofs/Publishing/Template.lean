import Minutes.Proofs.Text.Blank
import Minutes.Template

/-!
What a filled template is made of: its own characters outside the places, and the values of the
names that it has places for.
-/
namespace Minutes.Template
open Text

theorem nameAt?_suffix {s name rest : List Char} (h : nameAt? s = some (name, rest)) :
    rest <:+ s := by
  unfold nameAt? at h
  split at h
  · next c tail htail =>
    split_ifs at h
    obtain ⟨-, rfl⟩ : _ ∧ _ = rest := by simpa using h
    have htrimmed : trimStart s <:+ s := List.dropWhile_suffix _
    rw [htail] at htrimmed
    calc trimStart (tail.dropWhile isAsciiWordChar)
      _ <:+ tail.dropWhile isAsciiWordChar := List.dropWhile_suffix _
      _ <:+ tail := List.dropWhile_suffix _
      _ <:+ c :: tail := List.suffix_cons c tail
      _ <:+ s := htrimmed
  · cases h

theorem afterClosing?_suffix {s rest : List Char} (h : afterClosing? s = some rest) :
    rest <:+ s := by
  unfold afterClosing? at h
  split at h
  · obtain rfl := Option.some.inj h
    exact List.suffix_append ['}', '}', '}'] _
  · obtain rfl := Option.some.inj h
    exact List.suffix_append ['}', '}'] _
  · cases h

/-- What follows a place is an end of the text. -/
theorem placeAt?_suffix {s name after : List Char} (h : placeAt? s = some (name, after)) :
    after <:+ s := by
  unfold placeAt? at h
  simp only [Option.bind_eq_bind, Option.bind_eq_some_iff] at h
  obtain ⟨inside, hinside, ⟨found, rest⟩, hname, end_, hclose, heq⟩ := h
  obtain ⟨-, rfl⟩ : _ ∧ end_ = after := by simpa using heq
  have hopen : inside <:+ s := by
    split at hinside
    · obtain rfl := Option.some.inj hinside
      exact List.suffix_append ['{', '{', '{'] _
    · obtain rfl := Option.some.inj hinside
      exact List.suffix_append ['{', '{'] _
    · cases hinside
  exact (afterClosing?_suffix hclose).trans ((nameAt?_suffix hname).trans hopen)

theorem mem_of_plain_mem_pieces {c : Char} {s : List Char} (h : .plain c ∈ pieces s) : c ∈ s := by
  fun_induction pieces s with
  | case1 => cases h
  | case2 d rest _ ih =>
    rcases List.mem_cons.mp h with heq | h
    · obtain rfl := Piece.plain.inj heq
      exact List.mem_cons_self
    · exact List.mem_cons_of_mem d (ih h)
  | case3 d rest name after found _ ih =>
    rcases List.mem_cons.mp h with heq | h
    · cases heq
    · exact (placeAt?_suffix found).mem (ih h)

def Piece.place? : Piece → Option String
  | .plain _ => none
  | .place name => some (String.ofList name)

/-- The names that a template has places for, in the order of the places. -/
def places (template : String) : List String :=
  (pieces template.toList).filterMap Piece.place?

theorem mem_places_iff {template name : String} :
    name ∈ places template ↔ .place name.toList ∈ pieces template.toList := by
  rw [places, List.mem_filterMap]
  constructor
  · rintro ⟨piece, hpiece, hname⟩
    cases piece with
    | plain c => cases hname
    | place name' =>
      obtain rfl := Option.some.inj hname
      rwa [String.toList_ofList]
  · intro h
    exact ⟨_, h, congrArg some String.ofList_toList⟩

/-- A name has the first of the values that are given for it. -/
theorem value_cons (key text : String) (values : List (String × String)) (name : String) :
    value ((key, text) :: values) name.toList =
      if key = name then text.toList else value values name.toList := by
  unfold value
  rw [List.find?_cons]
  by_cases h : key = name
  · simp [h]
  · have hne : (key.toList == name.toList) = false :=
      beq_false_of_ne fun heq => h (String.toList_injective heq)
    rw [hne, if_neg h]

@[simp] theorem value_nil (name : List Char) : value [] name = [] := rfl

/-- A character that a template does not have itself comes into the filled one with a value. -/
theorem mem_fillTemplate_iff {c : Char} {template : String} (h : c ∉ template.toList)
    (values : List (String × String)) :
    c ∈ (fillTemplate template values).toList ↔
      ∃ name ∈ places template, c ∈ value values name.toList := by
  rw [fillTemplate, String.toList_ofList, List.mem_flatMap]
  constructor
  · rintro ⟨piece, hpiece, hc⟩
    cases piece with
    | plain d =>
      obtain rfl : c = d := by simpa [Piece.render] using hc
      exact absurd (mem_of_plain_mem_pieces hpiece) h
    | place name =>
      refine ⟨String.ofList name, mem_places_iff.mpr ?_, ?_⟩ <;> rwa [String.toList_ofList]
  · rintro ⟨name, hname, hc⟩
    exact ⟨.place name.toList, mem_places_iff.mp hname, hc⟩

end Minutes.Template
