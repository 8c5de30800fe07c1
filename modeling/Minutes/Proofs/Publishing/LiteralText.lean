import Minutes.Proofs.Publishing.Places

/-!
The literal text of a template. Filling a template keeps it but for a brace that could as well
close the place before it.
-/
namespace Minutes.Template
open Text

/-- The text without the braces that close a place although the place has two of its own. -/
def Layout.left (t : Layout) : Layout where
  first := t.first
  rest := t.rest.map fun (p, literal) => (p, String.ofList (p.leaves literal.toList))

theorem placeAt?_eq_none {c : Char} (h : c ≠ '{') (s : List Char) : placeAt? (c :: s) = none := by
  simp [placeAt?, h]

theorem pieces_append {s : List Char} (h : '{' ∉ s) (u : List Char) :
    pieces (s ++ u) = s.map .plain ++ pieces u := by
  induction s with
  | nil => rfl
  | cons c s ih =>
    obtain ⟨hc, hs⟩ : c ≠ '{' ∧ '{' ∉ s := by simpa [eq_comm] using h
    rw [List.cons_append, pieces]
    split
    · rw [ih hs]
      rfl
    · rename_i found
      rw [placeAt?_eq_none hc] at found
      cases found

theorem pieces_place_append (p : Place) (u : List Char) :
    pieces (p.chars ++ u) = .place p.name.toList :: pieces (p.leaves u) := by
  have hfound := placeAt?_append p u
  obtain ⟨c, rest, hcons⟩ := List.exists_cons_of_ne_nil
    (List.append_ne_nil_of_left_ne_nil p.chars_ne_nil u)
  rw [hcons] at hfound ⊢
  rw [pieces]
  split
  · rename_i hnone
    rw [hfound] at hnone
    cases hnone
  · rename_i name after found
    obtain ⟨rfl, rfl⟩ : p.name.toList = name ∧ p.leaves u = after := by
      simpa [hfound] using found
    rfl

namespace Place
variable {p : Place} {s t : List Char}

/-- A place takes nothing of the places after it. -/
theorem leaves_append (h : t.head? ≠ some '}') : p.leaves (s ++ t) = p.leaves s ++ t := by
  unfold leaves
  cases p.closing with
  | three => rfl
  | two =>
    cases s with
    | nil =>
      cases t with
      | nil => rfl
      | cons c t =>
        have hc : c ≠ '}' := fun hc => h (congrArg some hc)
        simp [hc]
    | cons c s =>
      by_cases hc : c = '}'
      · rw [hc]
        rfl
      · simp [hc]

theorem leaves_eq_self_iff : p.leaves s = s ↔ (p.closing = .two → s.head? ≠ some '}') := by
  unfold leaves
  cases p.closing with
  | three => simp
  | two =>
    cases s with
    | nil => simp
    | cons c s =>
      by_cases hc : c = '}'
      · simp [hc]
      · simp [hc]

theorem leaves_suffix : p.leaves s <:+ s := by
  unfold leaves
  split
  · exact List.suffix_cons _ _
  · exact List.suffix_rfl

end Place

section
variable {rest : List (Place × String)}

theorem head?_rest_ne :
    (rest.flatMap fun part => part.1.chars ++ part.2.toList).head? ≠ some '}' := by
  cases rest with
  | nil => simp
  | cons part rest =>
    rw [List.flatMap_cons, Place.chars]
    cases part.1.opening <;> simp [Braces.chars]

/-- Where no brace is open, each place is found, and takes of the text after it at most a brace. -/
theorem pieces_rest (h : ∀ part ∈ rest, '{' ∉ part.2.toList) :
    pieces (rest.flatMap fun part => part.1.chars ++ part.2.toList) =
      rest.flatMap fun part =>
        .place part.1.name.toList :: (part.1.leaves part.2.toList).map .plain := by
  induction rest with
  | nil => rw [List.flatMap_nil, pieces, List.flatMap_nil]
  | cons part rest ih =>
    obtain ⟨hliteral, hrest⟩ := List.forall_mem_cons.mp h
    have hleft : '{' ∉ part.1.leaves part.2.toList :=
      fun hbrace => hliteral (Place.leaves_suffix.mem hbrace)
    rw [List.flatMap_cons, List.append_assoc, pieces_place_append,
      Place.leaves_append head?_rest_ne, pieces_append hleft, ih hrest, List.flatMap_cons]
    rfl

end

theorem Layout.pieces_text {t : Layout} (h : ∀ literal ∈ t.literals, '{' ∉ literal.toList) :
    Template.pieces t.text.toList = t.left.pieces := by
  obtain ⟨hfirst, hrest⟩ := List.forall_mem_cons.mp h
  have hrest : ∀ part ∈ t.rest, '{' ∉ part.2.toList :=
    fun part hpart => hrest part.2 (List.mem_map_of_mem hpart)
  rw [t.toList_text, pieces_append hfirst, pieces_rest hrest]
  simp [Layout.pieces, left, List.flatMap_map]

section
variable (put : Place → List Char) (rest : List (Place × String))

theorem length_flatMap_leaves_le :
    (rest.flatMap fun part => put part.1 ++ part.1.leaves part.2.toList).length ≤
      (rest.flatMap fun part => put part.1 ++ part.2.toList).length := by
  induction rest with
  | nil => exact Nat.le_refl _
  | cons part rest ih =>
    have hleaves := (Place.leaves_suffix (p := part.1) (s := part.2.toList)).length_le
    simp only [List.flatMap_cons, List.length_append]
    omega

/-- A text is whole only if each place leaves all that follows it. -/
theorem flatMap_leaves_eq_iff :
    (rest.flatMap fun part => put part.1 ++ part.1.leaves part.2.toList) =
        (rest.flatMap fun part => put part.1 ++ part.2.toList) ↔
      ∀ part ∈ rest, part.1.leaves part.2.toList = part.2.toList := by
  induction rest with
  | nil => simp
  | cons part rest ih =>
    rw [List.flatMap_cons, List.flatMap_cons, List.append_assoc, List.append_assoc,
      List.append_cancel_left_eq, List.forall_mem_cons, ← ih]
    constructor
    · intro h
      -- both parts are at most as long as what they are a part of, so neither is shorter
      have hleaves := (Place.leaves_suffix (p := part.1) (s := part.2.toList)).length_le
      have hrest := length_flatMap_leaves_le put rest
      have hlength := congrArg List.length h
      rw [List.length_append, List.length_append] at hlength
      exact List.append_inj h (by omega)
    · rintro ⟨hpart, hrest⟩
      rw [hpart, hrest]

end

theorem Layout.filled_left_eq_iff (values : List (String × String)) (t : Layout) :
    t.left.filled values = t.filled values ↔
      ∀ part ∈ t.rest, part.1.leaves part.2.toList = part.2.toList := by
  rw [← flatMap_leaves_eq_iff (fun p => value values p.name.toList), ← String.toList_inj]
  simp [filled, left, List.flatMap_map, toList_lookup]

/-- A template that opens no brace outside its places keeps its literal text exactly if no closing
brace follows a place that is closed with two. Such a brace counts as the third of the place,
however many opened it, and is lost. -/
theorem literals_kept_iff (t : Layout) (values : List (String × String))
    (h : ∀ literal ∈ t.literals, '{' ∉ literal.toList) :
    fillTemplate t.text values = t.left.filled values ∧
    (fillTemplate t.text values = t.filled values ↔
      ∀ part ∈ t.rest, part.1.closing = .two → part.2.toList.head? ≠ some '}') := by
  have hfilled : fillTemplate t.text values = t.left.filled values := by
    apply String.toList_injective
    rw [fillTemplate, String.toList_ofList, Layout.pieces_text h, Layout.toList_filled]
  refine ⟨hfilled, ?_⟩
  rw [hfilled, t.filled_left_eq_iff values]
  exact forall₂_congr fun part _ => Place.leaves_eq_self_iff

/-- Braces in the text are kept if a place is closed with three, or something stands between. -/
theorem literals_kept_iff_closing_braces :
    let date : Place := { name := "date", before := [' '], after := [' '] }
    let content : Place := { name := "content", opening := .three, closing := .three }
    let t : Layout := ⟨"\x7d ", [(date, " \x7d"), (content, "\x7d")]⟩
    let values := [("date", "2013-02-05"), ("content", "\x7b\x7bdate\x7d\x7d")]
    t.text = "\x7d \x7b\x7b date \x7d\x7d \x7d\x7b\x7b\x7bcontent\x7d\x7d\x7d\x7d" ∧
    (∀ literal ∈ t.literals, '{' ∉ literal.toList) ∧
    fillTemplate t.text values = "\x7d 2013-02-05 \x7d\x7b\x7bdate\x7d\x7d\x7d" := by
  intro date content t values
  have hliterals : ∀ literal ∈ t.literals, '{' ∉ literal.toList := by decide
  have hkept : ∀ part ∈ t.rest, part.1.closing = .two → part.2.toList.head? ≠ some '}' := by
    simp [t, date, content]
  refine ⟨by decide +kernel, hliterals, ?_⟩
  rw [(literals_kept_iff t values hliterals).2.mpr hkept]
  decide +kernel

/-- Of a brace after a place in two braces nothing is left. -/
theorem literals_lost :
    let t : Layout := ⟨"", [({ name := "a" }, "\x7d")]⟩
    (∀ literal ∈ t.literals, '{' ∉ literal.toList) ∧
    (∀ part ∈ t.rest, part.1.opening = .two ∧ part.1.closing = .two) ∧
    t.text = "\x7b\x7ba\x7d\x7d\x7d" ∧ t.filled [("a", "x")] = "x\x7d" ∧
    fillTemplate t.text [("a", "x")] = "x" := by
  decide +kernel

end Minutes.Template
