import Minutes.Html.Links
import Minutes.Proofs.Html.Element
import Mathlib.Data.List.DropRight

/-!
Running text with its addresses made links. Nothing of the text is lost, and its links lead out of
the page: no text makes an anchor or a link to one.
-/
namespace Minutes.Html
open Text

/-- A link that leads out of the page and has no name to be linked by. -/
def Element.LeadsOut (e : Element) : Prop :=
  ∃ target, e.attributes = [("href", target)] ∧ fragment? target = none

theorem ids_of_leadsOut {es : List Element} (h : ∀ e ∈ es, e.LeadsOut) : ids es = [] := by
  rw [ids, List.flatMap_eq_nil_iff]
  intro e he
  obtain ⟨target, ha, _⟩ := h e he
  simp [Element.values, ha]

theorem fragments_of_leadsOut {es : List Element} (h : ∀ e ∈ es, e.LeadsOut) :
    fragments es = [] := by
  rw [fragments, List.flatMap_eq_nil_iff]
  intro e he
  obtain ⟨target, ha, ht⟩ := h e he
  simp [Element.values, ha, ht]

theorem ofClass_of_leadsOut {es : List Element} (h : ∀ e ∈ es, e.LeadsOut) (className : String) :
    ofClass className es = [] := by
  rw [ofClass, List.filter_eq_nil_iff]
  intro e he
  obtain ⟨target, ha, _⟩ := h e he
  simp [Element.values, ha]

theorem fragment?_of_isPrefix_cons {target : String} {c : Char} {s : List Char}
    (h : target.toList <+: c :: s) (hc : c ≠ '#') : fragment? target = none := by
  unfold fragment?
  split
  · rename_i s' ht
    rw [ht, List.cons_prefix_cons] at h
    exact absurd h.1.symm hc
  · rfl

theorem isPrefix_withoutClosingMarks (s : List Char) : withoutClosingMarks s <+: s :=
  List.rdropWhile_prefix isClosingMark s

/-- The pieces of a text are all of it. -/
theorem chars_piecesFrom (afterWord : Bool) (s : List Char) :
    (piecesFrom afterWord s).flatMap Piece.chars = s := by
  fun_induction piecesFrom afterWord s with
  | case1 => rfl
  | case2 afterWord c rest _ ih =>
    rw [List.flatMap_cons, ih]
    rfl
  | case3 afterWord c rest n _ found url ih =>
    have hurl : url ++ found.drop url.length = found :=
      List.prefix_iff_eq_append.mp (isPrefix_withoutClosingMarks found)
    have hplain (s : List Char) : (s.map Piece.plain).flatMap Piece.chars = s := by
      simp [List.flatMap_map, Piece.chars]
    rw [List.cons_append, List.flatMap_cons, List.flatMap_append, ih, hplain, Piece.chars,
      ← List.append_assoc, hurl]
    simp [found]

theorem ne_hash_of_addressLength? {c : Char} {s : List Char} {n : Nat}
    (h : addressLength? (c :: s) = some n) : c ≠ '#' := by
  rintro rfl
  have hn : afterAnyLabel? schemes ('#' :: s) = none := rfl
  rw [addressLength?, hn] at h
  cases h

/-- An address does not begin like a link within the page. -/
theorem fragment?_of_mem_piecesFrom {afterWord : Bool} {s url : List Char}
    (h : .address url ∈ piecesFrom afterWord s) : fragment? (String.ofList url) = none := by
  fun_induction piecesFrom afterWord s with
  | case1 => cases h
  | case2 afterWord c rest _ ih =>
    rcases List.mem_cons.mp h with h | h
    · cases h
    · exact ih h
  | case3 afterWord c rest n hn found url' ih =>
    rcases List.mem_append.mp h with h | h
    · rcases List.mem_cons.mp h with h | h
      · have hurl : url = url' := Piece.address.inj h
        have ha : addressLength? (c :: rest) = some n := by
          split at hn
          · cases hn
          · exact hn
        have hp : (String.ofList url).toList <+: c :: rest.take (n - 1) := by
          rw [String.toList_ofList, hurl]
          exact isPrefix_withoutClosingMarks found
        exact fragment?_of_isPrefix_cons hp (ne_hash_of_addressLength? ha)
      · obtain ⟨d, _, hd⟩ := List.mem_map.mp h
        cases hd
    · exact ih h

theorem fits_link (target label : String) : (link target label).Fits false := by
  simp [link, Node.Fits, AllFit, ownTags]

theorem Piece.fits_node (p : Piece) : p.node.Fits false := by
  cases p with
  | plain c => trivial
  | address url => exact fits_link _ _

theorem allFit_linkedText (s : String) : AllFit false (linkedText s) := by
  rw [allFit_iff]
  intro node hn
  obtain ⟨p, _, rfl⟩ := List.mem_map.mp hn
  exact p.fits_node

/-- Running text is shown as it is. -/
@[simp] theorem plainAll_linkedText (s : String) : plainAll (linkedText s) = s.toList := by
  have hp (ps : List Piece) : plainAll (ps.map Piece.node) = ps.flatMap Piece.chars := by
    induction ps with
    | nil => rfl
    | cons p ps ih =>
      have hn : p.node.plain = p.chars := by
        cases p <;> simp [Piece.node, link, Node.plain, plainAll, Piece.chars]
      rw [List.map_cons, plainAll, hn, ih, List.flatMap_cons]
  rw [linkedText, hp]
  exact chars_piecesFrom false s.toList

/-- The elements of running text are links out of the page. -/
theorem leadsOut_linkedText {s : String} {e : Element} (h : e ∈ elementsAll (linkedText s)) :
    e.LeadsOut := by
  rw [linkedText, elementsAll_map] at h
  obtain ⟨p, hp, he⟩ := List.mem_flatMap.mp h
  cases p with
  | plain c => cases he
  | address url =>
    refine ⟨String.ofList url, ?_, fragment?_of_mem_piecesFrom hp⟩
    simp only [Piece.node, link, Node.elements, elementsAll, List.append_nil,
      List.mem_singleton] at he
    rw [he]

@[simp] theorem ids_linkedText (s : String) : ids (elementsAll (linkedText s)) = [] :=
  ids_of_leadsOut fun _ => leadsOut_linkedText

@[simp] theorem fragments_linkedText (s : String) :
    fragments (elementsAll (linkedText s)) = [] :=
  fragments_of_leadsOut fun _ => leadsOut_linkedText

@[simp] theorem ofClass_linkedText (className s : String) :
    ofClass className (elementsAll (linkedText s)) = [] :=
  ofClass_of_leadsOut (fun _ => leadsOut_linkedText) className

end Minutes.Html
