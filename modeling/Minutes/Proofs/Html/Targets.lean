import Minutes.Proofs.Html.Mentions

/-!
Where the links of running text lead. A link has the scheme of its address, but the long s passes
for an s in it, and if only marks that close a sentence follow the scheme, nothing is left after it.
-/
namespace Minutes.Html
open Text
open scoped List

/-- A target with a scheme, in ASCII letters of either case, and at least one more character. -/
def NamesPlace (target : List Char) : Prop :=
  ∃ label ∈ schemes, label.toList <+: target.map Char.toLower ∧ label.toList.length < target.length

instance (target : List Char) : Decidable (NamesPlace target) := by
  unfold NamesPlace
  infer_instance

theorem Mentioned.isAddress {before tail : List Char} {ms : List Mention}
    (h : Mentioned before ms tail) {m : Mention} (hm : m ∈ ms) :
    ∃ before' after, IsAddress before' (m.link ++ m.marks) after := by
  induction ms generalizing before with
  | nil => cases hm
  | cons m' ms ih =>
    obtain ⟨-, haddress, hms⟩ := h
    rcases List.mem_cons.mp hm with rfl | hm
    · exact ⟨_, _, haddress⟩
    · exact ih hms hm

/-- A scheme ends with a slash, and so not with a mark that closes a sentence. -/
theorem IsScheme.getLast? {scheme : List Char} (h : IsScheme scheme) :
    ∃ c, scheme.getLast? = some c ∧ isClosingMark c = false := by
  obtain ⟨label, hlabel, hscheme⟩ := h
  have hslash : ∀ label ∈ schemes, label.toList.getLast? = some '/' := by decide
  have hmarks : ∀ c ∈ ".,;:!?)'".toList, foldsTo '/' c = false := by simp [foldsTo]
  obtain ⟨c, hlast, hc⟩ := hscheme.getLast? (hslash label hlabel)
  refine ⟨c, hlast, Bool.eq_false_iff.mpr fun hmark => ?_⟩
  rw [hmarks c (by simpa [isClosingMark] using hmark)] at hc
  cases hc

/-- The marks that a link leaves out are none of its scheme. -/
theorem Mention.exists_link_eq {m : Mention} {before after : List Char}
    (h : IsAddress before (m.link ++ m.marks) after) :
    ∃ scheme rest, m.link = scheme ++ rest ∧ IsScheme scheme ∧ rest ++ m.marks ≠ [] := by
  obtain ⟨scheme, body, hparts, hscheme, hbody, -⟩ := h.parts
  rcases List.append_eq_append_iff.mp hparts with ⟨left, hleft, hmarks⟩ | ⟨rest, hrest, hbody'⟩
  · rcases eq_or_ne left [] with rfl | hne
    · rw [List.append_nil] at hleft
      exact ⟨scheme, [], by rw [hleft, List.append_nil], hscheme, by rwa [hmarks]⟩
    · obtain ⟨c, hlast, hc⟩ := hscheme.getLast?
      rw [hleft, List.getLast?_append, List.getLast?_eq_some_getLast hne, Option.some_or,
        Option.some_inj] at hlast
      have hmark := m.marks_close c (hmarks ▸ List.mem_append_left body
        (hlast ▸ List.getLast_mem hne))
      rw [hc] at hmark
      cases hmark
  · exact ⟨scheme, rest, hrest, hscheme, hbody' ▸ hbody⟩

theorem namesPlace_append_iff {scheme : List Char} (h : IsScheme scheme) (rest : List Char) :
    NamesPlace (scheme ++ rest) ↔ 'ſ' ∉ scheme ∧ rest ≠ [] := by
  obtain ⟨label, hlabel, hscheme⟩ := h
  constructor
  · rintro ⟨label', hlabel', hprefix, hlength⟩
    rw [List.prefix_iff_eq_take, ← List.map_take] at hprefix
    obtain ⟨rfl, hhead, -⟩ := apart_schemes.eq_of_folds hlabel' hlabel
      (folds_of_map_toLower hprefix.symm) hscheme (List.take_append_drop _ _)
    rw [hhead] at hprefix
    constructor
    · intro hlong
      have hmem : 'ſ'.toLower ∈ label'.toList := hprefix ▸ List.mem_map_of_mem hlong
      exact absurd (apart_schemes.ascii label' hlabel _ hmem) (by decide)
    · rintro rfl
      rw [List.append_nil, hscheme.length_eq] at hlength
      exact lt_irrefl _ hlength
  · rintro ⟨hlong, hrest⟩
    have hk : ∀ label ∈ schemes, 'k' ∉ label.toList := by decide
    refine ⟨label, hlabel, ?_, ?_⟩
    · rw [List.map_append, hscheme.map_toLower (hk label hlabel) hlong]
      exact List.prefix_append _ _
    · rw [hscheme.length_eq, List.length_append]
      exact Nat.lt_add_of_pos_right (List.length_pos_iff.mpr hrest)

/-- Every link of a text has the scheme of its address, and it names a place unless that is written
with a long s, or nothing but marks that close a sentence follow it in the text. -/
theorem link_names_place_iff (s : String) :
    ∃ ms tail, ms.flatMap Mention.chars ++ tail = s.toList ∧ Mentioned [] ms tail ∧
      elements? (printAll (linkedText s)) = some (ms.map Mention.element) ∧
      ∀ m ∈ ms, ∃ scheme rest, m.link = scheme ++ rest ∧ IsScheme scheme ∧
        rest ++ m.marks ≠ [] ∧ (NamesPlace m.link ↔ 'ſ' ∉ scheme ∧ rest ≠ []) := by
  obtain ⟨ms, tail, hchars, hms, -, helements⟩ := exists_mentioned_linkedText s
  refine ⟨ms, tail, hchars, hms, helements, fun m hm => ?_⟩
  obtain ⟨before, after, haddress⟩ := hms.isAddress hm
  obtain ⟨scheme, rest, hlink, hscheme, hrest⟩ := m.exists_link_eq haddress
  refine ⟨scheme, rest, hlink, hscheme, hrest, ?_⟩
  rw [hlink]
  exact namesPlace_append_iff hscheme rest

theorem link_names_place_iff_capitals :
    ∃ scheme rest, "HTTPS://example.org/a".toList = scheme ++ rest ∧ IsScheme scheme ∧
      'ſ' ∉ scheme ∧ rest ≠ [] := by
  obtain ⟨ms, tail, -, -, helements, hms⟩ := link_names_place_iff "(see HTTPS://example.org/a)."
  have hpage : elements? (printAll (linkedText "(see HTTPS://example.org/a).")) =
      some [⟨"a", [("href", "HTTPS://example.org/a")], "HTTPS://example.org/a"⟩] := by
    decide +kernel
  obtain ⟨m, rfl, helement⟩ := List.map_eq_singleton_iff.mp
    (Option.some.inj (helements.symm.trans hpage))
  have htext : String.ofList m.link = "HTTPS://example.org/a" := congrArg Element.text helement
  have hlink : m.link = "HTTPS://example.org/a".toList := by
    rw [← htext, String.toList_ofList]
  obtain ⟨scheme, rest, hparts, hscheme, -, hplace⟩ := hms m List.mem_cons_self
  rw [hlink] at hparts hplace
  exact ⟨scheme, rest, hparts, hscheme, hplace.mp (by decide)⟩

/-- A scheme with nothing but marks after it becomes a link to no place, and so does one with a
long s. -/
theorem link_names_no_place :
    elements? (printAll (linkedText "http://... httpſ://example.org")) =
      some [⟨"a", [("href", "http://")], "http://"⟩,
        ⟨"a", [("href", "httpſ://example.org")], "httpſ://example.org"⟩] ∧
    ¬ NamesPlace "http://".toList ∧ ¬ NamesPlace "httpſ://example.org".toList :=
  ⟨by decide +kernel, by decide, by decide⟩

end Minutes.Html
