import Mathlib
import Minutes.Proofs.Html.Mentions
import Minutes.Proofs.Transcript.Quotation

/-!
What a capital at the head of a comment does to the links in it. A search finds the same addresses
whatever case their letters have, so that all links stay but one: that of an address which begins
with the first letter of a comment gets a capital, unless the comment opens with it.
-/
namespace Minutes.Html
open Text

theorem toNat_lt_of_isAlpha {c : Char} (h : c.isAlpha = true) : c.toNat < 128 := by
  simp only [Char.isAlpha, Char.isUpper, Char.isLower, Bool.or_eq_true, Bool.and_eq_true,
    decide_eq_true_eq, ge_iff_le, UInt32.le_iff_toNat_le] at h
  change (65 ≤ c.toNat ∧ c.toNat ≤ 90) ∨ (97 ≤ c.toNat ∧ c.toNat ≤ 122) at h
  omega

theorem isWordChar_of_isAlpha {c : Char} (h : c.isAlpha = true) : isWordChar c = true := by
  rw [isWordChar, if_pos (toNat_lt_of_isAlpha h)]
  simp [isAsciiWordChar, Char.isAlphanum, h]

theorem isClosingMark_of_isAlpha {c : Char} (h : c.isAlpha = true) : isClosingMark c = false := by
  have hmarks : ∀ mark ∈ ".,;:!?)'".toList, mark.isAlpha = false := by simp
  rw [isClosingMark, List.contains_eq_mem, decide_eq_false_iff_not]
  intro hmark
  rw [hmarks c hmark] at h
  cases h

theorem isAlpha_toUpper {c : Char} (h : c.isAlpha = true) : c.toUpper.isAlpha = true := by
  rw [Char.isAlpha_toUpper_eq_isAlpha, h]

theorem toLower_of_not_isAlpha {c : Char} (h : c.isAlpha = false) : c.toLower = c := by
  refine Char.toLower_eq_of_not_isUpper fun hupper => ?_
  rw [Char.isAlpha, hupper] at h
  cases h

theorem foldsTo_of_isAlpha {l c : Char} (h : c.isAlpha = true) :
    foldsTo l c = true ↔ c.toLower = l := by
  rw [foldsTo_iff, or_iff_left]
  rintro (⟨-, rfl⟩ | ⟨-, rfl⟩)
  · exact absurd h (by decide)
  · exact absurd h (by decide)

/-- A label may be read with a letter or with its capital. -/
theorem foldsTo_toUpper (l : Char) {c : Char} (h : c.isAlpha = true) :
    foldsTo l c.toUpper = foldsTo l c := by
  rw [Bool.eq_iff_iff, foldsTo_of_isAlpha h, foldsTo_of_isAlpha (isAlpha_toUpper h),
    Char.toLower_toUpper_eq_toLower]

theorem addressLength?_toUpper {c : Char} (h : c.isAlpha = true) (s : List Char) :
    addressLength? (c.toUpper :: s) = addressLength? (c :: s) := by
  have hlabels : afterAnyLabel? schemes (c.toUpper :: s) = afterAnyLabel? schemes (c :: s) := by
    simp [afterAnyLabel?, schemes, List.findSome?_cons, afterLabel?, afterLabelChars?,
      foldsTo_toUpper _ h]
  rw [addressLength?, addressLength?, hlabels, List.length_cons, List.length_cons]

/-- An address begins with a letter. -/
theorem isAlpha_of_addressLength? {c : Char} {s : List Char} {n : Nat}
    (h : addressLength? (c :: s) = some n) : c.isAlpha = true := by
  by_contra hc
  have hc := Bool.eq_false_iff.mpr hc
  have hfolds : ∀ l : Char, l.isAlpha = true → l ≠ 's' → l ≠ 'k' → foldsTo l c = false := by
    intro l hl hs hk
    refine Bool.eq_false_iff.mpr fun hfolds => ?_
    rcases foldsTo_iff.mp hfolds with hlower | ⟨hl', -⟩ | ⟨hl', -⟩
    · rw [toLower_of_not_isAlpha hc] at hlower
      rw [hlower, hl] at hc
      cases hc
    · exact hs hl'
    · exact hk hl'
  have hnone : afterAnyLabel? schemes (c :: s) = none := by
    have hh := hfolds 'h' (by decide) (by decide) (by decide)
    have hf := hfolds 'f' (by decide) (by decide) (by decide)
    simp [afterAnyLabel?, schemes, afterLabel?, afterLabelChars?, hh, hf]
  rw [addressLength?, hnone] at h
  cases h

theorem withoutClosingMarks_cons {c : Char} (h : isClosingMark c = false) (s : List Char) :
    withoutClosingMarks (c :: s) = c :: withoutClosingMarks s := by
  unfold withoutClosingMarks
  rw [List.reverse_cons, List.dropWhile_append]
  split
  · rename_i hempty
    simp [h, List.isEmpty_iff.mp hempty]
  · simp

/-- The addresses that a text is linked to, piece by piece. -/
def Piece.url? : Piece → Option (List Char)
  | .plain _ => none
  | .address url => some url

def urls (ps : List Piece) : List (List Char) := ps.filterMap Piece.url?

/-- Where the links of a page lead. -/
def targets? (page : String) : Option (List String) :=
  (elements? page).map fun es => es.flatMap (·.values "href")

theorem targets?_linkedText (s : String) :
    targets? (printAll (linkedText s)) = some ((urls (pieces s.toList)).map String.ofList) := by
  rw [targets?, elements?_printAll (allFit_linkedText s), Option.map_some, linkedText,
    elementsAll_map, urls]
  congr 1
  induction pieces s.toList with
  | nil => rfl
  | cons p ps ih =>
    rw [List.flatMap_cons, List.flatMap_append, ih]
    cases p with
    | plain c => rfl
    | address url => simp [Piece.node, link, Node.elements, elementsAll, Element.values, Piece.url?]

@[simp] theorem urls_plain_cons (c : Char) (ps : List Piece) :
    urls (.plain c :: ps) = urls ps := rfl

@[simp] theorem urls_address_cons (url : List Char) (ps : List Piece) :
    urls (.address url :: ps) = url :: urls ps := rfl

@[simp] theorem urls_plain_append (s : List Char) (ps : List Piece) :
    urls (s.map .plain ++ ps) = urls ps := by
  simp [urls, Piece.url?, List.filterMap_append]

/-- A search passes over characters that are no letters. -/
theorem piecesFrom_append {before : List Char} (h : ∀ d ∈ before, d.isAlpha = false)
    (passed s : List Char) :
    piecesFrom (passed.getLast?.any isWordChar) (before ++ s) =
      before.map .plain ++ piecesFrom ((passed ++ before).getLast?.any isWordChar) s := by
  induction before generalizing passed with
  | nil => simp
  | cons d before ih =>
    obtain ⟨hd, hbefore⟩ := List.forall_mem_cons.mp h
    have hnone : addressLength? (d :: (before ++ s)) = none := by
      rw [Option.eq_none_iff_forall_ne_some]
      intro n hn
      rw [isAlpha_of_addressLength? hn] at hd
      cases hd
    have hlast : isWordChar d = (passed ++ [d]).getLast?.any isWordChar := by simp
    rw [List.cons_append, piecesFrom]
    simp only [hnone, ite_self]
    rw [hlast, ih hbefore (passed ++ [d])]
    simp

section firstLetter

variable {afterWord : Bool} {c : Char} {s : List Char}

/-- A letter at which no address begins is passed over. -/
theorem urls_of_letter (hc : c.isAlpha = true)
    (h : (if afterWord then none else addressLength? (c :: s)) = none) :
    urls (piecesFrom afterWord (c :: s)) = urls (piecesFrom true s) := by
  rw [piecesFrom]
  simp only [h, isWordChar_of_isAlpha hc, urls_plain_cons]

/-- An address that begins with a letter is found up to its end. -/
theorem urls_of_address (hc : c.isAlpha = true) {n : Nat}
    (h : (if afterWord then none else addressLength? (c :: s)) = some n) :
    urls (piecesFrom afterWord (c :: s)) =
      (c :: withoutClosingMarks (s.take (n - 1))) ::
        urls (piecesFrom ((s.take (n - 1)).getLast?.all isWordChar) (s.drop (n - 1))) := by
  have hlast : (c :: s.take (n - 1)).getLast?.any isWordChar =
      (s.take (n - 1)).getLast?.all isWordChar := by
    rw [List.getLast?_cons]
    cases (s.take (n - 1)).getLast? <;> simp [isWordChar_of_isAlpha hc]
  rw [piecesFrom]
  simp only [h, hlast, withoutClosingMarks_cons (isClosingMark_of_isAlpha hc)]
  rw [List.cons_append, urls_address_cons, urls_plain_append]

end firstLetter

/-- An address begins with the first letter of a text. -/
structure LinksFirstLetter (s before : List Char) (c : Char) (after : List Char) : Prop where
  parts : s = before ++ c :: after
  first : ∀ d ∈ before, d.isAlpha = false
  letter : c.isAlpha = true
  address : ∃ address rest, c :: after = address ++ rest ∧ IsAddress before address rest

theorem urls_pieces {before : List Char} (h : ∀ d ∈ before, d.isAlpha = false) (s : List Char) :
    urls (pieces (before ++ s)) = urls (piecesFrom (before.getLast?.any isWordChar) s) := by
  have hpieces := piecesFrom_append h [] s
  rw [List.nil_append] at hpieces
  rw [pieces]
  exact (congrArg urls hpieces).trans (urls_plain_append _ _)

theorem found?_toUpper (afterWord : Bool) {c : Char} (hc : c.isAlpha = true) (s : List Char) :
    (if afterWord then none else addressLength? (c.toUpper :: s)) =
      if afterWord then none else addressLength? (c :: s) := by
  rw [addressLength?_toUpper hc]

/-- A capital in the place of the first letter makes no difference if no address begins there. -/
theorem urls_pieces_toUpper {before after : List Char} {c : Char}
    (hb : ∀ d ∈ before, d.isAlpha = false) (hc : c.isAlpha = true)
    (h : ¬ LinksFirstLetter (before ++ c :: after) before c after) :
    urls (pieces (before ++ c.toUpper :: after)) = urls (pieces (before ++ c :: after)) := by
  have hnone : (if before.getLast?.any isWordChar then none else addressLength? (c :: after)) =
      none := by
    rw [Option.eq_none_iff_forall_ne_some]
    intro n hn
    obtain ⟨address, rest, hs, -, haddress⟩ := found?_eq_some_iff.mp hn
    exact h ⟨rfl, hb, hc, address, rest, hs, haddress⟩
  rw [urls_pieces hb, urls_pieces hb, urls_of_letter hc hnone,
    urls_of_letter (isAlpha_toUpper hc) ((found?_toUpper _ hc after).trans hnone)]

namespace LinksFirstLetter

variable {s before after : List Char} {c : Char}

/-- The address that begins with the first letter is the first link, and the only one that a capital
in the place of the letter changes. -/
theorem exists_urls (h : LinksFirstLetter s before c after) :
    ∃ url rest, urls (pieces s) = (c :: url) :: rest ∧
      urls (pieces (before ++ c.toUpper :: after)) = (c.toUpper :: url) :: rest := by
  obtain ⟨address, rest, hs, haddress⟩ := h.address
  have hn := found?_eq_some_iff.mpr ⟨address, rest, hs, rfl, haddress⟩
  rw [h.parts, urls_pieces h.first, urls_pieces h.first, urls_of_address h.letter hn,
    urls_of_address (isAlpha_toUpper h.letter) ((found?_toUpper _ h.letter after).trans hn)]
  exact ⟨_, _, rfl, rfl⟩

theorem raiseFirstLetter_eq (h : LinksFirstLetter s before c after) :
    raiseFirstLetter s = before ++ c.toUpper :: after := by
  obtain ⟨rfl, hb, hc, -⟩ := h
  induction before with
  | nil => simp [raiseFirstLetter, hc]
  | cons d before ih =>
    obtain ⟨hd, hb⟩ := List.forall_mem_cons.mp hb
    rw [List.cons_append, raiseFirstLetter, if_neg (by simp [hd]), ih hb]
    rfl

/-- What opens with an address begins with a letter. -/
theorem opensWithAddress_eq_false (h : LinksFirstLetter s before c after) (hne : before ≠ []) :
    opensWithAddress s = false := by
  obtain ⟨d, before, rfl⟩ := List.exists_cons_of_ne_nil hne
  have hd := h.first d List.mem_cons_self
  have hlower := toLower_of_not_isAlpha hd
  have hh : d ≠ 'h' := by
    rintro rfl
    cases hd
  rw [h.parts, opensWithAddress]
  simp [List.isPrefixOf, hlower, hh.symm]

end LinksFirstLetter

/-- A sentence has the links of the text that it is made of, unless an address begins with the first
letter. -/
theorem urls_sentence {s : List Char} (h : opensWithAddress s = true ∨
    ∀ before c after, ¬ LinksFirstLetter s before c after) :
    urls (pieces (sentence s)) = urls (pieces s) := by
  unfold sentence
  split
  · rfl
  · rename_i hopens
    rcases raiseFirstLetter_cases s with ⟨-, hr⟩ | ⟨before, c, after, rfl, hb, hc, hr⟩
    · rw [hr]
    · rw [hr]
      exact urls_pieces_toUpper hb hc (h.resolve_left hopens before c after)

end Minutes.Html

namespace Minutes
open Html

/-- The links of a comment are those of the remark that it is made of, if that opens with a web
address or no link begins with its first letter. The link that does may differ in this letter,
which is made a capital if something else stands before it. -/
theorem Comment.links_kept (id : Nat) (speaker text : String) (assist : Option String) :
    let remark := trim text
    let comment := Comment.of id speaker text assist
    ∃ links shown, targets? (printAll (linkedText remark)) = some links ∧
      targets? (printAll (linkedText comment.text)) = some shown ∧
      ((opensWithAddress remark.toList = true ∨
        ∀ before c after, ¬ LinksFirstLetter remark.toList before c after) → shown = links) ∧
      ∀ before c after, LinksFirstLetter remark.toList before c after →
        ∃ target rest, links = String.ofList (c :: target) :: rest ∧
          (shown = links ∨ shown = String.ofList (c.toUpper :: target) :: rest) ∧
          (before ≠ [] → shown = String.ofList (c.toUpper :: target) :: rest) := by
  intro remark comment
  have htext : comment.text.toList = sentence remark.toList := by
    simp [comment, remark, Comment.of]
  refine ⟨_, _, targets?_linkedText _, targets?_linkedText _, fun h => ?_, ?_⟩
  · rw [htext, urls_sentence h]
  · intro before c after h
    obtain ⟨url, rest, hlinks, hraised⟩ := h.exists_urls
    rw [htext, hlinks]
    refine ⟨url, rest.map String.ofList, rfl, ?_, fun hne => ?_⟩
    · rw [sentence]
      split
      · exact .inl (congrArg (List.map String.ofList) hlinks)
      · rw [h.raiseFirstLetter_eq, hraised]
        exact .inr rfl
    · rw [sentence, if_neg (by simp [h.opensWithAddress_eq_false hne]), h.raiseFirstLetter_eq,
        hraised]
      rfl

theorem Comment.links_kept_opening_and_vote :
    let opening := " HTTPS://example.org/Spec: out now"
    let vote := "+1 http://a.org"
    (opensWithAddress (trim opening).toList = true ∧
      LinksFirstLetter (trim vote).toList "+1 ".toList 'h' "ttp://a.org".toList ∧
      "+1 ".toList ≠ []) ∧
    targets? (printAll (linkedText (Comment.of 1 "Ann Lee" opening none).text)) =
      targets? (printAll (linkedText (trim opening))) ∧
    ∃ target rest,
      targets? (printAll (linkedText (trim vote))) = some (String.ofList ('h' :: target) :: rest) ∧
      targets? (printAll (linkedText (Comment.of 2 "Ann Lee" vote none).text)) =
        some (String.ofList ('H' :: target) :: rest) := by
  intro opening vote
  have hopens : opensWithAddress (trim opening).toList = true := by decide +kernel
  have hfound : (if "+1 ".toList.getLast?.any Text.isWordChar then none
      else addressLength? ('h' :: "ttp://a.org".toList)) = some 12 := by decide +kernel
  obtain ⟨address, after, hs, -, haddress⟩ := found?_eq_some_iff.mp hfound
  have hvote : LinksFirstLetter (trim vote).toList "+1 ".toList 'h' "ttp://a.org".toList :=
    ⟨by decide +kernel, by simp, rfl, address, after, hs, haddress⟩
  obtain ⟨links, shown, hlinks, hshown, hsame, -⟩ := Comment.links_kept 1 "Ann Lee" opening none
  obtain ⟨links', shown', hlinks', hshown', -, hraised⟩ := Comment.links_kept 2 "Ann Lee" vote none
  obtain ⟨target, rest, hfirst, -, hupper⟩ := hraised _ _ _ hvote
  refine ⟨⟨hopens, hvote, by decide⟩, ?_, target, rest, ?_, ?_⟩
  · rw [hlinks, hshown, hsame (.inl hopens)]
  · rw [hlinks', hfirst]
  · rw [hshown', hupper (by decide)]
    rfl

/-- A link after a bracket begins with a capital once the remark is a comment. -/
theorem Comment.links_raised_in_brackets :
    targets? (printAll (linkedText (trim "(http://a.org)"))) = some ["http://a.org"] ∧
    targets? (printAll (linkedText (Comment.of 1 "Ann Lee" "(http://a.org)" none).text)) =
      some ["Http://a.org"] := by
  decide +kernel

end Minutes
