import Minutes.Proofs.Html.Links
import Minutes.Proofs.Text.Blank
import Minutes.Proofs.Text.Label

/-!
The web addresses that running text mentions. They are searched from the left: each is the first
that begins after the one before it has ended, and all of the text stays as it was, with a link in
the place of each address.
-/
namespace Minutes.Html
open Text

def IsScheme (s : List Char) : Prop := ∃ label ∈ schemes, Folds label.toList s

theorem apart_schemes : Apart schemes := ⟨by decide, by simp [schemes]⟩

/-- An address with what stands before and after it. It begins where a word does, with a scheme
and at least one more character, and goes on as far as it can. -/
structure IsAddress (before address after : List Char) : Prop where
  boundary : before.getLast?.any isWordChar = false
  parts : ∃ scheme body, address = scheme ++ body ∧ IsScheme scheme ∧ body ≠ [] ∧
    ∀ c ∈ body, isAddressChar c = true
  ends : after.head?.all (!isAddressChar ·) = true

/-- No address begins in a part of a text. -/
def NoAddressIn (before part after : List Char) : Prop :=
  ∀ skipped left address rest, part = skipped ++ left → left ≠ [] → left ++ after = address ++ rest →
    ¬ IsAddress (before ++ skipped) address rest

/-- A mention of an address in a text, with what stands between it and the one before. The marks
that close a sentence at the end of an address do not belong to the link. -/
structure Mention where
  gap : List Char
  link : List Char
  marks : List Char
  marks_close : ∀ c ∈ marks, isClosingMark c = true
  link_open : link.getLast?.any isClosingMark = false

namespace Mention

def chars (m : Mention) : List Char := m.gap ++ m.link ++ m.marks

def pieces (m : Mention) : List Piece :=
  m.gap.map .plain ++ .address m.link :: m.marks.map .plain

/-- The link of a mention as a page shows it. -/
def element (m : Mention) : Element :=
  ⟨"a", [("href", String.ofList m.link)], String.ofList m.link⟩

/-- A mention as it is written in a page. -/
def written (m : Mention) : String :=
  escape (String.ofList m.gap) ++ "<a href=\"" ++ escape (String.ofList m.link) ++ "\">" ++
    escape (String.ofList m.link) ++ "</a>" ++ escape (String.ofList m.marks)

end Mention

/-- The mentions that a search finds, one after another, in the text before `tail`. -/
def Mentioned (before : List Char) : List Mention → List Char → Prop
  | [], tail => NoAddressIn before tail []
  | m :: ms, tail =>
    NoAddressIn before m.gap (m.link ++ m.marks ++ (ms.flatMap Mention.chars ++ tail)) ∧
    IsAddress (before ++ m.gap) (m.link ++ m.marks) (ms.flatMap Mention.chars ++ tail) ∧
    Mentioned (before ++ m.chars) ms tail

theorem IsAddress.ne_nil {before address after : List Char} (h : IsAddress before address after) :
    address ≠ [] := by
  obtain ⟨scheme, body, rfl, -, hbody, -⟩ := h.parts
  exact List.append_ne_nil_of_right_ne_nil scheme hbody

theorem addressLength?_eq_some_iff {s : List Char} {n : Nat} :
    addressLength? s = some n ↔
      ∃ address after, s = address ++ after ∧ address.length = n ∧
        (∃ scheme body, address = scheme ++ body ∧ IsScheme scheme ∧ body ≠ [] ∧
          ∀ c ∈ body, isAddressChar c = true) ∧
        after.head?.all (!isAddressChar ·) = true := by
  constructor
  · intro h
    unfold addressLength? at h
    split at h
    · rename_i rest hrest
      obtain ⟨label, hlabel, scheme, rfl, hscheme⟩ :=
        apart_schemes.afterAnyLabel?_eq_some_iff.mp hrest
      simp only at h
      split_ifs at h with hbody
      obtain rfl := Option.some.inj h
      obtain ⟨hrest', hchars, hends⟩ := takeWhile_dropWhile_iff (p := isAddressChar).mp ⟨rfl, rfl⟩
      refine ⟨scheme ++ rest.takeWhile isAddressChar, rest.dropWhile isAddressChar, ?_, ?_,
        ⟨scheme, _, rfl, ⟨label, hlabel, hscheme⟩, by simpa using hbody, hchars⟩, hends⟩
      · rw [List.append_assoc, ← hrest']
      · simp
    · cases h
  · rintro ⟨address, after, rfl, rfl, ⟨scheme, body, rfl, ⟨label, hlabel, hscheme⟩, hne, hbody⟩,
      hafter⟩
    have hrest : afterAnyLabel? schemes (scheme ++ body ++ after) = some (body ++ after) :=
      apart_schemes.afterAnyLabel?_eq_some_iff.mpr
        ⟨label, hlabel, scheme, List.append_assoc .., hscheme⟩
    obtain ⟨htake, -⟩ := takeWhile_dropWhile_iff (p := isAddressChar).mpr ⟨rfl, hbody, hafter⟩
    unfold addressLength?
    rw [hrest]
    simp only
    rw [htake, if_neg (by simpa using hne)]
    simp

/-- Where a search looks for an address, it finds the one that stands there. -/
theorem found?_eq_some_iff {before s : List Char} {n : Nat} :
    (if before.getLast?.any isWordChar then none else addressLength? s) = some n ↔
      ∃ address after, s = address ++ after ∧ address.length = n ∧
        IsAddress before address after := by
  constructor
  · intro h
    split_ifs at h with hbefore
    obtain ⟨address, after, hs, hn, hparts, hends⟩ := addressLength?_eq_some_iff.mp h
    exact ⟨address, after, hs, hn, by simpa using hbefore, hparts, hends⟩
  · rintro ⟨address, after, hs, hn, haddress⟩
    rw [haddress.boundary]
    exact addressLength?_eq_some_iff.mpr ⟨address, after, hs, hn, haddress.parts, haddress.ends⟩

theorem noAddressIn_nil (before after : List Char) : NoAddressIn before [] after := by
  intro skipped left address rest hpart hleft
  exact absurd (List.append_eq_nil_iff.mp hpart.symm).2 hleft

theorem NoAddressIn.cons {before part after : List Char} {c : Char}
    (hc : ∀ address rest, c :: (part ++ after) = address ++ rest → ¬ IsAddress before address rest)
    (h : NoAddressIn (before ++ [c]) part after) : NoAddressIn before (c :: part) after := by
  intro skipped left address rest hpart hleft hrest
  cases skipped with
  | nil =>
    rw [List.nil_append] at hpart
    subst hpart
    rw [List.append_nil]
    exact hc address rest hrest
  | cons d skipped =>
    obtain ⟨rfl, rfl⟩ := List.cons.inj hpart
    have hnext := h skipped left address rest rfl hleft hrest
    rwa [List.append_assoc, List.singleton_append] at hnext

/-- A character at which no address begins joins what stands before the next mention. -/
theorem Mentioned.skip {before tail : List Char} {c : Char} {ms : List Mention}
    (hc : ∀ address rest, c :: (ms.flatMap Mention.chars ++ tail) = address ++ rest →
      ¬ IsAddress before address rest)
    (h : Mentioned (before ++ [c]) ms tail) :
    ∃ ms' tail', ms'.flatMap Mention.chars ++ tail' = c :: (ms.flatMap Mention.chars ++ tail) ∧
      Mentioned before ms' tail' ∧
      ms'.flatMap Mention.pieces ++ tail'.map .plain =
        .plain c :: (ms.flatMap Mention.pieces ++ tail.map .plain) := by
  cases ms with
  | nil =>
    refine ⟨[], c :: tail, rfl, NoAddressIn.cons ?_ h, rfl⟩
    rwa [List.append_nil]
  | cons m ms =>
    obtain ⟨hgap, haddress, hms⟩ := h
    refine ⟨{ m with gap := c :: m.gap } :: ms, tail, rfl, ⟨hgap.cons ?_, ?_, ?_⟩, rfl⟩
    · simpa [Mention.chars] using hc
    · simpa using haddress
    · simpa [Mention.chars] using hms

/-- The mention of an address at which a search stands. -/
def Mention.ofAddress (address : List Char) : Mention where
  gap := []
  link := withoutClosingMarks address
  marks := address.rtakeWhile isClosingMark
  marks_close := fun _ hc => List.mem_rtakeWhile_imp hc
  link_open := by
    rcases eq_or_ne (withoutClosingMarks address) [] with h | h
    · simp [h]
    · have hlast := List.rdropWhile_last_not isClosingMark address h
      rw [List.getLast?_eq_some_getLast h]
      exact Bool.eq_false_iff.mpr hlast

theorem link_append_marks_ofAddress (address : List Char) :
    (Mention.ofAddress address).link ++ (Mention.ofAddress address).marks = address :=
  List.rdropWhile_append_rtakeWhile

theorem chars_ofAddress (address : List Char) : (Mention.ofAddress address).chars = address :=
  link_append_marks_ofAddress address

theorem marks_ofAddress (address : List Char) :
    (Mention.ofAddress address).marks = address.drop (withoutClosingMarks address).length := by
  conv_rhs => enter [2]; rw [← link_append_marks_ofAddress address]
  exact List.drop_left.symm

/-- The pieces of a text are those of the mentions that a search finds in it. -/
theorem exists_mentioned (afterWord : Bool) (s : List Char) :
    ∀ before : List Char, before.getLast?.any isWordChar = afterWord →
      ∃ ms tail, ms.flatMap Mention.chars ++ tail = s ∧ Mentioned before ms tail ∧
        ms.flatMap Mention.pieces ++ tail.map .plain = piecesFrom afterWord s := by
  fun_induction piecesFrom afterWord s with
  | case1 => exact fun before _ => ⟨[], [], rfl, noAddressIn_nil before [], rfl⟩
  | case2 afterWord c rest hnone ih =>
    intro before hbefore
    obtain ⟨ms, tail, rfl, hms, hpieces⟩ := ih (before ++ [c]) (by simp)
    have hc : ∀ address after, c :: (ms.flatMap Mention.chars ++ tail) = address ++ after →
        ¬ IsAddress before address after := by
      intro address after hs haddress
      rw [dite_eq_ite, ← hbefore,
        found?_eq_some_iff.mpr ⟨address, after, hs, rfl, haddress⟩] at hnone
      cases hnone
    obtain ⟨ms', tail', hchars, hms', hpieces'⟩ := hms.skip hc
    exact ⟨ms', tail', hchars, hms', by rw [hpieces', hpieces]⟩
  | case3 afterWord c rest n hn found url ih =>
    intro before hbefore
    rw [dite_eq_ite, ← hbefore] at hn
    obtain ⟨address, after, hs, rfl, haddress⟩ := found?_eq_some_iff.mp hn
    obtain ⟨_, address, rfl⟩ := List.exists_cons_of_ne_nil haddress.ne_nil
    obtain ⟨rfl, hrest⟩ := List.cons.inj hs
    have hfound : found = c :: address := by simp [found, hrest]
    have hafter : rest.drop ((c :: address).length - 1) = after := by simp [hrest]
    have hlast : (before ++ found).getLast?.any isWordChar = found.getLast?.any isWordChar := by
      rw [List.getLast?_append, List.getLast?_eq_some_getLast (List.cons_ne_nil _ _), Option.some_or]
    obtain ⟨ms, tail, hchars, hms, hpieces⟩ := ih (before ++ found) hlast
    rw [hafter] at hchars hpieces ⊢
    refine ⟨.ofAddress found :: ms, tail, ?_, ⟨noAddressIn_nil _ _, ?_, ?_⟩, ?_⟩
    · rw [List.flatMap_cons, List.append_assoc, hchars, chars_ofAddress, hfound, hs]
    · rw [link_append_marks_ofAddress, hchars, hfound]
      exact (List.append_nil before).symm ▸ haddress
    · rwa [chars_ofAddress]
    · rw [List.flatMap_cons, Mention.pieces, marks_ofAddress, List.append_assoc, hpieces]
      rfl

/-- Whether a token is a tag of a link. -/
def Token.isLinkTag : Token → Bool
  | .opening tag => tag.name == "a"
  | .closing name => name == "a"
  | .char _ | .void _ => false

/-- A page without the tags of its links, with its references read. -/
def unlinked? (page : String) : Option String :=
  (tokens? page).map fun ts => decodedString ((ts.filter (!·.isLinkTag)).flatMap Token.written)

theorem filter_tokensAll_node (ps : List Piece) :
    (tokensAll (ps.map Piece.node)).filter (!·.isLinkTag) =
      ((ps.flatMap Piece.chars).flatMap escapeChar).map .char := by
  have hchars (s : List Char) : (s.map Token.char).filter (!·.isLinkTag) = s.map .char :=
    List.filter_eq_self.mpr (List.forall_mem_map.mpr fun _ _ => rfl)
  induction ps with
  | nil => rfl
  | cons p ps ih =>
    have hp : p.node.tokens.filter (!·.isLinkTag) = (p.chars.flatMap escapeChar).map .char := by
      cases p with
      | plain c => simp [Piece.node, Node.tokens, Piece.chars, hchars]
      | address url =>
        have htokens : (Piece.address url).node.tokens =
            .opening (escapedTag "a" [("href", String.ofList url)]) ::
              ((url.flatMap escapeChar).map .char ++ [.closing "a"]) := by
          simp [Piece.node, link, Node.tokens, tokensAll]
        rw [htokens, List.filter_cons_of_neg (by simp [Token.isLinkTag, escapedTag]),
          List.filter_append, hchars]
        simp [Token.isLinkTag, Piece.chars]
    rw [List.map_cons, tokensAll, List.filter_append, hp, ih, List.flatMap_cons,
      List.flatMap_append, List.map_append]

/-- Without its links, running text is read as it was. -/
theorem unlinked?_linkedText (s : String) : unlinked? (printAll (linkedText s)) = some s := by
  have hwritten (cs : List Char) : (cs.map Token.char).flatMap Token.written = cs := by
    simp [List.flatMap_map, Token.written]
  rw [unlinked?, tokens?_printAll (allFit_linkedText s), Option.map_some, linkedText,
    filter_tokensAll_node, hwritten, decodedString, decode_escape, pieces, chars_piecesFrom,
    String.ofList_toList]

theorem printAll_plain (s : List Char) :
    printAll ((s.map Piece.plain).map Piece.node) = escape (String.ofList s) := by
  induction s with
  | nil => rfl
  | cons c s ih =>
    rw [List.map_cons, List.map_cons, printAll, ih]
    apply String.toList_injective
    simp [Piece.node, Node.print]

theorem printAll_mention (m : Mention) : printAll (m.pieces.map Piece.node) = m.written := by
  have hlink : (Piece.address m.link).node.print =
      "<a href=\"" ++ escape (String.ofList m.link) ++ "\">" ++ escape (String.ofList m.link) ++
        "</a>" := by
    apply String.toList_injective
    simp [Piece.node, link, Node.print, printAll, printAttributes]
  rw [Mention.pieces, List.map_append, List.map_cons, printAll_append, printAll, printAll_plain,
    printAll_plain, hlink, Mention.written]
  simp only [String.append_assoc]

theorem printAll_mentions (ms : List Mention) (tail : List Char) :
    printAll ((ms.flatMap Mention.pieces ++ tail.map Piece.plain).map Piece.node) =
      String.join (ms.map Mention.written) ++ escape (String.ofList tail) := by
  rw [List.map_append, printAll_append, printAll_plain]
  congr 1
  induction ms with
  | nil => rfl
  | cons m ms ih =>
    rw [List.flatMap_cons, List.map_append, printAll_append, printAll_mention, ih, List.map_cons,
      String.join_cons]

theorem elementsAll_mentions (ms : List Mention) (tail : List Char) :
    elementsAll ((ms.flatMap Mention.pieces ++ tail.map Piece.plain).map Piece.node) =
      ms.map Mention.element := by
  have hplain (s : List Char) : (s.map Piece.plain).flatMap (fun p => p.node.elements) = [] := by
    simp [List.flatMap_map, Piece.node, Node.elements]
  have hmention (m : Mention) : m.pieces.flatMap (fun p => p.node.elements) = [m.element] := by
    rw [Mention.pieces, List.flatMap_append, List.flatMap_cons, hplain, hplain]
    simp [Piece.node, link, Node.elements, elementsAll, plainAll, Node.plain, Mention.element]
  rw [elementsAll_map, List.flatMap_append, hplain, List.append_nil, List.flatMap_assoc,
    List.flatMap_congr fun m _ => hmention m, ← List.map_eq_flatMap]

/-- Running text as it is shown, mention by mention. -/
theorem exists_mentioned_linkedText (s : String) :
    ∃ ms tail, ms.flatMap Mention.chars ++ tail = s.toList ∧ Mentioned [] ms tail ∧
      printAll (linkedText s) =
        String.join (ms.map Mention.written) ++ escape (String.ofList tail) ∧
      elements? (printAll (linkedText s)) = some (ms.map Mention.element) := by
  obtain ⟨ms, tail, hchars, hms, hpieces⟩ := exists_mentioned false s.toList [] rfl
  refine ⟨ms, tail, hchars, hms, ?_, ?_⟩
  · rw [linkedText, pieces, ← hpieces, printAll_mentions]
  · rw [elements?_printAll (allFit_linkedText s), linkedText, pieces, ← hpieces,
      elementsAll_mentions]

/-- Making links of addresses loses nothing of a text and adds nothing to it. Each address that is
found, from the left, becomes a link to itself without the marks that close the sentence, and all
else is escaped. -/
theorem linkedText_faithful (s : String) :
    unlinked? (printAll (linkedText s)) = some s ∧
    (∃ ms tail, ms.flatMap Mention.chars ++ tail = s.toList ∧ Mentioned [] ms tail ∧
      printAll (linkedText s) =
        String.join (ms.map Mention.written) ++ escape (String.ofList tail) ∧
      elements? (printAll (linkedText s)) = some (ms.map Mention.element)) ∧
    ((∀ before address after, s.toList = before ++ address ++ after →
        ¬ IsAddress before address after) →
      printAll (linkedText s) = escape s) := by
  refine ⟨unlinked?_linkedText s, exists_mentioned_linkedText s, fun hnone => ?_⟩
  obtain ⟨ms, tail, hchars, hms, hprint, -⟩ := exists_mentioned_linkedText s
  cases ms with
  | nil =>
    have htail : String.ofList tail = s := by
      rw [← String.ofList_toList (s := s), ← hchars]
      rfl
    rw [hprint, htail]
    rfl
  | cons m ms =>
    refine absurd hms.2.1 (hnone _ _ _ ?_)
    rw [← hchars, List.flatMap_cons, Mention.chars]
    simp

/-- A text that is too short for an address is only escaped. -/
theorem linkedText_faithful_short :
    printAll (linkedText "<a&b>") = escape "<a&b>" ∧ escape "<a&b>" = "&lt;a&amp;b&gt;" := by
  have hnone : ∀ before address after, "<a&b>".toList = before ++ address ++ after →
      ¬ IsAddress before address after := by
    intro before address after hs h
    obtain ⟨scheme, body, rfl, ⟨label, hlabel, hscheme⟩, -⟩ := h.parts
    have hlabels : ∀ label ∈ schemes, 6 ≤ label.toList.length := by decide
    have hscheme' := hscheme.length_eq
    have hlength := congrArg List.length hs
    simp at hlength
    have := hlabels label hlabel
    omega
  exact ⟨(linkedText_faithful "<a&b>").2.2 hnone, by decide⟩

example : printAll (linkedText "(see http://a.org/?x=1&y=2). Or ftp://b.org!") =
    "(see <a href=\"http://a.org/?x=1&amp;y=2\">http://a.org/?x=1&amp;y=2</a>). " ++
      "Or <a href=\"ftp://b.org\">ftp://b.org</a>!" := by
  decide +kernel

end Minutes.Html
