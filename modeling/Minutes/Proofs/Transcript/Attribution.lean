import Minutes.Proofs.Transcript.Scribing

/-!
No remark is lost or put into the wrong mouth: it is kept whole as a continuation, or within an
error, or its text is that of a comment, whose speaker and helper are told by the line.
-/
namespace Minutes

/-- Two texts that are the same, except that one ASCII letter of the first may be a capital in the
second. -/
def SameButOneCapital (s t : List Char) : Prop :=
  t = s ∨ ∃ u c v, c.isAlpha = true ∧ s = u ++ c :: v ∧ t = u ++ c.toUpper :: v

theorem sameButOneCapital_raiseFirstLetter (s : List Char) :
    SameButOneCapital s (raiseFirstLetter s) := by
  induction s with
  | nil => exact .inl rfl
  | cons c s ih =>
    unfold raiseFirstLetter
    split_ifs with hc
    · exact .inr ⟨[], c, s, hc, rfl, rfl⟩
    · rcases ih with h | ⟨u, d, v, hd, hs, ht⟩
      · exact .inl (congrArg (c :: ·) h)
      · exact .inr ⟨c :: u, d, v, hd, congrArg (c :: ·) hs, congrArg (c :: ·) ht⟩

/-- A comment has the trimmed text of the remark. -/
theorem sameButOneCapital_comment (id : Nat) (speaker text : String) (assist : Option String) :
    SameButOneCapital (trim text).toList (Comment.of id speaker text assist).text.toList := by
  rw [toList_trim]
  simp only [Comment.of, String.toList_ofList, sentence]
  split_ifs
  · exact .inl rfl
  · exact sameButOneCapital_raiseFirstLetter _

/-- A comment line keeps the line that it is read from. -/
theorem CommentLine.raw_of_read? {s : List Char} {line : CommentLine}
    (h : CommentLine.read? s = some line) : line.raw = String.ofList s := by
  simp only [read?, Option.bind_eq_bind, Option.bind_eq_some_iff] at h
  obtain ⟨_, _, _, _, _, _, _, _, h⟩ := h
  split_ifs at h
  obtain rfl := Option.some.inj h
  rfl

namespace Record

namespace Said

variable {r : Record} {remark : Remark} {comment : Comment}

/-- The text is what the speaker is quoted with, or the message of a remark that quotes nobody. -/
theorem text_cases (h : r.Said remark comment) :
    (∃ text, remark.quote = some (comment.speaker, text) ∧
      SameButOneCapital (trim text).toList comment.text.toList) ∨
    remark.quote = none ∧
      SameButOneCapital (trim remark.message).toList comment.text.toList := by
  cases h with
  | quotation _ hq => exact .inl ⟨_, hq, sameButOneCapital_comment _ _ _ _⟩
  | byScribe _ hq _ => exact .inr ⟨hq, sameButOneCapital_comment _ _ _ _⟩
  | link hq _ _ => exact .inr ⟨hq, sameButOneCapital_comment _ _ _ _⟩
  | byAuthor hq _ _ _ => exact .inr ⟨hq, sameButOneCapital_comment _ _ _ _⟩

/-- The speaker is quoted, or scribes, or typed the remark. Only the author of a link may be
unknown. -/
theorem speaker_cases (h : r.Said remark comment) :
    (∃ text, remark.quote = some (comment.speaker, text)) ∨
    r.scribe? = some comment.speaker ∧ r.isScribe remark = true ∨
    remark.speaker = some comment.speaker ∨
    (remark.quote = none ∧ r.isScribe remark = false ∧ remark.isLink = true) ∧
      remark.speaker = none ∧ comment.speaker = remark.nick := by
  cases h with
  | quotation _ hq => exact .inl ⟨_, hq⟩
  | byScribe _ _ hs =>
    obtain ⟨name, hn⟩ := exists_scribe?_of_isScribe hs
    refine .inr (.inl ⟨?_, hs⟩)
    simp only [Comment.of, hn, Option.getD_some]
  | link hq hs hl =>
    cases hn : remark.speaker with
    | some name => exact .inr (.inr (.inl rfl))
    | none => exact .inr (.inr (.inr ⟨⟨hq, hs, hl⟩, rfl, rfl⟩))
  | byAuthor _ _ _ hn => exact .inr (.inr (.inl hn))

/-- A quotation that the scribe did not type is assisted by its author. -/
theorem assist_eq_some_iff (h : r.Said remark comment) {helper : String} :
    comment.assist = some helper ↔ r.isScribe remark = false ∧ remark.quote.isSome = true ∧
      helper = remark.speaker.getD remark.nick := by
  cases h with
  | quotation _ hq =>
    cases hs : r.isScribe remark <;> simp [Comment.of, hq, eq_comm]
  | byScribe _ hq _ => simp [Comment.of, hq]
  | link hq _ _ => simp [Comment.of, hq]
  | byAuthor hq _ _ _ => simp [Comment.of, hq]

end Said

/-- What a comment owes to the line that it is made from. Its text is what follows the name that the
line quotes, or else the message. Its speaker is a participant, except that a link of an unknown
nick stands under the nick. Whoever types a quotation and is not the scribe is named with it. -/
structure Keeps (roster : Roster) (r : Record) (s : List Char) (line : CommentLine)
    (comment : Comment) : Prop where
  text : (∃ rest, line.Quotes (.ofRoster roster) comment.speaker rest ∧
      SameButOneCapital (trim rest).toList comment.text.toList) ∨
    (∀ name rest, ¬ line.Quotes (.ofRoster roster) name rest) ∧
      SameButOneCapital (trim line.message).toList comment.text.toList
  stranger : r.IsLinkLine (.ofRoster roster) s ∧
    (AliasIndex.ofRoster roster).resolve? line.nick = none → comment.speaker = line.nick
  known : ¬ (r.IsLinkLine (.ofRoster roster) s ∧
    (AliasIndex.ofRoster roster).resolve? line.nick = none) → comment.speaker ∈ roster.names
  assist : ∀ helper, comment.assist = some helper ↔
    r.isScribe (.ofLine (.ofRoster roster) line) = false ∧
    (∃ rest, line.Quotes (.ofRoster roster) comment.speaker rest) ∧
    ((AliasIndex.ofRoster roster).resolve? line.nick = some helper ∧ helper ∈ roster.names ∨
      (AliasIndex.ofRoster roster).resolve? line.nick = none ∧ helper = line.nick)

variable {roster : Roster} {r : Record} {s : List Char} {line : CommentLine} {comment : Comment}

/-- Whoever types a line stands in the minutes as a participant, or else under the nick. -/
theorem eq_getD_resolve?_iff {author : String} :
    author = ((AliasIndex.ofRoster roster).resolve? line.nick).getD line.nick ↔
      (AliasIndex.ofRoster roster).resolve? line.nick = some author ∧ author ∈ roster.names ∨
        (AliasIndex.ofRoster roster).resolve? line.nick = none ∧ author = line.nick := by
  cases h : (AliasIndex.ofRoster roster).resolve? line.nick with
  | none => simp
  | some name =>
    have hk := AliasIndex.mem_names_of_resolve? h
    constructor
    · rintro rfl
      exact .inl ⟨rfl, hk⟩
    · rintro (⟨hn, _⟩ | ⟨hn, _⟩)
      · exact (Option.some.inj hn).symm
      · cases hn

/-- However a remark becomes a comment, the comment keeps to the line. -/
theorem Consistent.keeps (h : r.Consistent roster) (hl : CommentLine.read? s = some line)
    (hr : Rule.claiming? line = none)
    (hsaid : r.Said (.ofLine (.ofRoster roster) line) comment) :
    r.Keeps roster s line comment := by
  have hquotes : (∃ rest, (Remark.ofLine (.ofRoster roster) line).quote =
      some (comment.speaker, rest)) ↔
      ∃ rest, line.Quotes (.ofRoster roster) comment.speaker rest :=
    exists_congr fun _ => CommentLine.quote_ofLine_eq_some_iff
  constructor
  case text =>
    rcases hsaid.text_cases with ⟨rest, hq, ht⟩ | ⟨hq, ht⟩
    · exact .inl ⟨rest, CommentLine.quote_ofLine_eq_some_iff.mp hq, ht⟩
    · refine .inr ⟨?_, ht⟩
      intro name rest hn
      rw [CommentLine.quote_ofLine_eq_some_iff.mpr hn] at hq
      cases hq
  case stranger =>
    rintro ⟨hlink, hn⟩
    obtain ⟨_, hs, hq, _⟩ := (isLinkLine_iff hl).mp hlink
    rcases hsaid.speaker_cases with ⟨_, hq'⟩ | ⟨_, hs'⟩ | hn' | ⟨_, _, he⟩
    · rw [hq] at hq'
      cases hq'
    · rw [hs] at hs'
      cases hs'
    · exact absurd (hn.symm.trans hn') (Option.some_ne_none _).symm
    · exact he
  case known =>
    intro hno
    rcases hsaid.speaker_cases with hq | ⟨hn, _⟩ | hn | ⟨⟨hq, hs, hlink⟩, hn, _⟩
    · obtain ⟨_, _, _, _, hn⟩ := hquotes.mp hq
      exact AliasIndex.mem_names_of_resolve? hn
    · exact h.present_known (h.mem_present_of_scribe? hn)
    · exact AliasIndex.mem_names_of_resolve? hn
    · exact absurd ⟨(isLinkLine_iff hl).mpr ⟨hr, hs, hq, hlink⟩, hn⟩ hno
  case assist =>
    intro helper
    rw [hsaid.assist_eq_some_iff, ← hquotes]
    refine and_congr_right fun _ => and_congr ?_ eq_getD_resolve?_iff
    -- whom the line quotes is the speaker of the comment
    constructor
    · intro hq
      rcases hsaid.text_cases with ⟨rest, hq', _⟩ | ⟨hq', _⟩
      · exact ⟨rest, hq'⟩
      · rw [hq'] at hq
        cases hq
    · rintro ⟨rest, hq⟩
      rw [hq]
      rfl

end Record

/-- At every point of a transcript, a comment line that says something and is no directive becomes
a continuation with the whole message, or an error that ends with the whole line, or a comment that
keeps to the line. -/
theorem Compiler.remark_kept (c : Compiler) (date : Option Date) (audio : Bool)
    (earlier : List (List Char)) {s : List Char} {line : CommentLine}
    (hl : CommentLine.read? s = some line) (hr : Rule.claiming? line = none)
    (hm : trim line.message ≠ "") :
    let r := (Hearing.run c.aliases (c.opening date audio) earlier).record
    let event := (r.hearLine c.aliases s).event
    event = .continuation line.message ∨
      (∃ text, event = .error text ∧ s <:+ text.toList) ∨
      ∃ comment, event = .comment comment ∧ r.Keeps c.roster s line comment := by
  intro r event
  have h : r.Consistent c.roster := c.run_consistent date audio earlier
  have he : event = (r.hearRemark (.ofLine c.aliases line)).event := by
    simp only [event, Record.hearLine, Statement.read_of_not_claimed hl hr hm, Record.hear]
  rw [he]
  rcases r.hearRemark_cases (.ofLine c.aliases line) with ⟨comment, hsaid, he, _⟩ |
    ⟨_, _, he | ⟨text, he⟩⟩
  · exact .inr (.inr ⟨comment, he, h.keeps hl hr hsaid⟩)
  · exact .inl he
  · refine .inr (.inl ⟨_, he, ?_⟩)
    change s <:+ (text ++ line.raw).toList
    rw [CommentLine.raw_of_read? hl, String.toList_append, String.toList_ofList]
    exact List.suffix_append _ _

theorem Compiler.remark_kept_quotation :
    let roster : Roster := [{ name := "Ann Lee" }, { name := "Bob Stone" }]
    let c : Compiler := ⟨{}, roster, ⟨2013, 2, 5, by decide⟩⟩
    let earlier := ["[1] <bob> scribe: bob".toList]
    let s := "[2] <Guest> ann : see http://example.org".toList
    let line : CommentLine :=
      ⟨"2", "guest", "ann : see http://example.org", "[2] <Guest> ann : see http://example.org"⟩
    let r := (Hearing.run c.aliases (c.opening none true) earlier).record
    let event := (r.hearLine c.aliases s).event
    (CommentLine.read? s = some line ∧ Rule.claiming? line = none ∧ trim line.message ≠ "") ∧
    (event = .continuation line.message ∨
      (∃ text, event = .error text ∧ s <:+ text.toList) ∨
      ∃ comment, event = .comment comment ∧ r.Keeps c.roster s line comment) := by
  intro roster c earlier s line r event
  have hl : CommentLine.read? s = some line := by decide +kernel
  have hr : Rule.claiming? line = none := by decide +kernel
  have hm : trim line.message ≠ "" := by decide +kernel
  exact ⟨⟨hl, hr, hm⟩, Compiler.remark_kept c none true earlier hl hr hm⟩

end Minutes
