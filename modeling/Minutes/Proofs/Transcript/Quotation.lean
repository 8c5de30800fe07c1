import Minutes.Proofs.Text.Blank
import Minutes.Proofs.Transcript.Attendance

/-!
What the scribe takes down for others. Whatever stands after the name and the colon becomes the
comment of the one who is named, unless a rule claims the line. Of the rules only that of votes
looks at the end of a message.
-/
namespace Minutes

namespace Rule

/-- The votes, as they are written. -/
def votes : List (List Char) := [['+', '0'], ['+', '1'], ['-', '0'], ['-', '1']]

/-- A message with a vote at its beginning or at its end, and with white space between the vote and
the rest of it. -/
def BearsVote (s : List Char) : Prop :=
  ∃ vote ∈ votes, ∃ rest, s = vote ++ rest ∧ rest.head?.all Text.isBlank = true ∨
    s = rest ++ vote ∧ rest.getLast?.all Text.isBlank = true

theorem mem_votes_iff {sign digit : Char} :
    [sign, digit] ∈ votes ↔ isVoteSign sign = true ∧ isVoteDigit digit = true := by
  simp only [votes, isVoteSign, isVoteDigit, List.mem_cons, List.cons.injEq, Bool.or_eq_true,
    beq_iff_eq, List.not_mem_nil, and_true, or_false]
  tauto

theorem exists_of_mem_votes {vote : List Char} (h : vote ∈ votes) :
    ∃ sign digit, vote = [sign, digit] := by
  simp only [votes, List.mem_cons, List.not_mem_nil, or_false] at h
  rcases h with rfl | rfl | rfl | rfl <;> exact ⟨_, _, rfl⟩

theorem isVote_iff {s : List Char} : isVote s = true ↔ BearsVote s := by
  unfold isVote BearsVote
  rw [Bool.or_eq_true]
  constructor
  · rintro (h | h)
    · split at h
      · rename_i sign digit rest
        simp only [Bool.and_eq_true] at h
        exact ⟨[sign, digit], mem_votes_iff.mpr h.1, rest, .inl ⟨rfl, h.2⟩⟩
      · cases h
    · split at h
      · rename_i digit sign rest hs
        simp only [Bool.and_eq_true] at h
        refine ⟨[sign, digit], mem_votes_iff.mpr h.1, rest.reverse, .inr ⟨?_, ?_⟩⟩
        · rw [← List.reverse_reverse s, hs]
          simp
        · rw [List.getLast?_reverse]
          exact h.2
      · cases h
  · rintro ⟨vote, hvote, rest, h⟩
    obtain ⟨sign, digit, rfl⟩ := exists_of_mem_votes hvote
    obtain ⟨hsign, hdigit⟩ := mem_votes_iff.mp hvote
    rcases h with ⟨rfl, hrest⟩ | ⟨rfl, hrest⟩
    · left
      simp [hsign, hdigit, hrest]
    · right
      simp [hsign, hdigit, hrest]

/-- The votes are claimed last: a line that passes no other test is claimed only as a vote. -/
theorem claiming?_of_not_earlier {line : CommentLine}
    (h : ∀ test ∈ tests, test ≠ .message .vote → test.result? line = none) :
    claiming? line = if isVote line.message.toList then some (.vote, "") else none := by
  have hlast : tests = tests.dropLast ++ [.message .vote] := rfl
  have hother : ∀ test ∈ tests.dropLast, test ∈ tests ∧ test ≠ .message .vote := by decide
  have hearlier : tests.dropLast.findSome? (·.result? line) = none := by
    rw [List.findSome?_eq_none_iff]
    intro test ht
    obtain ⟨hm, hne⟩ := hother test ht
    exact h test hm hne
  rw [claiming?, hlast, List.findSome?_append, hearlier, Option.none_or]
  cases hv : isVote line.message.toList <;>
    simp [Test.result?, argument?, noArgument, hv]

end Rule

/-- What a text is as a sentence: the text itself if it opens with a web address or has no ASCII
letter, and otherwise the text with its first ASCII letter made a capital. -/
inductive Capitalised (s : List Char) : List Char → Prop where
  | address (h : opensWithAddress s = true) : Capitalised s s
  | noLetter (ha : opensWithAddress s = false) (h : ∀ c ∈ s, c.isAlpha = false) : Capitalised s s
  | letter {before after : List Char} {c : Char} (ha : opensWithAddress s = false)
      (hs : s = before ++ c :: after) (hb : ∀ d ∈ before, d.isAlpha = false)
      (hc : c.isAlpha = true) : Capitalised s (before ++ c.toUpper :: after)

theorem raiseFirstLetter_cases (s : List Char) :
    (∀ c ∈ s, c.isAlpha = false) ∧ raiseFirstLetter s = s ∨
    ∃ before c after, s = before ++ c :: after ∧ (∀ d ∈ before, d.isAlpha = false) ∧
      c.isAlpha = true ∧ raiseFirstLetter s = before ++ c.toUpper :: after := by
  induction s with
  | nil => exact .inl ⟨by simp, rfl⟩
  | cons c s ih =>
    unfold raiseFirstLetter
    split_ifs with hc
    · exact .inr ⟨[], c, s, rfl, by simp, hc, rfl⟩
    · have hc := Bool.eq_false_iff.mpr hc
      rcases ih with ⟨h, hs⟩ | ⟨before, d, after, hs, hb, hd, hr⟩
      · exact .inl ⟨List.forall_mem_cons.mpr ⟨hc, h⟩, congrArg (c :: ·) hs⟩
      · exact .inr ⟨c :: before, d, after, congrArg (c :: ·) hs,
          List.forall_mem_cons.mpr ⟨hc, hb⟩, hd, congrArg (c :: ·) hr⟩

theorem capitalised_sentence (s : List Char) : Capitalised s (sentence s) := by
  unfold sentence
  split_ifs with ha
  · exact .address ha
  · have ha := Bool.eq_false_iff.mpr ha
    rcases raiseFirstLetter_cases s with ⟨h, hr⟩ | ⟨before, c, after, hs, hb, hc, hr⟩
    · rw [hr]
      exact .noLetter ha h
    · rw [hr]
      exact .letter ha hs hb hc

namespace Record

variable {aliases : AliasIndex} {r : Record} {s : List Char} {line : CommentLine}
  {before rest name : String}

/-- The scribe quotes a participant by a remark that has the name before the first colon. -/
theorem hearRemark_of_quotation {remark : Remark} (hs : r.isScribe remark = true)
    (he : opensWithEllipsis remark.message = false) (hq : remark.quote = some (name, rest)) :
    r.hearRemark remark = (r.markPresent name).comment name rest none := by
  simp [hearRemark, hs, hearScribe, he, hq]

/-- A line that the scribe types with the name of a participant before the first colon, and that
passes no test before the one for votes, quotes the participant, whatever stands after the colon:
the comment has the text after it as a sentence, and the participant is present. If the message has
a vote at its beginning or its end, the line is the vote of the one whose nick it has instead. -/
theorem quotation_by_scribe (hl : CommentLine.read? s = some line)
    (hs : r.isScribe (.ofLine aliases line) = true)
    (hr : ∀ test ∈ Rule.tests, test ≠ .message .vote → test.result? line = none)
    (he : opensWithEllipsis line.message = false)
    (hm : line.message = before ++ ":" ++ rest) (hb : ':' ∉ before.toList)
    (hn : aliases.resolve? (trim before) = some name) :
    let outcome := r.hearLine aliases s
    (¬ Rule.BearsVote line.message.toList →
      (∃ text, Capitalised (trim rest).toList text.toList ∧
        outcome.event = .comment ⟨r.comments + 1, name, text, none⟩) ∧
      name ∈ outcome.record.present) ∧
    (Rule.BearsVote line.message.toList →
      outcome.event = match aliases.resolve? line.nick with
        | some author => .comment (.of (r.comments + 1) author line.message none)
        | none => .dropped) := by
  intro outcome
  have hclaim := Rule.claiming?_of_not_earlier hr
  constructor
  · intro hv
    rw [← Rule.isVote_iff] at hv
    rw [if_neg hv] at hclaim
    have hblank : trim line.message ≠ "" := by
      intro h
      have hcolon : ':' ∈ line.message.toList := by simp [hm]
      have htrimmed := congrArg String.toList h
      rw [toList_trim] at htrimmed
      have hblank := Text.isBlank_of_trimmed_eq_nil htrimmed ':' hcolon
      exact absurd hblank (by decide)
    have hquote := CommentLine.quote_ofLine_eq_some_iff.mpr ⟨before, hm, hb, hn⟩
    have houtcome : outcome = (r.markPresent name).comment name rest none := by
      simp only [outcome, hearLine, Statement.read_of_not_claimed hl hclaim hblank, hear]
      exact hearRemark_of_quotation hs he hquote
    rw [houtcome]
    refine ⟨⟨_, ?_, rfl⟩, mem_insertName.mpr (.inl rfl)⟩
    rw [String.toList_ofList, toList_trim]
    exact capitalised_sentence _
  · intro hv
    rw [← Rule.isVote_iff] at hv
    rw [if_pos hv] at hclaim
    simp only [outcome, hearLine, Statement.read_of_claiming hl hclaim]
    cases ha : aliases.resolve? line.nick with
    | some author => exact event_hear_vote r "" ha
    | none => simp only [Statement.ofRule, ha, hear]

theorem quotation_by_scribe_issue :
    let roster : Roster := [{ name := "Ann Lee" }, { name := "Bob Stone" }]
    let c : Compiler := ⟨{}, roster, ⟨2013, 2, 5, by decide⟩⟩
    let r := (Hearing.run c.aliases (c.opening none true) ["[1] <bob> scribe: bob".toList]).record
    let line : CommentLine := ⟨"2", "bob", "ann : close issue-1", "[2] <bob> ann : close issue-1"⟩
    let outcome := r.hearLine c.aliases line.raw.toList
    (CommentLine.read? line.raw.toList = some line ∧ r.isScribe (.ofLine c.aliases line) = true ∧
      (∀ test ∈ Rule.tests, test ≠ .message .vote → test.result? line = none) ∧
      opensWithEllipsis line.message = false ∧ line.message = "ann " ++ ":" ++ " close issue-1" ∧
      ':' ∉ "ann ".toList ∧ c.aliases.resolve? (trim "ann ") = some "Ann Lee" ∧
      ¬ Rule.BearsVote line.message.toList) ∧
    (∃ text, Capitalised (trim " close issue-1").toList text.toList ∧
      outcome.event = .comment ⟨1, "Ann Lee", text, none⟩) ∧
    "Ann Lee" ∈ outcome.record.present := by
  intro roster c r line outcome
  have hl : CommentLine.read? line.raw.toList = some line := by decide +kernel
  have hs : r.isScribe (.ofLine c.aliases line) = true := by decide +kernel
  have hr : ∀ test ∈ Rule.tests, test ≠ .message .vote → test.result? line = none := by
    decide +kernel
  have he : opensWithEllipsis line.message = false := by decide +kernel
  have hm : line.message = "ann " ++ ":" ++ " close issue-1" := by decide +kernel
  have hb : ':' ∉ "ann ".toList := by decide +kernel
  have hn : c.aliases.resolve? (trim "ann ") = some "Ann Lee" := by decide +kernel
  have hv : ¬ Rule.BearsVote line.message.toList := by
    rw [← Rule.isVote_iff]
    decide +kernel
  exact ⟨⟨hl, hs, hr, he, hm, hb, hn, hv⟩, (quotation_by_scribe hl hs hr he hm hb hn).1 hv⟩

/-- A vote that the scribe takes down for somebody becomes the vote of the scribe, and a web address
begins with a small letter. -/
theorem quotation_by_scribe_vote :
    let roster : Roster := [{ name := "Ann Lee" }, { name := "Bob Stone" }]
    let c : Compiler := ⟨{}, roster, ⟨2013, 2, 5, by decide⟩⟩
    let r := (Hearing.run c.aliases (c.opening none true) ["[1] <bob> scribe: bob".toList]).record
    let vote : CommentLine := ⟨"2", "bob", "ann: +1", "[2] <bob> ann: +1"⟩
    let link : CommentLine := ⟨"2", "bob", "ann: http://a.org", "[2] <bob> ann: http://a.org"⟩
    (∀ line ∈ [vote, link], CommentLine.read? line.raw.toList = some line ∧
      r.isScribe (.ofLine c.aliases line) = true ∧
      (∀ test ∈ Rule.tests, test ≠ .message .vote → test.result? line = none) ∧
      opensWithEllipsis line.message = false ∧ "ann:".toList <+: line.message.toList) ∧
    c.aliases.resolve? (trim "ann") = some "Ann Lee" ∧
    (r.hearLine c.aliases vote.raw.toList).event =
      .comment ⟨1, "Bob Stone", "Ann: +1", none⟩ ∧
    "Ann Lee" ∉ (r.hearLine c.aliases vote.raw.toList).record.present ∧
    (r.hearLine c.aliases link.raw.toList).event =
      .comment ⟨1, "Ann Lee", "http://a.org", none⟩ := by
  decide +kernel

end Record
end Minutes
