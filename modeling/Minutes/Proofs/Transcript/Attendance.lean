import Minutes.Proofs.Transcript.Scribing

/-!
Who is present at the end of a meeting: those whom a directive shows to be present, and the speakers
of the comments that are not links.
-/
namespace Minutes

namespace Record

/-- A line that shows somebody to be present: by its directive, or as the speaker of the comment
that it is, unless the comment is a link. -/
inductive Attests (aliases : AliasIndex) (r : Record) (s : List Char) : String → Prop where
  | directive {line : CommentLine} {rule : Rule} {argument name : String}
      (hl : CommentLine.read? s = some line)
      (hr : Rule.claiming? line = some (rule, argument))
      (h : rule.Attests aliases line argument name) : Attests aliases r s name
  | comment {comment : Comment} (he : (r.hearLine aliases s).event = .comment comment)
      (hl : ¬ r.IsLinkLine aliases s) : Attests aliases r s comment.speaker

variable {aliases : AliasIndex} {r : Record} {s : List Char} {name : String}

/-- A directive becomes a comment only as a vote, which its author speaks. -/
theorem vote_of_event_hear_ofRule {line : CommentLine} {rule : Rule} {argument : String}
    {comment : Comment}
    (h : (r.hear (.ofRule aliases line rule argument)).event = .comment comment) :
    rule = .vote ∧ aliases.resolve? line.nick = some comment.speaker := by
  cases rule with
  | vote =>
    simp only [Statement.ofRule] at h
    split at h
    · rename_i hn
      obtain rfl := Event.comment.inj h
      exact ⟨rfl, hn⟩
    · cases h
  | scribe | date =>
    simp only [Statement.ofRule] at h
    split at h <;> cases h
  | _ => cases h

theorem event_hear_vote (r : Record) {line : CommentLine} (argument : String)
    (h : aliases.resolve? line.nick = some name) :
    (r.hear (.ofRule aliases line .vote argument)).event =
      .comment (.of (r.comments + 1) name line.message none) := by
  simp only [Statement.ofRule, h]
  rfl

/-- Whoever is marked present by a line is shown to be present. -/
theorem attests_of_mem_marks (h : name ∈ r.marks (.read aliases s)) :
    r.Attests aliases s name := by
  rcases Statement.read_cases aliases s with ⟨_, hs⟩ | ⟨line, hl, ⟨rule, argument, hr, hs⟩ |
    ⟨_, _, hs⟩ | ⟨_, _, hs⟩⟩
  · rw [hs] at h
    cases h
  · rw [hs, mem_marks_ofRule_iff] at h
    rcases h with h | ⟨rfl, hn⟩
    · exact .directive hl hr h
    · have he := event_hear_vote r argument hn
      rw [← hs] at he
      refine .comment he ?_
      rw [isLinkLine_iff hl, hr]
      simp
  · rw [hs] at h
    cases h
  · rw [hs] at h
    change name ∈ (Remark.ofLine aliases line).marks _ at h
    rcases hearRemark_cases r (.ofLine aliases line) with ⟨comment, hsaid, he, _⟩ | ⟨hm, _⟩
    · obtain ⟨rfl, hmarked⟩ := hsaid.mem_marks_iff.mp h
      rw [← hear, ← hs] at he
      refine .comment he ?_
      rw [isLinkLine_iff hl]
      rintro ⟨_, _, hq, hlink⟩
      simp [hq, hlink] at hmarked
    · rw [hm] at h
      cases h

/-- The speaker of a comment is marked present, or is the scribe, unless the comment is a link. -/
theorem mem_marks_or_scribe_of_event {comment : Comment}
    (he : (r.hearLine aliases s).event = .comment comment) (hl : ¬ r.IsLinkLine aliases s) :
    comment.speaker ∈ r.marks (.read aliases s) ∨ r.scribe? = some comment.speaker := by
  unfold hearLine at he
  rcases Statement.read_cases aliases s with ⟨_, hs⟩ | ⟨line, hline, ⟨rule, argument, _, hs⟩ |
    ⟨_, _, hs⟩ | ⟨hr, _, hs⟩⟩ <;> rw [hs] at he ⊢
  · cases he
  · exact .inl ((mem_marks_ofRule_iff r).mpr (.inr (vote_of_event_hear_ofRule he)))
  · cases he
  · have hsaid := said_of_event he
    change comment.speaker ∈ (Remark.ofLine aliases line).marks _ ∨ _
    rw [hsaid.mem_marks_iff]
    cases hsaid with
    | quotation _ hq => exact .inl ⟨rfl, .inl (by rw [hq]; rfl)⟩
    | byScribe _ _ hscribe =>
      obtain ⟨name, hn⟩ := exists_scribe?_of_isScribe hscribe
      refine .inr ?_
      simp only [Comment.of, hn, Option.getD_some]
    | link hq hscribe hlink =>
      exact absurd ((isLinkLine_iff hline).mpr ⟨hr, hscribe, hq, hlink⟩) hl
    | byAuthor _ hscribe hlink _ => exact .inl ⟨rfl, .inr ⟨hscribe, hlink⟩⟩

/-- Where the scribe is present, a line adds to those present whom it shows to be. -/
theorem mem_present_hearLine_iff (h : ∀ n, r.scribe? = some n → n ∈ r.present) :
    name ∈ (r.hearLine aliases s).record.present ↔
      name ∈ r.present ∨ r.Attests aliases s name := by
  unfold hearLine
  rw [mem_present_hear, or_comm]
  constructor
  · exact Or.imp_right attests_of_mem_marks
  · rintro (hn | ha)
    · exact .inl hn
    · cases ha with
      | directive hl hr ha =>
        rw [Statement.read_of_claiming hl hr]
        exact .inr ((mem_marks_ofRule_iff r).mpr (.inl ha))
      | comment he hl =>
        rcases mem_marks_or_scribe_of_event he hl with hm | hn
        · exact .inr hm
        · exact .inl (h _ hn)

end Record

/-- Those present after a run were present before, or some line of it shows them to be. -/
theorem Hearing.mem_present_run_iff {roster : Roster} {r : Record} (h : r.Consistent roster)
    (lines : List (List Char)) (name : String) :
    name ∈ (run (.ofRoster roster) r lines).record.present ↔
      name ∈ r.present ∨ ∃ before line after, lines = before ++ line :: after ∧
        (run (.ofRoster roster) r before).record.Attests (.ofRoster roster) line name := by
  -- the record stays consistent, so at each line the scribe is present already
  induction lines generalizing r with
  | nil => simp [run]
  | cons line lines ih =>
    rw [run, ih (h.hearLine line), Record.mem_present_hearLine_iff fun _ => h.mem_present_of_scribe?,
      or_assoc]
    refine or_congr_right ?_
    constructor
    · rintro (ha | ⟨before, l, after, rfl, ha⟩)
      · exact ⟨[], line, lines, rfl, ha⟩
      · exact ⟨line :: before, l, after, rfl, ha⟩
    · rintro ⟨before, l, after, he, ha⟩
      cases before with
      | nil =>
        obtain ⟨rfl, rfl⟩ := List.cons.inj he
        exact .inl ha
      | cons first before =>
        obtain ⟨rfl, rfl⟩ := List.cons.inj he
        exact .inr ⟨before, l, after, rfl, ha⟩

/-- Somebody is present at the end of a meeting exactly if some line of the transcript shows it. -/
theorem Compiler.mem_present_compile_iff (c : Compiler) (mode : Mode) (transcript : String)
    (date : Option Date) (audio : Bool) (name : String) :
    name ∈ (c.compile mode transcript date audio).record.present ↔
      ∃ before line after, Text.lines transcript.toList = before ++ line :: after ∧
        (Hearing.run c.aliases (c.opening date audio) before).record.Attests c.aliases line
          name := by
  have h := Hearing.mem_present_run_iff (c.opening_consistent date audio)
    (Text.lines transcript.toList) name
  have hnobody : name ∉ (c.opening date audio).present := List.not_mem_nil
  exact h.trans (or_iff_right hnobody)

end Minutes
