import Minutes.Proofs.Text.Blank
import Minutes.Transcript.Hearing
import Mathlib.Data.String.Basic

/-!
How a remark becomes a comment: as a quotation, as the scribe's own words, as a link, or as the
words of its author. The way tells the speaker, the text and whether the speaker is marked present.
-/
namespace Minutes

/-- A text is split at its first colon. -/
theorem atColon?_eq_some_iff {s before rest : String} :
    atColon? s = some (before, rest) ↔ s = before ++ ":" ++ rest ∧ ':' ∉ before.toList := by
  unfold atColon?
  constructor
  · intro h
    split at h
    · rename_i c tail hd
      obtain ⟨rfl, rfl⟩ := Prod.mk.inj (Option.some.inj h)
      obtain ⟨hs, hb⟩ := Text.takeWhile_bne_iff.mp ⟨rfl, c, hd⟩
      rw [String.toList_ofList]
      refine ⟨?_, hb⟩
      rw [← String.toList_inj]
      simpa using hs
    · cases h
  · rintro ⟨rfl, hb⟩
    have hs : (before ++ ":" ++ rest).toList = before.toList ++ ':' :: rest.toList := by simp
    obtain ⟨htake, c, hdrop⟩ := Text.takeWhile_bne_iff.mpr ⟨hs, hb⟩
    simp only [htake, hdrop, String.ofList_toList]

/-- Those whom a remark shows to be present, if it is the scribe's own or somebody else's. -/
def Remark.marks (remark : Remark) (byScribe : Bool) : List String :=
  if byScribe then
    if Record.opensWithEllipsis remark.message then [] else (remark.quote.map (·.1)).toList
  else match remark.quote with
    | some (name, _) => [name]
    | none => if remark.isLink then [] else remark.speaker.toList

namespace CommentLine

variable (aliases : AliasIndex) (line : CommentLine)

/-- A line that has the name of a participant before its first colon, and then the text. -/
def Quotes (name rest : String) : Prop :=
  ∃ before, line.message = before ++ ":" ++ rest ∧ ':' ∉ before.toList ∧
    aliases.resolve? (trim before) = some name

/-- A line that begins with a web address: before its first colon it has no name, but the beginning
of an address. -/
def OpensLink : Prop :=
  ∃ before rest, line.message = before ++ ":" ++ rest ∧ ':' ∉ before.toList ∧
    aliases.resolve? (trim before) = none ∧ namesAddress (trim before) = true

variable {aliases line}

theorem quote_ofLine_eq_some_iff {name rest : String} :
    (Remark.ofLine aliases line).quote = some (name, rest) ↔ line.Quotes aliases name rest := by
  simp only [Remark.ofLine, Quotes, Option.bind_eq_some_iff, Option.map_eq_some_iff, Prod.exists,
    Prod.mk.injEq, atColon?_eq_some_iff]
  constructor
  · rintro ⟨before, _, hs, _, hn, rfl, rfl⟩
    exact ⟨before, hs.1, hs.2, hn⟩
  · rintro ⟨before, hm, hb, hn⟩
    exact ⟨before, rest, ⟨hm, hb⟩, name, hn, rfl, rfl⟩

/-- A link is what quotes nobody and has the beginning of an address before its first colon. -/
theorem opensLink_iff :
    line.OpensLink aliases ↔
      (Remark.ofLine aliases line).quote = none ∧ (Remark.ofLine aliases line).isLink = true := by
  have hlink : (Remark.ofLine aliases line).isLink = true ↔ ∃ before rest,
      line.message = before ++ ":" ++ rest ∧ ':' ∉ before.toList ∧
        namesAddress (trim before) = true := by
    simp only [Remark.ofLine, Option.any_eq_true, Prod.exists, atColon?_eq_some_iff, and_assoc]
  rw [hlink]
  constructor
  · rintro ⟨before, rest, hm, hb, hn, ha⟩
    refine ⟨?_, before, rest, hm, hb, ha⟩
    have hs := atColon?_eq_some_iff.mpr ⟨hm, hb⟩
    simp [Remark.ofLine, hs, hn]
  · rintro ⟨hq, before, rest, hm, hb, ha⟩
    refine ⟨before, rest, hm, hb, ?_, ha⟩
    by_contra hn
    obtain ⟨name, hn⟩ := Option.ne_none_iff_exists'.mp hn
    have hs := quote_ofLine_eq_some_iff.mpr ⟨before, hm, hb, hn⟩
    rw [hq] at hs
    cases hs

end CommentLine

/-- A remark marks nobody but the one it quotes and its author. -/
theorem Remark.quote_or_speaker_of_mem_marks {remark : Remark} {byScribe : Bool} {name : String}
    (h : name ∈ remark.marks byScribe) :
    (∃ rest, remark.quote = some (name, rest)) ∨ remark.speaker = some name := by
  unfold marks at h
  cases hq : remark.quote with
  | some q =>
    refine .inl ⟨q.2, ?_⟩
    rw [hq] at h
    split_ifs at h
    · cases h
    all_goals
      obtain rfl := List.mem_singleton.mp h
      rfl
  | none =>
    refine .inr ?_
    rw [hq] at h
    split_ifs at h
    · cases h
    · cases h
    · cases h
    · exact Option.mem_toList.mp h

theorem Remark.exists_resolve?_of_mem_marks {aliases : AliasIndex} {line : CommentLine}
    {byScribe : Bool} {name : String} (h : name ∈ (Remark.ofLine aliases line).marks byScribe) :
    ∃ a, aliases.resolve? a = some name := by
  rcases quote_or_speaker_of_mem_marks h with ⟨rest, hq⟩ | hn
  · obtain ⟨before, _, _, hn⟩ := CommentLine.quote_ofLine_eq_some_iff.mp hq
    exact ⟨trim before, hn⟩
  · exact ⟨line.nick, hn⟩

namespace Record

/-- A link of anybody but the scribe: no directive, and it opens with a web address. -/
def IsLinkLine (aliases : AliasIndex) (r : Record) (s : List Char) : Prop :=
  ∃ line, CommentLine.read? s = some line ∧ Rule.claiming? line = none ∧
    r.isScribe (.ofLine aliases line) = false ∧ line.OpensLink aliases

theorem isLinkLine_iff {aliases : AliasIndex} {r : Record} {s : List Char} {line : CommentLine}
    (hl : CommentLine.read? s = some line) :
    r.IsLinkLine aliases s ↔ Rule.claiming? line = none ∧
      r.isScribe (.ofLine aliases line) = false ∧
      (Remark.ofLine aliases line).quote = none ∧ (Remark.ofLine aliases line).isLink = true := by
  rw [← CommentLine.opensLink_iff]
  constructor
  · rintro ⟨line', hl', h⟩
    obtain rfl := Option.some.inj (hl.symm.trans hl')
    exact h
  · intro h
    exact ⟨line, hl, h⟩

/-- There is a scribe if a remark is the scribe's. -/
theorem exists_scribe?_of_isScribe {r : Record} {remark : Remark} (h : r.isScribe remark = true) :
    ∃ name, r.scribe? = some name := by
  unfold isScribe at h
  split at h
  · rename_i turn ht
    exact ⟨turn.name, by rw [scribe?, ht, Option.map_some]⟩
  · cases h

/-- A remark by which the scribe goes on with the comment before it. -/
def GoesOn (r : Record) (remark : Remark) : Prop :=
  r.isScribe remark = true ∧ opensWithEllipsis remark.message = true

/-- The ways in which a remark becomes a comment. -/
inductive Said (r : Record) (remark : Remark) : Comment → Prop where
  | quotation {name text : String} (hg : ¬ r.GoesOn remark)
      (hq : remark.quote = some (name, text)) :
      Said r remark (.of (r.comments + 1) name text
        (if r.isScribe remark then none else some (remark.speaker.getD remark.nick)))
  | byScribe (hg : ¬ r.GoesOn remark) (hq : remark.quote = none) (hs : r.isScribe remark = true) :
      Said r remark (.of (r.comments + 1) (r.scribe?.getD remark.nick) remark.message none)
  | link (hq : remark.quote = none) (hs : r.isScribe remark = false)
      (hl : remark.isLink = true) :
      Said r remark (.of (r.comments + 1) (remark.speaker.getD remark.nick) remark.message none)
  | byAuthor {name : String} (hq : remark.quote = none) (hs : r.isScribe remark = false)
      (hl : remark.isLink = false) (hn : remark.speaker = some name) :
      Said r remark (.of (r.comments + 1) name remark.message none)

theorem Said.id_eq {r : Record} {remark : Remark} {comment : Comment}
    (h : r.Said remark comment) : comment.id = r.comments + 1 := by
  cases h <;> rfl

/-- A comment marks its speaker present, unless it is the scribe's own or a link. -/
theorem Said.mem_marks_iff {r : Record} {remark : Remark} {comment : Comment}
    (h : r.Said remark comment) {name : String} :
    name ∈ remark.marks (r.isScribe remark) ↔ name = comment.speaker ∧
      (remark.quote.isSome = true ∨ r.isScribe remark = false ∧ remark.isLink = false) := by
  cases h with
  | @quotation speaker text hg hq =>
    have hm : remark.marks (r.isScribe remark) = [speaker] := by
      simp only [Remark.marks, hq]
      split_ifs with hs he
      · exact absurd ⟨hs, he⟩ hg
      · rfl
      · rfl
    simp [hm, hq, Comment.of]
  | byScribe hg hq hs => simp [Remark.marks, hq, hs]
  | link hq hs hl => simp [Remark.marks, hq, hs, hl]
  | byAuthor hq hs hl hn => simp [Remark.marks, hq, hs, hl, hn, Comment.of]

/-- A remark becomes a comment, which takes a number and marks those whom the remark shows to be
present, or else it marks nobody and leaves the record as it was. -/
theorem hearRemark_cases (r : Record) (remark : Remark) :
    (∃ comment, r.Said remark comment ∧ (r.hearRemark remark).event = .comment comment ∧
      (r.hearRemark remark).record =
        (r.markAllPresent (remark.marks (r.isScribe remark))).addComment) ∨
    remark.marks (r.isScribe remark) = [] ∧ (r.hearRemark remark).record = r ∧
      ((r.hearRemark remark).event = .continuation remark.message ∨
        ∃ text, (r.hearRemark remark).event = .error (text ++ remark.raw)) := by
  by_cases hs : r.isScribe remark = true
  · simp only [hearRemark, if_pos hs, hearScribe, Remark.marks]
    split_ifs with he
    · exact .inr ⟨rfl, rfl, .inl rfl⟩
    · have hg : ¬ r.GoesOn remark := fun hg => he hg.2
      cases hq : remark.quote with
      | some q =>
        have hsaid := Said.quotation hg hq
        rw [if_pos hs] at hsaid
        exact .inl ⟨_, hsaid, rfl, rfl⟩
      | none => exact .inl ⟨_, .byScribe hg hq hs, rfl, rfl⟩
  · simp only [hearRemark, if_neg hs, hearParticipant, Remark.marks]
    cases hq : remark.quote with
    | some q =>
      have hsaid := Said.quotation (fun hg => hs hg.1) hq
      rw [if_neg hs] at hsaid
      exact .inl ⟨_, hsaid, rfl, rfl⟩
    | none =>
      have hs := Bool.eq_false_iff.mpr hs
      cases hl : remark.isLink with
      | true => exact .inl ⟨_, .link hq hs hl, rfl, rfl⟩
      | false =>
        cases hn : remark.speaker with
        | some name => exact .inl ⟨_, .byAuthor hq hs hl hn, rfl, rfl⟩
        | none => exact .inr ⟨rfl, rfl, .inr ⟨_, rfl⟩⟩

/-- A comment that a remark becomes is made in one of the ways. -/
theorem said_of_event {r : Record} {remark : Remark} {comment : Comment}
    (h : (r.hearRemark remark).event = .comment comment) : r.Said remark comment := by
  rcases hearRemark_cases r remark with ⟨c, hsaid, he, _⟩ | ⟨_, _, he | ⟨_, he⟩⟩
  · rw [he] at h
    obtain rfl := Event.comment.inj h
    exact hsaid
  all_goals
    rw [he] at h
    cases h

end Record
end Minutes
