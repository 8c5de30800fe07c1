import Minutes.Proofs.Roster.Claims
import Minutes.Proofs.Transcript.Effect

/-!
What a line states, and whom a directive shows to be present. All names that enter the record come
from aliases.
-/
namespace Minutes

/-- A directive that shows somebody to be present: the scribe, a chair, an entry of an attendance
list, or by an empty entry the author of the list. -/
inductive Rule.Attests (aliases : AliasIndex) (line : CommentLine) (argument name : String) :
    Rule → Prop where
  | scribe (h : aliases.resolve? (lowerCase (trim argument)) = some name) :
      Attests aliases line argument name .scribe
  | chair {entry : String} (he : entry ∈ nameList argument)
      (h : aliases.resolve? entry = some name) : Attests aliases line argument name .chair
  | present {entry : String} (he : entry ∈ listEntries argument) (hn : entry ≠ "")
      (h : aliases.resolveAttendee? entry = some name) :
      Attests aliases line argument name .present
  | author (he : "" ∈ listEntries argument) (h : aliases.resolve? line.nick = some name) :
      Attests aliases line argument name .present

theorem Rule.Attests.exists_resolve? {aliases : AliasIndex} {line : CommentLine} {rule : Rule}
    {argument name : String} (h : rule.Attests aliases line argument name) :
    ∃ a, aliases.resolve? a = some name := by
  cases h with
  | scribe h | chair _ h | author _ h => exact ⟨_, h⟩
  | present _ _ h => exact AliasIndex.exists_of_resolveAttendee? h

theorem Attendance.name?_ofEntry_eq_some_iff {aliases : AliasIndex} {nick entry name : String} :
    (Attendance.ofEntry aliases nick entry).name? = some name ↔
      entry = "" ∧ aliases.resolve? nick = some name ∨
        entry ≠ "" ∧ aliases.resolveAttendee? entry = some name := by
  unfold ofEntry
  split_ifs with he
  · cases h : aliases.resolve? nick <;> simp [name?, he]
  · cases h : aliases.resolveAttendee? entry <;> simp [name?, he]

namespace Rule

variable {aliases : AliasIndex} {line : CommentLine} {argument name : String}

theorem attests_scribe_iff : Rule.scribe.Attests aliases line argument name ↔
    aliases.resolve? (lowerCase (trim argument)) = some name := by
  constructor
  · rintro (h | _)
    exact h
  · exact .scribe

theorem attests_chair_iff : Rule.chair.Attests aliases line argument name ↔
    ∃ entry ∈ nameList argument, aliases.resolve? entry = some name := by
  constructor
  · rintro (_ | ⟨he, h⟩)
    exact ⟨_, he, h⟩
  · rintro ⟨_, he, h⟩
    exact .chair he h

/-- An attendance list shows those present whom its entries stand for. -/
theorem attests_present_iff : Rule.present.Attests aliases line argument name ↔
    ∃ entry ∈ listEntries argument,
      (Attendance.ofEntry aliases line.nick entry).name? = some name := by
  simp only [Attendance.name?_ofEntry_eq_some_iff]
  constructor
  · rintro (_ | _ | ⟨he, hn, h⟩ | ⟨he, h⟩)
    · exact ⟨_, he, .inr ⟨hn, h⟩⟩
    · exact ⟨_, he, .inl ⟨rfl, h⟩⟩
  · rintro ⟨entry, he, ⟨rfl, h⟩ | ⟨hn, h⟩⟩
    · exact .author he h
    · exact .present he hn h

end Rule

namespace Statement

variable {aliases : AliasIndex} {line : CommentLine}

/-- What a line states: nothing, or what its directive states, or its own remark. -/
theorem read_cases (aliases : AliasIndex) (s : List Char) :
    CommentLine.read? s = none ∧ read aliases s = .noise ∨
    ∃ line, CommentLine.read? s = some line ∧
      ((∃ rule argument, Rule.claiming? line = some (rule, argument) ∧
          read aliases s = ofRule aliases line rule argument) ∨
        Rule.claiming? line = none ∧ trim line.message = "" ∧ read aliases s = .blank line.raw ∨
        Rule.claiming? line = none ∧ trim line.message ≠ "" ∧
          read aliases s = .remark (.ofLine aliases line)) := by
  unfold read
  cases hl : CommentLine.read? s with
  | none => exact .inl ⟨rfl, rfl⟩
  | some line =>
    refine .inr ⟨line, rfl, ?_⟩
    simp only [ofLine]
    cases hc : Rule.claiming? line with
    | some claim => exact .inl ⟨claim.1, claim.2, rfl, rfl⟩
    | none =>
      by_cases hm : trim line.message = ""
      · exact .inr (.inl ⟨rfl, hm, if_pos hm⟩)
      · exact .inr (.inr ⟨rfl, hm, if_neg hm⟩)

theorem read_of_claiming {s : List Char} {rule : Rule} {argument : String}
    (hl : CommentLine.read? s = some line) (hc : Rule.claiming? line = some (rule, argument)) :
    read aliases s = ofRule aliases line rule argument := by
  simp only [read, hl, ofLine, hc]

theorem read_of_not_claimed {s : List Char} (hl : CommentLine.read? s = some line)
    (hc : Rule.claiming? line = none) (hm : trim line.message ≠ "") :
    read aliases s = .remark (.ofLine aliases line) := by
  simp only [read, hl, ofLine, hc, if_neg hm]

theorem resolve?_of_turn?_ofRule {line : CommentLine} {rule : Rule} {argument : String}
    {turn : ScribeTurn} (h : (ofRule aliases line rule argument).turn? = some turn) :
    aliases.resolve? turn.nick = some turn.name := by
  cases rule with
  | scribe =>
    simp only [ofRule] at h
    split at h
    · rename_i hr
      obtain rfl := Option.some.inj h
      exact hr
    · cases h
  | date | vote =>
    simp only [ofRule] at h
    split at h <;> cases h
  | _ => cases h

/-- The alias of a turn that begins means its scribe. -/
theorem resolve?_of_turn? {turn : ScribeTurn} (h : (read aliases s).turn? = some turn) :
    aliases.resolve? turn.nick = some turn.name := by
  rcases read_cases aliases s with ⟨_, hs⟩ | ⟨line, _, ⟨rule, argument, _, hs⟩ | ⟨_, _, hs⟩ |
    ⟨_, _, hs⟩⟩ <;> rw [hs] at h
  · cases h
  · exact resolve?_of_turn?_ofRule h
  · cases h
  · cases h

end Statement

namespace Record

variable {aliases : AliasIndex} {line : CommentLine} {rule : Rule} {argument name : String}

/-- A directive marks those whom it shows to be present. A vote marks its author, by the comment
that it is. -/
theorem mem_marks_ofRule_iff (r : Record) :
    name ∈ r.marks (Statement.ofRule aliases line rule argument) ↔
      rule.Attests aliases line argument name ∨
        rule = .vote ∧ aliases.resolve? line.nick = some name := by
  cases rule with
  | scribe =>
    rw [Rule.attests_scribe_iff]
    cases h : aliases.resolve? (lowerCase (trim argument)) <;>
      simp [Statement.ofRule, h, marks, eq_comm]
  | chair => simp [Rule.attests_chair_iff, Statement.ofRule, marks]
  | present => simp [Rule.attests_present_iff, Statement.ofRule, marks]
  | vote =>
    have hno : ¬ Rule.vote.Attests aliases line argument name := by
      intro h
      cases h
    cases h : aliases.resolve? line.nick <;> simp [hno, Statement.ofRule, h, marks, eq_comm]
  | date =>
    have hno : ¬ Rule.date.Attests aliases line argument name := by
      intro h
      cases h
    cases h : Date.read? argument <;> simp [hno, Statement.ofRule, h, marks]
  | _ =>
    refine iff_of_false (fun h => by cases h) ?_
    rintro (h | ⟨h, _⟩) <;> cases h

/-- Whoever a line marks present is meant by an alias. -/
theorem exists_resolve?_of_mem_marks {s : List Char} {r : Record}
    (h : name ∈ r.marks (Statement.read aliases s)) :
    ∃ a, aliases.resolve? a = some name := by
  rcases Statement.read_cases aliases s with ⟨_, hs⟩ | ⟨line, _, ⟨rule, argument, _, hs⟩ |
    ⟨_, _, hs⟩ | ⟨_, _, hs⟩⟩ <;> rw [hs] at h
  · cases h
  · rcases (mem_marks_ofRule_iff r).mp h with h | ⟨_, h⟩
    · exact h.exists_resolve?
    · exact ⟨_, h⟩
  · cases h
  · exact Remark.exists_resolve?_of_mem_marks h

end Record
end Minutes
