import Minutes.Document.Compile
import Minutes.Proofs.Roster.Claims
import Minutes.Proofs.Transcript.Directive
import Minutes.Proofs.Transcript.Remark

/-!
Who scribes, who chairs and who is present, at every point of a transcript: the alias of the scribe
goes with the last name of the scribe history, the scribes and the chairs set by a line are
present, and all of them are participants. So a line is the scribe's exactly if its nick means the
scribe.
-/
namespace Minutes

namespace Record

/-- The alias by which the current scribe was announced. -/
def scribeNick? (r : Record) : Option String := r.turn?.map (·.nick)

/-- The names of the scribes, turn by turn. -/
def scribeHistory (r : Record) : List String := r.turns.map (·.name)

theorem turns_hear (r : Record) (s : Statement) :
    (r.hear s).record.turns = r.turns ++ s.turn?.toList :=
  congrArg Proceedings.turns (proceedings_hear r s)

/-- The alias of the scribe is that of the last announcement. -/
theorem scribeNick?_hear (r : Record) (s : Statement) :
    (r.hear s).record.scribeNick? = (s.turn?.map (·.nick)).or r.scribeNick? := by
  unfold scribeNick? turn?
  rw [turns_hear]
  cases s.turn? <;> simp

theorem scribeHistory_hear (r : Record) (s : Statement) :
    (r.hear s).record.scribeHistory = r.scribeHistory ++ (s.turn?.map (·.name)).toList := by
  unfold scribeHistory
  rw [turns_hear]
  cases s.turn? <;> simp

theorem getLast?_scribeHistory (r : Record) : r.scribeHistory.getLast? = r.scribe? :=
  List.getLast?_map

theorem mem_insertName {a name : String} {names : List String} :
    a ∈ insertName name names ↔ a = name ∨ a ∈ names := by
  induction names with
  | nil => simp [insertName]
  | cons n names ih => grind [insertName]

theorem mem_insertNames {a : String} {names present : List String} :
    a ∈ insertNames names present ↔ a ∈ names ∨ a ∈ present := by
  unfold insertNames
  induction names generalizing present with
  | nil => simp
  | cons n names ih =>
    rw [List.foldl_cons, ih, mem_insertName, List.mem_cons]
    tauto

/-- Nobody leaves, and those whom a line marks come. -/
theorem mem_present_hear {r : Record} {s : Statement} {name : String} :
    name ∈ (r.hear s).record.present ↔ name ∈ r.marks s ∨ name ∈ r.present := by
  rw [present_hear, mem_insertNames]

/-- A line that begins a turn marks the scribe. -/
theorem mem_marks_of_turn? (r : Record) {s : Statement} {turn : ScribeTurn}
    (h : s.turn? = some turn) : turn.name ∈ r.marks s := by
  cases s with
  | scribe t =>
    obtain rfl := Option.some.inj h
    exact List.mem_singleton_self _
  | _ => cases h

/-- A line leaves the chairs, or sets chairs that it marks. -/
theorem chairs_hear (r : Record) (s : Statement) :
    (r.hear s).record.chairs = r.chairs ∨ (r.hear s).record.chairs = r.marks s := by
  have h : (r.hear s).record.chairs = (s.write r.heading).chairs :=
    congrArg Heading.chairs (heading_hear r s)
  rw [h]
  cases s with
  | chairs names => exact .inr rfl
  | _ => exact .inl rfl

end Record

namespace Hearing

variable (aliases : AliasIndex)

/-- The turns at scribing that the lines of a transcript begin. -/
def turns (lines : List (List Char)) : List ScribeTurn :=
  lines.filterMap fun line => (Statement.read aliases line).turn?

theorem turns_cons (line : List Char) (lines : List (List Char)) :
    turns aliases (line :: lines) =
      (Statement.read aliases line).turn?.toList ++ turns aliases lines := by
  unfold turns
  rw [List.filterMap_cons]
  cases (Statement.read aliases line).turn? <;> rfl

theorem turns_run (r : Record) (lines : List (List Char)) :
    (run aliases r lines).record.turns = r.turns ++ turns aliases lines := by
  induction lines generalizing r with
  | nil => exact (List.append_nil _).symm
  | cons line lines ih =>
    simp only [run, Record.hearLine]
    rw [ih, Record.turns_hear, turns_cons, List.append_assoc]

end Hearing

namespace Record

/-- What holds of the record at every point of a transcript that is heard with a roster. -/
structure Consistent (roster : Roster) (r : Record) : Prop where
  nick_iff : r.scribeNick?.isSome = true ↔ r.scribeHistory ≠ []
  nick_resolves : r.scribeNick?.bind (AliasIndex.ofRoster roster).resolve? =
    r.scribeHistory.getLast?
  scribes_present : r.scribeHistory ⊆ r.present
  present_known : r.present ⊆ roster.names
  chairs_cases : r.chairs = roster.chairs ∨ r.chairs ⊆ r.present

variable {roster : Roster} {r : Record}

namespace Consistent

theorem scribes_known (h : r.Consistent roster) : r.scribeHistory ⊆ roster.names :=
  List.Subset.trans h.scribes_present h.present_known

theorem chairs_known (h : r.Consistent roster) : r.chairs ⊆ roster.names := by
  rcases h.chairs_cases with hc | hc
  · rw [hc]
    exact roster.chairs_subset_names
  · exact List.Subset.trans hc h.present_known

/-- The current scribe is a participant who is present. -/
theorem mem_present_of_scribe? (h : r.Consistent roster) {name : String}
    (hn : r.scribe? = some name) : name ∈ r.present := by
  rw [← getLast?_scribeHistory] at hn
  exact h.scribes_present (List.mem_of_getLast? hn)

/-- A line is the scribe's exactly if its nick means the scribe: the alias of the scribe itself is
no exception, since it means the scribe as well. -/
theorem isScribe_iff (h : r.Consistent roster) (line : CommentLine) :
    r.isScribe (.ofLine (.ofRoster roster) line) = true ↔
      ∃ name, r.scribe? = some name ∧
        (AliasIndex.ofRoster roster).resolve? line.nick = some name := by
  have hr := h.nick_resolves
  rw [getLast?_scribeHistory] at hr
  unfold scribeNick? scribe? at hr
  unfold isScribe scribe?
  cases ht : r.turn? with
  | none => simp
  | some turn =>
    rw [ht] at hr
    have hturn : (AliasIndex.ofRoster roster).resolve? turn.nick = some turn.name := hr
    simp only [Remark.ofLine, Bool.or_eq_true, beq_iff_eq, Option.map_some, Option.some.injEq,
      exists_eq_left']
    -- equal nicks have equal meanings
    exact or_iff_right_of_imp (fun hn => hn ▸ hturn)

/-- A statement keeps the record consistent, if the alias of a turn that it begins means the scribe
and it marks nobody but participants. -/
theorem hear (h : r.Consistent roster) {s : Statement}
    (hturn : ∀ turn, s.turn? = some turn →
      (AliasIndex.ofRoster roster).resolve? turn.nick = some turn.name)
    (hknown : r.marks s ⊆ roster.names) : (r.hear s).record.Consistent roster := by
  have hstay : r.present ⊆ (r.hear s).record.present :=
    fun _ hn => mem_present_hear.mpr (.inr hn)
  have hcome : r.marks s ⊆ (r.hear s).record.present :=
    fun _ hn => mem_present_hear.mpr (.inl hn)
  constructor
  case nick_iff =>
    rw [scribeNick?_hear, scribeHistory_hear]
    cases s.turn? with
    | none => simpa using h.nick_iff
    | some turn => simp
  case nick_resolves =>
    rw [scribeNick?_hear, scribeHistory_hear]
    cases ht : s.turn? with
    | none => simpa using h.nick_resolves
    | some turn => simpa using hturn turn ht
  case scribes_present =>
    rw [scribeHistory_hear]
    apply List.append_subset.mpr ⟨List.Subset.trans h.scribes_present hstay, ?_⟩
    intro name hn
    obtain ⟨turn, ht, rfl⟩ := Option.map_eq_some_iff.mp (Option.mem_toList.mp hn)
    exact hcome (mem_marks_of_turn? r ht)
  case present_known =>
    intro name hn
    rcases mem_present_hear.mp hn with hm | hp
    · exact hknown hm
    · exact h.present_known hp
  case chairs_cases =>
    rcases chairs_hear r s with hc | hc <;> rw [hc]
    · exact h.chairs_cases.imp_right (List.Subset.trans · hstay)
    · exact .inr hcome

theorem hearLine (h : r.Consistent roster) (line : List Char) :
    (r.hearLine (.ofRoster roster) line).record.Consistent roster := by
  refine h.hear (fun _ => Statement.resolve?_of_turn?) ?_
  intro name hn
  obtain ⟨_, ha⟩ := exists_resolve?_of_mem_marks hn
  exact AliasIndex.mem_names_of_resolve? ha

/-- Hearing a whole transcript keeps the record consistent. -/
theorem run (h : r.Consistent roster) (lines : List (List Char)) :
    (Hearing.run (.ofRoster roster) r lines).record.Consistent roster := by
  induction lines generalizing r with
  | nil => exact h
  | cons line lines ih => exact ih (h.hearLine line)

end Consistent

end Record

namespace Compiler

variable (c : Compiler) (date : Option Date) (audio : Bool)

theorem opening_consistent : (c.opening date audio).Consistent c.roster where
  nick_iff := by simp [opening, Record.scribeNick?, Record.scribeHistory, Record.turn?]
  nick_resolves := rfl
  scribes_present := List.nil_subset _
  present_known := List.nil_subset _
  chairs_cases := .inl rfl

theorem run_consistent (lines : List (List Char)) :
    (Hearing.run c.aliases (c.opening date audio) lines).record.Consistent c.roster :=
  (c.opening_consistent date audio).run lines

/-- At every point of a transcript the alias of the scribe is that of the last turn that a line
began, and the scribe history lists the scribes of all turns. The alias is set exactly if the
history is not empty, and then it means the last of it; the scribes are present; those present, the
scribes and the chairs are participants; and the chairs are those of the roster or are present. A
line is the scribe's exactly if its nick means the scribe, and then there is a scribe to speak it.
-/
theorem scribing_consistent (lines : List (List Char)) :
    let r := (Hearing.run c.aliases (c.opening date audio) lines).record
    let turns := Hearing.turns c.aliases lines
    (r.scribeNick? = turns.getLast?.map (·.nick) ∧ r.scribeHistory = turns.map (·.name)) ∧
    (r.scribeNick?.isSome = true ↔ r.scribeHistory ≠ []) ∧
    r.scribeNick?.bind c.aliases.resolve? = r.scribeHistory.getLast? ∧
    r.scribeHistory ⊆ r.present ∧
    (r.present ⊆ c.roster.names ∧ r.scribeHistory ⊆ c.roster.names ∧
      r.chairs ⊆ c.roster.names) ∧
    (r.chairs = c.roster.chairs ∨ r.chairs ⊆ r.present) ∧
    ∀ line : CommentLine,
      (r.isScribe (.ofLine c.aliases line) = true ↔
        ∃ name, r.scribe? = some name ∧ c.aliases.resolve? line.nick = some name) ∧
      (r.isScribe (.ofLine c.aliases line) = true → r.scribe?.isSome = true) := by
  intro r turns
  have h : r.Consistent c.roster := c.run_consistent date audio lines
  have ht : r.turns = turns := Hearing.turns_run c.aliases (c.opening date audio) lines
  refine ⟨⟨?_, congrArg (List.map ScribeTurn.name) ht⟩, h.nick_iff, h.nick_resolves,
    h.scribes_present, ⟨h.present_known, h.scribes_known, h.chairs_known⟩, h.chairs_cases, ?_⟩
  · rw [← ht]
    rfl
  intro line
  refine ⟨h.isScribe_iff line, ?_⟩
  intro hs
  obtain ⟨name, hn, _⟩ := (h.isScribe_iff line).mp hs
  exact Option.isSome_of_eq_some hn

end Compiler
end Minutes
