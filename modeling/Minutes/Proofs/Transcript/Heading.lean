import Minutes.Document.Compile
import Minutes.Proofs.Transcript.Directive

/-!
Who decides what the heading of the minutes says: of the lines that the rule of a field claims, the
last one whose argument has a value for it. No other line has a say.
-/
namespace Minutes

/-- A field of the record that some lines set, and the others leave, is as the last of them set it.
-/
theorem Hearing.last_set {α : Type} {aliases : AliasIndex} (field : Record → α)
    (set? : List Char → Option α)
    (h : ∀ r line, field (r.hearLine aliases line).record = (set? line).getD (field r)) (r : Record)
    (lines : List (List Char)) :
    field (run aliases r lines).record = (lines.filterMap set?).getLast?.getD (field r) := by
  induction lines generalizing r with
  | nil => rfl
  | cons line lines ih =>
    rw [run, ih, h]
    cases hv : set? line with
    | none => rw [List.filterMap_cons_none hv, Option.getD_none]
    | some value =>
      rw [List.filterMap_cons_some hv, List.getLast?_cons, Option.getD_some, Option.getD_some]

/-- Where values may be missing, the last one is there if there is any. -/
theorem getD_getLast?_map_some {α : Type} (values : List α) (initial : Option α) :
    (values.map some).getLast?.getD initial = values.getLast?.or initial := by
  rw [List.getLast?_map]
  cases values.getLast? <;> rfl

namespace Rule

/-- The rule that claims a line of a transcript, with its argument. -/
def claimed? (s : List Char) : Option (Rule × String) := (CommentLine.read? s).bind claiming?

/-- The argument of a rule in a line of a transcript, if it is the rule that claims the line. -/
def argumentIn? (rule : Rule) (s : List Char) : Option String :=
  (claimed? s).bind fun (claimed, argument) => if claimed = rule then some argument else none

/-- The arguments of the lines that a rule claims. -/
def arguments (rule : Rule) (lines : List (List Char)) : List String :=
  lines.filterMap rule.argumentIn?

/-- The heading after a line that a rule claims. -/
def write (aliases : AliasIndex) (argument : String) (h : Heading) : Rule → Heading
  | .chair => { h with chairs := (nameList argument).filterMap aliases.resolve? }
  | .meeting => { h with group := trim argument }
  | .audio => { h with audio := false }
  | .date => { h with date := (Date.read? argument).or h.date }
  | .agenda => { h with agenda := some (trim argument) }
  | .totalPresent => { h with totalPresent := some (trim argument) }
  | _ => h

theorem write_ofRule (aliases : AliasIndex) (line : CommentLine) (rule : Rule) (argument : String)
    (h : Heading) :
    (Statement.ofRule aliases line rule argument).write h = rule.write aliases argument h := by
  cases rule with
  | scribe | date | vote =>
    simp only [Statement.ofRule, write]
    split <;> simp_all [Statement.write]
  | _ => rfl

end Rule

/-- Of the heading, a line writes what the rule writes that claims it. -/
theorem Record.heading_hearLine (aliases : AliasIndex) (r : Record) (s : List Char) :
    (r.hearLine aliases s).record.heading =
      match Rule.claimed? s with
      | some (rule, argument) => rule.write aliases argument r.heading
      | none => r.heading := by
  rw [hearLine, heading_hear]
  rcases Statement.read_cases aliases s with ⟨hl, hs⟩ | ⟨line, hl, ⟨rule, argument, hc, hs⟩ |
    ⟨hc, -, hs⟩ | ⟨hc, -, hs⟩⟩
  · simp only [Rule.claimed?, hl, hs, Option.bind_none]
    rfl
  · simp only [Rule.claimed?, hl, hc, hs, Option.bind_some]
    exact Rule.write_ofRule ..
  · simp only [Rule.claimed?, hl, hc, hs, Option.bind_some]
    rfl
  · simp only [Rule.claimed?, hl, hc, hs, Option.bind_some]
    rfl

namespace Rule

/-- A field of the heading is the affair of a rule: an argument that has a value sets the field to
it, and no other rule writes the field. -/
structure Decides {α : Type} (aliases : AliasIndex) (rule : Rule) (field : Heading → α)
    (value? : String → Option α) : Prop where
  own : ∀ argument h, field (rule.write aliases argument h) = (value? argument).getD (field h)
  other : ∀ other argument h, other ≠ rule → field (write aliases argument h other) = field h

namespace Decides

variable {α : Type} {aliases : AliasIndex} {rule : Rule} {field : Heading → α}

theorem hearLine {value? : String → Option α} (hd : rule.Decides aliases field value?) (r : Record)
    (s : List Char) :
    field (r.hearLine aliases s).record.heading =
      ((rule.argumentIn? s).bind value?).getD (field r.heading) := by
  rw [Record.heading_hearLine, argumentIn?]
  cases claimed? s with
  | none => rfl
  | some claim =>
    obtain ⟨claimed, argument⟩ := claim
    by_cases hc : claimed = rule
    · simp only [hc, if_true, Option.bind_some]
      exact hd.own argument r.heading
    · simp only [if_neg hc, Option.bind_some, Option.bind_none, Option.getD_none]
      exact hd.other claimed argument r.heading hc

/-- Of the lines that the rule of a field claims, the last with a value decides. -/
theorem run {value? : String → Option α} (hd : rule.Decides aliases field value?) (r : Record)
    (lines : List (List Char)) :
    field (Hearing.run aliases r lines).record.heading =
      ((rule.arguments lines).filterMap value?).getLast?.getD (field r.heading) := by
  rw [arguments, List.filterMap_filterMap]
  exact Hearing.last_set (fun r => field r.heading) _ hd.hearLine r lines

/-- If every argument has a value, the last line that the rule claims decides. -/
theorem run_of_total {value : String → α}
    (hd : rule.Decides aliases field fun argument => some (value argument)) (r : Record)
    (lines : List (List Char)) :
    field (Hearing.run aliases r lines).record.heading =
      ((rule.arguments lines).getLast?.map value).getD (field r.heading) := by
  rw [hd.run, List.filterMap_eq_map', List.getLast?_map]

end Decides

variable (aliases : AliasIndex)

theorem decides_group :
    Decides aliases .meeting (·.group) (fun argument => some (trim argument)) where
  own _ _ := rfl
  other rule _ _ hr := by
    cases rule with
    | meeting => exact absurd rfl hr
    | _ => rfl

theorem decides_chairs : Decides aliases .chair (·.chairs)
    (fun argument => some ((nameList argument).filterMap aliases.resolve?)) where
  own _ _ := rfl
  other rule _ _ hr := by
    cases rule with
    | chair => exact absurd rfl hr
    | _ => rfl

theorem decides_agenda :
    Decides aliases .agenda (·.agenda) (fun argument => some (some (trim argument))) where
  own _ _ := rfl
  other rule _ _ hr := by
    cases rule with
    | agenda => exact absurd rfl hr
    | _ => rfl

theorem decides_totalPresent : Decides aliases .totalPresent (·.totalPresent)
    (fun argument => some (some (trim argument))) where
  own _ _ := rfl
  other rule _ _ hr := by
    cases rule with
    | totalPresent => exact absurd rfl hr
    | _ => rfl

theorem decides_date :
    Decides aliases .date (·.date) (fun argument => (Date.read? argument).map some) where
  own argument _ := by
    simp only [write]
    cases Date.read? argument <;> rfl
  other rule _ _ hr := by
    cases rule with
    | date => exact absurd rfl hr
    | _ => rfl

theorem decides_audio : Decides aliases .audio (·.audio) (fun _ => some false) where
  own _ _ := rfl
  other rule _ _ hr := by
    cases rule with
    | audio => exact absurd rfl hr
    | _ => rfl

end Rule

/-- What the heading of the minutes says is decided by the last line that its rule claims, and by
the settings, the roster and the meeting if there is none. A chair line counts even if it names
nobody, a date line only if its date can be read. -/
theorem Compiler.heading_decided (c : Compiler) (date : Option Date) (audio : Bool)
    (lines : List (List Char)) :
    let r := (Hearing.run c.aliases (c.opening date audio) lines).record
    r.group = ((Rule.meeting.arguments lines).getLast?.map trim).getD c.settings.group ∧
    r.chairs = ((Rule.chair.arguments lines).getLast?.map fun argument =>
      (nameList argument).filterMap c.aliases.resolve?).getD c.roster.chairs ∧
    r.agenda = (Rule.agenda.arguments lines).getLast?.map trim ∧
    r.totalPresent = (Rule.totalPresent.arguments lines).getLast?.map trim ∧
    r.date = ((Rule.date.arguments lines).filterMap Date.read?).getLast?.or date ∧
    (r.audio = true ↔ audio = true ∧ Rule.audio.arguments lines = []) := by
  intro r
  have hsome (o : Option String) : (o.map fun argument => some (trim argument)).getD none =
      o.map trim := by cases o <;> rfl
  have hdate := (Rule.decides_date c.aliases).run (c.opening date audio) lines
  have haudio := (Rule.decides_audio c.aliases).run_of_total (c.opening date audio) lines
  refine ⟨(Rule.decides_group c.aliases).run_of_total _ lines,
    (Rule.decides_chairs c.aliases).run_of_total _ lines,
    ((Rule.decides_agenda c.aliases).run_of_total _ lines).trans (hsome _),
    ((Rule.decides_totalPresent c.aliases).run_of_total _ lines).trans (hsome _), ?_, ?_⟩
  · rw [← List.map_filterMap, getD_getLast?_map_some] at hdate
    exact hdate
  · change r.heading.audio = true ↔ _
    rw [haudio]
    cases hlast : (Rule.audio.arguments lines).getLast? with
    | none => simp [List.getLast?_eq_none_iff.mp hlast, Record.heading, opening]
    | some argument =>
      have hne : Rule.audio.arguments lines ≠ [] := List.ne_nil_of_mem (List.mem_of_getLast? hlast)
      simp [hne]

end Minutes
