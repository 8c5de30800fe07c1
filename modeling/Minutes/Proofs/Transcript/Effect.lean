import Minutes.Proofs.Transcript.Remark
import Mathlib.Tactic

/-!
What a statement does to the record. A record has a heading, which only recorded lines write,
proceedings, which only visible lines write and all that a line ever reads, and the list of those
present, to which names are added in any order.
-/
namespace Minutes

/-- How a line shows in the minutes. -/
inductive Showing where
  | dropped
  | recorded
  | visible
  deriving DecidableEq

def Event.showing : Event → Showing
  | .dropped => .dropped
  | .recorded => .recorded
  | _ => .visible

def Statement.showing : Statement → Showing
  | .noise => .dropped
  | .unknownScribe _ | .chairs _ | .meeting _ | .present _ | .noAudio | .date _ |
    .unreadableDate _ | .agenda _ | .totalPresent _ => .recorded
  | .blank _ | .scribe _ | .topic _ | .action _ | .proposal _ | .resolution _ | .useCase _ |
    .vote .. | .remark _ => .visible

/-- What the header of the minutes shows, apart from the lists of items. -/
structure Heading where
  group : String
  chairs : List String
  totalPresent : Option String
  agenda : Option String
  date : Option Date
  audio : Bool

/-- What the body of the minutes is numbered and attributed by. -/
structure Proceedings where
  turns : List ScribeTurn
  topics : List String
  actions : List String
  resolutions : List String
  comments : Nat

/-- The kinds of items that the record lists and numbers. -/
inductive ItemKind where
  | topic
  | action
  | resolution
  deriving DecidableEq

/-- The number and the text of an item of a kind. -/
def Event.item? : ItemKind → Event → Option (Nat × String)
  | .topic, .topic id text => some (id, text)
  | .action, .action id text => some (id, text)
  | .resolution, .resolution id text => some (id, text)
  | _, _ => none

def Event.commentId? : Event → Option Nat
  | .comment c => some c.id
  | _ => none

/-- The turn at scribing that a statement begins. -/
def Statement.turn? : Statement → Option ScribeTurn
  | .scribe turn => some turn
  | _ => none

/-- The heading after a statement. -/
def Statement.write : Statement → Heading → Heading
  | .chairs names, h => { h with chairs := names }
  | .meeting name, h => { h with group := name }
  | .noAudio, h => { h with audio := false }
  | .date day, h => { h with date := some day }
  | .agenda url, h => { h with agenda := some url }
  | .totalPresent text, h => { h with totalPresent := some text }
  | _, h => h

/-- The proceedings after an event, with which a turn may begin. -/
def Proceedings.add (p : Proceedings) (turn : Option ScribeTurn) (e : Event) : Proceedings where
  turns := p.turns ++ turn.toList
  topics := p.topics ++ (e.item? .topic).toList.map (·.2)
  actions := p.actions ++ (e.item? .action).toList.map (·.2)
  resolutions := p.resolutions ++ (e.item? .resolution).toList.map (·.2)
  comments := p.comments + e.commentId?.toList.length

def Attendance.name? : Attendance → Option String
  | .participant name => some name
  | .unknownEntry _ | .unknownSpeaker _ => none

theorem Event.eq_recorded_of_showing {e : Event} (h : e.showing = .recorded) : e = .recorded := by
  cases e <;> first | rfl | exact nomatch h

namespace Record

def heading (r : Record) : Heading :=
  ⟨r.group, r.chairs, r.totalPresent, r.agenda, r.date, r.audio⟩

def proceedings (r : Record) : Proceedings :=
  ⟨r.turns, r.topics, r.actions, r.resolutions, r.comments⟩

/-- Those whom a statement shows to be present. -/
def marks (r : Record) : Statement → List String
  | .scribe turn => [turn.name]
  | .chairs names => names
  | .present entries => entries.filterMap (·.name?)
  | .vote name _ => [name]
  | .remark remark => remark.marks (r.isScribe remark)
  | _ => []

/-- Names entered into an ordered list of names, one after the other. -/
def insertNames (names present : List String) : List String :=
  names.foldl (fun present name => insertName name present) present

theorem eq_of_parts {r r' : Record} (hh : r.heading = r'.heading)
    (hp : r.proceedings = r'.proceedings) (ha : r.present = r'.present) : r = r' := by
  cases r
  cases r'
  simp only [heading, proceedings, Heading.mk.injEq, Proceedings.mk.injEq] at hh hp ha
  simp only [mk.injEq]
  tauto

theorem insertName_comm (a b : String) (names : List String) :
    insertName a (insertName b names) = insertName b (insertName a names) := by
  induction names with
  | nil =>
    rcases lt_trichotomy a b with h | rfl | h
    · simp [insertName, h, h.ne, h.ne', h.not_gt]
    · rfl
    · simp [insertName, h, h.ne, h.ne', h.not_gt]
  | cons n names ih =>
    rcases lt_trichotomy a n with h | h | h <;> rcases lt_trichotomy b n with h' | h' | h' <;>
      grind [insertName]

/-- In what order two groups are entered makes no difference. -/
theorem insertNames_comm (names names' present : List String) :
    insertNames names (insertNames names' present) =
      insertNames names' (insertNames names present) := by
  simp only [insertNames, ← List.foldl_append]
  apply List.perm_append_comm.foldl_eq'
  intro a _ b _ present
  exact insertName_comm b a present

@[simp] theorem heading_markAllPresent (r : Record) (names : List String) :
    (r.markAllPresent names).heading = r.heading := by
  induction names generalizing r with
  | nil => rfl
  | cons n names ih => exact ih (r.markPresent n)

@[simp] theorem proceedings_markAllPresent (r : Record) (names : List String) :
    (r.markAllPresent names).proceedings = r.proceedings := by
  induction names generalizing r with
  | nil => rfl
  | cons n names ih => exact ih (r.markPresent n)

@[simp] theorem present_markAllPresent (r : Record) (names : List String) :
    (r.markAllPresent names).present = insertNames names r.present := by
  induction names generalizing r with
  | nil => rfl
  | cons n names ih => exact ih (r.markPresent n)

theorem foldl_attend (r : Record) (entries : List Attendance) :
    entries.foldl attend r = r.markAllPresent (entries.filterMap (·.name?)) := by
  induction entries generalizing r with
  | nil => rfl
  | cons entry entries ih =>
    cases entry with
    | participant name => exact ih (r.markPresent name)
    | unknownEntry _ => exact ih r
    | unknownSpeaker _ => exact ih r

/-- Whether a line is dropped, recorded or visible does not depend on the record. -/
theorem showing_hear (r : Record) (s : Statement) : (r.hear s).event.showing = s.showing := by
  cases s with
  | remark remark =>
    rcases hearRemark_cases r remark with ⟨_, _, he, _⟩ | ⟨_, _, he | ⟨_, he⟩⟩ <;>
      simp [hear, he, Event.showing, Statement.showing]
  | _ => rfl

theorem present_hear (r : Record) (s : Statement) :
    (r.hear s).record.present = insertNames (r.marks s) r.present := by
  cases s with
  | remark remark =>
    rcases hearRemark_cases r remark with ⟨_, _, _, hr⟩ | ⟨hm, hr, _⟩
    · simp only [hear, hr]
      exact present_markAllPresent r _
    · simp only [hear, hr, marks, hm]
      rfl
  | chairs names => exact present_markAllPresent _ _
  | present entries =>
    simp only [hear, foldl_attend]
    exact present_markAllPresent _ _
  | _ => rfl

theorem heading_hear (r : Record) (s : Statement) :
    (r.hear s).record.heading = s.write r.heading := by
  cases s with
  | remark remark =>
    rcases hearRemark_cases r remark with ⟨_, _, _, hr⟩ | ⟨_, hr, _⟩
    · simp only [hear, hr]
      exact heading_markAllPresent r _
    · simp only [hear, hr]
      rfl
  | chairs names => exact heading_markAllPresent _ _
  | present entries =>
    simp only [hear, foldl_attend]
    exact heading_markAllPresent r _
  | _ => rfl

theorem proceedings_addComment (r : Record) (names : List String) (comment : Comment) :
    (r.markAllPresent names).addComment.proceedings =
      r.proceedings.add none (.comment comment) := by
  have hp := proceedings_markAllPresent r names
  simp only [proceedings, Proceedings.mk.injEq] at hp
  simp only [proceedings, addComment, hp, Proceedings.add, Event.item?, Event.commentId?,
    Option.toList_none, Option.toList_some, List.map_nil, List.append_nil, List.length_singleton]

/-- The proceedings grow by what the event shows, and by the turn that begins. -/
theorem proceedings_hear (r : Record) (s : Statement) :
    (r.hear s).record.proceedings = r.proceedings.add s.turn? (r.hear s).event := by
  cases s with
  | remark remark =>
    rcases hearRemark_cases r remark with ⟨_, _, he, hr⟩ | ⟨_, hr, he | ⟨_, he⟩⟩
    · simp only [hear, hr, he]
      exact proceedings_addComment r _ _
    all_goals simp [hear, hr, he, Proceedings.add, Statement.turn?, Event.item?, Event.commentId?]
  | vote name message => exact proceedings_addComment r [name] _
  | chairs names =>
    refine (proceedings_markAllPresent { r with chairs := names } names).trans ?_
    simp [hear, Proceedings.add, Statement.turn?, Event.item?, Event.commentId?, proceedings]
  | present entries =>
    simp only [hear, foldl_attend]
    refine (proceedings_markAllPresent r _).trans ?_
    simp [Proceedings.add, Statement.turn?, Event.item?, Event.commentId?]
  | _ =>
    simp [hear, Proceedings.add, Statement.turn?, Event.item?, Event.commentId?, proceedings,
      addTurn, addTopic, addAction, addResolution, markPresent]

theorem write_of_not_recorded {s : Statement} (h : s.showing ≠ .recorded) (heading : Heading) :
    s.write heading = heading := by
  cases s <;> first | rfl | exact absurd rfl h

theorem proceedings_hear_of_recorded (r : Record) {s : Statement} (h : s.showing = .recorded) :
    (r.hear s).record.proceedings = r.proceedings := by
  have ht : s.turn? = none := by cases s <;> first | rfl | exact nomatch h
  have he : (r.hear s).event = .recorded := by
    have hs := showing_hear r s
    rw [h] at hs
    exact Event.eq_recorded_of_showing hs
  rw [proceedings_hear, ht, he]
  simp [Proceedings.add, Event.item?, Event.commentId?]

theorem hear_of_dropped (r : Record) {s : Statement} (h : s.showing = .dropped) :
    (r.hear s).record = r := by
  cases s <;> first | rfl | cases h

/-- Whom a recorded line marks present does not depend on the record. -/
theorem marks_of_recorded (r r' : Record) {s : Statement} (h : s.showing = .recorded) :
    r.marks s = r'.marks s := by
  cases s <;> first | rfl | exact nomatch h

section congruence

variable {r r' : Record}

theorem isScribe_congr (h : r.proceedings = r'.proceedings) (remark : Remark) :
    r.isScribe remark = r'.isScribe remark := by
  have ht : r.turns = r'.turns := congrArg Proceedings.turns h
  simp only [isScribe, turn?, ht]

theorem marks_congr (h : r.proceedings = r'.proceedings) (s : Statement) :
    r.marks s = r'.marks s := by
  cases s with
  | remark remark => simp only [marks, isScribe_congr h]
  | _ => rfl

/-- A line reads nothing but the proceedings. -/
theorem event_hear_congr (h : r.proceedings = r'.proceedings) (s : Statement) :
    (r.hear s).event = (r'.hear s).event := by
  have ht : r.turns = r'.turns := congrArg Proceedings.turns h
  have h₁ : r.topics = r'.topics := congrArg Proceedings.topics h
  have h₂ : r.actions = r'.actions := congrArg Proceedings.actions h
  have h₃ : r.resolutions = r'.resolutions := congrArg Proceedings.resolutions h
  have hc : r.comments = r'.comments := congrArg Proceedings.comments h
  cases s with
  | topic text => simp only [hear, h₁]
  | action text => simp only [hear, h₂]
  | resolution text => simp only [hear, h₃]
  | vote name message => simp only [hear, comment, markPresent, hc]
  | remark remark =>
    simp only [hear, hearRemark, isScribe_congr h]
    split
    · simp only [hearScribe, scribe?, turn?, ht, comment]
      split
      · rfl
      · split <;> simp only [markPresent, hc]
    · simp only [hearParticipant, comment]
      split <;> simp only [markPresent, hc]
  | _ => rfl

theorem proceedings_hear_congr (h : r.proceedings = r'.proceedings) (s : Statement) :
    (r.hear s).record.proceedings = (r'.hear s).record.proceedings := by
  rw [proceedings_hear, proceedings_hear, h, event_hear_congr h]

end congruence

end Record

/-- A transcript in two parts is heard part by part. -/
theorem Hearing.record_run_append (aliases : AliasIndex) (r : Record) (xs ys : List (List Char)) :
    (run aliases r (xs ++ ys)).record = (run aliases (run aliases r xs).record ys).record := by
  induction xs generalizing r with
  | nil => rfl
  | cons line xs ih => exact ih _

end Minutes
