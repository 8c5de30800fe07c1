import Minutes.Log
import Minutes.Transcript.Event
import Minutes.Transcript.Statement

/-!
How the record of a meeting takes in a transcript, line by line.
-/
namespace Minutes

/-- What a line does: the record after it, the event in the minutes, and notes for the log. -/
structure Outcome where
  record : Record
  event : Event
  notes : List Note := []

namespace Record

/-- Whether a remark is typed by the scribe, under any nick. -/
def isScribe (r : Record) (remark : Remark) : Bool :=
  match r.turn? with
  | some turn => turn.nick == remark.nick || remark.speaker == some turn.name
  | none => false

def comment (r : Record) (speaker text : String) (assist : Option String) : Outcome where
  record := r.addComment
  event := .comment (.of (r.comments + 1) speaker text assist)

def opensWithEllipsis (s : String) : Bool :=
  "…".toList.isPrefixOf s.toList || "...".toList.isPrefixOf s.toList

/-- A line of the scribe: it goes on, or quotes a participant, or is the scribe's own. -/
def hearScribe (r : Record) (remark : Remark) : Outcome :=
  if opensWithEllipsis remark.message then ⟨r, .continuation remark.message, []⟩
  else match remark.quote with
    | some (name, text) => (r.markPresent name).comment name text none
    | none => r.comment (r.scribe?.getD remark.nick) remark.message none

/-- A line of anybody else: a quotation taken down for the scribe, a link, or a remark of one's
own, for which one must be in the roster. -/
def hearParticipant (r : Record) (remark : Remark) : Outcome :=
  match remark.quote, remark.isLink, remark.speaker with
  | some (name, text), _, speaker =>
    (r.markPresent name).comment name text (some (speaker.getD remark.nick))
  | none, true, speaker => r.comment (speaker.getD remark.nick) remark.message none
  | none, false, some name => (r.markPresent name).comment name remark.message none
  | none, false, none =>
    ⟨r, .error ("(IRC nickname '" ++ remark.nick ++ "' not recognized)" ++ remark.raw),
      [.unknownNick remark.nick]⟩

def hearRemark (r : Record) (remark : Remark) : Outcome :=
  if r.isScribe remark then r.hearScribe remark else r.hearParticipant remark

def attend (r : Record) : Attendance → Record
  | .participant name => r.markPresent name
  | .unknownEntry _ | .unknownSpeaker _ => r

end Record

def Attendance.note? : Attendance → Option Note
  | .participant _ => none
  | .unknownEntry entry => some (.unknownAttendee entry)
  | .unknownSpeaker nick => some (.unknownPresent nick)

namespace Record

def hear (r : Record) : Statement → Outcome
  | .noise => ⟨r, .dropped, []⟩
  | .blank raw => ⟨r, .error ("(Strange line format)" ++ raw), []⟩
  | .scribe turn => ⟨r.addTurn turn, .information (turn.name ++ " is scribing."), []⟩
  | .unknownScribe nick => ⟨r, .recorded, [.unknownScribe nick]⟩
  | .chairs names => ⟨{ r with chairs := names }.markAllPresent names, .recorded, []⟩
  | .meeting group => ⟨{ r with group := group }, .recorded, []⟩
  | .present entries => ⟨entries.foldl attend r, .recorded, entries.filterMap (·.note?)⟩
  | .noAudio => ⟨{ r with audio := false }, .recorded, []⟩
  | .date date => ⟨{ r with date := some date }, .recorded, []⟩
  | .unreadableDate text => ⟨r, .recorded, [.unreadableDate text]⟩
  | .topic text => ⟨r.addTopic text, .topic (r.topics.length + 1) text, []⟩
  | .action text => ⟨r.addAction text, .action (r.actions.length + 1) text, []⟩
  | .agenda url => ⟨{ r with agenda := some url }, .recorded, []⟩
  | .proposal text => ⟨r, .proposal text, []⟩
  | .resolution text => ⟨r.addResolution text, .resolution (r.resolutions.length + 1) text, []⟩
  | .useCase text => ⟨r, .useCase text, []⟩
  | .totalPresent text => ⟨{ r with totalPresent := some text }, .recorded, []⟩
  | .vote name message => (r.markPresent name).comment name message none
  | .remark remark => r.hearRemark remark

/-- The outcome of one line of a transcript. -/
def hearLine (aliases : AliasIndex) (r : Record) (line : List Char) : Outcome :=
  r.hear (Statement.read aliases line)

end Record

/-- What a whole transcript does, with its events in order. -/
structure Hearing where
  record : Record
  events : List Event := []
  notes : List Note := []

def Hearing.run (aliases : AliasIndex) (r : Record) : List (List Char) → Hearing
  | [] => ⟨r, [], []⟩
  | line :: lines =>
    let outcome := r.hearLine aliases line
    let rest := run aliases outcome.record lines
    ⟨rest.record, outcome.event :: rest.events, outcome.notes ++ rest.notes⟩

end Minutes
