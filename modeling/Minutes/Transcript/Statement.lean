import Minutes.Calendar.Written
import Minutes.Roster.AliasIndex
import Minutes.Record
import Minutes.Transcript.Rule

/-!
What a line of a transcript states, as far as the line and the roster tell. Nothing here depends
on the record of the meeting.
-/
namespace Minutes

/-- An entry of an attendance list: a participant, or somebody who cannot be found. -/
inductive Attendance where
  | participant (name : String)
  | unknownEntry (entry : String)
  | unknownSpeaker (nick : String)
  deriving DecidableEq

/-- A comment that no rule claims. `speaker` is the participant of the nick. `quote` is set if the
text before the first colon means a participant, and holds the name with the text after the colon.
-/
structure Remark where
  nick : String
  speaker : Option String
  message : String
  raw : String
  quote : Option (String × String)
  isLink : Bool
  deriving DecidableEq

inductive Statement where
  /-- Not a comment, or noise of the chat. -/
  | noise
  | blank (raw : String)
  | scribe (turn : ScribeTurn)
  | unknownScribe (nick : String)
  | chairs (names : List String)
  | meeting (group : String)
  | present (entries : List Attendance)
  | noAudio
  | date (date : Date)
  | unreadableDate (text : String)
  | topic (text : String)
  | action (text : String)
  | agenda (url : String)
  | proposal (text : String)
  | resolution (text : String)
  | useCase (text : String)
  | totalPresent (text : String)
  | vote (name message : String)
  | remark (remark : Remark)
  deriving DecidableEq

/-- The text before the first colon, and the text after it. -/
def atColon? (s : String) : Option (String × String) :=
  match s.toList.dropWhile (· != ':') with
  | _ :: rest => some (String.ofList (s.toList.takeWhile (· != ':')), String.ofList rest)
  | [] => none

def namesAddress (s : String) : Bool := "http".toList.isPrefixOf (s.toList.map Char.toLower)

def Remark.ofLine (aliases : AliasIndex) (line : CommentLine) : Remark where
  nick := line.nick
  speaker := aliases.resolve? line.nick
  message := line.message
  raw := line.raw
  quote := (atColon? line.message).bind fun (before, rest) =>
    (aliases.resolve? (trim before)).map (·, rest)
  isLink := (atColon? line.message).any fun (before, _) => namesAddress (trim before)

/-- The attendance that an entry of a list gives; an empty entry is whoever wrote the line. -/
def Attendance.ofEntry (aliases : AliasIndex) (nick entry : String) : Attendance :=
  if entry = "" then
    match aliases.resolve? nick with
    | some name => .participant name
    | none => .unknownSpeaker nick
  else
    match aliases.resolveAttendee? entry with
    | some name => .participant name
    | none => .unknownEntry entry

namespace Statement

/-- What a line states that a rule claims. -/
def ofRule (aliases : AliasIndex) (line : CommentLine) (rule : Rule) (argument : String) :
    Statement :=
  match rule with
  | .scribe =>
    let nick := lowerCase (trim argument)
    match aliases.resolve? nick with
    | some name => .scribe ⟨nick, name⟩
    | none => .unknownScribe nick
  | .chair => .chairs ((nameList argument).filterMap aliases.resolve?)
  | .meeting => .meeting (trim argument)
  | .present => .present ((listEntries argument).map (Attendance.ofEntry aliases line.nick))
  | .audio => .noAudio
  | .date =>
    match Date.read? argument with
    | some d => .date d
    | none => .unreadableDate (trim argument)
  | .topic => .topic (trim argument)
  | .action => .action (trim argument)
  | .agenda => .agenda (trim argument)
  | .proposal => .proposal (trim argument)
  | .resolution => .resolution (trim argument)
  | .useCase => .useCase (trim argument)
  | .totalPresent => .totalPresent (trim argument)
  | .bot | .queue => .noise
  | .vote =>
    match aliases.resolve? line.nick with
    | some name => .vote name line.message
    | none => .noise

def ofLine (aliases : AliasIndex) (line : CommentLine) : Statement :=
  match Rule.claiming? line with
  | some (rule, argument) => ofRule aliases line rule argument
  | none => if trim line.message = "" then .blank line.raw else .remark (.ofLine aliases line)

def read (aliases : AliasIndex) (line : List Char) : Statement :=
  match CommentLine.read? line with
  | some line => ofLine aliases line
  | none => .noise

end Statement
end Minutes
