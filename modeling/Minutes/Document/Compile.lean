import Minutes.Document.Plain
import Minutes.Document.Web
import Minutes.Transcript.Hearing

/-!
The minutes of a meeting: the record of its transcript, and the document made from it.
-/
namespace Minutes

structure Settings where
  group : String := "Meeting"
  baseUrl : String := ""
  deriving DecidableEq

/-- What the minutes of all meetings of a group depend on. `today` dates a meeting without date. -/
structure Compiler where
  settings : Settings
  roster : Roster
  today : Date

namespace Mode

def event : Mode → Event → String
  | .html => Web.event
  | .text => Plain.event

/-- Plain text has no more than one blank line in a row. -/
def finish : Mode → String → String
  | .html => id
  | .text => closeUp

end Mode

namespace Compiler

def aliases (c : Compiler) : AliasIndex := .ofRoster c.roster

def indexNote (c : Compiler) : Note := .indexed c.aliases.size c.roster.length

/-- The record before the first line. -/
def opening (c : Compiler) (date : Option Date) (audio : Bool) : Record :=
  { group := c.settings.group, chairs := c.roster.chairs, date, audio }

def summary (c : Compiler) (r : Record) : Mode → String
  | .html => Web.summary c.today c.roster r
  | .text => Plain.summary c.today c.settings.baseUrl r

def hear (c : Compiler) (transcript : String) (date : Option Date) (audio : Bool) : Hearing :=
  .run c.aliases (c.opening date audio) (Text.lines transcript.toList)

/-- The document of a transcript that has been heard. -/
def document (c : Compiler) (mode : Mode) (hearing : Hearing) : String :=
  mode.finish (c.summary hearing.record mode ++ String.join (hearing.events.map mode.event))

end Compiler

def Event.isError : Event → Bool
  | .error _ => true
  | _ => false

def Hearing.tally (h : Hearing) (lines : Nat) : Tally where
  lines := lines
  topics := h.record.topics.length
  resolutions := h.record.resolutions.length
  actions := h.record.actions.length
  attendees := h.record.present.length
  errors := h.events.countP (·.isError)

/-- Finished minutes. -/
structure Compiled where
  document : String
  record : Record
  notes : List Note

def Compiler.compile (c : Compiler) (mode : Mode) (transcript : String) (date : Option Date)
    (audio : Bool) : Compiled :=
  let hearing := c.hear transcript date audio
  { document := c.document mode hearing
    record := hearing.record
    notes := hearing.notes ++
      [.compiled mode (hearing.tally (Text.lines transcript.toList).length)] }

end Minutes
