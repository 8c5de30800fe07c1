import Minutes.Record
import Minutes.Text.Wrap
import Minutes.Transcript.Event

/-!
Minutes as plain text for electronic mail: an outline and a summary of the record, and a paragraph
for each event.
-/
namespace Minutes.Plain

/-- The columns that a line may take. -/
def width : Nat := 65

def indent : String := "\n  "

def itemIndent : String := "\n    "

def filled (s : String) : String := wrap width indent s

def assistText : Option String → String
  | some assist => " [scribe assist by " ++ assist ++ "]"
  | none => ""

def commentText (c : Comment) : String := c.speaker ++ ": " ++ c.text ++ assistText c.assist

/-- The paragraph of an event; a silent one has none. -/
def event : Event → String
  | .dropped | .recorded => ""
  | .information text => filled text ++ "\n"
  | .topic _ text => "\nTopic: " ++ text ++ "\n\n"
  | .action _ text => "\n\n" ++ filled ("ACTION: " ++ text) ++ "\n\n"
  | .proposal text => "\n" ++ filled ("PROPOSAL: " ++ text) ++ "\n\n"
  | .resolution _ text => "\n" ++ filled ("RESOLUTION: " ++ text) ++ "\n\n"
  | .useCase text => "\n" ++ filled ("USE CASE: " ++ text) ++ "\n\n"
  | .comment comment => filled (commentText comment) ++ "\n"
  | .continuation text => "  " ++ wrap (width - 2) indent text ++ "\n"
  | .error text => "\n" ++ filled ("Error: " ++ text) ++ "\n"

def item (text : String) (n : Nat) : String :=
  "  " ++ wrap (width - 2) itemIndent (toString n ++ ". " ++ text) ++ "\n"

/-- A titled list of numbered items; an empty list is left out. -/
def numberedList (title : String) (items : List String) : String :=
  if items.isEmpty then ""
  else title ++ ":\n" ++ String.join ((items.zipIdx 1).map fun (text, n) => item text n)

def agendaText : Option String → String
  | some url => "Agenda:\n  " ++ url ++ "\n"
  | none => ""

/-- The agenda and the lists of topics, resolutions and actions. -/
def outline (r : Record) : String :=
  agendaText r.agenda ++ numberedList "Topics" r.topics ++
    numberedList "Resolutions" r.resolutions ++ numberedList "Action Items" r.actions

/-- Where the recording of a meeting is, among the minutes under an address. -/
def audioAddress (baseUrl : String) (date : Date) : String := baseUrl ++ date.iso ++ "/audio.ogg"

def audioText (baseUrl : String) (date : Date) (audio : Bool) : String :=
  if audio then "Audio:\n  " ++ audioAddress baseUrl date ++ "\n\n" else "\n"

def summary (today : Date) (baseUrl : String) (r : Record) : String :=
  let date := r.dateOr today
  r.group ++ " Minutes for " ++ date.iso ++ "\n\n" ++ outline r ++
    "Organizer:\n  " ++ " and ".intercalate r.chairs ++ "\n" ++
    "Scribe:\n  " ++ " and ".intercalate r.scribes ++ "\n" ++
    "Present:\n  " ++ filled (", ".intercalate (r.present ++ r.totalPresent.toList)) ++ "\n" ++
    audioText baseUrl date r.audio

end Minutes.Plain
