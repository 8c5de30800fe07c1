import Minutes.Html.Links
import Minutes.Record
import Minutes.Transcript.Event

/-!
Minutes as an HTML fragment: a summary of the record, and a block for each event.
-/
namespace Minutes.Web
open Html

def newline : Node := .text "\n"

def block (className : String) (content : List Node) : List Node :=
  [.element "div" [("class", className)] content, newline]

def anchored (tag anchor className : String) (content : List Node) : List Node :=
  [.element tag [("id", anchor), ("class", className)] content, newline]

def strong (label : String) : List Node := [.element "strong" [] [.text label], .text " "]

def anchor (kind : String) (n : Nat) : String := kind ++ "-" ++ toString n

def assistNodes : Option String → List Node
  | some assist => [.text (" [scribe assist by " ++ assist ++ "]")]
  | none => []

def commentNodes (c : Comment) : List Node :=
  anchored "div" (toString c.id) "comment" <|
    [.element "span" [("class", "name")] [.text c.speaker], .text ": "] ++ linkedText c.text ++
    assistNodes c.assist ++
    [.text " ",
     .element "a" [("id", anchor "link" c.id), ("class", "comment-link"),
       ("href", "#" ++ toString c.id)] [.text "✪"]]

/-- The block of an event; a silent one has none. -/
def eventNodes : Event → List Node
  | .dropped | .recorded => []
  | .information text => block "information" (linkedText text)
  | .topic id text => anchored "h1" (anchor "topic" id) "topic" (.text "Topic: " :: linkedText text)
  | .action id text =>
    anchored "div" (anchor "action" id) "action" (.text "ACTION: " :: linkedText text)
  | .proposal text => block "proposal" (strong "PROPOSAL:" ++ linkedText text)
  | .resolution id text =>
    anchored "div" (anchor "resolution" id) "resolution" (strong "RESOLUTION:" ++ linkedText text)
  | .useCase text => block "usecase" (strong "USE CASE:" ++ linkedText text)
  | .comment comment => commentNodes comment
  | .continuation text => block "comment-continuation" (linkedText text)
  | .error text => block "error" (.text "Error: " :: linkedText text)

/-- An entry of the summary. -/
def entry (title : String) (content : List Node) : List Node :=
  [.element "dt" [] [.text title], .element "dd" [] content, newline]

def itemNode (kind : String) (item : String) (n : Nat) : Node :=
  .element "li" [] [link ("#" ++ anchor kind n) item]

/-- A numbered list of links to the items of a kind; an empty list is left out. -/
def numberedEntry (title kind : String) (items : List String) : List Node :=
  if items.isEmpty then []
  else entry title [.element "ol" [] ((items.zipIdx 1).map fun (item, n) => itemNode kind item n)]

def attendeeNode : String × Option String → Node
  | (name, some homepage) => link homepage name
  | (name, none) => .text name

def presentNodes (r : Record) (roster : Roster) : List Node :=
  let nodes := (r.attendees roster).map attendeeNode ++ r.totalPresent.toList.map Node.text
  nodes.intersperse (.text ", ")

def audioFile : String := "audio.ogg"

def audioNodes : List Node :=
  [.element "div" [] [link audioFile audioFile], newline,
   .element "div" []
     [.element "audio" [("controls", "controls"), ("preload", "none")]
       [newline, .void "source" [("src", audioFile), ("type", "audio/ogg")],
        .text ("Warning: Your browser does not support the HTML5 audio element, " ++
          "please upgrade.")]]]

def agendaEntry : Option String → List Node
  | some url => entry "Agenda" [link url url]
  | none => []

def audioEntry (audio : Bool) : List Node := if audio then entry "Audio Log" audioNodes else []

def summaryEntries (r : Record) (roster : Roster) : List Node :=
  agendaEntry r.agenda ++
  numberedEntry "Topics" "topic" r.topics ++
  numberedEntry "Resolutions" "resolution" r.resolutions ++
  numberedEntry "Action Items" "action" r.actions ++
  entry "Organizer" [.text (", ".intercalate r.chairs)] ++
  entry "Scribe" [.text (", ".intercalate r.scribes)] ++
  entry "Present" (presentNodes r roster) ++
  audioEntry r.audio

def summaryNodes (today : Date) (roster : Roster) (r : Record) : List Node :=
  [.element "h1" [] [.text r.group], newline,
   .element "h2" [] [.text ("Minutes for " ++ (r.dateOr today).iso)], newline,
   .element "div" [("class", "summary")]
     [newline, .element "dl" [] (newline :: summaryEntries r roster), newline],
   newline]

def event (e : Event) : String := printAll (eventNodes e)

def summary (today : Date) (roster : Roster) (r : Record) : String :=
  printAll (summaryNodes today roster r)

end Minutes.Web
