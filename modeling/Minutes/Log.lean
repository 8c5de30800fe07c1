import Minutes.Files.Fault

/-!
The messages that the program logs.
-/
namespace Minutes

inductive Mode where
  | html
  | text
  deriving DecidableEq

def Mode.name : Mode → String
  | .html => "html"
  | .text => "text"

def Mode.rendererName : Mode → String
  | .html => "HtmlRenderer"
  | .text => "TextRenderer"

inductive Level where
  | debug
  | info
  | warn
  deriving DecidableEq

def Level.name : Level → String
  | .debug => "DEBUG"
  | .info => "INFO"
  | .warn => "WARN"

/-- What a finished compilation counts. -/
structure Tally where
  lines : Nat
  topics : Nat
  resolutions : Nat
  actions : Nat
  attendees : Nat
  errors : Nat
  deriving DecidableEq

inductive Note where
  | unknownScribe (nick : String)
  | unknownPresent (nick : String)
  | unknownAttendee (entry : String)
  | unreadableDate (text : String)
  | unknownNick (nick : String)
  | indexed (entries participants : Nat)
  | compiled (mode : Mode) (tally : Tally)
  | openedMeeting (key : String) (size : Nat) (audio : Bool)
  | compiling (key : String) (mode : Mode)
  | skippedFolder (path : String)
  | skippedTranscript (path : String) (fault : Files.Fault)
  | scanned (meetings : Nat) (path : String)
  | readingPartial (path : String)
  | writingMinutes (path : String)
  | writingIndex (meetings : Nat) (path : String)
  | wrote (size : Nat) (path : String)
  | creatingConfig (path : String)
  | missingConfig (path : String)
  | loadedConfig (path : String)
  | loadedRoster (participants : Nat) (path : String)
  | missingRoster (path : String)
  deriving DecidableEq

namespace Note

def level : Note → Level
  | .unknownScribe _ | .unknownAttendee _ | .unreadableDate _ | .skippedTranscript .. |
    .missingRoster _ => .warn
  | .unknownPresent _ | .unknownNick _ | .indexed .. | .compiled .. | .compiling .. |
    .skippedFolder _ | .readingPartial _ => .debug
  | .openedMeeting .. | .scanned .. | .writingMinutes _ | .writingIndex .. | .wrote .. |
    .creatingConfig _ | .missingConfig _ | .loadedConfig _ | .loadedRoster .. => .info

def hexDigits (n : Nat) : List Char := Nat.toDigits 16 n

/-- A character between quotation marks: marks, backslashes and controls are escaped. -/
def quotedChar (c : Char) : List Char :=
  if c = '"' then "\\\"".toList
  else if c = '\\' then "\\\\".toList
  else if c = '\t' then "\\t".toList
  else if c = '\n' then "\\n".toList
  else if c = '\r' then "\\r".toList
  else if c = Char.ofNat 0 then "\\0".toList
  else if c.toNat < 0x20 ∨ (0x7F ≤ c.toNat ∧ c.toNat < 0xA0) then
    "\\u\x7b".toList ++ hexDigits c.toNat ++ ['\x7d']
  else [c]

def quoted (s : String) : String :=
  String.ofList ('"' :: s.toList.flatMap quotedChar ++ ['"'])

def truth (b : Bool) : String := if b then "true" else "false"

def tallyText (t : Tally) : String :=
  toString t.lines ++ " lines: " ++ toString t.topics ++ " topics, " ++ toString t.resolutions ++
    " resolutions, " ++ toString t.actions ++ " actions, " ++ toString t.attendees ++
    " attendees, " ++ toString t.errors ++ " errors"

def message : Note → String
  | .unknownScribe nick => "Scribe '" ++ nick ++ "' is not in the roster"
  | .unknownPresent nick => "present+ from unrecognised nick '" ++ nick ++ "'"
  | .unknownAttendee entry => "Could not find alias for '" ++ entry ++ "'"
  | .unreadableDate text => "Ignoring unparseable meeting date '" ++ text ++ "'"
  | .unknownNick nick => "Unrecognised nick '" ++ nick ++ "'"
  | .indexed entries participants =>
    "Built alias index with " ++ toString entries ++ " entries for " ++ toString participants ++
      " participants"
  | .compiled mode tally => mode.rendererName ++ " compiled " ++ tallyText tally
  | .openedMeeting key size audio =>
    "Loaded meeting " ++ key ++ " (" ++ toString size ++ " bytes of transcript, audio: " ++
      truth audio ++ ")"
  | .compiling key mode => "Compiling " ++ key ++ " as " ++ mode.name
  | .skippedFolder path => "Skipping " ++ path ++ " (no transcript)"
  | .skippedTranscript path fault =>
    "Skipping unreadable transcript " ++ path ++ ": " ++ fault.message
  | .scanned meetings path => "Found " ++ toString meetings ++ " meetings under " ++ path
  | .readingPartial path => "Reading page partial " ++ path
  | .writingMinutes path => "Writing minutes to " ++ path
  | .writingIndex meetings path =>
    "Writing index of " ++ toString meetings ++ " meetings to " ++ path
  | .wrote size path => "Wrote " ++ toString size ++ " bytes to " ++ path
  | .creatingConfig path => "Config file not found, creating default at " ++ quoted path
  | .missingConfig path => "Config file " ++ quoted path ++ " not found, using defaults"
  | .loadedConfig path => "Loaded config from " ++ quoted path
  | .loadedRoster participants path =>
    "Loaded " ++ toString participants ++ " participants from " ++ quoted path
  | .missingRoster path =>
    "No roster at " ++ path ++ "; every speaker will be unrecognised"

/-- A note as a line of the log. -/
def line (note : Note) : String := note.level.name ++ " " ++ note.message

end Note
end Minutes
