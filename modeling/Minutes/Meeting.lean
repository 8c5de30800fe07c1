import Minutes.Calendar.InPath
import Minutes.Document.Compile
import Minutes.Files.Store

/-!
The folder of a meeting: it carries the date in its name, and holds the transcript and perhaps a
recording.
-/
namespace Minutes
open Files

def transcriptName : String := "irc.log"
def recordingName : String := "audio.ogg"

/-- Why a folder is not that of a meeting. -/
inductive MeetingFault where
  | undated (folder : Path)
  | noTranscript (transcript : Path)
  | unreadable (transcript : Path) (fault : Fault)
  deriving DecidableEq

/-- A meeting as its folder, at the given path, tells it. The key names the folder in addresses. -/
structure Meeting where
  path : Path
  key : String
  date : Date
  transcript : String
  audio : Bool
  deriving DecidableEq

namespace Meeting

/-- The names that lead to a folder: those of its location, or of the path if nothing is there. -/
def namesTo (store : Store) (folder : Path) : List String :=
  (store.locate? folder).getD folder.pieces

def read (store : Store) (folder : Path) : Except MeetingFault Meeting :=
  let names := namesTo store folder
  match Calendar.dateOfNames? names with
  | none => .error (.undated folder)
  | some date =>
    let transcript := folder.join transcriptName
    if store.isFile transcript then
      match store.read transcript with
      | .ok text =>
        .ok { path := folder, key := names.getLast?.getD date.iso, date, transcript := text,
              audio := store.isFile (folder.join recordingName) }
      | .error fault => .error (.unreadable transcript fault)
    else .error (.noTranscript transcript)

def openingNote (m : Meeting) : Note := .openedMeeting m.key m.transcript.utf8ByteSize m.audio

/-- The address of the minutes. -/
def url (m : Meeting) (baseUrl : String) : String := baseUrl ++ m.key ++ "/"

def compile (m : Meeting) (c : Compiler) (mode : Mode) : Compiled :=
  let minutes := c.compile mode m.transcript (some m.date) m.audio
  { minutes with notes := .compiling m.key mode :: minutes.notes }

end Meeting
end Minutes
