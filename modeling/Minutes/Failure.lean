import Minutes.Json.Scan
import Minutes.Meeting

/-!
Why the program stops, and how it says so.
-/
namespace Minutes
open Files

/-- How faults of the two file formats are worded. -/
structure FormatWording where
  json : Json.Fault → String
  toml : String

inductive Failure where
  | configUnreadable (fault : Fault)
  | configFolder (fault : Fault)
  | configUnwritable (fault : Fault)
  | configInvalid (path : Path)
  | rosterUnreadable (path : Path) (fault : Fault)
  | rosterInvalid (path : Path) (fault : Json.Fault)
  | meeting (folder : Path) (fault : MeetingFault)
  | pageUnreadable (path : Path) (fault : Fault)
  | archive (root : Path) (fault : Fault)
  | unwritable (path : Path) (fault : Fault)
  deriving DecidableEq

/-- The texts about a file that cannot be read: the cause is told again by itself. -/
def readingTexts (path cause : String) : List String :=
  ["failed to read " ++ path ++ ": " ++ cause, cause]

def MeetingFault.texts : MeetingFault → List String
  | .undated folder => ["directory name does not contain a YYYY-MM-DD date: " ++ folder]
  | .noTranscript transcript => ["transcript not found: " ++ transcript]
  | .unreadable transcript fault => readingTexts transcript fault.message

/-- The texts about a root folder that cannot be listed. -/
def Archive.texts (root : Path) (fault : Fault) : List String :=
  readingTexts root ("IO error for operation on " ++ root ++ ": " ++ fault.message) ++
    [fault.message]

namespace Failure

/-- The texts of a failure, from what was being done down to the cause. -/
def texts (w : FormatWording) : Failure → List String
  | .configUnreadable fault => ["Failed to read config file", fault.message]
  | .configFolder fault => ["Failed to create config directory", fault.message]
  | .configUnwritable fault => ["Failed to write config file", fault.message]
  | .configInvalid path => ["invalid config " ++ path ++ ": " ++ w.toml, w.toml]
  | .rosterUnreadable path fault =>
    ["Failed to load roster " ++ path, "failed to read roster " ++ path ++ ": " ++ fault.message,
      fault.message]
  | .rosterInvalid path fault =>
    ["Failed to load roster " ++ path, "invalid roster " ++ path ++ ": " ++ w.json fault,
      w.json fault]
  | .meeting folder fault => ("Failed to open meeting " ++ folder) :: fault.texts
  | .pageUnreadable path fault => "Failed to load page partials" :: readingTexts path fault.message
  | .archive root fault => ("Failed to scan " ++ root) :: Archive.texts root fault
  | .unwritable path fault => ["Failed to write " ++ path, fault.message]

def message (w : FormatWording) (f : Failure) : String := ": ".intercalate (f.texts w)

end Failure
end Minutes
