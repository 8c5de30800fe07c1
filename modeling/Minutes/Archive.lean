import Minutes.Meeting
import Minutes.Publishing.Index

/-!
The archive: a folder that holds a folder for each meeting.
-/
namespace Minutes.Archive
open Files

/-- What a folder of the archive adds to the index, and what is noted about it. A folder whose
transcript is missing or cannot be read adds nothing. -/
def visit (store : Store) (c : Compiler) (root : Path) (name : String) :
    Option MeetingSummary × List Note :=
  let folder := root.join name
  let transcript := folder.join transcriptName
  if store.isFile transcript then
    match store.read transcript with
    | .ok text =>
      let minutes := c.compile .text text (Date.ofPath? folder) false
      (some ⟨name, minutes.record.topics, minutes.record.resolutions⟩, minutes.notes)
    | .error fault => (none, [.skippedTranscript transcript fault])
  else (none, [.skippedFolder folder])

/-- Meetings in descending order of their keys. Keys that are dates put the newest first. -/
def newestFirst (meetings : List MeetingSummary) : List MeetingSummary :=
  meetings.mergeSort fun a b => decide (b.key ≤ a.key)

structure Scan where
  meetings : List MeetingSummary
  notes : List Note

/-- All meetings of an archive. A root that is not a folder holds none. -/
def scan (store : Store) (c : Compiler) (root : Path) : Except Fault Scan :=
  (store.find root).map fun (l, _) =>
    let visits := (store.folderNames l).map (visit store c root)
    let meetings := newestFirst (visits.filterMap (·.1))
    { meetings, notes := visits.flatMap (·.2) ++ [.scanned meetings.length root] }

end Minutes.Archive
