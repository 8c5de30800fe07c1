import Minutes.Command.Line
import Minutes.Command.Run
import Std.Time.Zoned

/-!
The program. It copies the files that a command may look at into a store, runs the command there,
and carries out what has changed.
-/
namespace Minutes.Program
open Files Command

def wording : FormatWording where
  json
    | .malformed => "not JSON"
    | .mismatched => "not the JSON of a roster"
    | .truncated => "the JSON ends too early"
  toml := "not the TOML of a configuration"

/-- A store with what a path names, and with the folder that holds it. `content` tells whether the
bytes of a file matter. -/
def lookAt (store : Store) (path : Path) (content : Bool) : IO Store := do
  let here ← IO.currentDir
  let outer := (path.parent?).getD ""
  let store :=
    if ← (here / outer).isDir then (store.makeFolders outer).toOption.getD store else store
  let place := here / path
  if ← place.isDir then return (store.makeFolders path).toOption.getD store
  if !(← place.pathExists) then return store
  let bytes ← if content then IO.FS.readBinFile place else pure .empty
  return match store.target path with
    | .ok l => store.put l (.file bytes)
    | .error _ => store

def lookAtAll (store : Store) (paths : List Path) : IO Store :=
  paths.foldlM (fun store path => lookAt store path true) store

/-- The folders directly in a folder. -/
def foldersIn (root : Path) : IO (List Path) := do
  let place := (← IO.currentDir) / root
  if !(← place.isDir) then return []
  let folders ← (← place.readDir).filterM fun entry => entry.path.isDir
  return folders.toList.map fun entry => root.join entry.fileName

/-- The files that a task looks at or writes. -/
def taskPaths : Task → IO (List Path)
  | .html folder _ | .announce folder =>
    return [folder, folder.join transcriptName, folder.join Workplace.pageName]
  | .text folder output | .email folder output =>
    return [folder, folder.join transcriptName] ++ output.toList
  | .index root => do
    let held ← foldersIn root
    return [root, root.join Workplace.pageName] ++ held ++ held.map (·.join transcriptName)
  | .version => return []

/-- The recording that a task asks for. -/
def recording? : Task → Option Path
  | .html folder _ | .text folder _ | .email folder _ | .announce folder =>
    some (folder.join recordingName)
  | .index _ | .version => none

/-- The surroundings of a request, with all that it looks at. -/
def gather (r : Request) (s : Surroundings) : IO Surroundings := do
  let s := { s with store := ← lookAtAll s.store [s.home, r.config.getD s.configPath] }
  match findConfig s r.config [] with
  | (.error _, _) => return s
  | (.ok (config, _), _) =>
    let store ← lookAtAll s.store <|
      config.rosterPath s.home r.config :: config.page.header.toList ++
        config.page.footer.toList ++ config.page.indexIntro.toList ++ (← taskPaths r.task)
    let recordings := (recording? r.task).toList
    return { s with store := ← recordings.foldlM (fun store path => lookAt store path false) store }

/-- Carries out what has changed between two stores. -/
def carryOut (before after : Store) : IO Unit := do
  for (l, e) in after.entries.reverse do
    if before.entry? l ≠ some e then
      let path := "/" ++ "/".intercalate l
      match e with
      | .folder => IO.FS.createDirAll path
      | .file bytes => IO.FS.writeBinFile path bytes

/-- Whether a note is shown: a request asks for more of them or for fewer. -/
def isShown (r : Request) (note : Note) : Bool :=
  match note.level with
  | .debug => r.verbose
  | .info => r.verbose || !r.quiet
  | .warn => true

/-- The folder of the user's own configuration. -/
def homeFolder : IO Path := do
  let fallback := Path.join ((← IO.getEnv "HOME").getD "") ".config"
  let base := ((← IO.getEnv "XDG_CONFIG_HOME").filter Path.isAbsolute).getD fallback
  return Path.join base programName

/-- The day on which the program runs. No text of a command tells it, since every meeting that one
works on has a date. -/
def today : IO Date := do
  let fallback : Date := ⟨1970, 1, 1, by decide⟩
  try
    let d ← Std.Time.PlainDate.now
    return (Date.of? d.year d.month.val.toNat d.day.val.toNat).getD fallback
  catch _ => return fallback

def run (r : Request) : IO UInt32 := do
  let here := (← IO.currentDir).toString
  let start := (Path.pieces here).filter (· ≠ "")
  let store := (Store.makeFolders { start := [] } here).toOption.getD {}
  let s ← gather r { store := { store with start }, home := ← homeFolder, today := ← today }
  let outcome := r.run s
  carryOut s.store outcome.store
  for note in outcome.notes.filter (isShown r) do IO.eprintln note.line
  IO.print outcome.printed
  match outcome.failure with
  | none => return 0
  | some failure =>
    IO.eprintln ("Error: " ++ failure.message wording)
    return 1

def usage : String :=
  "Usage: " ++ programName ++ " [--verbose] [--config PATH] " ++
    "(html | text | index | email | announce | version) [FOLDER] [OPTIONS]"

end Minutes.Program

def main (arguments : List String) : IO UInt32 := do
  match Minutes.Command.Request.read arguments with
  | .ok request => Minutes.Program.run request
  | .error fault =>
    IO.eprintln Minutes.Program.usage
    return if fault = .helpAsked then 0 else 2
