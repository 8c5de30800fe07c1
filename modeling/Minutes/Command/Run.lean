import Minutes.Archive
import Minutes.Command.Request
import Minutes.Config.Reading
import Minutes.Config.Writing
import Minutes.Failure
import Minutes.Publishing.Page
import Minutes.Roster.Reading

/-!
Running a command on a store. A command reads all that it needs before it writes, and writes one
file at most; only the configuration file may be made before that, if there is none.
-/
namespace Minutes.Command
open Files

def programName : String := "scrawl"
def programVersion : String := "0.5.0"
def versionText : String := programName ++ " " ++ programVersion ++ "\n"

/-- Where the program runs: the store, the folder of the user's own configuration, and the day. -/
structure Surroundings where
  store : Store
  home : Path
  today : Date

namespace Surroundings

def configName : String := "config.toml"

/-- The configuration file that is used if the command line names none. -/
def configPath (s : Surroundings) : Path := s.home.join configName

end Surroundings

/-- Reading, with notes on what is done. The notes stay when a failure ends it. -/
abbrev Noted := ExceptT Failure (StateM (List Note))

def take (note : Note) : Noted Unit := modify (· ++ [note])

def takeAll (notes : List Note) : Noted Unit := modify (· ++ notes)

/-- A result, or the failure that its fault means. -/
def orFail (failure : ε → Failure) : Except ε α → Noted α
  | .ok a => pure a
  | .error fault => throw (failure fault)

/-- The configuration in a file that exists. -/
def readConfig (store : Store) (path : Path) : Noted Config := do
  let text ← orFail .configUnreadable (store.read path)
  match Config.read? text with
  | some config => do
    take (.loadedConfig path)
    pure config
  | none => throw (.configInvalid path)

/-- The configuration in a file that the command line names. There are defaults if it is missing. -/
def namedConfig (store : Store) (path : Path) : Noted Config :=
  if store.exists? path then readConfig store path
  else do
    take (.missingConfig path)
    pure {}

/-- A store with a configuration in a file. The folder of the file is made if it is missing. -/
def saveConfig (store : Store) (path : Path) (config : Config) : Noted Store := do
  let store ← orFail .configFolder (store.makeFolders (path.parent?.getD ""))
  orFail .configUnwritable (store.write path config.text)

/-- The user's own configuration, and the store that holds it. It is made if it is missing. -/
def ownConfig (s : Surroundings) : Noted (Config × Store) :=
  if s.store.exists? s.configPath then do
    let config ← readConfig s.store s.configPath
    pure (config, s.store)
  else do
    take (.creatingConfig s.configPath)
    let store ← saveConfig s.store s.configPath {}
    pure ({}, store)

/-- The configuration, and the store after it has been read. -/
def findConfig (s : Surroundings) : Option Path → Noted (Config × Store)
  | some path => (·, s.store) <$> namedConfig s.store path
  | none => ownConfig s

def readRoster (store : Store) (path : Path) : Noted Roster := do
  let text ← orFail (.rosterUnreadable path) (store.read path)
  let roster ← orFail (.rosterInvalid path) (Roster.read text)
  take (.loadedRoster roster.length path)
  pure roster

/-- The roster of a configuration. Only one that the configuration names must exist. -/
def findRoster (store : Store) (config : Config) (path : Path) : Noted Roster :=
  if store.exists? path ∨ config.roster.isSome then readRoster store path
  else do
    take (.missingRoster path)
    pure []

/-- What every command works with. -/
structure Workplace where
  store : Store
  config : Config
  compiler : Compiler

def Workplace.load (s : Surroundings) (config : Config) (store : Store) (named : Option Path) :
    Noted Workplace := do
  let roster ← findRoster store config (config.rosterPath s.home named)
  let compiler : Compiler := { settings := config.settings, roster, today := s.today }
  take compiler.indexNote
  pure { store, config, compiler }

/-- A text that a command has made, and the file that it goes to, or else the standard output. -/
structure Product where
  text : String
  path : Option Path := none
  /-- Notes before and after the file is written. -/
  announced : List Note := []
  confirmed : List Note := []

/-- A product that may go to a file, which is noted with its size. -/
def Product.ofText (text : String) : Option Path → Product
  | none => { text }
  | some path => { text, path := some path, confirmed := [.wrote text.utf8ByteSize path] }

namespace Workplace

def openMeeting (w : Workplace) (folder : Path) : Noted Meeting := do
  let m ← orFail (.meeting folder) (Meeting.read w.store folder)
  take m.openingNote
  pure m

/-- The text of a file of the page, or else the default. -/
def pageText (w : Workplace) (path : Option Path) (default : String) : Noted String :=
  match path with
  | none => pure default
  | some path => do
    take (.readingPartial path)
    orFail (.pageUnreadable path) (w.store.read path)

def pageShell (w : Workplace) : Noted PageShell := do
  let default : PageShell := {}
  let header ← w.pageText w.config.page.header default.header
  let footer ← w.pageText w.config.page.footer default.footer
  let indexIntro ← w.pageText w.config.page.indexIntro default.indexIntro
  pure { header, footer, indexIntro }

def compile (w : Workplace) (m : Meeting) (mode : Mode) : Noted Compiled := do
  let minutes := m.compile w.compiler mode
  takeAll minutes.notes
  pure minutes

def pageName : String := "index.html"

/-- The page of a meeting, which can be put into its folder. -/
def html (w : Workplace) (folder : Path) (write : Bool) : Noted Product := do
  let m ← w.openMeeting folder
  let shell ← w.pageShell
  let minutes ← w.compile m .html
  let page := shell.minutesPage minutes.document
  let path := m.path.join pageName
  pure <| if write then { text := page, path := some path, announced := [.writingMinutes path] }
    else { text := page }

def text (w : Workplace) (folder : Path) (output : Option Path) : Noted Product := do
  let minutes ← w.compile (← w.openMeeting folder) .text
  pure (.ofText minutes.document output)

/-- The page of the archive, which is put into its folder. -/
def index (w : Workplace) (root : Path) : Noted Product := do
  let scan ← orFail (.archive root) (Archive.scan w.store w.compiler root)
  takeAll scan.notes
  let shell ← w.pageShell
  let path := root.join pageName
  pure { text := shell.indexPage (Index.render scan.meetings), path := some path,
         announced := [.writingIndex scan.meetings.length path] }

def email (w : Workplace) (folder : Path) (output : Option Path) : Noted Product := do
  let m ← w.openMeeting folder
  let minutes ← w.compile m .text
  let url := m.url w.config.settings.baseUrl
  pure (.ofText (Mail.compose w.compiler.today w.config.mail minutes url).text output)

def announce (w : Workplace) (folder : Path) : Noted Product := do
  let m ← w.openMeeting folder
  let minutes ← w.compile m .text
  let url := m.url w.config.settings.baseUrl
  pure (.ofText (Post.compose w.compiler.today w.config.post minutes.record url ++ "\n") none)

end Workplace

/-- The product of a task. -/
def Task.product (w : Workplace) : Task → Noted Product
  | .html folder write => w.html folder write
  | .text folder output => w.text folder output
  | .index root => w.index root
  | .email folder output => w.email folder output
  | .announce folder => w.announce folder
  | .version => pure { text := versionText }

/-- What a command leaves behind. -/
structure Outcome where
  store : Store
  printed : String := ""
  notes : List Note := []
  failure : Option Failure := none

/-- A product put where it belongs. -/
def Product.deliver (p : Product) (store : Store) (notes : List Note) : Outcome :=
  match p.path with
  | none => { store, printed := p.text, notes }
  | some path =>
    match store.write path p.text with
    | .ok written => { store := written, notes := notes ++ p.announced ++ p.confirmed }
    | .error fault =>
      { store, notes := notes ++ p.announced, failure := some (.unwritable path fault) }

/-- Carries out a task that needs a configuration. -/
def Request.work (r : Request) (s : Surroundings) : Outcome :=
  match findConfig s r.config [] with
  | (.error failure, notes) => { store := s.store, notes, failure := some failure }
  | (.ok (config, store), notes) =>
    let product : Noted Product := do r.task.product (← Workplace.load s config store r.config)
    match product notes with
    | (.error failure, notes) => { store, notes, failure := some failure }
    | (.ok p, notes) => p.deliver store notes

def Request.run (r : Request) (s : Surroundings) : Outcome :=
  if r.task = .version then { store := s.store, printed := versionText } else r.work s

end Minutes.Command
