import Minutes.Command.Request

/-!
The command line: the name of a command, with switches and options before and after it. Those of
one letter may share a hyphen.
-/
namespace Minutes.Command
open Files

inductive Name where
  | html
  | text
  | index
  | email
  | announce
  | version
  deriving DecidableEq

def Name.all : List Name := [.html, .text, .index, .email, .announce, .version]

def Name.word : Name → String
  | .html => "html"
  | .text => "text"
  | .index => "index"
  | .email => "email"
  | .announce => "announce"
  | .version => "version"

/-- The name that a word is. -/
def Name.ofWord? (word : String) : Option Name := Name.all.find? (·.word = word)

/-- The word that asks how to use the program. -/
def helpWord : String := "help"

inductive Switch where
  | verbose
  | write
  | quiet
  | help
  deriving DecidableEq

def Switch.word : Switch → String
  | .verbose => "verbose"
  | .write => "write"
  | .quiet => "quiet"
  | .help => "help"

def Switch.letter : Switch → Char
  | .verbose => 'v'
  | .write => 'w'
  | .quiet => 'q'
  | .help => 'h'

/-- What holds a path: an option, or the folder that a command works on. -/
inductive Slot where
  | config
  | output
  | folder
  deriving DecidableEq

/-- The name of a slot that is an option. -/
def Slot.word? : Slot → Option String
  | .config => some "config"
  | .output => some "output"
  | .folder => none

def Slot.letter? : Slot → Option Char
  | .output => some 'o'
  | .config | .folder => none

/-- Why a command line is refused. -/
inductive UsageFault where
  | unknownArgument
  | unknownCommand
  | missingCommand
  | nothingGiven
  | missingFolder
  | repeated
  | noValue
  | unwantedValue
  | helpAsked
  deriving DecidableEq

/-- What may stand at a place of the command line. -/
structure Grammar where
  switches : List Switch
  slots : List Slot

def Grammar.switch? (g : Grammar) (word : String) : Option Switch :=
  g.switches.find? (·.word = word)

def Grammar.slot? (g : Grammar) (word : String) : Option Slot :=
  g.slots.find? (·.word? = some word)

/-- What may stand before the name of the command. -/
def Grammar.outer : Grammar := ⟨[.verbose, .help], [.config]⟩

/-- What may stand after the name of a command. -/
def Grammar.after : Name → Grammar
  | .html => ⟨[.verbose, .help, .write, .quiet], [.config, .folder]⟩
  | .text | .email => ⟨[.verbose, .help], [.config, .output, .folder]⟩
  | .index | .announce => ⟨[.verbose, .help], [.config, .folder]⟩
  | .version => ⟨[.verbose, .help], [.config]⟩

/-- The arguments of one place. The last path is settled when the next argument has been seen; an
option waits for its path until then. -/
structure Given where
  switches : List Switch := []
  paths : List (Slot × Path) := []
  unsettled : Option (Slot × Option Path) := none

namespace Given

def isWaiting (g : Given) : Bool := g.unsettled.any (·.2.isNone)

def has (g : Given) (slot : Slot) : Bool :=
  g.paths.any (·.1 = slot) || g.unsettled.any (·.1 = slot)

def isOn (g : Given) (s : Switch) : Bool := s ∈ g.switches

def path? (g : Given) (slot : Slot) : Option Path := g.paths.lookup slot

/-- A path put in its slot. -/
def fill (g : Given) (slot : Slot) (path : Path) : Except UsageFault Given :=
  if g.paths.any (·.1 = slot) then .error .repeated
  else if path = "" then .error .noValue
  else .ok { g with paths := g.paths ++ [(slot, path)] }

def settle (g : Given) : Except UsageFault Given :=
  match g.unsettled with
  | none => .ok g
  | some (_, none) => .error .noValue
  | some (slot, some path) => { g with unsettled := none }.fill slot path

/-- A slot that waits for its path, or has one that is not settled yet. -/
def await (g : Given) (slot : Slot) (path : Option Path) : Except UsageFault Given :=
  g.settle.map fun g => { g with unsettled := some (slot, path) }

/-- A path that stands in the same argument as its option. -/
def attach (g : Given) (slot : Slot) (path : Path) : Except UsageFault Given := do
  (← g.settle).fill slot path

/-- The path that an option has waited for. -/
def receive (g : Given) (path : Path) : Given :=
  { g with unsettled := g.unsettled.map fun (slot, _) => (slot, some path) }

def turnOn (g : Given) (s : Switch) : Except UsageFault Given := do
  let g ← g.settle
  if s = .help then .error .helpAsked
  else if s ∈ g.switches then .error .repeated
  else .ok { g with switches := g.switches ++ [s] }

/-- An argument in full: a switch or an option, perhaps with its path. -/
def long (grammar : Grammar) (g : Given) (word : String) (value : Option Path) :
    Except UsageFault Given :=
  match grammar.switch? word, grammar.slot? word, value with
  | some s, _, none => g.turnOn s
  | some _, _, some _ => .error .unwantedValue
  | none, some slot, some path => g.attach slot path
  | none, some slot, none => g.await slot none
  | none, none, _ => .error .unknownArgument

/-- Letters that share a hyphen. The rest after an option is its path, perhaps with an equals sign
before it. -/
def letters (grammar : Grammar) (g : Given) : List Char → Except UsageFault Given
  | [] => .ok g
  | c :: cs =>
    match grammar.switches.find? (·.letter = c), grammar.slots.find? (·.letter? = some c) with
    | some s, _ => do letters grammar (← g.turnOn s) cs
    | none, some slot =>
      match cs with
      | [] => g.await slot none
      | '=' :: path => g.attach slot (String.ofList path)
      | path => g.attach slot (String.ofList path)
    | none, none => .error .unknownArgument

end Given

/-- An argument by the hyphens it starts with. -/
inductive Argument where
  | word (text : String)
  | letters (cs : List Char)
  | long (word : String) (value : Option Path)
  /-- Two hyphens alone: what follows is not looked at for switches and options. -/
  | divider

/-- A word and what follows an equals sign in it. -/
def splitValue (cs : List Char) : String × Option Path :=
  let name := cs.takeWhile (· ≠ '=')
  (String.ofList name,
    if name.length < cs.length then some (String.ofList (cs.drop (name.length + 1))) else none)

def Argument.of (text : String) : Argument :=
  match text.toList with
  | ['-', '-'] => .divider
  | '-' :: '-' :: cs => .long (splitValue cs).1 (splitValue cs).2
  | '-' :: c :: cs => .letters (c :: cs)
  | _ => .word text

/-- A word after the name of a command that is neither switch, option nor path of an option. -/
def Given.operand (grammar : Grammar) (g : Given) (text : String) : Except UsageFault Given :=
  if .folder ∈ grammar.slots ∧ !g.has .folder then g.await .folder (some text)
  else .error .unknownArgument

/-- The arguments after the name of a command. `divided` tells that a divider has been seen. -/
def readAfter (grammar : Grammar) (divided : Bool) (g : Given) :
    List String → Except UsageFault Given
  | [] => g.settle
  | text :: rest =>
    if divided then do readAfter grammar true (← g.operand grammar text) rest
    else
      match Argument.of text with
      | .divider => readAfter grammar true g rest
      | .long word value => do readAfter grammar false (← g.long grammar word value) rest
      | .letters cs => do readAfter grammar false (← g.letters grammar cs) rest
      | .word text =>
        if g.isWaiting then readAfter grammar false (g.receive text) rest
        else do readAfter grammar false (← g.operand grammar text) rest

/-- What the words after the help word ask for: a command that exists, or nothing in particular. -/
def readHelp : List String → UsageFault
  | [] => .helpAsked
  | [word] =>
    if (Name.ofWord? word).isSome ∨ word = helpWord then .helpAsked else .unknownCommand
  | _ => .unknownCommand

/-- The task of a command with the arguments after its name. -/
def Name.task (name : Name) (inner : Given) : Except UsageFault Task :=
  match name, inner.path? .folder with
  | .version, _ => .ok .version
  | _, none => .error .missingFolder
  | .html, some folder => .ok (.html folder (inner.isOn .write))
  | .text, some folder => .ok (.text folder (inner.path? .output))
  | .index, some folder => .ok (.index folder)
  | .email, some folder => .ok (.email folder (inner.path? .output))
  | .announce, some folder => .ok (.announce folder)

/-- A request with the arguments before and after the name of its command. A configuration file
that is named after it goes before one that is named before it. -/
def Request.of (outer inner : Given) (task : Task) : Request where
  task := task
  config := inner.path? .config <|> outer.path? .config
  verbose := outer.isOn .verbose || inner.isOn .verbose
  quiet := inner.isOn .quiet

/-- Reads the arguments from before the name of the command on. -/
def readFrom (divided : Bool) (outer : Given) : List String → Except UsageFault Request
  | [] => do
    let outer ← outer.settle
    .error (if outer.switches.isEmpty ∧ outer.paths.isEmpty then .nothingGiven else .missingCommand)
  | text :: rest =>
    let isCommand := (Name.ofWord? text).isSome || text == helpWord
    if divided then .error (if isCommand then .unknownArgument else .unknownCommand)
    else if isCommand ∧ !outer.isWaiting then
      match Name.ofWord? text with
      | none => .error (readHelp rest)
      | some name => do
        let inner ← readAfter (.after name) false {} rest
        let task ← name.task inner
        .ok (.of (← outer.settle) inner task)
    else
      match Argument.of text with
      | .divider => readFrom true outer rest
      | .long word value => do readFrom false (← outer.long .outer word value) rest
      | .letters cs => do readFrom false (← outer.letters .outer cs) rest
      | .word text =>
        if outer.isWaiting then readFrom false (outer.receive text) rest
        else .error .unknownCommand

/-- The request that the arguments of a command line make. -/
def Request.read (arguments : List String) : Except UsageFault Request :=
  readFrom false {} arguments

end Minutes.Command
