import Minutes.Json.Skip
import Minutes.Json.Value
import Minutes.Roster.Participant

/-!
The roster file: a JSON object with a member for each participant, in their order. A participant
is an object, of which unknown members are skipped, or a list of the aliases, the chair flag and
the homepage. The first fault in the text decides.
-/
namespace Minutes.RosterFile
open Json

/-- The fault of a value that is not what was expected. The value is still read as far as its kind
is told. -/
def mismatch (s : List Char) : Except Fault α :=
  match s with
  | [] => .error .truncated
  | c :: rest => do
    let _ ←
      if c = '"' then (string rest).map (·.2)
      else if c = 'n' then word "ull".toList rest
      else if c = 't' then word "rue".toList rest
      else if c = 'f' then word "alse".toList rest
      else if c = '-' ∨ isDigit c then number (c :: rest)
      else if c = '[' ∨ c = '\x7b' then .ok rest
      else .error .malformed
    .error .mismatched

/-- The members of a participant that have been given so far. -/
structure Draft where
  aliases : Option (List String) := none
  chair : Option Bool := none
  homepage : Option (Option String) := none

def Draft.participant (d : Draft) (name : String) : Participant where
  name := name
  aliases := d.aliases.getD []
  chair := d.chair.getD false
  homepage := d.homepage.getD none

inductive Field where
  | aliases
  | chair
  | homepage
  deriving DecidableEq

def Field.ofKey? (key : List Char) : Option Field :=
  if key = "alias".toList then some .aliases
  else if key = "chair".toList then some .chair
  else if key = "homepage".toList then some .homepage
  else none

def Field.isGiven (d : Draft) : Field → Bool
  | .aliases => d.aliases.isSome
  | .chair => d.chair.isSome
  | .homepage => d.homepage.isSome

/-- The text of a string value. -/
def Value.text? : Value → Option String
  | .string text => some (String.ofList text)
  | _ => none

/-- Aliases are a string, or a list of strings. -/
def aliasesOf? : Value → Option (List String)
  | .string text => some [String.ofList text]
  | .list items => items.mapM Value.text?
  | .other => none

def readAliases (s : List Char) : Except Fault (List String × List Char) := do
  let (v, rest) ← valueWithin (s.length + 1) (nestingLimit - 2) s
  match aliasesOf? v with
  | some names => .ok (names, rest)
  | none => .error .mismatched

def readChair (s : List Char) : Except Fault (Bool × List Char) :=
  match skipBlanks s with
  | [] => .error .truncated
  | c :: rest =>
    if c = 't' then (word "rue".toList rest).map (true, ·)
    else if c = 'f' then (word "alse".toList rest).map (false, ·)
    else mismatch (c :: rest)

def readHomepage (s : List Char) : Except Fault (Option String × List Char) :=
  match skipBlanks s with
  | [] => .error .truncated
  | c :: rest =>
    if c = 'n' then (word "ull".toList rest).map (none, ·)
    else if c = '"' then (string rest).map fun (text, rest) => (some (String.ofList text), rest)
    else mismatch (c :: rest)

/-- The value of a field, entered into the draft. -/
def Field.read (d : Draft) (s : List Char) : Field → Except Fault (Draft × List Char)
  | .aliases => (readAliases s).map fun (v, rest) => ({ d with aliases := some v }, rest)
  | .chair => (readChair s).map fun (v, rest) => ({ d with chair := some v }, rest)
  | .homepage => (readHomepage s).map fun (v, rest) => ({ d with homepage := some v }, rest)

/-- The rest of a participant that is written as an object. -/
def members (fuel : Nat) (d : Draft) (first : Bool) (s : List Char) :
    Except Fault (Draft × List Char) :=
  match fuel with
  | 0 => .error .truncated
  | fuel + 1 => do
    let (more, s) ← nextItem '\x7d' first s
    if more then
      let (name, s) ← key s
      match Field.ofKey? name with
      | some field =>
        if field.isGiven d then .error .mismatched
        else
          let (d, s) ← field.read d (← colon s)
          members fuel d false s
      | none => members fuel d false (← skipValue (← colon s))
    else .ok (d, s)

def listEnd (s : List Char) : Except Fault (List Char) :=
  match skipBlanks s with
  | [] => .error .truncated
  | c :: rest => if c = ']' then .ok rest else .error .malformed

/-- The rest of a participant that is written as a list; nothing may follow the fields. -/
def positions (d : Draft) (first : Bool) (s : List Char) :
    List Field → Except Fault (Draft × List Char)
  | [] => (listEnd s).map (d, ·)
  | field :: fields => do
    let (more, s) ← nextItem ']' first s
    if more then
      let (d, s) ← field.read d s
      positions d false s fields
    else .ok (d, s)

def draft (s : List Char) : Except Fault (Draft × List Char) :=
  match skipBlanks s with
  | [] => .error .truncated
  | c :: rest =>
    if c = '\x7b' then members (rest.length + 1) {} true rest
    else if c = '[' then positions {} true rest [.aliases, .chair, .homepage]
    else mismatch (c :: rest)

/-- The rest of the object of all participants. -/
def entries (fuel : Nat) (first : Bool) (s : List Char) : Except Fault (Roster × List Char) :=
  match fuel with
  | 0 => .error .truncated
  | fuel + 1 => do
    let (more, s) ← nextItem '\x7d' first s
    if more then
      let (name, s) ← key s
      let (d, s) ← draft (← colon s)
      let (roster, s) ← entries fuel false s
      .ok (d.participant (String.ofList name) :: roster, s)
    else .ok ([], s)

/-- A roster that takes up a whole text. -/
def read (s : List Char) : Except Fault Roster :=
  match skipBlanks s with
  | [] => .error .truncated
  | c :: rest =>
    if c = '\x7b' then do
      let (roster, rest) ← entries (rest.length + 1) true rest
      if (skipBlanks rest).isEmpty then .ok roster else .error .malformed
    else mismatch (c :: rest)

end Minutes.RosterFile

namespace Minutes

def Roster.read (text : String) : Except Json.Fault Roster := RosterFile.read text.toList

end Minutes
