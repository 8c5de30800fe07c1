import Minutes.Roster.Participant
import Minutes.Text.Hex

/-!
The compact JSON text of a participant, without the name. Empty members are left out.
-/
namespace Minutes.RosterFile

/-- A character within a string. -/
def stringChar (c : Char) : List Char :=
  if c = '"' then "\\\"".toList
  else if c = '\\' then "\\\\".toList
  else if c = '\x08' then "\\b".toList
  else if c = '\x0c' then "\\f".toList
  else if c = '\n' then "\\n".toList
  else if c = '\r' then "\\r".toList
  else if c = '\t' then "\\t".toList
  else if c.toNat < 0x20 then
    "\\u00".toList ++ [Text.hexDigit (c.toNat / 16), Text.hexDigit (c.toNat % 16)]
  else [c]

def stringText (s : String) : String :=
  String.ofList ('"' :: s.toList.flatMap stringChar ++ ['"'])

def memberText (name value : String) : String := stringText name ++ ":" ++ value

def listText (items : List String) : String := "[" ++ ",".intercalate (items.map stringText) ++ "]"

def flagText (b : Bool) : String := if b then "true" else "false"

def membersOf (p : Participant) : List String :=
  (if p.aliases.isEmpty then [] else [memberText "alias" (listText p.aliases)]) ++
    [memberText "chair" (flagText p.chair)] ++
    (p.homepage.map fun url => memberText "homepage" (stringText url)).toList

end Minutes.RosterFile

namespace Minutes

def Participant.json (p : Participant) : String :=
  "\x7b" ++ ",".intercalate (RosterFile.membersOf p) ++ "\x7d"

end Minutes
