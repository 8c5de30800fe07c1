import Minutes.Text.WordChar
import Minutes.Calendar.Written

/-!
The date that a path carries in its folder names.
-/
namespace Minutes.Calendar
open Text

def isHyphen (c : Char) : Bool := c == '-'

/-- The shape of a date in a name: four digits, two and two, with hyphens between them. -/
def dateShape : List (Char → Bool) :=
  List.replicate 4 isDecimalDigit ++ isHyphen :: List.replicate 2 isDecimalDigit ++
    isHyphen :: List.replicate 2 isDecimalDigit

def hasShape : List (Char → Bool) → List Char → Bool
  | [], _ => true
  | _ :: _, [] => false
  | p :: ps, c :: s => p c && hasShape ps s

/-- The first piece of a name that has the shape of a date. -/
def datePiece? : List Char → Option (List Char)
  | [] => none
  | c :: s => if hasShape dateShape (c :: s) then some ((c :: s).take 10) else datePiece? s

/-- A number in ASCII digits. -/
def asciiNumber? (s : List Char) : Option Nat := if s.all isDigit then some (numeral s) else none

/-- The date of a name is that of its first dated piece alone, if the calendar has such a day. -/
def dateOfName? (name : List Char) : Option Date := do
  let piece ← datePiece? name
  let year ← asciiNumber? (piece.take 4)
  let month ← asciiNumber? ((piece.drop 5).take 2)
  let day ← asciiNumber? ((piece.drop 8).take 2)
  Date.of? year month day

/-- The date of the last name that has one. -/
def dateOfNames? (names : List String) : Option Date :=
  names.reverse.findSome? fun name => dateOfName? name.toList

end Minutes.Calendar

namespace Minutes

/-- The date of a path, from the names between its slashes. -/
def Date.ofPath? (path : String) : Option Date :=
  Calendar.dateOfNames? ((path.toList.splitOn '/').map String.ofList)

end Minutes
