import Minutes.Text.Blank
import Minutes.Text.LowerCase
import Minutes.Text.WordChar

/-!
The comment lines of a transcript, of the form "[time] <nick> message".
-/
namespace Minutes
open Text

/-- A comment line in its parts. The nick is in small letters. -/
structure CommentLine where
  time : String
  nick : String
  message : String
  raw : String
  deriving DecidableEq

namespace CommentLine

def isInk (c : Char) : Bool := !isBlank c

/-- The time of a line, up to the closing bracket before white space, and the text after the
bracket. A time is one run of characters, or a word, a space and such a run. -/
def time? (s : List Char) : Option (List Char × List Char) :=
  let run := s.takeWhile isInk
  if run.getLast? = some ']' then some (run.dropLast, s.dropWhile isInk)
  else match s.takeWhile isWordChar, s.dropWhile isWordChar with
    | c :: day, ' ' :: rest =>
      let run := rest.takeWhile isInk
      if 2 ≤ run.length ∧ run.getLast? = some ']' then
        some (c :: day ++ ' ' :: run.dropLast, rest.dropWhile isInk)
      else none
    | _, _ => none

/-- The text after white space, of which there must be some. -/
def afterBlanks? : List Char → Option (List Char)
  | c :: s => if isBlank c then some (trimStart s) else none
  | [] => none

/-- The nick between angle brackets, and the text after them. -/
def nick? : List Char → Option (List Char × List Char)
  | '<' :: s =>
    match s.dropWhile (· != '>') with
    | _ :: rest => some (s.takeWhile (· != '>'), rest)
    | [] => none
  | _ => none

def withoutBracket : List Char → List Char
  | '[' :: s => s
  | s => s

/-- The parts of a comment line, if the line is one. The message ends with the line. -/
def read? (s : List Char) : Option CommentLine := do
  let (time, s₁) ← time? (withoutBracket s)
  let (nick, s₂) ← nick? (← afterBlanks? s₁)
  let message ← afterBlanks? s₂
  if message.contains '\n' then none
  else
    some { time := String.ofList time, nick := String.ofList (lowered nick),
           message := String.ofList message, raw := String.ofList s }

end CommentLine
end Minutes
