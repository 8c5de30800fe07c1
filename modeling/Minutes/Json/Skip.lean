import Minutes.Json.Number

/-!
Skipping a value of JSON that is not kept. Its lists and objects may be nested to any depth.
-/
namespace Minutes.Json

inductive Bracket where
  | list
  | object
  deriving DecidableEq

def Bracket.closing : Bracket → Char
  | .list => ']'
  | .object => '\x7d'

/-- The text after a key that is not kept, and its colon. -/
def skipKey (s : List Char) : Except Fault (List Char) :=
  match skipBlanks s with
  | [] => .error .truncated
  | c :: rest => if c = '"' then do colon (← skipString rest) else .error .malformed

/-- The text at the value of the next member of a bracket. -/
def atMember (bracket : Bracket) (s : List Char) : Except Fault (List Char) :=
  match bracket with
  | .list => .ok s
  | .object => skipKey s

mutual

/-- The text after a value and after the brackets around it, the innermost one first. `fuel` is
more than the length of the text. -/
def skipWithin (fuel : Nat) (outer : List Bracket) (s : List Char) : Except Fault (List Char) :=
  match fuel with
  | 0 => .error .truncated
  | fuel + 1 =>
    match skipBlanks s with
    | [] => .error .truncated
    | c :: rest =>
      if c = '"' then do closeWithin fuel outer (← skipString rest)
      else if c = 'n' then do closeWithin fuel outer (← word "ull".toList rest)
      else if c = 't' then do closeWithin fuel outer (← word "rue".toList rest)
      else if c = 'f' then do closeWithin fuel outer (← word "alse".toList rest)
      else if c = '-' ∨ isDigit c then do closeWithin fuel outer (← skipNumber (c :: rest))
      else if c = '[' then openWithin fuel .list outer rest
      else if c = '\x7b' then openWithin fuel .object outer rest
      else .error .malformed

/-- The text after a bracket that has just been opened. -/
def openWithin (fuel : Nat) (bracket : Bracket) (outer : List Bracket) (s : List Char) :
    Except Fault (List Char) :=
  match fuel with
  | 0 => .error .truncated
  | fuel + 1 =>
    match skipBlanks s with
    | [] => .error .truncated
    | c :: rest =>
      if c = bracket.closing then closeWithin fuel outer rest
      else do skipWithin fuel (bracket :: outer) (← atMember bracket (c :: rest))

/-- The text after the rest of all brackets, of which the innermost stands after a value. -/
def closeWithin (fuel : Nat) (outer : List Bracket) (s : List Char) : Except Fault (List Char) :=
  match fuel with
  | 0 => .error .truncated
  | fuel + 1 =>
    match outer with
    | [] => .ok s
    | bracket :: brackets =>
      match skipBlanks s with
      | [] => .error .truncated
      | c :: rest =>
        if c = bracket.closing then closeWithin fuel brackets rest
        else if c = ',' then do skipWithin fuel outer (← atMember bracket rest)
        else .error .malformed

end

/-- The text after a value. -/
def skipValue (s : List Char) : Except Fault (List Char) := skipWithin (2 * s.length + 2) [] s

end Minutes.Json
