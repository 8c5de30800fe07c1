import Minutes.Json.Number

/-!
Values of JSON: kept ones, of which only strings and lists are told apart, and skipped ones.
-/
namespace Minutes.Json

inductive Value where
  | string (text : List Char)
  | list (items : List Value)
  | other

/-- How far lists and objects that are kept may be nested. -/
def nestingLimit : Nat := 127

mutual

/-- A value and the text after it. `room` is how many more brackets may be opened, and `fuel` at
least the length of the text. -/
def valueWithin (fuel room : Nat) (s : List Char) : Except Fault (Value × List Char) :=
  match fuel with
  | 0 => .error .truncated
  | fuel + 1 =>
    match skipBlanks s with
    | [] => .error .truncated
    | c :: rest =>
      if c = '"' then do
        let (text, rest) ← string rest
        .ok (.string text, rest)
      else if c = 'n' then do .ok (.other, ← word "ull".toList rest)
      else if c = 't' then do .ok (.other, ← word "rue".toList rest)
      else if c = 'f' then do .ok (.other, ← word "alse".toList rest)
      else if c = '-' ∨ isDigit c then do .ok (.other, ← number (c :: rest))
      else if c = '[' then
        match room with
        | 0 => .error .malformed
        | room + 1 => do
          let (items, rest) ← itemsWithin fuel room true rest
          .ok (.list items, rest)
      else if c = '\x7b' then
        match room with
        | 0 => .error .malformed
        | room + 1 => do .ok (.other, ← membersWithin fuel room true rest)
      else .error .malformed

/-- The rest of a list. -/
def itemsWithin (fuel room : Nat) (first : Bool) (s : List Char) :
    Except Fault (List Value × List Char) :=
  match fuel with
  | 0 => .error .truncated
  | fuel + 1 => do
    let (more, s) ← nextItem ']' first s
    if more then
      let (item, s) ← valueWithin fuel room s
      let (items, s) ← itemsWithin fuel room false s
      .ok (item :: items, s)
    else .ok ([], s)

/-- The text after the rest of an object. -/
def membersWithin (fuel room : Nat) (first : Bool) (s : List Char) : Except Fault (List Char) :=
  match fuel with
  | 0 => .error .truncated
  | fuel + 1 => do
    let (more, s) ← nextItem '\x7d' first s
    if more then
      let (_, s) ← key s
      let (_, s) ← valueWithin fuel room (← colon s)
      membersWithin fuel room false s
    else .ok s

end

end Minutes.Json
