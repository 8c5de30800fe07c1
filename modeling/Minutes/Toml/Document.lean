import Minutes.Toml.Number
import Minutes.Toml.Value

/-!
Reading a TOML document. A document is read as a whole or not at all.
-/
namespace Minutes.Toml

/-- How many brackets may be open at once, and how many parts a key may have. -/
def nestingLimit : Nat := 79

def isKeyChar (c : Char) : Bool := c.isAlphanum || c == '_' || c == '-'

/-- A part of a key, bare or in quotation marks. -/
def keyPart? : List Char → Option (String × List Char)
  | '"' :: s => (basic? s).map fun (name, rest) => (String.ofList name, rest)
  | '\'' :: s => (literal? s).map fun (name, rest) => (String.ofList name, rest)
  | s =>
    if (s.takeWhile isKeyChar).isEmpty then none
    else some (String.ofList (s.takeWhile isKeyChar), s.dropWhile isKeyChar)

/-- A key of at most `room` parts with points between them, and the text after it. -/
def keyWithin? (room : Nat) (s : List Char) : Option (List String × List Char) :=
  match room with
  | 0 => none
  | room + 1 => do
    let (name, s) ← keyPart? (skipSpace s)
    match skipSpace s with
    | '.' :: s => (keyWithin? room s).map fun (names, rest) => (name :: names, rest)
    | rest => some ([name], rest)

/-- A key as the path to its table and the name in it. -/
def key? (s : List Char) : Option (List String × String × List Char) := do
  let (names, rest) ← keyWithin? nestingLimit s
  some (names.dropLast, ← names.getLast?, rest)

/-- The text after a line end, which may have a comment before it. -/
def afterBreak? : List Char → Option (List Char)
  | [] => none
  | c :: s => if c = '#' then afterNewline? (s.dropWhile isText) else afterNewline? (c :: s)

theorem afterBreak?_length {s rest : List Char} (h : afterBreak? s = some rest) :
    rest.length < s.length := by
  unfold afterBreak? at h
  split at h
  · cases h
  · next c tail =>
    split at h
    · have h1 := afterNewline?_length h
      have h2 : (tail.dropWhile isText).length ≤ tail.length :=
        (List.dropWhile_suffix _).length_le
      rw [List.length_cons]; omega
    · exact afterNewline?_length h

theorem afterGap?_length {s rest : List Char} (h : afterBreak? (skipSpace s) = some rest) :
    rest.length < s.length :=
  Nat.lt_of_lt_of_le (afterBreak?_length h) (List.dropWhile_suffix _).length_le

/-- The text after white space, line ends and comments, as they stand between the items of an
array. -/
def skipGaps (s : List Char) : List Char :=
  match broken : afterBreak? (skipSpace s) with
  | some after =>
    have : after.length < s.length := afterGap?_length broken
    skipGaps after
  | none => skipSpace s
termination_by s.length

/-- The text after a value that is neither a string nor has brackets, and its kind. -/
def atom? (s : List Char) : Option (Value × List Char) :=
  if "true".toList.isPrefixOf s then some (.scalar, s.drop 4)
  else if "false".toList.isPrefixOf s then some (.scalar, s.drop 5)
  else
    match afterDateTime? s with
    | some rest => some (.datetime, rest)
    | none => (afterFloat? s <|> afterInteger? s).map (.scalar, ·)

mutual

/-- A value and the text after it. `room` is how many more brackets may be opened, and `fuel` more
than twice the length of the text. -/
def valueWithin? (fuel room : Nat) (s : List Char) : Option (Value × List Char) :=
  match fuel with
  | 0 => none
  | fuel + 1 =>
    match s with
    | [] => none
    | c :: rest =>
      if c = '"' ∨ c = '\'' then
        (string? s).map fun (text, rest) => (.string (String.ofList text), rest)
      else if c = '[' then
        match room with
        | 0 => none
        | room + 1 => (itemsWithin? fuel room rest).map fun (items, rest) => (.array items, rest)
      else if c = '\x7b' then
        match room with
        | 0 => none
        | room + 1 =>
          (entriesWithin? fuel room true (.empty .header) rest).map fun (table, rest) =>
            (.inlineTable table, rest)
      else atom? s

/-- The items of an array up to its closing bracket. A comma may stand after the last item. -/
def itemsWithin? (fuel room : Nat) (s : List Char) : Option (List Value × List Char) :=
  match fuel with
  | 0 => none
  | fuel + 1 =>
    match skipGaps s with
    | ']' :: rest => some ([], rest)
    | s => do
      let (item, s) ← valueWithin? fuel room s
      match skipGaps s with
      | ']' :: rest => some ([item], rest)
      | ',' :: rest => (itemsWithin? fuel room rest).map fun (items, rest) => (item :: items, rest)
      | _ => none

/-- An inline table with the entries up to its closing brace added. All stand on one line, and a
comma stands only between two of them. -/
def entriesWithin? (fuel room : Nat) (first : Bool) (table : Table) (s : List Char) :
    Option (Table × List Char) :=
  match fuel with
  | 0 => none
  | fuel + 1 =>
    match first, skipSpace s with
    | true, '\x7d' :: rest => some (table, rest)
    | _, s => do
      let (path, name, s) ← key? s
      let s ← afterChar? '=' s
      let (value, s) ← valueWithin? fuel room (skipSpace s)
      let table ← table.addDotted path name value
      match skipSpace s with
      | '\x7d' :: rest => some (table, rest)
      | ',' :: rest => entriesWithin? fuel room false table rest
      | _ => none

end

/-- A value and the text after it. -/
def value? (s : List Char) : Option (Value × List Char) :=
  valueWithin? (2 * s.length + 2) nestingLimit s

/-- The text after the rest of a line, which holds white space and a comment at most. -/
def afterLine? (s : List Char) : Option (List Char) :=
  let s :=
    match skipSpace s with
    | '#' :: s => s.dropWhile isText
    | s => s
  if s.isEmpty then some [] else afterNewline? s

/-- A document as far as it has been read: all tables, and the path of the one that the last header
has opened. -/
structure Draft where
  root : Table := .empty .header
  path : List String := []

/-- A draft with an entry added to the open table. -/
def Draft.add (d : Draft) (path : List String) (name : String) (value : Value) : Option Draft :=
  (d.root.change .path (·.addDotted path name value) d.path).map fun root => { d with root }

/-- A draft with another table opened, of an array of tables or on its own. -/
def Draft.openTable (d : Draft) (element : Bool) (path : List String) (name : String) :
    Option Draft :=
  (d.root.change .path (if element then Table.openArray name else Table.openHeader name) path).map
    fun root => { root, path := path ++ [name] }

/-- A draft after the header of a table, and the text after its line. -/
def Draft.header? (d : Draft) (s : List Char) : Option (Draft × List Char) := do
  let element := s.head? == some '['
  let (path, name, s) ← key? (if element then s.tail else s)
  let s ← afterChar? ']' s
  let s ← if element then afterChar? ']' s else some s
  some (← d.openTable element path name, ← afterLine? s)

/-- A draft after an entry, and the text after its line. -/
def Draft.entry? (d : Draft) (s : List Char) : Option (Draft × List Char) := do
  let (path, name, s) ← key? s
  let s ← afterChar? '=' s
  let (value, s) ← value? (skipSpace s)
  some (← d.add path name value, ← afterLine? s)

/-- A draft after a statement of the document, and the text after its line. -/
def Draft.statement? (d : Draft) (s : List Char) : Option (Draft × List Char) :=
  match skipSpace s with
  | [] => some (d, [])
  | c :: rest =>
    if c = '[' then d.header? rest
    else if c = '#' ∨ c = '\n' ∨ c = '\r' then (afterLine? (c :: rest)).map (d, ·)
    else d.entry? (c :: rest)

/-- A draft after all statements of a text. `fuel` is at least the number of them. -/
def Draft.readWithin? (fuel : Nat) (d : Draft) (s : List Char) : Option Draft :=
  match fuel, s with
  | _, [] => some d
  | 0, _ :: _ => none
  | fuel + 1, s => do
    let (d, rest) ← d.statement? s
    d.readWithin? fuel rest

def byteOrderMark : Char := '\uFEFF'

/-- The tables of a document. A byte order mark may stand at its head. -/
def document? (text : String) : Option Table :=
  let s := if text.toList.head? = some byteOrderMark then text.toList.tail else text.toList
  (Draft.readWithin? s.length {} s).map (·.root)

end Minutes.Toml
