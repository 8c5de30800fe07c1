import Minutes.Toml.Strings

/-!
Writing sections of texts as a TOML document. A text with line ends is written on several lines,
and one with quotation marks or backslashes as a literal string where that is possible.
-/
namespace Minutes.Toml

def hexCapital (n : Nat) : Char := (Text.hexDigit n).toUpper

/-- A character of a string with escapes. Line ends are kept in a string on several lines. -/
def stringChar (multiLine : Bool) (c : Char) : List Char :=
  if c = '"' then "\\\"".toList
  else if c = '\\' then "\\\\".toList
  else if c = '\x08' then "\\b".toList
  else if c = '\t' then "\\t".toList
  else if c = '\n' then if multiLine then [c] else "\\n".toList
  else if c = '\x0c' then "\\f".toList
  else if c = '\r' then "\\r".toList
  else if isText c then [c]
  else "\\u00".toList ++ [hexCapital (c.toNat / 16), hexCapital (c.toNat % 16)]

/-- Whether three apostrophes stand in a row. -/
def hasClosingMarks : List Char → Bool
  | '\'' :: '\'' :: '\'' :: _ => true
  | _ :: s => hasClosingMarks s
  | [] => false

/-- Whether a text is written as a literal string: it would need escapes otherwise, and nothing in
it is in the way. -/
def isLiteral (s : List Char) : Bool :=
  s.any (fun c => c == '"' || c == '\\') && s.all (fun c => isText c || c == '\n') &&
    !hasClosingMarks s && s.getLast? != some '\''

def isMultiLine (s : List Char) : Bool := s.contains '\n'

def basicChars (s : List Char) : List Char :=
  let marks := if isMultiLine s then "\"\"\"".toList else ['"']
  marks ++ (if isMultiLine s then ['\n'] else []) ++ s.flatMap (stringChar (isMultiLine s)) ++ marks

def literalChars (s : List Char) : List Char :=
  let marks := if isMultiLine s || s.contains '\'' then "'''".toList else ['\'']
  marks ++ (if isMultiLine s then ['\n'] else []) ++ s ++ marks

def stringChars (s : List Char) : List Char := if isLiteral s then literalChars s else basicChars s

/-- A named table of texts, with bare keys. -/
structure Section where
  name : String
  entries : List (String × String)

def entryChars (entry : String × String) : List Char :=
  entry.1.toList ++ " = ".toList ++ stringChars entry.2.toList ++ ['\n']

def Section.chars (s : Section) : List Char :=
  '[' :: s.name.toList ++ "]\n".toList ++ s.entries.flatMap entryChars

/-- Sections with an empty line between them. -/
def documentText (sections : List Section) : String :=
  String.ofList (['\n'].intercalate (sections.map Section.chars))

end Minutes.Toml
