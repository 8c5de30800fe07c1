import Minutes.Text.Blank

/-!
Filling lines with words up to a width, and closing up blank lines.
-/
namespace Minutes.Text

/-- A line is the list of its words, which are written with single spaces between them. -/
def joinWords (line : List (List Char)) : List Char := [' '].intercalate line

/-- Lines from a first line that already holds `line` in `used` columns: a word goes on the current
line if it still fits there, and otherwise starts the next one. -/
def fillFrom (width : Nat) (line : List (List Char)) (used : Nat) :
    List (List Char) → List (List (List Char))
  | [] => [line]
  | w :: ws =>
    if used + 1 + w.length ≤ width then fillFrom width (line ++ [w]) (used + 1 + w.length) ws
    else line :: fillFrom width [w] w.length ws

/-- Greedy filling. A line is wider than `width` only if it holds a single word. -/
def fill (width : Nat) : List (List Char) → List (List (List Char))
  | [] => []
  | w :: ws => fillFrom width [w] w.length ws

def wrapped (width : Nat) (lineBreak s : List Char) : List Char :=
  lineBreak.intercalate ((fill width (words s)).map joinWords)

/-- The text after `newlines` line feeds in a row, without a third line feed of any run. -/
def closeUpFrom (newlines : Nat) : List Char → List Char
  | [] => []
  | c :: rest =>
    if c = '\n' then
      if newlines < 2 then c :: closeUpFrom (newlines + 1) rest else closeUpFrom newlines rest
    else c :: closeUpFrom 0 rest

/-- A text in which every longer run of line feeds is cut to a single blank line. -/
def closedUp (s : List Char) : List Char := closeUpFrom 0 s

end Minutes.Text

namespace Minutes

/-- The words of a text, in lines of at most `width` characters. -/
def wrap (width : Nat) (lineBreak s : String) : String :=
  String.ofList (Text.wrapped width lineBreak.toList s.toList)

@[simp] theorem toList_wrap (width : Nat) (lineBreak s : String) :
    (wrap width lineBreak s).toList = Text.wrapped width lineBreak.toList s.toList := by
  simp [wrap]

def closeUp (s : String) : String := String.ofList (Text.closedUp s.toList)

@[simp] theorem toList_closeUp (s : String) : (closeUp s).toList = Text.closedUp s.toList := by
  simp [closeUp]

end Minutes
