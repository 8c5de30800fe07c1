import Minutes.Text.CharRange

/-!
White space: trimming, words and lines of a text.
-/
namespace Minutes.Text

/-- The white-space characters: the controls from tab to carriage return, the space, and the
separators and spaces outside ASCII. -/
def blankRanges : List (Nat × Nat) :=
  [(0x9, 0xD), (0x20, 0x20), (0x85, 0x85), (0xA0, 0xA0), (0x1680, 0x1680), (0x2000, 0x200A),
   (0x2028, 0x2029), (0x202F, 0x202F), (0x205F, 0x205F), (0x3000, 0x3000)]

def isBlank (c : Char) : Bool := inRanges blankRanges c

theorem isBlank_of_isWhitespace {c : Char} (h : c.isWhitespace = true) : isBlank c = true := by
  simp only [Char.isWhitespace, Bool.or_eq_true, decide_eq_true_eq] at h
  rcases h with ((rfl | rfl) | rfl) | rfl <;> decide

def trimStart (s : List Char) : List Char := s.dropWhile isBlank

def trimEnd (s : List Char) : List Char := (s.reverse.dropWhile isBlank).reverse

/-- A text without the white space at either end. -/
def trimmed (s : List Char) : List Char := trimEnd (trimStart s)

/-- The maximal runs of characters that are not white space, in order. -/
def words (s : List Char) : List (List Char) :=
  (s.splitOnP isBlank).filter fun w => !w.isEmpty

def dropCarriageReturn (s : List Char) : List Char :=
  if s.getLast? = some '\r' then s.dropLast else s

/-- The lines of a text. A line feed ends a line, together with a carriage return before it;
a last line needs no line feed, and without one keeps its carriage return. -/
def lines (s : List Char) : List (List Char) :=
  let pieces := s.splitOn '\n'
  pieces.dropLast.map dropCarriageReturn ++
    match pieces.getLast? with
    | some (c :: last) => [c :: last]
    | _ => []

end Minutes.Text

namespace Minutes

def trim (s : String) : String := String.ofList (Text.trimmed s.toList)

@[simp] theorem toList_trim (s : String) : (trim s).toList = Text.trimmed s.toList := by
  simp [trim]

end Minutes
