import Minutes.Text.Blank

/-!
Labels at the head of a text, read without regard to case.
-/
namespace Minutes.Text

/-- Whether a character is a small ASCII character in either case. The long s counts as an s and
the kelvin sign as a k. -/
def foldsTo (letter c : Char) : Bool :=
  c.toLower == letter || (letter == 's' && c == 'ſ') || (letter == 'k' && c == Char.ofNat 0x212A)

def afterLabelChars? : List Char → List Char → Option (List Char)
  | [], s => some s
  | _ :: _, [] => none
  | l :: label, c :: s => if foldsTo l c then afterLabelChars? label s else none

/-- What follows a label, given in small letters, at the head of a text. -/
def afterLabel? (label : String) (s : List Char) : Option (List Char) :=
  afterLabelChars? label.toList s

/-- What follows the first of several labels that stands at the head of a text. -/
def afterAnyLabel? (labels : List String) (s : List Char) : Option (List Char) :=
  labels.findSome? (afterLabel? · s)

end Minutes.Text
