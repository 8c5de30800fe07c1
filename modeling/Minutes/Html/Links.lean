import Minutes.Text.Label
import Minutes.Text.WordChar
import Minutes.Html.Node

/-!
Web addresses in running text, and the text with each of them made a link.
-/
namespace Minutes.Html
open Text

/-- A text in pieces: addresses that become links, and single characters between them. -/
inductive Piece where
  | plain (c : Char)
  | address (url : List Char)

def Piece.chars : Piece → List Char
  | .plain c => [c]
  | .address url => url

def schemes : List String := ["https://", "http://", "ftp://"]

/-- The characters that an address may hold. -/
def isAddressChar (c : Char) : Bool := !(isBlank c || c == '<' || c == '>' || c == '"')

/-- The characters that are taken from the end of an address, as belonging to the sentence. -/
def isClosingMark (c : Char) : Bool := ".,;:!?)'".toList.contains c

/-- The length of the address at the head of a text: a scheme with at least one character. -/
def addressLength? (s : List Char) : Option Nat :=
  match afterAnyLabel? schemes s with
  | some body =>
    let tail := body.takeWhile isAddressChar
    if tail.isEmpty then none else some (s.length - body.length + tail.length)
  | none => none

def withoutClosingMarks (s : List Char) : List Char :=
  (s.reverse.dropWhile isClosingMark).reverse

/-- The pieces of a text whose first character stands after a word character or not. An address
begins only where a word does, and the search goes on after all that it takes up. -/
def piecesFrom (afterWord : Bool) (s : List Char) : List Piece :=
  match s with
  | [] => []
  | c :: rest =>
    match if afterWord then none else addressLength? (c :: rest) with
    | none => .plain c :: piecesFrom (isWordChar c) rest
    | some n =>
      let found := c :: rest.take (n - 1)
      let url := withoutClosingMarks found
      .address url :: (found.drop url.length).map .plain ++
        piecesFrom (found.getLast?.any isWordChar) (rest.drop (n - 1))
termination_by s.length
decreasing_by
  all_goals simp only [List.length_cons, List.length_drop]; omega

def pieces (s : List Char) : List Piece := piecesFrom false s

def Piece.node : Piece → Node
  | .plain c => .text (String.singleton c)
  | .address url => link (String.ofList url) (String.ofList url)

/-- Running text with its addresses made links. -/
def linkedText (s : String) : List Node := (pieces s.toList).map Piece.node

end Minutes.Html
