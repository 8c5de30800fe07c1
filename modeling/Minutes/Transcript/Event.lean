import Minutes.Text.Blank

/-!
What the lines of a transcript become in the minutes.
-/
namespace Minutes

/-- A remark of a participant, with its number, and with the one who typed it if it was typed for
somebody else. -/
structure Comment where
  id : Nat
  speaker : String
  text : String
  assist : Option String := none
  deriving DecidableEq

/-- A text with its first ASCII letter made a capital. -/
def raiseFirstLetter : List Char → List Char
  | [] => []
  | c :: rest => if c.isAlpha then c.toUpper :: rest else c :: raiseFirstLetter rest

def opensWithAddress (s : List Char) : Bool :=
  let small := s.map Char.toLower
  "http://".toList.isPrefixOf small || "https://".toList.isPrefixOf small

/-- A text as a sentence: it begins with a capital, unless it opens with a web address. -/
def sentence (s : List Char) : List Char :=
  if opensWithAddress s then s else raiseFirstLetter s

/-- The comment that a remark is recorded as. -/
def Comment.of (id : Nat) (speaker text : String) (assist : Option String) : Comment :=
  { id, speaker, text := String.ofList (sentence (Text.trimmed text.toList)), assist }

inductive Event where
  /-- Not a comment, or noise of the chat. -/
  | dropped
  /-- A directive that changes the record and is not shown. -/
  | recorded
  | information (text : String)
  | topic (id : Nat) (text : String)
  | action (id : Nat) (text : String)
  | proposal (text : String)
  | resolution (id : Nat) (text : String)
  | useCase (text : String)
  | comment (comment : Comment)
  /-- A line that goes on with the comment before it. -/
  | continuation (text : String)
  | error (text : String)
  deriving DecidableEq

/-- Whether an event leaves nothing in the minutes. -/
def Event.isSilent : Event → Bool
  | .dropped | .recorded => true
  | _ => false

end Minutes
