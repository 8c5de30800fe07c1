import Minutes.Text.Label
import Minutes.Transcript.Line

/-!
The directives of a transcript, and the rules by which a comment line is one of them.
-/
namespace Minutes
open Text

inductive Rule where
  | scribe
  | chair
  | meeting
  | present
  | audio
  | date
  | topic
  | action
  | agenda
  | proposal
  | resolution
  | useCase
  | totalPresent
  | bot
  | queue
  | vote
  deriving DecidableEq

namespace Rule

/-- A text to the end of its line, if that is the end of the text. -/
def oneLine? (s : List Char) : Option (List Char) := if s.contains '\n' then none else some s

def afterBlank? : List Char → Option (List Char)
  | c :: s => if isBlank c then some s else none
  | [] => none

/-- A text without the one character at its head, if that is in the class. -/
def dropOne (p : Char → Bool) : List Char → List Char
  | c :: s => if p c then s else c :: s
  | [] => []

/-- An address of the bots: a name, and after at most four characters a comma or a colon. -/
def addressesBot (s : List Char) : Bool :=
  ((afterAnyLabel? ["voip", "zakim", "trackbot"] s).any fun rest =>
    ((rest.take 5).takeWhile (· != '\n')).any fun c => c == ',' || c == ':') ||
  (afterLabel? "rrsagent" s).isSome

/-- A request of the speaker queue. -/
def managesQueue (s : List Char) : Bool :=
  (afterAnyLabel? ["q+", "q-", "q?"] s).isSome ||
  (afterLabel? "ack" s).any fun rest => rest.head?.all isBlank

def isVoteSign (c : Char) : Bool := c == '+' || c == '-'

def isVoteDigit (c : Char) : Bool := c == '0' || c == '1'

/-- A vote at the beginning of a message or at its end, apart from the rest of it. -/
def isVote (s : List Char) : Bool :=
  (match s with
    | sign :: digit :: rest => isVoteSign sign && isVoteDigit digit && rest.head?.all isBlank
    | _ => false) ||
  match s.reverse with
    | digit :: sign :: rest => isVoteSign sign && isVoteDigit digit && rest.head?.all isBlank
    | _ => false

def noArgument (holds : Bool) : Option (List Char) := if holds then some [] else none

/-- The argument of a rule in a message that it claims. -/
def argument? (s : List Char) : Rule → Option (List Char)
  | .scribe => (afterAnyLabel? ["scribe:", "scribenick:"] s).map fun rest =>
      (trimStart rest).takeWhile (· != ':')
  | .chair => (afterLabel? "chair:" s).bind oneLine?
  | .meeting => ((afterLabel? "meeting:" s).bind afterBlank?).bind oneLine?
  | .present => (afterAnyLabel? ["present:", "present+"] s).bind oneLine?
  | .audio => noArgument (afterLabel? "audio:" s).isSome
  | .date => ((afterLabel? "date:" s).bind afterBlank?).bind oneLine?
  | .topic => (afterLabel? "topic:" s).bind fun rest => oneLine? (trimStart rest)
  | .action => (afterLabel? "action:" s).bind fun rest => oneLine? (trimStart rest)
  | .agenda => (afterLabel? "agenda:" s).bind fun rest =>
      (afterAnyLabel? ["http:", "https:"] (trimStart rest)).bind fun _ => oneLine? (trimStart rest)
  | .proposal => (afterAnyLabel? ["proposal:", "proposed:"] s).bind oneLine?
  | .resolution => (afterAnyLabel? ["resolution:", "resolved:"] s).bind fun rest =>
      oneLine? (dropOne (· == ' ') rest)
  | .useCase => (afterAnyLabel? ["use case:", "usecase:"] s).bind fun rest =>
      oneLine? (dropOne isBlank rest)
  | .totalPresent => ((afterLabel? "total present:" s).bind afterBlank?).bind oneLine?
  | .bot => noArgument (addressesBot s)
  | .queue => noArgument (managesQueue s)
  | .vote => noArgument (isVote s)

/-- What a line is tried against: the message against a rule, or the nick against the bots'. -/
inductive Test where
  | message (rule : Rule)
  | botNick
  deriving DecidableEq

/-- The names of the bots, as they begin a nick. -/
def isBotNick (nick : List Char) : Bool :=
  (afterAnyLabel? ["voip", "rrsagent", "zakim", "trackbot"] nick).isSome

def Test.result? (line : CommentLine) : Test → Option (Rule × List Char)
  | .message rule => (rule.argument? line.message.toList).map (rule, ·)
  | .botNick => (noArgument (isBotNick line.nick.toList)).map (Rule.bot, ·)

/-- All tests, in the order in which they are tried. -/
def tests : List Test :=
  [.message .scribe, .message .chair, .message .meeting, .message .present, .message .audio,
   .message .date, .message .topic, .message .action, .message .agenda, .message .proposal,
   .message .resolution, .message .useCase, .message .totalPresent, .botNick, .message .bot,
   .message .queue, .message .vote]

/-- The rule that claims a line, with its argument: the first whose test the line passes. -/
def claiming? (line : CommentLine) : Option (Rule × String) :=
  (tests.findSome? (·.result? line)).map fun (rule, argument) => (rule, String.ofList argument)

end Rule
end Minutes
