import Minutes.Document.Compile
import Minutes.Template

/-!
The messages that announce new minutes: an electronic mail with their text, and a short post.
-/
namespace Minutes

/-- The templates of the mail. -/
structure MailTemplate where
  recipient : String := ""
  sender : String := ""
  subject : String := "[MINUTES] Meeting - \x7b\x7bdate\x7d\x7d"
  body : String :=
    "Thanks to \x7b\x7bscribe\x7d\x7d for scribing this week! The minutes\n" ++
    "for this week's meeting are now available:\n\n" ++
    "\x7b\x7burl\x7d\x7d\n\n" ++
    "Full text of the discussion follows for archival purposes.\n\n" ++
    "----------------------------------------------------------------\n" ++
    "\x7b\x7bcontent\x7d\x7d"
  deriving DecidableEq

structure Mail where
  recipient : String
  sender : String
  subject : String
  body : String
  deriving DecidableEq

namespace Mail

def headerLine (field value : String) : String := field ++ ": " ++ value ++ "\n"

def optionalHeader (field value : String) : String :=
  if value = "" then "" else headerLine field value

/-- A mail as it is sent: headers, an empty line and the body. Empty addresses are left out. -/
def text (mail : Mail) : String :=
  optionalHeader "From" mail.sender ++ optionalHeader "To" mail.recipient ++
    headerLine "Subject" mail.subject ++ "\n" ++ mail.body

/-- The mail with the text of the minutes, which are published at an address. -/
def compose (today : Date) (template : MailTemplate) (minutes : Compiled) (url : String) : Mail :=
  let values :=
    [("date", (minutes.record.dateOr today).iso),
     ("scribe", " and ".intercalate minutes.record.scribes),
     ("url", url),
     ("content", minutes.document)]
  { recipient := template.recipient
    sender := template.sender
    subject := fillTemplate template.subject values
    body := fillTemplate template.body values }

end Mail

/-- An English enumeration of items. -/
def enumeration : List String → String
  | [] => ""
  | [item] => item
  | [first, second] => first ++ " and " ++ second
  | items => ", ".intercalate items.dropLast ++ ", and " ++ items.getLast?.getD ""

namespace Post

def defaultTemplate : String :=
  "Meeting Summary for \x7b\x7bdate\x7d\x7d\n\n" ++
  "We discussed \x7b\x7bitems\x7d\x7d.\n\n" ++
  "\x7b\x7bcontent\x7d\x7d\n\n" ++
  "Full transcript and audio logs are available here:\n\n" ++
  "\x7b\x7burl\x7d\x7d"

/-- What a meeting discussed, in small letters. -/
def discussed (r : Record) : List String :=
  (r.topics ++ r.resolutions ++ r.actions).map lowerCase

/-- The outline of a meeting, without white space at its end. -/
def content (r : Record) : String := String.ofList (Text.trimEnd (Plain.outline r).toList)

/-- The post that tells what a meeting discussed. -/
def compose (today : Date) (template : String) (r : Record) (url : String) : String :=
  fillTemplate template
    [("date", (r.dateOr today).iso),
     ("items", enumeration (discussed r)),
     ("content", content r),
     ("url", url)]

end Post
end Minutes
