import Minutes.Calendar.Date
import Minutes.Roster.Participant

/-!
The record of a meeting, as it grows while the transcript is read.
-/
namespace Minutes

/-- A turn at scribing: the alias by which the scribe was announced, and the scribe. -/
structure ScribeTurn where
  nick : String
  name : String
  deriving DecidableEq

/-- The record of a meeting. Topics, actions, resolutions and comments are numbered from one, and
the names of those present are kept in order. -/
structure Record where
  group : String
  chairs : List String
  turns : List ScribeTurn := []
  present : List String := []
  totalPresent : Option String := none
  topics : List String := []
  actions : List String := []
  resolutions : List String := []
  agenda : Option String := none
  date : Option Date
  audio : Bool
  comments : Nat := 0
  deriving DecidableEq

namespace Record

/-- The turn of whoever is scribing. -/
def turn? (r : Record) : Option ScribeTurn := r.turns.getLast?

def scribe? (r : Record) : Option String := r.turn?.map (·.name)

/-- The scribes, each at the first turn. -/
def scribes (r : Record) : List String := (r.turns.map (·.name)).eraseDups

/-- A name entered into an ordered list of names. -/
def insertName (name : String) : List String → List String
  | [] => [name]
  | n :: names =>
    if name = n then n :: names
    else if name < n then name :: n :: names
    else n :: insertName name names

def markPresent (r : Record) (name : String) : Record :=
  { r with present := insertName name r.present }

def markAllPresent (r : Record) (names : List String) : Record := names.foldl markPresent r

def addTurn (r : Record) (turn : ScribeTurn) : Record :=
  { r with turns := r.turns ++ [turn] }.markPresent turn.name

def addTopic (r : Record) (text : String) : Record := { r with topics := r.topics ++ [text] }

def addAction (r : Record) (text : String) : Record := { r with actions := r.actions ++ [text] }

def addResolution (r : Record) (text : String) : Record :=
  { r with resolutions := r.resolutions ++ [text] }

def addComment (r : Record) : Record := { r with comments := r.comments + 1 }

/-- The date that the minutes bear: that of the meeting, or else today's. -/
def dateOr (r : Record) (today : Date) : Date := r.date.getD today

/-- Those present in order, each with a homepage if the roster has one. -/
def attendees (r : Record) (roster : Roster) : List (String × Option String) :=
  r.present.map fun name => (name, roster.homepage? name)

end Record
end Minutes
