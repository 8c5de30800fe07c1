import Minutes.Text.Blank
import Minutes.Text.LowerCase

/-!
The people of a group, and what each of them is called.
-/
namespace Minutes

structure Participant where
  name : String
  aliases : List String := []
  chair : Bool := false
  homepage : Option String := none
  deriving DecidableEq

/-- The participants of a group in a fixed order, which decides who keeps a shared alias. -/
abbrev Roster := List Participant

/-- An alias has at least this many characters; shorter ones collide with ordinary words. -/
def shortestAlias : Nat := 3

def words (s : String) : List String := (Text.words s.toList).map String.ofList

/-- What a participant may be called: the words of the name and the declared aliases. -/
def Participant.callNames (p : Participant) : List String := words p.name ++ p.aliases.map trim

/-- The aliases that a participant claims, in small letters. -/
def Participant.claims (p : Participant) : List String :=
  (p.callNames.map lowerCase).filter fun a => shortestAlias ≤ a.length

namespace Roster

def chairs (roster : Roster) : List String := (roster.filter (·.chair)).map (·.name)

def get? (roster : Roster) (name : String) : Option Participant := roster.find? (·.name == name)

def homepage? (roster : Roster) (name : String) : Option String :=
  (roster.get? name).bind (·.homepage)

end Roster
end Minutes
