import Minutes.Roster.Participant

/-!
The index from aliases to participants.
-/
namespace Minutes

/-- Aliases in small letters, each with the name of the participant who claimed it first. -/
structure AliasIndex where
  entries : List (String × String)

namespace AliasIndex

def empty : AliasIndex := ⟨[]⟩

/-- Enters an alias for a name, unless it is already taken. -/
def claim (name : String) (index : AliasIndex) (a : String) : AliasIndex :=
  if (index.entries.lookup a).isSome then index else ⟨index.entries ++ [(a, name)]⟩

def claimAll (index : AliasIndex) (p : Participant) : AliasIndex :=
  p.claims.foldl (claim p.name) index

def ofRoster (roster : Roster) : AliasIndex := roster.foldl claimAll empty

def size (index : AliasIndex) : Nat := index.entries.length

/-- The participant whom an alias means, in whatever case it is written. -/
def resolve? (index : AliasIndex) (a : String) : Option String :=
  index.entries.lookup (lowerCase a)

/-- The participant whom an entry of an attendance list means: by the whole entry, by its second
word, which may be a surname, or by its first. -/
def resolveAttendee? (index : AliasIndex) (entry : String) : Option String :=
  let ws := words entry
  (index.resolve? entry).or ((ws[1]?.bind index.resolve?).or (ws[0]?.bind index.resolve?))

end AliasIndex

/-- The entries of a list with commas between them, trimmed and in small letters. -/
def listEntries (s : String) : List String :=
  (s.toList.splitOn ',').map fun entry => lowerCase (trim (String.ofList entry))

/-- The entries of a list of names, of which empty ones do not count. -/
def nameList (s : String) : List String := (listEntries s).filter (· ≠ "")

end Minutes
