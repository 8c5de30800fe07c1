/-!
Paths as they are written: names with slashes between them.
-/
namespace Minutes.Files

abbrev Path := String

namespace Path

/-- An absolute path starts at the root folder. -/
def isAbsolute (p : Path) : Bool := p.toList.head? == some '/'

def endsInSlash (p : Path) : Bool := p.toList.getLast? == some '/'

/-- The pieces of a path between its slashes, empty ones included. -/
def pieces (p : Path) : List String := (p.toList.splitOn '/').map String.ofList

/-- A path followed from a folder. An absolute path does not depend on the folder. -/
def join (folder p : Path) : Path :=
  if p.isAbsolute || folder == "" then p
  else if folder.endsInSlash then folder ++ p
  else folder ++ "/" ++ p

/-- The pieces of a path, the last one first, without the empty ones and the single points before
the first that names something. A point that starts the path counts as a name. -/
def settled : List String → List String
  | [] => []
  | [piece] => if piece = "" then [] else [piece]
  | piece :: pieces => if piece = "" ∨ piece = "." then settled pieces else piece :: pieces

/-- The path of the folder that holds what a path names. The root folder and the empty path have
none. -/
def parent? (p : Path) : Option Path :=
  match settled p.pieces.reverse with
  | [] => none
  | _ :: rest =>
    match settled rest with
    | [] => some (if p.isAbsolute then "/" else "")
    | outer => some ("/".intercalate outer.reverse)

end Path
end Minutes.Files
