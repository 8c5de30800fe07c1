import Minutes.Files.Fault
import Minutes.Files.Path

/-!
A store of files and folders, and what becomes of a path in it. There are no links, so every file
has one location.
-/
namespace Minutes.Files

/-- Where a file or folder is: the names from the root folder down to it. -/
abbrev Location := List String

inductive Entry where
  | folder
  | file (content : ByteArray)

instance : DecidableEq Entry
  | .folder, .folder => isTrue rfl
  | .folder, .file _ => isFalse nofun
  | .file _, .folder => isFalse nofun
  | .file ⟨a⟩, .file ⟨b⟩ => if h : a = b then isTrue (by rw [h]) else isFalse (by simp [h])

/-- All files and folders but the root, each once, and the folder that relative paths start from. -/
structure Store where
  entries : List (Location × Entry) := []
  start : Location := []
  distinct : (entries.map (·.1)).Nodup := by simp

namespace Store

def entry? (store : Store) (l : Location) : Option Entry :=
  if l = [] then some .folder else store.entries.lookup l

def isFolder (store : Store) (l : Location) : Bool := store.entry? l == some .folder

/-- The longest name in bytes, and one more than the longest path. -/
def nameLimit : Nat := 255
def pathLimit : Nat := 4096

/-- The location one step from a folder. The last step of a path may lead to nothing. -/
def step (store : Store) (l : Location) (name : String) : Except Fault Location :=
  match store.entry? l with
  | none => .error .notFound
  | some (.file _) => .error .notFolder
  | some .folder =>
    if name = "" ∨ name = "." then .ok l
    else if name = ".." then .ok l.dropLast
    else if nameLimit < name.utf8ByteSize then .error .nameTooLong
    else .ok (l ++ [name])

/-- Where a path starts. -/
def origin (store : Store) (p : Path) : Location := if p.isAbsolute then [] else store.start

/-- The pieces of a path that can be followed. -/
def pieces (p : Path) : Except Fault (List String) :=
  if p.toList.contains '\x00' then .error .nulInName
  else if p = "" then .error .notFound
  else if pathLimit ≤ p.utf8ByteSize then .error .nameTooLong
  else .ok p.pieces

/-- The location that a path names, whether or not something is there. -/
def target (store : Store) (p : Path) : Except Fault Location := do
  (← pieces p).foldlM store.step (store.origin p)

/-- What a path names, and where that is. -/
def find (store : Store) (p : Path) : Except Fault (Location × Entry) := do
  let l ← store.target p
  match store.entry? l with
  | some e => .ok (l, e)
  | none => .error .notFound

/-- The location of what a path names, if that exists. -/
def locate? (store : Store) (p : Path) : Option Location := ((store.find p).map (·.1)).toOption

def exists? (store : Store) (p : Path) : Bool := (store.locate? p).isSome

def isFile (store : Store) (p : Path) : Bool :=
  match store.find p with
  | .ok (_, .file _) => true
  | _ => false

/-- The text of an entry, which must be a file in UTF-8. -/
def Entry.text : Entry → Except Fault String
  | .folder => .error .isFolder
  | .file content =>
    match String.fromUTF8? content with
    | some text => .ok text
    | none => .error .notUtf8

/-- The text of a file. -/
def read (store : Store) (p : Path) : Except Fault String := do
  Entry.text (← store.find p).2

/-- A store with an entry put in the place of what was at its location. -/
def put (store : Store) (l : Location) (e : Entry) : Store where
  entries := (l, e) :: store.entries.filter (·.1 ≠ l)
  start := store.start
  distinct := by
    rw [List.map_cons, List.nodup_cons]
    exact ⟨by simp, store.distinct.sublist (List.filter_sublist.map _)⟩

/-- The location of a file that is to be written. Only the last name of a path may be new, and a
slash after it asks for a folder. -/
def writable (store : Store) (p : Path) : Except Fault Location := do
  let names := (← pieces p).reverse.dropWhile (· = "")
  let l ← names.reverse.foldlM store.step (store.origin p)
  if store.isFolder l ∨ p.endsInSlash then .error .isFolder else .ok l

/-- A store after a text has been written to a file. -/
def write (store : Store) (p : Path) (text : String) : Except Fault Store :=
  (store.writable p).map fun l => store.put l (.file text.toUTF8)

/-- A store with the folders that lie on the way of names from a folder. -/
def makeFoldersFrom (store : Store) (l : Location) : List String → Except Fault Store
  | [] => .ok store
  | name :: names =>
    if name = "" ∨ name = "." then store.makeFoldersFrom l names
    else if name = ".." then store.makeFoldersFrom l.dropLast names
    else if nameLimit < name.utf8ByteSize then .error .nameTooLong
    else
      match store.entry? (l ++ [name]) with
      | some (.file _) => .error (if names.isEmpty then .alreadyExists else .notFolder)
      | some .folder => store.makeFoldersFrom (l ++ [name]) names
      | none => (store.put (l ++ [name]) .folder).makeFoldersFrom (l ++ [name]) names

/-- A store in which a path names a folder. The empty path asks for none. -/
def makeFolders (store : Store) (p : Path) : Except Fault Store :=
  if p = "" then .ok store else do store.makeFoldersFrom (store.origin p) (← pieces p)

/-- The names of the folders directly in a folder. -/
def folderNames (store : Store) (l : Location) : List String :=
  store.entries.filterMap fun (place, e) =>
    if e = .folder ∧ store.isFolder l ∧ place.dropLast = l then place.getLast? else none

end Store
end Minutes.Files
