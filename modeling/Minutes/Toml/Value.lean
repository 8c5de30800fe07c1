/-!
TOML documents: values, and tables as they grow while a document is read.
-/
namespace Minutes.Toml

/-- How a table came to be: by a header of its own, as a step on the way to the table of another
header, or by a dotted key. -/
inductive Origin where
  | header
  | path
  | dotted
  deriving DecidableEq

mutual

/-- A value. Numbers and truth values are not told apart, and dates are kept without their text. -/
inductive Value where
  | string (text : String)
  | scalar
  | datetime
  | array (items : List Value)
  | inlineTable (table : Table)

inductive Item where
  | value (value : Value)
  | table (table : Table)
  /-- An array of tables, each with a header of its own. -/
  | tables (tables : List Table)

inductive Table where
  | mk (origin : Origin) (entries : List (String × Item))

end

namespace Table

def origin : Table → Origin
  | mk origin _ => origin

def entries : Table → List (String × Item)
  | mk _ entries => entries

def empty (origin : Origin) : Table := mk origin []

def get? (t : Table) (key : String) : Option Item := t.entries.lookup key

/-- A table with an entry changed, or with a new entry at the end. -/
def set (t : Table) (key : String) (item : Item) : Table :=
  mk t.origin <|
    if (t.get? key).isSome then t.entries.map fun e => if e.1 = key then (key, item) else e
    else t.entries ++ [(key, item)]

/-- A table with the table at the end of a path changed. A missing table on the way is made, with
the given origin. A dotted key must not pass through a table that has a header. -/
def change (made : Origin) (f : Table → Option Table) (t : Table) : List String → Option Table
  | [] => f t
  | key :: keys =>
    match t.get? key with
    | none => (change made f (empty made) keys).map fun child => t.set key (.table child)
    | some (.value _) => none
    | some (.table child) =>
      if made = .dotted ∧ child.origin = .header then none
      else (change made f child keys).map fun child => t.set key (.table child)
    | some (.tables ts) =>
      match ts.getLast? with
      | some child => (change made f child keys).map fun child =>
          t.set key (.tables (ts.dropLast ++ [child]))
      | none => none

/-- A table with a new entry, which must not be there yet. -/
def add (key : String) (value : Value) (t : Table) : Option Table :=
  if (t.get? key).isSome then none else some (t.set key (.value value))

/-- A table with a new entry at a dotted key. The table that gets it must be a dotted one, if it is
not the table itself. -/
def addDotted (path : List String) (key : String) (value : Value) (t : Table) : Option Table :=
  t.change .dotted (fun target =>
    if path ≠ [] ∧ target.origin ≠ .dotted then none else target.add key value) path

/-- A table that has been given a header: a new one, or one that other headers have passed. -/
def openHeader (key : String) (t : Table) : Option Table :=
  match t.get? key with
  | none => some (t.set key (.table (empty .header)))
  | some (.table child) =>
    if child.origin = .path then some (t.set key (.table (mk .header child.entries))) else none
  | some _ => none

/-- A table with one more element in an array of tables. -/
def openArray (key : String) (t : Table) : Option Table :=
  match t.get? key with
  | none => some (t.set key (.tables [empty .header]))
  | some (.tables ts) => some (t.set key (.tables (ts ++ [empty .header])))
  | some _ => none

end Table
end Minutes.Toml
