import Minutes.Files.Path

/-!
What the program can be asked to do.
-/
namespace Minutes.Command
open Files

inductive Task where
  /-- The page of a meeting, printed or put into its folder. -/
  | html (folder : Path) (write : Bool)
  | text (folder : Path) (output : Option Path)
  /-- The page of the archive, put into its folder. -/
  | index (root : Path)
  | email (folder : Path) (output : Option Path)
  | announce (folder : Path)
  | version
  deriving DecidableEq

/-- A task, the configuration file that is named for it, and how much of the log is asked for. -/
structure Request where
  task : Task
  config : Option Path := none
  verbose : Bool := false
  quiet : Bool := false
  deriving DecidableEq

end Minutes.Command
