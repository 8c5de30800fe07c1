import Minutes.Files.Path
import Minutes.Publishing.Mail

/-!
The configuration of a group: its name and addresses, its files, and the templates of its messages.
-/
namespace Minutes
open Files

/-- The files with the texts around the content of the web pages. -/
structure PagePaths where
  header : Option Path := none
  footer : Option Path := none
  indexIntro : Option Path := none
  deriving DecidableEq

structure Config where
  settings : Settings := {}
  roster : Option Path := none
  page : PagePaths := {}
  mail : MailTemplate := {}
  post : String := Post.defaultTemplate
  deriving DecidableEq

/-- The roster stands in this file unless the configuration names another. -/
def defaultRosterName : String := "people.json"

/-- The file of the roster. A relative path is followed from the folder of the configuration file,
if that is known. `home` is the folder of the user's own configuration. -/
def Config.rosterPath (c : Config) (home : Path) (file : Option Path) : Path :=
  let folder := file.bind (·.parent?)
  match c.roster with
  | some path => (folder.getD "").join path
  | none => (folder.getD home).join defaultRosterName

end Minutes
