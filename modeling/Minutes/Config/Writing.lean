import Minutes.Config
import Minutes.Toml.Writing

/-!
Writing a configuration in full. Only files that are not set are left out.
-/
namespace Minutes.Config
open Toml

/-- An entry for a file that is set. -/
def pathEntry (name : String) (path : Option Files.Path) : List (String × String) :=
  (path.map (name, ·)).toList

def sections (c : Config) : List Section :=
  [⟨"meeting",
    [("group", c.settings.group), ("minutes_base_url", c.settings.baseUrl)] ++
      pathEntry "roster_path" c.roster⟩,
   ⟨"page",
    pathEntry "header_path" c.page.header ++ pathEntry "footer_path" c.page.footer ++
      pathEntry "index_intro_path" c.page.indexIntro⟩,
   ⟨"email",
    [("to", c.mail.recipient), ("from", c.mail.sender), ("subject", c.mail.subject),
     ("body", c.mail.body)]⟩,
   ⟨"announce", [("body", c.post)]⟩]

def text (c : Config) : String := documentText c.sections

end Minutes.Config
