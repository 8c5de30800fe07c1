import Minutes.Config
import Minutes.Toml.Document

/-!
Reading a configuration. Whatever a section leaves out keeps its default, and whatever is not known
is skipped.
-/
namespace Minutes.Config
open Toml

/-- The text of a field. Any other value is a fault. -/
def fieldText? : Item → Option String
  | .value (.string text) => some text
  | _ => none

/-- The given fields of a section, out of the names that it may have. -/
def fieldsOfTable? (names : List String) (t : Table) : Option (List (String × String)) :=
  (names.filterMap fun name => (t.get? name).map (name, ·)).mapM fun (name, item) =>
    (fieldText? item).map (name, ·)

/-- The fields of a section. A list gives them in the order of their names; a date gives none. -/
def fields? (names : List String) : Option Item → Option (List (String × String))
  | none => some []
  | some (.table t) => fieldsOfTable? names t
  | some (.value (.inlineTable t)) => fieldsOfTable? names t
  | some (.value (.array items)) =>
    (names.zip items).mapM fun (name, item) => (fieldText? (.value item)).map (name, ·)
  | some (.value .datetime) => some []
  | some _ => none

/-- The names of the sections, and those of the fields in each. -/
def meetingFields : List String := ["group", "minutes_base_url", "roster_path"]
def pageFields : List String := ["header_path", "footer_path", "index_intro_path"]
def mailFields : List String := ["to", "from", "subject", "body"]
def postFields : List String := ["body"]

/-- A configuration from the fields that its sections give. -/
def ofFields (meeting page mail post : List (String × String)) : Config :=
  let default : Config := {}
  { settings :=
      { group := (meeting.lookup "group").getD default.settings.group
        baseUrl := (meeting.lookup "minutes_base_url").getD default.settings.baseUrl }
    roster := meeting.lookup "roster_path"
    page :=
      { header := page.lookup "header_path"
        footer := page.lookup "footer_path"
        indexIntro := page.lookup "index_intro_path" }
    mail :=
      { recipient := (mail.lookup "to").getD default.mail.recipient
        sender := (mail.lookup "from").getD default.mail.sender
        subject := (mail.lookup "subject").getD default.mail.subject
        body := (mail.lookup "body").getD default.mail.body }
    post := (post.lookup "body").getD default.post }

/-- The configuration of a document's tables. -/
def ofTable? (t : Table) : Option Config := do
  let meeting ← fields? meetingFields (t.get? "meeting")
  let page ← fields? pageFields (t.get? "page")
  let mail ← fields? mailFields (t.get? "email")
  let post ← fields? postFields (t.get? "announce")
  some (ofFields meeting page mail post)

def read? (text : String) : Option Config := (document? text).bind ofTable?

end Minutes.Config
