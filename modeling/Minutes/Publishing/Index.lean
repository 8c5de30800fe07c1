import Minutes.Document.Web

/-!
The index of all meetings, with links to the topics and resolutions of each.
-/
namespace Minutes

/-- What the index shows of a meeting: the name of its folder, and its topics and resolutions. -/
structure MeetingSummary where
  key : String
  topics : List String
  resolutions : List String
  deriving DecidableEq

namespace Index
open Html Web

def itemNodes (key kind item : String) (n : Nat) : List Node :=
  [.element "li" [] [link (key ++ "/#" ++ anchor kind n) item], newline]

/-- The links to the items of a kind; an empty list is left out. -/
def sectionNodes (key title kind : String) (items : List String) : List Node :=
  if items.isEmpty then []
  else
    [.element "h4" [] [.text title],
     .element "ol" []
       (newline :: (items.zipIdx 1).flatMap fun (item, n) => itemNodes key kind item n),
     newline]

def meetingNodes (m : MeetingSummary) : List Node :=
  [.element "h3" [] [link (m.key ++ "/") ("Meeting for " ++ m.key)], newline] ++
    sectionNodes m.key "Topics" "topic" m.topics ++
    sectionNodes m.key "Resolutions" "resolution" m.resolutions

def nodes (meetings : List MeetingSummary) : List Node := meetings.flatMap meetingNodes

def render (meetings : List MeetingSummary) : String := printAll (nodes meetings)

end Index
end Minutes
