/-!
HTML fragments as trees, and their printed form. Text and attribute values are escaped by the
printer alone.
-/
namespace Minutes.Html

inductive Node where
  | text (content : String)
  | element (tag : String) (attributes : List (String × String)) (content : List Node)
  | void (tag : String) (attributes : List (String × String))

/-- The written form of one character of a text or an attribute value. -/
def escapeChar (c : Char) : List Char :=
  if c = '&' then "&amp;".toList
  else if c = '<' then "&lt;".toList
  else if c = '>' then "&gt;".toList
  else if c = '"' then "&quot;".toList
  else [c]

def escape (s : String) : String := String.ofList (s.toList.flatMap escapeChar)

@[simp] theorem toList_escape (s : String) : (escape s).toList = s.toList.flatMap escapeChar := by
  simp [escape]

@[simp] theorem escape_append (s t : String) : escape (s ++ t) = escape s ++ escape t := by
  apply String.toList_injective; simp

def printAttributes : List (String × String) → String
  | [] => ""
  | (name, value) :: rest => " " ++ name ++ "=\"" ++ escape value ++ "\"" ++ printAttributes rest

mutual

def Node.print : Node → String
  | .text content => escape content
  | .element tag attributes content =>
    "<" ++ tag ++ printAttributes attributes ++ ">" ++ printAll content ++ "</" ++ tag ++ ">"
  | .void tag attributes => "<" ++ tag ++ printAttributes attributes ++ " />"

def printAll : List Node → String
  | [] => ""
  | node :: nodes => node.print ++ printAll nodes

end

@[simp] theorem printAll_append (xs ys : List Node) :
    printAll (xs ++ ys) = printAll xs ++ printAll ys := by
  induction xs with
  | nil => simp [printAll]
  | cons x xs ih => simp [printAll, ih, String.append_assoc]

/-- A link to `target`, shown as `label`. -/
def link (target label : String) : Node := .element "a" [("href", target)] [.text label]

end Minutes.Html
