import Minutes.Proofs.Html.Tree

/-!
The elements of a page as its reader sees them: with the values of their attributes and their
visible text decoded. A printed tree shows its own elements.
-/
namespace Minutes.Html

/-- A text with its references replaced by the characters that they stand for. -/
def decode : List Char → List Char
  | '&' :: 'a' :: 'm' :: 'p' :: ';' :: s => '&' :: decode s
  | '&' :: 'l' :: 't' :: ';' :: s => '<' :: decode s
  | '&' :: 'g' :: 't' :: ';' :: s => '>' :: decode s
  | '&' :: 'q' :: 'u' :: 'o' :: 't' :: ';' :: s => '"' :: decode s
  | c :: s => c :: decode s
  | [] => []

structure Element where
  tag : String
  attributes : List (String × String) := []
  text : String := ""
  deriving DecidableEq

/-- The values of the attributes of a name. -/
def Element.values (e : Element) (name : String) : List String :=
  (e.attributes.filter (·.1 == name)).map (·.2)

def ids (es : List Element) : List String := es.flatMap (·.values "id")

def ofClass (className : String) (es : List Element) : List Element :=
  es.filter fun e => (e.values "class").contains className

/-- The name of the place that a target means within its own page. -/
def fragment? (target : String) : Option String :=
  match target.toList with
  | '#' :: s => some (String.ofList s)
  | _ => none

/-- The places of the page that its links lead to. -/
def fragments (es : List Element) : List String :=
  es.flatMap fun e => (e.values "href").filterMap fragment?

section append

variable (className : String) (e : Element) (xs ys : List Element)

@[simp] theorem ids_nil : ids [] = [] := rfl

@[simp] theorem ids_cons : ids (e :: xs) = e.values "id" ++ ids xs := List.flatMap_cons

@[simp] theorem ids_append : ids (xs ++ ys) = ids xs ++ ids ys := List.flatMap_append

@[simp] theorem fragments_nil : fragments [] = [] := rfl

@[simp] theorem fragments_cons :
    fragments (e :: xs) = (e.values "href").filterMap fragment? ++ fragments xs :=
  List.flatMap_cons

@[simp] theorem fragments_append : fragments (xs ++ ys) = fragments xs ++ fragments ys :=
  List.flatMap_append

@[simp] theorem ofClass_nil : ofClass className [] = [] := rfl

@[simp] theorem ofClass_cons :
    ofClass className (e :: xs) =
      if (e.values "class").contains className then e :: ofClass className xs
      else ofClass className xs :=
  List.filter_cons

@[simp] theorem ofClass_append :
    ofClass className (xs ++ ys) = ofClass className xs ++ ofClass className ys :=
  List.filter_append ..

end append

/-- The characters up to the end of the element in which, at a depth, the tokens stand. -/
def textWithin : Nat → List Token → List Char
  | _, [] => []
  | depth, .char c :: ts => c :: textWithin depth ts
  | depth, .opening _ :: ts => textWithin (depth + 1) ts
  | 0, .closing _ :: _ => []
  | depth + 1, .closing _ :: ts => textWithin depth ts
  | depth, .void _ :: ts => textWithin depth ts

def decodedString (s : List Char) : String := String.ofList (decode s)

def Tag.decoded (tag : Tag) : List (String × String) :=
  tag.attributes.map fun (name, value) => (name, decodedString value.toList)

/-- The elements in the order of their opening. -/
def elements : List Token → List Element
  | [] => []
  | .opening tag :: ts => ⟨tag.name, tag.decoded, decodedString (textWithin 0 ts)⟩ :: elements ts
  | .void tag :: ts => ⟨tag.name, tag.decoded, ""⟩ :: elements ts
  | .char _ :: ts | .closing _ :: ts => elements ts

/-- The elements of a page, if it is made of tags and characters. -/
def elements? (s : String) : Option (List Element) := (tokens? s).map elements

mutual

/-- The text of a tree without its tags. -/
def Node.plain : Node → List Char
  | .text content => content.toList
  | .element _ _ content => plainAll content
  | .void _ _ => []

def plainAll : List Node → List Char
  | [] => []
  | node :: nodes => node.plain ++ plainAll nodes

end

mutual

def Node.elements : Node → List Element
  | .text _ => []
  | .element tag attributes content =>
    ⟨tag, attributes, String.ofList (plainAll content)⟩ :: elementsAll content
  | .void tag attributes => [⟨tag, attributes, ""⟩]

def elementsAll : List Node → List Element
  | [] => []
  | node :: nodes => node.elements ++ elementsAll nodes

end

@[simp] theorem plainAll_append (xs ys : List Node) :
    plainAll (xs ++ ys) = plainAll xs ++ plainAll ys := by
  induction xs with
  | nil => rfl
  | cons x xs ih => simp [plainAll, ih]

@[simp] theorem elementsAll_append (xs ys : List Node) :
    elementsAll (xs ++ ys) = elementsAll xs ++ elementsAll ys := by
  induction xs with
  | nil => rfl
  | cons x xs ih => simp [elementsAll, ih]

theorem elementsAll_map {α : Type} (f : α → Node) (xs : List α) :
    elementsAll (xs.map f) = xs.flatMap fun x => (f x).elements := by
  induction xs with
  | nil => rfl
  | cons x xs ih => simp [elementsAll, ih]

theorem decode_cons {c : Char} (h : c ≠ '&') (s : List Char) : decode (c :: s) = c :: decode s := by
  conv_lhs => unfold decode
  split <;> simp_all

/-- What is escaped is read as it was. -/
@[simp] theorem decode_escape (s : List Char) : decode (s.flatMap escapeChar) = s := by
  induction s with
  | nil => rfl
  | cons c s ih =>
    rw [List.flatMap_cons, escapeChar]
    split_ifs with h₁ h₂ h₃ h₄
    · rw [h₁]
      exact congrArg ('&' :: ·) ih
    · rw [h₂]
      exact congrArg ('<' :: ·) ih
    · rw [h₃]
      exact congrArg ('>' :: ·) ih
    · rw [h₄]
      exact congrArg ('"' :: ·) ih
    · rw [List.singleton_append, decode_cons h₁, ih]

theorem textWithin_chars (depth : Nat) (s : List Char) (ts : List Token) :
    textWithin depth (s.map .char ++ ts) = s ++ textWithin depth ts := by
  induction s with
  | nil => rfl
  | cons c s ih => simp [textWithin, ih]

mutual

theorem textWithin_tokens (depth : Nat) (node : Node) (ts : List Token) :
    textWithin depth (node.tokens ++ ts) =
      node.plain.flatMap escapeChar ++ textWithin depth ts := by
  cases node with
  | text content => exact textWithin_chars depth _ ts
  | element tag attributes content =>
    simp only [Node.tokens, List.cons_append, List.append_assoc, textWithin, List.nil_append]
    rw [textWithin_tokensAll (depth + 1) content]
    simp only [textWithin, Node.plain]
  | void tag attributes => cases depth <;> rfl

theorem textWithin_tokensAll (depth : Nat) (nodes : List Node) (ts : List Token) :
    textWithin depth (tokensAll nodes ++ ts) =
      (plainAll nodes).flatMap escapeChar ++ textWithin depth ts := by
  cases nodes with
  | nil => rfl
  | cons node nodes =>
    simp only [tokensAll, plainAll, List.append_assoc, List.flatMap_append]
    rw [textWithin_tokens depth node, textWithin_tokensAll depth nodes]

end

theorem decoded_escapedTag (tag : String) (attributes : List (String × String)) :
    (escapedTag tag attributes).decoded = attributes := by
  simp [Tag.decoded, escapedTag, decodedString, Function.comp_def]

theorem elements_chars (s : List Char) (ts : List Token) :
    elements (s.map .char ++ ts) = elements ts := by
  induction s with
  | nil => rfl
  | cons c s ih => exact ih

mutual

theorem elements_tokens (node : Node) (ts : List Token) :
    elements (node.tokens ++ ts) = node.elements ++ elements ts := by
  cases node with
  | text content => exact elements_chars _ ts
  | element tag attributes content =>
    have htext : decodedString (textWithin 0 (tokensAll content ++ (.closing tag :: ts))) =
        String.ofList (plainAll content) := by
      rw [textWithin_tokensAll]
      simp [textWithin, decodedString]
    simp only [Node.tokens, List.cons_append, List.append_assoc, elements, List.nil_append]
    rw [htext, decoded_escapedTag, elements_tokensAll content]
    simp only [elements, Node.elements, escapedTag, List.cons_append]
  | void tag attributes =>
    simp only [Node.tokens, List.singleton_append, elements, Node.elements, decoded_escapedTag]
    rfl

/-- A printed tree shows its own elements. -/
theorem elements_tokensAll (nodes : List Node) (ts : List Token) :
    elements (tokensAll nodes ++ ts) = elementsAll nodes ++ elements ts := by
  cases nodes with
  | nil => rfl
  | cons node nodes =>
    simp only [tokensAll, elementsAll, List.append_assoc]
    rw [elements_tokens node, elements_tokensAll nodes]

end

theorem elements?_printAll {nodes : List Node} (h : AllFit false nodes) :
    elements? (printAll nodes) = some (elementsAll nodes) := by
  rw [elements?, tokens?_printAll h, Option.map_some]
  congr 1
  have he := elements_tokensAll nodes []
  rwa [List.append_nil, elements, List.append_nil] at he

example : elements? "<p>see <a href=\"?a&amp;b\">a &lt; b</a></p>" =
    some [⟨"p", [], "see a < b"⟩, ⟨"a", [("href", "?a&b")], "a < b"⟩] := by
  decide +kernel

end Minutes.Html
