import Minutes.Text.Blank
import Minutes.Text.WordChar

/-!
Templates with named places, written with two braces or with three around the name.
-/
namespace Minutes.Template
open Text

/-- A template in pieces: named places, and single characters between them. -/
inductive Piece where
  | plain (c : Char)
  | place (name : List Char)

def isNameStart (c : Char) : Bool := c.isAlpha || c == '_'

/-- The name at the head of a text, after white space, and the text after it and its white space. -/
def nameAt? (s : List Char) : Option (List Char × List Char) :=
  match trimStart s with
  | c :: rest =>
    if isNameStart c then
      some (c :: rest.takeWhile isAsciiWordChar, trimStart (rest.dropWhile isAsciiWordChar))
    else none
  | [] => none

/-- The text after a closing of two braces, or of three if there are so many. -/
def afterClosing? : List Char → Option (List Char)
  | '}' :: '}' :: '}' :: rest => some rest
  | '}' :: '}' :: rest => some rest
  | _ => none

/-- The name of the place at the head of a text, and the text after the place. -/
def placeAt? (s : List Char) : Option (List Char × List Char) :=
  let inside := match s with
    | '{' :: '{' :: '{' :: rest => some rest
    | '{' :: '{' :: rest => some rest
    | _ => none
  do
    let (name, rest) ← nameAt? (← inside)
    let after ← afterClosing? rest
    some (name, after)

theorem trimStart_length_le (s : List Char) : (trimStart s).length ≤ s.length :=
  (List.dropWhile_suffix _).length_le

theorem nameAt?_length {s name rest : List Char} (h : nameAt? s = some (name, rest)) :
    rest.length < s.length := by
  have hs := trimStart_length_le s
  unfold nameAt? at h
  split at h
  · next c tail htail =>
    split at h
    · simp only [Option.some.injEq, Prod.mk.injEq] at h
      rw [htail, List.length_cons] at hs
      have h1 := trimStart_length_le (tail.dropWhile isAsciiWordChar)
      have h2 := (List.dropWhile_suffix (l := tail) isAsciiWordChar).length_le
      rw [← h.2]; omega
    · simp at h
  · simp at h

theorem afterClosing?_length {s rest : List Char} (h : afterClosing? s = some rest) :
    rest.length < s.length := by
  unfold afterClosing? at h
  split at h
  · cases h; simp only [List.length_cons]; omega
  · cases h; simp only [List.length_cons]; omega
  · cases h

theorem placeAt?_length {s name after : List Char} (h : placeAt? s = some (name, after)) :
    after.length < s.length := by
  unfold placeAt? at h
  simp only [Option.bind_eq_bind, Option.bind_eq_some_iff] at h
  obtain ⟨inside, hinside, ⟨n, rest⟩, hname, a, hclose, heq⟩ := h
  simp only [Option.some.injEq, Prod.mk.injEq] at heq
  have h1 := nameAt?_length hname
  have h2 : a.length < rest.length := afterClosing?_length hclose
  have h3 : inside.length ≤ s.length := by
    split at hinside <;> simp_all <;> omega
  rw [← heq.2]; omega

def pieces (s : List Char) : List Piece :=
  match s with
  | [] => []
  | c :: rest =>
    match found : placeAt? (c :: rest) with
    | none => .plain c :: pieces rest
    | some (name, after) =>
      have : after.length < (c :: rest).length := placeAt?_length found
      .place name :: pieces after
termination_by s.length
decreasing_by
  all_goals simp only [List.length_cons] at *; omega

/-- The value of a name: the first one given, or nothing. -/
def value (values : List (String × String)) (name : List Char) : List Char :=
  match values.find? fun v => v.1.toList == name with
  | some v => v.2.toList
  | none => []

def Piece.render (values : List (String × String)) : Piece → List Char
  | .plain c => [c]
  | .place name => value values name

end Minutes.Template

namespace Minutes

/-- A template with its places filled in. The values are not themselves templates. -/
def fillTemplate (template : String) (values : List (String × String)) : String :=
  String.ofList ((Template.pieces template.toList).flatMap (Template.Piece.render values))

end Minutes
