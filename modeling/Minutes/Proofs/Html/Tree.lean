import Minutes.Proofs.Html.Token

/-!
Printed trees. A tree made of the program's own tags, without a link inside a link, prints a text
whose tags are those of the tree and whose characters are those of its escaped text; such a text is
well formed.
-/
namespace Minutes.Html

/-- The elements of minutes and index, with the names of their attributes. -/
def ownTags : List (String × List String) :=
  [("h1", []), ("h1", ["id", "class"]), ("h2", []), ("h3", []), ("h4", []), ("div", []),
   ("div", ["class"]), ("div", ["id", "class"]), ("span", ["class"]), ("strong", []),
   ("a", ["href"]), ("a", ["id", "class", "href"]), ("dl", []), ("dt", []), ("dd", []), ("ol", []),
   ("li", []), ("audio", ["controls", "preload"])]

def ownVoidTags : List (String × List String) := [("source", ["src", "type"])]

def references : List String := ["&amp;", "&lt;", "&gt;", "&quot;"]

def isRaw (c : Char) : Bool := c == '<' || c == '>' || c == '"'

/-- The name of a tag and the names of its attributes. -/
def Tag.shape (tag : Tag) : String × List String := (tag.name, tag.attributes.map (·.1))

def Tag.IsEscaped (tag : Tag) : Prop :=
  ∀ a ∈ tag.attributes, ∀ c ∈ a.2.toList, isRaw c = false

/-- Tags close in the order opposite to that of their opening, and no link opens inside a link.
`outer` holds the names of the elements that are open. -/
def Nested (outer : List String) : List Token → Prop
  | [] => outer = []
  | .char _ :: ts | .void _ :: ts => Nested outer ts
  | .opening tag :: ts => (tag.name = "a" → "a" ∉ outer) ∧ Nested (tag.name :: outer) ts
  | .closing name :: ts => outer.head? = some name ∧ Nested outer.tail ts

/-- Every ampersand among the characters begins a reference. -/
def Referenced (ts : List Token) : Prop :=
  ∀ rest, .char '&' :: rest <:+ ts →
    ∃ r ∈ references, r.toList.map Token.char <+: .char '&' :: rest

/-- A character that is not raw, or a tag of the program's own whose values hold nothing raw. -/
def Token.IsOwn : Token → Prop
  | .char c => isRaw c = false
  | .opening tag => tag.shape ∈ ownTags ∧ tag.IsEscaped
  | .closing name => name ∈ ownTags.map (·.1)
  | .void tag => tag.shape ∈ ownVoidTags ∧ tag.IsEscaped

structure WellFormed (ts : List Token) : Prop where
  own : ∀ t ∈ ts, t.IsOwn
  nested : Nested [] ts
  referenced : Referenced ts

mutual

/-- Whether a tree is made of the program's own tags. `inLink` tells that it stands in a link. -/
def Node.Fits (inLink : Bool) : Node → Prop
  | .text _ => True
  | .element tag attributes content =>
    (tag, attributes.map (·.1)) ∈ ownTags ∧ ¬(inLink = true ∧ tag = "a") ∧
      AllFit (inLink || decide (tag = "a")) content
  | .void tag attributes => (tag, attributes.map (·.1)) ∈ ownVoidTags

def AllFit (inLink : Bool) : List Node → Prop
  | [] => True
  | node :: nodes => node.Fits inLink ∧ AllFit inLink nodes

end

def escapedTag (tag : String) (attributes : List (String × String)) : Tag where
  name := tag
  attributes := attributes.map fun (name, value) => (name, escape value)

mutual

def Node.tokens : Node → List Token
  | .text content => (content.toList.flatMap escapeChar).map .char
  | .element tag attributes content =>
    .opening (escapedTag tag attributes) :: (tokensAll content ++ [.closing tag])
  | .void tag attributes => [.void (escapedTag tag attributes)]

def tokensAll : List Node → List Token
  | [] => []
  | node :: nodes => node.tokens ++ tokensAll nodes

end

theorem allFit_iff (inLink : Bool) (nodes : List Node) :
    AllFit inLink nodes ↔ ∀ node ∈ nodes, node.Fits inLink := by
  induction nodes with
  | nil => simp [AllFit]
  | cons node nodes ih => simp [AllFit, ih]

@[simp] theorem allFit_append (inLink : Bool) (xs ys : List Node) :
    AllFit inLink (xs ++ ys) ↔ AllFit inLink xs ∧ AllFit inLink ys := by
  simp only [allFit_iff, List.mem_append, or_imp, forall_and]

theorem isRaw_of_mem_escape {c : Char} {s : List Char} (h : c ∈ s.flatMap escapeChar) :
    isRaw c = false := by
  obtain ⟨d, _, hc⟩ := List.mem_flatMap.mp h
  unfold escapeChar at hc
  split_ifs at hc with h₁ h₂ h₃ h₄
  · fin_cases hc <;> rfl
  · fin_cases hc <;> rfl
  · fin_cases hc <;> rfl
  · fin_cases hc <;> rfl
  · rw [List.mem_singleton.mp hc]
    simp [isRaw, h₂, h₃, h₄]

theorem toList_printAttributes (attributes : List (String × String)) :
    (printAttributes attributes).toList =
      attributes.flatMap fun (name, value) =>
        ' ' :: name.toList ++ '=' :: '"' :: (escape value).toList ++ ['"'] := by
  induction attributes with
  | nil => rfl
  | cons a attributes ih =>
    simp [printAttributes, ih]

mutual

theorem written_tokens (node : Node) :
    node.tokens.flatMap Token.written = node.print.toList := by
  cases node with
  | text content =>
    simp [Node.tokens, Node.print, List.flatMap_map, Token.written]
  | element tag attributes content =>
    have ih := written_tokensAll content
    simp [Node.tokens, Node.print, Token.written, Tag.written, escapedTag, ih,
      toList_printAttributes, List.flatMap_map]
  | void tag attributes =>
    simp [Node.tokens, Node.print, Token.written, Tag.written, escapedTag,
      toList_printAttributes, List.flatMap_map]

theorem written_tokensAll (nodes : List Node) :
    (tokensAll nodes).flatMap Token.written = (printAll nodes).toList := by
  cases nodes with
  | nil => rfl
  | cons node nodes =>
    have h := written_tokens node
    have ih := written_tokensAll nodes
    simp [tokensAll, printAll, h, ih]

end

mutual

/-- A tree opens and closes its own elements and leaves those around it open. -/
theorem nested_tokens {outer : List String} {node : Node}
    (h : node.Fits (decide ("a" ∈ outer))) (ts : List Token) :
    Nested outer (node.tokens ++ ts) ↔ Nested outer ts := by
  cases node with
  | text content =>
    simp only [Node.tokens]
    induction content.toList.flatMap escapeChar with
    | nil => rfl
    | cons c s ih => exact ih
  | element tag attributes content =>
    obtain ⟨_, ha, hc⟩ := h
    have hl : tag = "a" → "a" ∉ outer := fun ht ho => ha ⟨decide_eq_true ho, ht⟩
    have hc' : AllFit (decide ("a" ∈ tag :: outer)) content := by
      convert hc using 1
      simp [Bool.or_comm, eq_comm]
    simp only [Node.tokens, List.cons_append, List.append_assoc, Nested, escapedTag]
    rw [nested_tokensAll hc']
    simp only [Nested, List.head?_cons, List.tail_cons, true_and]
    exact ⟨And.right, And.intro hl⟩
  | void tag attributes => rfl

theorem nested_tokensAll {outer : List String} {nodes : List Node}
    (h : AllFit (decide ("a" ∈ outer)) nodes) (ts : List Token) :
    Nested outer (tokensAll nodes ++ ts) ↔ Nested outer ts := by
  cases nodes with
  | nil => rfl
  | cons node nodes =>
    rw [tokensAll, List.append_assoc, nested_tokens h.1, nested_tokensAll h.2]

end

theorem Referenced.append {xs ys : List Token} (hx : Referenced xs) (hy : Referenced ys) :
    Referenced (xs ++ ys) := by
  induction xs with
  | nil => exact hy
  | cons x xs ih =>
    intro rest hr
    rcases List.suffix_cons_iff.mp hr with heq | hs
    · obtain ⟨hx', hrest⟩ := List.cons.inj heq
      obtain ⟨r, hm, hp⟩ := hx xs (by rw [hx'])
      refine ⟨r, hm, hp.trans ?_⟩
      rw [hrest]
      exact ⟨ys, rfl⟩
    · exact ih (fun rest' h => hx rest' (h.trans (List.suffix_cons x xs))) rest hs

theorem referenced_of_notMem {ts : List Token} (h : .char '&' ∉ ts) : Referenced ts := by
  intro rest hr
  exact absurd (hr.subset List.mem_cons_self) h

theorem referenced_reference {r : String} {s : List Char} (hr : r ∈ references)
    (h : r.toList = '&' :: s) (hs : '&' ∉ s) : Referenced (r.toList.map .char) := by
  intro rest hrest
  rw [h, List.map_cons] at hrest
  rcases List.suffix_cons_iff.mp hrest with heq | hin
  · exact ⟨r, hr, by rw [h, heq, List.map_cons]⟩
  · exact absurd (hin.subset List.mem_cons_self) (by simpa using hs)

theorem referenced_escapeChar (c : Char) : Referenced ((escapeChar c).map .char) := by
  unfold escapeChar
  split_ifs with h
  · exact referenced_reference (s := "amp;".toList) (by simp [references]) rfl (by decide)
  · exact referenced_reference (s := "lt;".toList) (by simp [references]) rfl (by decide)
  · exact referenced_reference (s := "gt;".toList) (by simp [references]) rfl (by decide)
  · exact referenced_reference (s := "quot;".toList) (by simp [references]) rfl (by decide)
  · exact referenced_of_notMem (by simpa using Ne.symm h)

theorem referenced_escape (s : List Char) : Referenced ((s.flatMap escapeChar).map .char) := by
  induction s with
  | nil => exact referenced_of_notMem (by simp)
  | cons c s ih =>
    rw [List.flatMap_cons, List.map_append]
    exact (referenced_escapeChar c).append ih

mutual

theorem referenced_tokens (node : Node) : Referenced node.tokens := by
  cases node with
  | text content => exact referenced_escape content.toList
  | element tag attributes content =>
    have ho : Referenced [.opening (escapedTag tag attributes)] := referenced_of_notMem (by simp)
    have hc : Referenced [.closing tag] := referenced_of_notMem (by simp)
    exact ho.append ((referenced_tokensAll content).append hc)
  | void tag attributes => exact referenced_of_notMem (by simp [Node.tokens])

theorem referenced_tokensAll (nodes : List Node) : Referenced (tokensAll nodes) := by
  cases nodes with
  | nil => exact referenced_of_notMem (by simp [tokensAll])
  | cons node nodes => exact (referenced_tokens node).append (referenced_tokensAll nodes)

end

@[simp] theorem shape_escapedTag (tag : String) (attributes : List (String × String)) :
    (escapedTag tag attributes).shape = (tag, attributes.map (·.1)) := by
  simp [Tag.shape, escapedTag]

theorem isEscaped_escapedTag (tag : String) (attributes : List (String × String)) :
    (escapedTag tag attributes).IsEscaped := by
  intro a ha c hc
  obtain ⟨⟨name, value⟩, _, rfl⟩ := List.mem_map.mp ha
  rw [toList_escape] at hc
  exact isRaw_of_mem_escape hc

mutual

theorem isOwn_of_mem_tokens {inLink : Bool} {node : Node} (h : node.Fits inLink) :
    ∀ t ∈ node.tokens, t.IsOwn := by
  cases node with
  | text content =>
    intro t ht
    obtain ⟨c, hc, rfl⟩ := List.mem_map.mp ht
    exact isRaw_of_mem_escape hc
  | element tag attributes content =>
    obtain ⟨ho, _, hc⟩ := h
    intro t ht
    simp only [Node.tokens, List.mem_cons, List.mem_append, List.not_mem_nil, or_false] at ht
    rcases ht with rfl | ht | rfl
    · exact ⟨by rwa [shape_escapedTag], isEscaped_escapedTag tag attributes⟩
    · exact isOwn_of_mem_tokensAll hc t ht
    · exact List.mem_map.mpr ⟨_, ho, rfl⟩
  | void tag attributes =>
    intro t ht
    rw [List.mem_singleton.mp ht]
    exact ⟨by rw [shape_escapedTag]; exact h, isEscaped_escapedTag tag attributes⟩

theorem isOwn_of_mem_tokensAll {inLink : Bool} {nodes : List Node} (h : AllFit inLink nodes) :
    ∀ t ∈ tokensAll nodes, t.IsOwn := by
  cases nodes with
  | nil => intro t ht; cases ht
  | cons node nodes =>
    intro t ht
    rcases List.mem_append.mp ht with ht | ht
    · exact isOwn_of_mem_tokens h.1 t ht
    · exact isOwn_of_mem_tokensAll h.2 t ht

end

theorem isName_of_mem_ownTags : ∀ shape ∈ ownTags ++ ownVoidTags,
    IsName shape.1.toList ∧ ∀ name ∈ shape.2, IsName name.toList := by
  decide

theorem Tag.isPlain_of_shape {tag : Tag} (hs : tag.shape ∈ ownTags ++ ownVoidTags)
    (he : tag.IsEscaped) : tag.IsPlain := by
  obtain ⟨hn, ha⟩ := isName_of_mem_ownTags _ hs
  refine ⟨hn, fun a hm => ⟨ha a.1 (List.mem_map_of_mem hm), fun hq => ?_⟩⟩
  exact absurd (he a hm '"' hq) (by decide)

theorem Token.IsOwn.isPlain {t : Token} (h : t.IsOwn) : t.IsPlain := by
  cases t with
  | char c =>
    rintro rfl
    exact Bool.noConfusion (show true = false from h)
  | opening tag => exact tag.isPlain_of_shape (List.mem_append_left _ h.1) h.2
  | closing name =>
    obtain ⟨shape, hs, rfl⟩ := List.mem_map.mp h
    exact (isName_of_mem_ownTags shape (List.mem_append_left _ hs)).1
  | void tag => exact tag.isPlain_of_shape (List.mem_append_right _ h.1) h.2

/-- A printed tree is scanned into its own tags and its escaped text. -/
theorem tokens?_printAll {nodes : List Node} (h : AllFit false nodes) :
    tokens? (printAll nodes) = some (tokensAll nodes) := by
  unfold tokens?
  rw [← written_tokensAll]
  exact scan_written fun t ht => (isOwn_of_mem_tokensAll h t ht).isPlain

theorem wellFormed_tokensAll {nodes : List Node} (h : AllFit false nodes) :
    WellFormed (tokensAll nodes) where
  own := isOwn_of_mem_tokensAll h
  nested := by
    have h' : AllFit (decide ("a" ∈ ([] : List String))) nodes := h
    have hn : Nested [] (tokensAll nodes ++ []) := (nested_tokensAll h' []).mpr rfl
    rwa [List.append_nil] at hn
  referenced := referenced_tokensAll nodes

end Minutes.Html
