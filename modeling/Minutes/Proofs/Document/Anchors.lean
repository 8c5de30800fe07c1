import Minutes.Proofs.Document.WellFormed
import Minutes.Proofs.Html.Links
import Minutes.Proofs.Transcript.Numbering

/-!
The anchors in the body of HTML minutes. Items and comments are named by their kinds and numbers,
and no two names in a body are the same.
-/
namespace Minutes
open Html

namespace ItemKind

/-- The name of a kind in anchors and classes. -/
def label : ItemKind → String
  | .topic => "topic"
  | .action => "action"
  | .resolution => "resolution"

def tag : ItemKind → String
  | .topic => "h1"
  | .action | .resolution => "div"

/-- What stands before the text of an item. -/
def lead : ItemKind → String
  | .topic => "Topic: "
  | .action => "ACTION: "
  | .resolution => "RESOLUTION: "

/-- The element of an item, with its anchor. -/
def element (kind : ItemKind) (n : Nat) (text : String) : Element where
  tag := kind.tag
  attributes := [("id", Web.anchor kind.label n), ("class", kind.label)]
  text := kind.lead ++ text

end ItemKind

/-- What an anchor names: an item, a comment, or the link of a comment to itself. -/
inductive AnchorKind where
  | item (kind : ItemKind)
  | comment
  | link
  deriving DecidableEq

namespace AnchorKind

def all : List AnchorKind := [.item .topic, .item .action, .item .resolution, .comment, .link]

def stem : AnchorKind → String
  | .item kind => kind.label ++ "-"
  | .comment => ""
  | .link => "link-"

def name (k : AnchorKind) (n : Nat) : String := k.stem ++ toString n

def number? : AnchorKind → Event → Option Nat
  | .item kind, e => (e.item? kind).map (·.1)
  | .comment, e | .link, e => e.commentId?

/-- The anchors of a kind that events leave. -/
def names (k : AnchorKind) (events : List Event) : List String :=
  (events.filterMap k.number?).map k.name

theorem names_singleton (k : AnchorKind) (e : Event) :
    k.names [e] = (k.number? e).toList.map k.name := by
  rw [names, List.filterMap_cons, List.filterMap_nil]
  cases k.number? e <;> rfl

theorem names_cons (k : AnchorKind) (e : Event) (events : List Event) :
    k.names (e :: events) = k.names [e] ++ k.names events := by
  simp only [names, ← List.map_append, ← List.filterMap_append, List.singleton_append]

theorem stem_injective : Function.Injective stem := by
  intro k k' h
  cases k with
  | item kind =>
    cases k' with
    | item kind' => cases kind <;> cases kind' <;> first | rfl | exact absurd h (by decide)
    | comment | link => cases kind <;> exact absurd h (by decide)
  | comment | link =>
    cases k' with
    | item kind' => cases kind' <;> exact absurd h (by decide)
    | comment | link => first | rfl | exact absurd h (by decide)

theorem isDigit_of_mem_stem {k : AnchorKind} : ∀ c ∈ k.stem.toList, c.isDigit = false := by
  have h : k.stem.toList.all (!·.isDigit) = true := by
    cases k with
    | item kind => cases kind <;> decide
    | comment | link => decide
  intro c hc
  simpa using List.all_eq_true.mp h c hc

/-- The digits of an anchor are its number, and the rest of it is its kind. -/
theorem name_injective {k k' : AnchorKind} {n n' : Nat} (h : k.name n = k'.name n') :
    k = k' ∧ n = n' := by
  have hdigits (n : Nat) : ∀ c ∈ Nat.toDigits 10 n, c.isDigit = true := fun c hc =>
    Nat.isDigit_of_mem_toDigits (by decide) (by decide) hc
  have hlist (k : AnchorKind) (n : Nat) :
      (k.name n).toList = k.stem.toList ++ Nat.toDigits 10 n := by
    rw [name, String.toList_append, ← Nat.toList_repr]
    rfl
  have hstem (k : AnchorKind) (n : Nat) :
      (k.name n).toList.filter (!·.isDigit) = k.stem.toList := by
    rw [hlist, List.filter_append, List.filter_eq_self.mpr, List.filter_eq_nil_iff.mpr,
      List.append_nil]
    · intro c hc
      simp [hdigits n c hc]
    · intro c hc
      simp [isDigit_of_mem_stem c hc]
  have hnumber (k : AnchorKind) (n : Nat) :
      (k.name n).toList.filter (·.isDigit) = Nat.toDigits 10 n := by
    rw [hlist, List.filter_append, List.filter_eq_nil_iff.mpr, List.filter_eq_self.mpr,
      List.nil_append]
    · exact hdigits n
    · intro c hc
      simp [isDigit_of_mem_stem c hc]
  constructor
  · apply stem_injective
    apply String.toList_injective
    rw [← hstem k n, ← hstem k' n', h]
  · rw [← Nat.ofDigitChars_ten_toDigits (n := n), ← hnumber k n, h, hnumber,
      Nat.ofDigitChars_ten_toDigits]

end AnchorKind

namespace Web

theorem elementsAll_block (className : String) (content : List Node) :
    elementsAll (block className content) =
      ⟨"div", [("class", className)], String.ofList (plainAll content)⟩ :: elementsAll content := by
  simp [block, newline, elementsAll, Node.elements]

theorem elementsAll_anchored (tag anchor className : String) (content : List Node) :
    elementsAll (anchored tag anchor className content) =
      ⟨tag, [("id", anchor), ("class", className)], String.ofList (plainAll content)⟩ ::
        elementsAll content := by
  simp [anchored, newline, elementsAll, Node.elements]

theorem elementsAll_item (kind : ItemKind) (n : Nat) (text : String) {content : List Node}
    (h : plainAll content = (kind.lead ++ text).toList) :
    elementsAll (anchored kind.tag (anchor kind.label n) kind.label content) =
      kind.element n text :: elementsAll content := by
  rw [elementsAll_anchored, h, String.ofList_toList, ItemKind.element]

theorem elementsAll_strong (label : String) :
    elementsAll (strong label) = [⟨"strong", [], label⟩] := by
  simp [strong, elementsAll, Node.elements, plainAll, Node.plain]

theorem plainAll_strong (label : String) :
    plainAll (strong label) = label.toList ++ [' '] := by
  simp [strong, plainAll, Node.plain]

theorem elementsAll_assistNodes (assist : Option String) :
    elementsAll (assistNodes assist) = [] := by
  cases assist <;> rfl

/-- The link of a comment to itself. -/
def selfLink (c : Comment) : Element where
  tag := "a"
  attributes := [("id", anchor "link" c.id), ("class", "comment-link"),
    ("href", "#" ++ toString c.id)]
  text := "✪"

theorem elementsAll_commentNodes (c : Comment) : ∃ text,
    elementsAll (commentNodes c) =
      ⟨"div", [("id", toString c.id), ("class", "comment")], text⟩ ::
      ⟨"span", [("class", "name")], c.speaker⟩ :: elementsAll (linkedText c.text) ++
        [selfLink c] := by
  refine ⟨_, (elementsAll_anchored _ _ _ _).trans (congrArg _ ?_)⟩
  simp [elementsAll, Node.elements, plainAll, Node.plain, elementsAll_assistNodes, selfLink]

theorem fragment?_hash (s : String) : fragment? ("#" ++ s) = some s := by
  simp [fragment?]

theorem ids_eventNodes (e : Event) :
    ids (elementsAll (eventNodes e)) = AnchorKind.all.flatMap (·.names [e]) := by
  simp only [AnchorKind.names_singleton]
  cases e with
  | comment c =>
    obtain ⟨text, h⟩ := elementsAll_commentNodes c
    rw [eventNodes, h]
    simp [selfLink, Element.values, AnchorKind.all, AnchorKind.number?, AnchorKind.name,
      AnchorKind.stem, anchor, Event.item?, Event.commentId?]
  | _ =>
    simp [eventNodes, elementsAll_block, elementsAll_anchored, elementsAll, elementsAll_strong,
      Node.elements, Element.values, AnchorKind.all, AnchorKind.number?, AnchorKind.name,
      AnchorKind.stem, ItemKind.label, anchor, Event.item?, Event.commentId?]

/-- The only link of an event within the page is that of a comment to itself. -/
theorem fragments_eventNodes (e : Event) :
    fragments (elementsAll (eventNodes e)) = AnchorKind.comment.names [e] := by
  rw [AnchorKind.names_singleton]
  cases e with
  | comment c =>
    obtain ⟨text, h⟩ := elementsAll_commentNodes c
    rw [eventNodes, h]
    simp [selfLink, Element.values, fragment?_hash, AnchorKind.number?, AnchorKind.name,
      AnchorKind.stem, Event.commentId?]
  | _ =>
    simp [eventNodes, elementsAll_block, elementsAll_anchored, elementsAll, elementsAll_strong,
      Node.elements, Element.values, AnchorKind.number?, Event.commentId?]

/-- An item has one element of its class, which shows its text. -/
theorem ofClass_eventNodes (kind : ItemKind) (e : Event) :
    ofClass kind.label (elementsAll (eventNodes e)) =
      (e.item? kind).toList.map fun item => kind.element item.1 item.2 := by
  cases e with
  | comment c =>
    obtain ⟨text, h⟩ := elementsAll_commentNodes c
    rw [eventNodes, h]
    cases kind <;> simp [selfLink, Element.values, Event.item?, ItemKind.label]
  | topic n text =>
    have h : elementsAll (eventNodes (.topic n text)) =
        ItemKind.topic.element n text :: elementsAll (.text "Topic: " :: linkedText text) :=
      elementsAll_item .topic n text (by simp [plainAll, Node.plain, ItemKind.lead])
    rw [h]
    cases kind <;>
      simp [elementsAll, Node.elements, ItemKind.element, ItemKind.label, Element.values,
        Event.item?]
  | action n text =>
    have h : elementsAll (eventNodes (.action n text)) =
        ItemKind.action.element n text :: elementsAll (.text "ACTION: " :: linkedText text) :=
      elementsAll_item .action n text (by simp [plainAll, Node.plain, ItemKind.lead])
    rw [h]
    cases kind <;>
      simp [elementsAll, Node.elements, ItemKind.element, ItemKind.label, Element.values,
        Event.item?]
  | resolution n text =>
    have h : elementsAll (eventNodes (.resolution n text)) =
        ItemKind.resolution.element n text ::
          elementsAll (strong "RESOLUTION:" ++ linkedText text) :=
      elementsAll_item .resolution n text (by simp [plainAll_strong, ItemKind.lead])
    rw [h]
    cases kind <;>
      simp [elementsAll_strong, ItemKind.element, ItemKind.label, Element.values, Event.item?]
  | _ =>
    cases kind <;>
      simp [eventNodes, elementsAll_block, elementsAll, elementsAll_strong, Node.elements,
        Element.values, Event.item?, ItemKind.label]

theorem ids_ofClass_comment (e : Event) :
    ids (ofClass "comment" (elementsAll (eventNodes e))) = AnchorKind.comment.names [e] := by
  rw [AnchorKind.names_singleton]
  cases e with
  | comment c =>
    obtain ⟨text, h⟩ := elementsAll_commentNodes c
    rw [eventNodes, h]
    simp [selfLink, Element.values, AnchorKind.number?, AnchorKind.name, AnchorKind.stem,
      Event.commentId?]
  | _ =>
    simp [eventNodes, elementsAll_block, elementsAll_anchored, elementsAll, elementsAll_strong,
      Node.elements, Element.values, AnchorKind.number?, Event.commentId?]

end Web

/-- The elements that the events of a meeting leave in its minutes. -/
def bodyElements (events : List Event) : List Element :=
  elementsAll (events.flatMap Web.eventNodes)

theorem bodyElements_cons (e : Event) (events : List Event) :
    bodyElements (e :: events) = elementsAll (Web.eventNodes e) ++ bodyElements events := by
  rw [bodyElements, List.flatMap_cons, elementsAll_append, bodyElements]

theorem fragments_bodyElements (events : List Event) :
    fragments (bodyElements events) = AnchorKind.comment.names events := by
  induction events with
  | nil => rfl
  | cons e events ih =>
    rw [bodyElements_cons, fragments_append, Web.fragments_eventNodes, ih, ← AnchorKind.names_cons]

theorem ids_ofClass_comment_bodyElements (events : List Event) :
    ids (ofClass "comment" (bodyElements events)) = AnchorKind.comment.names events := by
  induction events with
  | nil => rfl
  | cons e events ih =>
    rw [bodyElements_cons, ofClass_append, ids_append, Web.ids_ofClass_comment, ih,
      ← AnchorKind.names_cons]

theorem ofClass_bodyElements (kind : ItemKind) (events : List Event) :
    ofClass kind.label (bodyElements events) =
      (events.filterMap (·.item? kind)).map fun item => kind.element item.1 item.2 := by
  induction events with
  | nil => rfl
  | cons e events ih =>
    rw [bodyElements_cons, ofClass_append, Web.ofClass_eventNodes, ih]
    cases h : e.item? kind <;> simp [h]

theorem ids_ofClass_bodyElements (kind : ItemKind) (events : List Event) :
    ids (ofClass kind.label (bodyElements events)) = (AnchorKind.item kind).names events := by
  have hids (items : List (Nat × String)) :
      ids (items.map fun item => kind.element item.1 item.2) =
        items.map fun item => (AnchorKind.item kind).name item.1 := by
    induction items with
    | nil => rfl
    | cons item items ih =>
      rw [List.map_cons, ids_cons, ih]
      simp [ItemKind.element, Element.values, AnchorKind.name, AnchorKind.stem, Web.anchor]
  have hnumber : (AnchorKind.item kind).number? = fun e => (e.item? kind).map (·.1) := rfl
  rw [ofClass_bodyElements, hids, AnchorKind.names, hnumber, ← List.map_filterMap, List.map_map]
  rfl

/-- The anchors of a body, sorted by their kinds. -/
theorem ids_bodyElements_perm (events : List Event) :
    (ids (bodyElements events)).Perm (AnchorKind.all.flatMap (·.names events)) := by
  induction events with
  | nil => exact .refl []
  | cons e events ih =>
    rw [bodyElements_cons, ids_append, Web.ids_eventNodes]
    refine (ih.append_left _).trans ?_
    refine (List.flatMap_append_perm _ _ _).trans (.of_eq ?_)
    simp only [← AnchorKind.names_cons]


namespace Compiler

variable (c : Compiler) (transcript : String) (date : Option Date) (audio : Bool)

/-- The elements of the items of a kind are those of the record, numbered in order. -/
theorem ofClass_hear (kind : ItemKind) :
    ofClass kind.label (bodyElements (c.hear transcript date audio).events) =
      (((c.hear transcript date audio).record.items kind).zipIdx 1).map fun item =>
        kind.element item.2 item.1 := by
  rw [ofClass_bodyElements, item?_hear, List.map_map]
  rfl

theorem number?_item_hear (kind : ItemKind) :
    (c.hear transcript date audio).events.filterMap (AnchorKind.item kind).number? =
      List.range' 1 ((c.hear transcript date audio).record.items kind).length := by
  have hnumber : (AnchorKind.item kind).number? = fun e => (e.item? kind).map (·.1) := rfl
  rw [hnumber, ← List.map_filterMap, item?_hear, List.map_map, ← List.zipIdx_map_snd]
  rfl

/-- The anchors of a kind are numbered from one on. -/
theorem number?_hear (k : AnchorKind) :
    ∃ m, (c.hear transcript date audio).events.filterMap k.number? = List.range' 1 m := by
  cases k with
  | item kind => exact ⟨_, c.number?_item_hear transcript date audio kind⟩
  | comment | link => exact ⟨_, c.commentId?_hear transcript date audio⟩

theorem ids_bodyElements_nodup :
    (ids (bodyElements (c.hear transcript date audio).events)).Nodup := by
  rw [(ids_bodyElements_perm _).nodup_iff, List.nodup_flatMap]
  constructor
  · intro k _
    obtain ⟨m, hm⟩ := c.number?_hear transcript date audio k
    rw [AnchorKind.names, hm]
    exact List.Nodup.map (fun n n' h => (AnchorKind.name_injective h).2) List.nodup_range'
  · have hall : AnchorKind.all.Nodup := by decide
    refine hall.imp fun {k k'} hne => ?_
    intro x hx hx'
    obtain ⟨n, _, rfl⟩ := List.mem_map.mp hx
    obtain ⟨n', _, h⟩ := List.mem_map.mp hx'
    exact hne (AnchorKind.name_injective h).1.symm

end Compiler
end Minutes
