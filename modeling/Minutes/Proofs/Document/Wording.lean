import Minutes.Proofs.Document.WellFormed
import Minutes.Proofs.Html.Links
import Minutes.Proofs.Text.Words

/-!
The wording of the minutes. An event reads the same on a page and in plain text, word for word, and
so does the body of the minutes; only the link of a comment to itself has a mark on the page alone.
-/
namespace Minutes
open Html

namespace Html

/-- The characters of a page outside its tags. -/
def characters : List Token → List Char
  | [] => []
  | .char c :: ts => c :: characters ts
  | .opening _ :: ts | .closing _ :: ts | .void _ :: ts => characters ts

/-- A page without its tags, with its references read. -/
def visible? (page : String) : Option String :=
  (tokens? page).map fun ts => decodedString (characters ts)

theorem characters_append (ts us : List Token) :
    characters (ts ++ us) = characters ts ++ characters us := by
  induction ts with
  | nil => rfl
  | cons t ts ih => cases t <;> simp [characters, ih]

theorem characters_chars (s : List Char) : characters (s.map .char) = s := by
  induction s with
  | nil => rfl
  | cons c s ih => simp [characters, ih]

mutual

theorem characters_tokens (node : Node) :
    characters node.tokens = node.plain.flatMap escapeChar := by
  cases node with
  | text content => exact characters_chars _
  | element tag attributes content =>
    have ih := characters_tokensAll content
    simp [Node.tokens, Node.plain, characters, characters_append, ih]
  | void tag attributes => rfl

theorem characters_tokensAll (nodes : List Node) :
    characters (tokensAll nodes) = (plainAll nodes).flatMap escapeChar := by
  cases nodes with
  | nil => rfl
  | cons node nodes =>
    have h := characters_tokens node
    have ih := characters_tokensAll nodes
    simp [tokensAll, plainAll, characters_append, h, ih]

end

/-- A printed tree shows its text. -/
theorem visible?_printAll {nodes : List Node} (h : AllFit false nodes) :
    visible? (printAll nodes) = some (String.ofList (plainAll nodes)) := by
  rw [visible?, tokens?_printAll h, Option.map_some, characters_tokensAll, decodedString,
    decode_escape]

end Html

namespace Event

/-- What an event says, wherever it is shown. -/
def wording : Event → String
  | .dropped | .recorded => ""
  | .information text | .continuation text => text
  | .topic _ text => "Topic: " ++ text
  | .action _ text => "ACTION: " ++ text
  | .proposal text => "PROPOSAL: " ++ text
  | .resolution _ text => "RESOLUTION: " ++ text
  | .useCase text => "USE CASE: " ++ text
  | .comment c => Plain.commentText c
  | .error text => "Error: " ++ text

/-- The mark that a comment has on a page, as the last of its words. -/
def linkMark : Event → List String
  | .comment _ => ["✪"]
  | _ => []

end Event

namespace Web

theorem plainAll_assistNodes (assist : Option String) :
    plainAll (assistNodes assist) = (Plain.assistText assist).toList := by
  cases assist with
  | none =>
    have h : Plain.assistText none = "" := rfl
    rw [h, assistNodes, plainAll, String.toList_empty]
  | some assist =>
    have h : Plain.assistText (some assist) = " [scribe assist by " ++ assist ++ "]" := rfl
    rw [h, assistNodes, plainAll, plainAll, Node.plain, List.append_nil]

/-- The block of an event is a line that ends with the mark, if it has one. -/
theorem plainAll_eventNodes (e : Event) :
    plainAll (eventNodes e) =
      if e.isSilent then []
      else e.wording.toList ++ e.linkMark.flatMap (fun mark => ' ' :: mark.toList) ++ ['\n'] := by
  cases e <;>
    simp [eventNodes, commentNodes, block, anchored, strong, newline, plainAll, Node.plain,
      plainAll_assistNodes, Event.isSilent, Event.wording, Event.linkMark, Plain.commentText]

theorem words_plainAll_eventNodes (e : Event) :
    (Text.words (plainAll (eventNodes e))).map String.ofList =
      words e.wording ++ e.linkMark := by
  have hnewline : ∀ c ∈ ['\n'], Text.isBlank c = true := by simp
  rw [plainAll_eventNodes]
  cases e with
  | dropped | recorded => rfl
  | comment comment =>
    have hmark : Text.words ("✪".toList ++ ['\n']) = ["✪".toList] := by decide
    simp only [Event.isSilent, Event.linkMark, List.flatMap_singleton, Bool.false_eq_true,
      if_false, List.append_assoc, List.cons_append]
    rw [Text.words_append_cons Text.isBlank_space, hmark, List.map_append]
    rfl
  | _ =>
    simp only [Event.isSilent, Event.linkMark, List.flatMap_nil, Bool.false_eq_true, if_false,
      List.append_nil]
    rw [Text.words_append_blanks hnewline]
    rfl

theorem getLast?_plainAll_eventNodes (e : Event) :
    (plainAll (eventNodes e)).getLast?.all Text.isBlank = true := by
  rw [plainAll_eventNodes]
  split_ifs <;> simp

end Web

namespace Plain

theorem words_filled (s : String) : Text.words (filled s).toList = Text.words s.toList := by
  rw [filled, toList_wrap]
  exact Text.words_wrapped width (by simp [indent]) (by simp [indent]) _

theorem words_event (e : Event) : words (event e) = words e.wording := by
  have hone : ∀ c ∈ "\n".toList, Text.isBlank c = true := by simp
  have htwo : ∀ c ∈ "\n\n".toList, Text.isBlank c = true := by simp
  unfold words
  congr 1
  cases e with
  | dropped | recorded => rfl
  | information text | comment comment =>
    simp only [event, Event.wording, String.toList_append, Text.words_append_blanks hone,
      words_filled]
  | topic id text =>
    have hopen : "\nTopic: ".toList = "\n".toList ++ "Topic: ".toList := by decide
    simp only [event, Event.wording, String.toList_append, Text.words_append_blanks htwo]
    rw [hopen, List.append_assoc, Text.words_blanks_append hone]
  | action id text =>
    simp only [event, Event.wording, String.toList_append, Text.words_append_blanks htwo,
      Text.words_blanks_append htwo, words_filled]
  | continuation text =>
    have hindent : ∀ c ∈ "  ".toList, Text.isBlank c = true := by simp
    simp only [event, Event.wording, String.toList_append, Text.words_append_blanks hone,
      Text.words_blanks_append hindent, toList_wrap]
    exact Text.words_wrapped (width - 2) (by simp [indent]) (by simp [indent]) _
  | error text =>
    simp only [event, Event.wording, String.toList_append, Text.words_append_blanks hone,
      Text.words_blanks_append hone, words_filled]
  | _ =>
    simp only [event, Event.wording, String.toList_append, Text.words_append_blanks htwo,
      Text.words_blanks_append hone, words_filled]

/-- A paragraph ends with its line. -/
theorem getLast?_event (e : Event) : (event e).toList.getLast?.all Text.isBlank = true := by
  have hone : "\n".toList.getLast? = some '\n' := by decide
  have htwo : "\n\n".toList.getLast? = some '\n' := by decide
  cases e with
  | dropped | recorded => rfl
  | _ =>
    simp only [event, String.toList_append, List.getLast?_append, hone, htwo, Option.some_or,
      Option.all_some, Text.isBlank_newline]

end Plain

/-- Texts that end with white space keep their words when they are put together. -/
theorem Text.words_flatMap {α : Type} (f : α → List Char)
    (h : ∀ x, (f x).getLast?.all isBlank = true) (xs : List α) :
    words (xs.flatMap f) = xs.flatMap fun x => words (f x) := by
  induction xs with
  | nil => rfl
  | cons x xs ih => rw [List.flatMap_cons, words_append (h x), ih, List.flatMap_cons]

theorem words_plainAll_flatMap (events : List Event) :
    words (String.ofList (plainAll (events.flatMap Web.eventNodes))) =
      events.flatMap fun e => words (Plain.event e) ++ e.linkMark := by
  have hplain : plainAll (events.flatMap Web.eventNodes) =
      events.flatMap fun e => plainAll (Web.eventNodes e) := by
    induction events with
    | nil => rfl
    | cons e events ih => rw [List.flatMap_cons, plainAll_append, ih, List.flatMap_cons]
  rw [words, String.toList_ofList, hplain, Text.words_flatMap _ Web.getLast?_plainAll_eventNodes,
    List.map_flatMap]
  apply List.flatMap_congr
  intro e _
  rw [Web.words_plainAll_eventNodes, Plain.words_event]

theorem words_join_event (events : List Event) :
    words (String.join (events.map Plain.event)) =
      events.flatMap fun e => words (Plain.event e) := by
  rw [words, String.toList_join, List.flatMap_map, Text.words_flatMap _ Plain.getLast?_event,
    List.map_flatMap]
  rfl

/-- Closing up blank lines makes no difference to the words of what follows in a document. -/
theorem exists_closeUp_append (s t : String) :
    ∃ rest, closeUp (s ++ t) = closeUp s ++ rest ∧ words rest = words t := by
  obtain ⟨newlines, h⟩ := Text.exists_closeUpFrom_append 0 s.toList t.toList
  refine ⟨String.ofList (Text.closeUpFrom newlines t.toList), ?_, ?_⟩
  · apply String.toList_injective
    simpa [Text.closedUp] using h
  · have hw := Text.words_append_closeUpFrom newlines [] t.toList (.inr rfl)
    simp only [words, String.toList_ofList]
    exact congrArg (List.map String.ofList) hw

/-- Event by event, minutes have the same words on a page and in plain text, but for the mark that
a comment has at its end on the page. -/
theorem words_agree :
    (∀ e : Event, ∃ text, visible? (Web.event e) = some text ∧
      words text = words (Plain.event e) ++ e.linkMark) ∧
    ∀ (c : Compiler) (transcript : String) (date : Option Date) (audio : Bool),
      let heard := c.hear transcript date audio
      ∃ page plain text,
        (c.compile .html transcript date audio).document =
          c.summary heard.record .html ++ page ∧
        (c.compile .text transcript date audio).document =
          closeUp (c.summary heard.record .text) ++ plain ∧
        visible? page = some text ∧
        words text = heard.events.flatMap (fun e => words (Plain.event e) ++ e.linkMark) ∧
        words plain = heard.events.flatMap fun e => words (Plain.event e) := by
  constructor
  · intro e
    refine ⟨_, visible?_printAll (Web.allFit_eventNodes e), ?_⟩
    rw [words, String.toList_ofList, Web.words_plainAll_eventNodes, Plain.words_event]
  · intro c transcript date audio heard
    have hfit : AllFit false (heard.events.flatMap Web.eventNodes) := by
      rw [allFit_iff]
      intro node hn
      obtain ⟨e, _, hm⟩ := List.mem_flatMap.mp hn
      exact (allFit_iff ..).mp (Web.allFit_eventNodes e) node hm
    have hvisible := visible?_printAll hfit
    rw [← join_event_html] at hvisible
    obtain ⟨plain, hdocument, hwords⟩ := exists_closeUp_append (c.summary heard.record .text)
      (String.join (heard.events.map Plain.event))
    rw [words_join_event] at hwords
    exact ⟨_, plain, _, rfl, hdocument, hvisible, words_plainAll_flatMap heard.events, hwords⟩

end Minutes
