import Minutes.Document.Compile
import Minutes.Publishing.Index
import Minutes.Proofs.Html.Links

/-!
Minutes and index are printed trees of the program's own tags, and so they are well-formed HTML
without foreign markup, whatever the transcript, the roster and the names of the folders hold.
-/
namespace Minutes
open Html

/-- The tree of the HTML minutes. -/
def Compiler.documentNodes (c : Compiler) (hearing : Hearing) : List Node :=
  Web.summaryNodes c.today c.roster hearing.record ++ hearing.events.flatMap Web.eventNodes

theorem join_event_html (events : List Event) :
    String.join (events.map Web.event) = printAll (events.flatMap Web.eventNodes) := by
  induction events with
  | nil => rfl
  | cons e events ih => simp [Web.event, ih]

theorem Compiler.document_html (c : Compiler) (hearing : Hearing) :
    c.document .html hearing = printAll (c.documentNodes hearing) := by
  unfold document documentNodes
  rw [printAll_append, ← join_event_html]
  rfl

namespace Html

/-- A text that splits into tags and characters that are well formed. -/
def IsWellFormed (s : String) : Prop :=
  ∃ ts, tokens? s = some ts ∧ ts.flatMap Token.written = s.toList ∧ WellFormed ts

theorem isWellFormed_printAll {nodes : List Node} (h : AllFit false nodes) :
    IsWellFormed (printAll nodes) := by
  have ht := tokens?_printAll h
  exact ⟨tokensAll nodes, ht, written_of_scan ht, wellFormed_tokensAll h⟩

end Html

namespace Web

theorem allFit_block (className : String) {content : List Node} (h : AllFit false content) :
    AllFit false (block className content) := by
  simp [block, newline, AllFit, Node.Fits, ownTags, h]

theorem allFit_anchored {tag : String} (ht : tag = "div" ∨ tag = "h1") (anchor className : String)
    {content : List Node} (h : AllFit false content) :
    AllFit false (anchored tag anchor className content) := by
  rcases ht with rfl | rfl <;> simp [anchored, newline, AllFit, Node.Fits, ownTags, h]

theorem allFit_strong (label : String) : AllFit false (strong label) := by
  simp [strong, AllFit, Node.Fits, ownTags]

theorem allFit_commentNodes (c : Comment) : AllFit false (commentNodes c) := by
  apply allFit_anchored (.inl rfl)
  have ha : AllFit false (assistNodes c.assist) := by
    cases c.assist <;> simp [assistNodes, AllFit, Node.Fits]
  simp [AllFit, Node.Fits, ownTags, allFit_linkedText, ha]

theorem allFit_eventNodes (e : Event) : AllFit false (eventNodes e) := by
  cases e with
  | dropped | recorded => trivial
  | information text | continuation text => exact allFit_block _ (allFit_linkedText text)
  | topic id text => exact allFit_anchored (.inr rfl) _ _ ⟨trivial, allFit_linkedText text⟩
  | action id text => exact allFit_anchored (.inl rfl) _ _ ⟨trivial, allFit_linkedText text⟩
  | proposal text | useCase text =>
    exact allFit_block _ ((allFit_append ..).mpr ⟨allFit_strong _, allFit_linkedText text⟩)
  | resolution id text =>
    exact allFit_anchored (.inl rfl) _ _
      ((allFit_append ..).mpr ⟨allFit_strong _, allFit_linkedText text⟩)
  | comment comment => exact allFit_commentNodes comment
  | error text => exact allFit_block _ ⟨trivial, allFit_linkedText text⟩

theorem allFit_entry (title : String) {content : List Node} (h : AllFit false content) :
    AllFit false (entry title content) := by
  simp [entry, newline, AllFit, Node.Fits, ownTags, h]

theorem allFit_numberedEntry (title kind : String) (items : List String) :
    AllFit false (numberedEntry title kind items) := by
  unfold numberedEntry
  split_ifs
  · trivial
  · apply allFit_entry
    refine ⟨⟨by simp [ownTags], by simp, (allFit_iff ..).mpr fun node hn => ?_⟩, trivial⟩
    obtain ⟨p, _, rfl⟩ := List.mem_map.mp hn
    simp [itemNode, Node.Fits, AllFit, ownTags, fits_link]

theorem allFit_intersperse (separator : String) {nodes : List Node} (h : AllFit false nodes) :
    AllFit false (nodes.intersperse (.text separator)) := by
  fun_induction List.intersperse with
  | case1 => trivial
  | case2 node => exact h
  | case3 node nodes hne ih => exact ⟨h.1, trivial, ih h.2⟩

theorem allFit_presentNodes (r : Record) (roster : Roster) :
    AllFit false (presentNodes r roster) := by
  apply allFit_intersperse
  have hattendee (a : String × Option String) : (attendeeNode a).Fits false := by
    obtain ⟨name, homepage | homepage⟩ := a
    · trivial
    · exact fits_link _ _
  have htotal : AllFit false (r.totalPresent.toList.map Node.text) := by
    cases r.totalPresent <;> simp [AllFit, Node.Fits]
  rw [allFit_append, allFit_iff]
  refine ⟨fun node hn => ?_, htotal⟩
  obtain ⟨a, _, rfl⟩ := List.mem_map.mp hn
  exact hattendee a

theorem allFit_audioNodes : AllFit false audioNodes := by
  simp [audioNodes, newline, AllFit, Node.Fits, ownTags, ownVoidTags, fits_link]

theorem allFit_summaryEntries (r : Record) (roster : Roster) :
    AllFit false (summaryEntries r roster) := by
  have hagenda : AllFit false (agendaEntry r.agenda) := by
    cases r.agenda with
    | none => trivial
    | some url => exact allFit_entry _ ⟨fits_link url url, trivial⟩
  have haudio : AllFit false (audioEntry r.audio) := by
    cases r.audio with
    | false => trivial
    | true => exact allFit_entry _ allFit_audioNodes
  have htext (title content : String) : AllFit false (entry title [.text content]) :=
    allFit_entry _ ⟨trivial, trivial⟩
  simp only [summaryEntries, allFit_append, allFit_numberedEntry, htext, hagenda, haudio,
    allFit_entry "Present" (allFit_presentNodes r roster), and_self]

theorem allFit_summaryNodes (today : Date) (roster : Roster) (r : Record) :
    AllFit false (summaryNodes today roster r) := by
  simp [summaryNodes, newline, AllFit, Node.Fits, ownTags, allFit_summaryEntries]

end Web

namespace Index
open Web (newline)

theorem allFit_itemNodes (key kind item : String) (n : Nat) :
    AllFit false (itemNodes key kind item n) := by
  simp [itemNodes, newline, AllFit, Node.Fits, ownTags, fits_link]

theorem allFit_sectionNodes (key title kind : String) (items : List String) :
    AllFit false (sectionNodes key title kind items) := by
  unfold sectionNodes
  split_ifs
  · trivial
  · refine ⟨⟨by simp [ownTags], by simp, trivial, trivial⟩,
      ⟨by simp [ownTags], by simp, trivial, (allFit_iff ..).mpr fun node hn => ?_⟩, trivial,
      trivial⟩
    obtain ⟨p, _, hm⟩ := List.mem_flatMap.mp hn
    exact (allFit_iff ..).mp (allFit_itemNodes key kind p.1 p.2) node hm

theorem allFit_nodes (meetings : List MeetingSummary) : AllFit false (nodes meetings) := by
  rw [allFit_iff]
  intro node hn
  obtain ⟨m, _, hm⟩ := List.mem_flatMap.mp hn
  have hmeeting : AllFit false (meetingNodes m) := by
    simp [meetingNodes, newline, AllFit, Node.Fits, ownTags, fits_link, allFit_sectionNodes]
  exact (allFit_iff ..).mp hmeeting node hm

end Index

theorem Compiler.allFit_documentNodes (c : Compiler) (hearing : Hearing) :
    AllFit false (c.documentNodes hearing) := by
  rw [documentNodes, allFit_append]
  refine ⟨Web.allFit_summaryNodes _ _ _, (allFit_iff ..).mpr fun node hn => ?_⟩
  obtain ⟨e, _, hm⟩ := List.mem_flatMap.mp hn
  exact (allFit_iff ..).mp (Web.allFit_eventNodes e) node hm

/-- No transcript, roster or setting, and no name of a folder, brings markup into the pages: the
HTML minutes of every transcript and the index of all meetings are well formed. -/
theorem pages_isWellFormed :
    (∀ (c : Compiler) (transcript : String) (date : Option Date) (audio : Bool),
      IsWellFormed (c.compile .html transcript date audio).document) ∧
    ∀ meetings : List MeetingSummary, IsWellFormed (Index.render meetings) := by
  refine ⟨fun c transcript date audio => ?_, fun meetings => ?_⟩
  · have hd : (c.compile .html transcript date audio).document =
        printAll (c.documentNodes (c.hear transcript date audio)) := c.document_html _
    rw [hd]
    exact isWellFormed_printAll (c.allFit_documentNodes _)
  · exact isWellFormed_printAll (Index.allFit_nodes meetings)

end Minutes
