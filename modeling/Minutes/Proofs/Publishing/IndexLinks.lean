import Minutes.Archive
import Minutes.Proofs.Document.SummaryLinks
import Minutes.Proofs.Files.Write

/-!
The links of the index. They are numbered from the plain text of a meeting, and lead to the items
of its HTML minutes, which number them on their own.
-/
namespace Minutes
open Files Html

/-- What the index shows of a transcript. -/
def MeetingSummary.of (c : Compiler) (key transcript : String) (date : Option Date) :
    MeetingSummary :=
  let minutes := c.compile .text transcript date false
  ⟨key, minutes.record.topics, minutes.record.resolutions⟩

def links (es : List Element) : List Element := es.filter fun e => e.tag == "a"

/-- A link from outside to the one element of a page that has its name. The element shows the text
of the link after `lead`. -/
def LeadsTo (key lead : String) (page : List Element) (link target : Element) : Prop :=
  ∃ x, link.values "href" = [key ++ "/#" ++ x] ∧ target.values "id" = [x] ∧
    (ids page).count x = 1 ∧ target.text = lead ++ link.text

/-- The part of a meeting in the index: after a link to its folder, one link for each topic and one
for each resolution of the minutes, in order. -/
def LinksItems (key : String) (part minutes : List Element) : Prop :=
  ∃ folder topics resolutions, links part = folder :: topics ++ resolutions ∧
    folder.values "href" = [key ++ "/"] ∧
    List.Forall₂ (LeadsTo key "Topic: " minutes) topics (ofClass "topic" minutes) ∧
    List.Forall₂ (LeadsTo key "RESOLUTION: " minutes) resolutions (ofClass "resolution" minutes)

namespace Index

/-- The link of the index to an item. -/
def itemLink (key kind item : String) (n : Nat) : Element where
  tag := "a"
  attributes := [("href", key ++ "/#" ++ Web.anchor kind n)]
  text := item

theorem links_append (xs ys : List Element) : links (xs ++ ys) = links xs ++ links ys :=
  List.filter_append ..

theorem links_itemNodes (key kind item : String) (n : Nat) :
    links (elementsAll (itemNodes key kind item n)) = [itemLink key kind item n] := by
  simp [itemNodes, Web.newline, elementsAll, Node.elements, Web.elements_link, links, itemLink]

theorem links_sectionNodes (key title kind : String) (items : List String) :
    links (elementsAll (sectionNodes key title kind items)) =
      (items.zipIdx 1).map fun item => itemLink key kind item.1 item.2 := by
  have hlist (pairs : List (String × Nat)) :
      links (elementsAll (pairs.flatMap fun item => itemNodes key kind item.1 item.2)) =
        pairs.map fun item => itemLink key kind item.1 item.2 := by
    induction pairs with
    | nil => rfl
    | cons p pairs ih =>
      rw [List.flatMap_cons, elementsAll_append, links_append, ih, links_itemNodes]
      rfl
  unfold sectionNodes
  split_ifs with h
  · rw [List.isEmpty_iff.mp h]
    rfl
  · rw [← hlist]
    simp [elementsAll, Node.elements, Web.newline, links]

theorem links_meetingNodes (m : MeetingSummary) : ∃ folder,
    links (elementsAll (meetingNodes m)) =
      folder :: ((m.topics.zipIdx 1).map fun item => itemLink m.key "topic" item.1 item.2) ++
        (m.resolutions.zipIdx 1).map (fun item => itemLink m.key "resolution" item.1 item.2) ∧
      folder.values "href" = [m.key ++ "/"] := by
  refine ⟨⟨"a", [("href", m.key ++ "/")], "Meeting for " ++ m.key⟩, ?_, ?_⟩
  · rw [meetingNodes, elementsAll_append, elementsAll_append, links_append, links_append,
      links_sectionNodes, links_sectionNodes]
    simp [elementsAll, Node.elements, Web.newline, links, Web.elements_link]
  · simp [Element.values]

end Index

namespace Compiler

variable (c : Compiler) (key transcript : String) (date date' : Option Date) (audio : Bool)

theorem ofClass_documentNodes (kind : ItemKind) :
    ofClass kind.label (elementsAll (c.documentNodes (c.hear transcript date audio))) =
      (((c.hear transcript date audio).record.items kind).zipIdx 1).map fun item =>
        kind.element item.2 item.1 := by
  have hs :=
    Web.pointsTo_summaryNodes c.today c.roster (c.agendaLeadsOut_hear transcript date audio)
  rw [elementsAll_documentNodes, ofClass_append, hs.ofClass_eq, ofClass_hear]
  rfl

/-- The links that are numbered from the items of a record lead to its elements in order. -/
theorem leadsTo_items (kind : ItemKind) :
    List.Forall₂
      (LeadsTo key kind.lead (elementsAll (c.documentNodes (c.hear transcript date audio))))
      ((((c.hear transcript date audio).record.items kind).zipIdx 1).map fun item =>
        Index.itemLink key kind.label item.1 item.2)
      (ofClass kind.label (elementsAll (c.documentNodes (c.hear transcript date audio)))) := by
  have hnodup := c.ids_documentNodes_nodup transcript date audio
  have helements := c.ofClass_documentNodes transcript date audio kind
  rw [helements, List.forall₂_map_left_iff, List.forall₂_map_right_iff, List.forall₂_same]
  intro item hitem
  have hid : (kind.element item.2 item.1).values "id" = [Web.anchor kind.label item.2] := by
    simp [ItemKind.element, Element.values]
  refine ⟨Web.anchor kind.label item.2, ?_, hid, ?_, rfl⟩
  · simp [Index.itemLink, Element.values]
  · apply List.count_eq_one_of_mem hnodup
    have hmem : Web.anchor kind.label item.2 ∈ ids (ofClass kind.label
        (elementsAll (c.documentNodes (c.hear transcript date audio)))) := by
      rw [helements]
      exact List.mem_flatMap.mpr ⟨_, List.mem_map_of_mem hitem, by simp [hid]⟩
    exact mem_ids_of_mem_ids_ofClass hmem

theorem meetingSummary_eq :
    MeetingSummary.of c key transcript date =
      ⟨key, (c.hear transcript date' audio).record.topics,
        (c.hear transcript date' audio).record.resolutions⟩ := by
  have ht := c.items_hear_congr transcript date date' false audio .topic
  have hr := c.items_hear_congr transcript date date' false audio .resolution
  exact congrArg₂ (MeetingSummary.mk key) ht hr

theorem linksItems :
    LinksItems key (elementsAll (Index.nodes [.of c key transcript date]))
      (elementsAll (c.documentNodes (c.hear transcript date' audio))) := by
  obtain ⟨folder, hlinks, hfolder⟩ :=
    Index.links_meetingNodes (MeetingSummary.of c key transcript date)
  have hnodes : Index.nodes [.of c key transcript date] =
      Index.meetingNodes (.of c key transcript date) :=
    List.flatMap_singleton ..
  rw [← hnodes, c.meetingSummary_eq key transcript date date' audio] at hlinks
  rw [c.meetingSummary_eq key transcript date date' audio]
  exact ⟨folder, _, _, hlinks, hfolder, c.leadsTo_items key transcript date' audio .topic,
    c.leadsTo_items key transcript date' audio .resolution⟩

end Compiler

/-- A folder of the archive adds a meeting exactly if its transcript can be read. -/
theorem Archive.visit_eq_some_iff {store : Store} {c : Compiler} {root : Path} {name : String}
    {m : MeetingSummary} : (visit store c root name).1 = some m ↔
    ∃ text, store.read ((root.join name).join transcriptName) = .ok text ∧
      m = .of c name text (Date.ofPath? (root.join name)) := by
  simp only [visit]
  constructor
  · intro h
    split_ifs at h
    split at h
    · rename_i text hread
      exact ⟨text, hread, (Option.some.inj h).symm⟩
    · cases h
  · rintro ⟨text, hread, rfl⟩
    rw [if_pos (Store.isFile_of_read hread)]
    simp only [hread]
    rfl

/-- A meeting that a scan finds is what the index shows of the transcript in its folder. -/
theorem Archive.mem_scan {store : Store} {c : Compiler} {root : Path} {found : Scan}
    (h : scan store c root = .ok found) {m : MeetingSummary} (hm : m ∈ found.meetings) :
    ∃ transcript, store.read ((root.join m.key).join transcriptName) = .ok transcript ∧
      m = .of c m.key transcript (Date.ofPath? (root.join m.key)) := by
  unfold scan at h
  cases hf : store.find root with
  | error fault =>
    rw [hf] at h
    cases h
  | ok place =>
    rw [hf] at h
    obtain rfl := Except.ok.inj h
    have hv : m ∈ ((store.folderNames place.1).map (visit store c root)).filterMap (·.1) :=
      (List.mergeSort_perm _ _).subset hm
    obtain ⟨v, hv, hvm⟩ := List.mem_filterMap.mp hv
    obtain ⟨name, _, rfl⟩ := List.mem_map.mp hv
    obtain ⟨transcript, hread, rfl⟩ := visit_eq_some_iff.mp hvm
    exact ⟨transcript, hread, rfl⟩

theorem Index.render_eq_join (meetings : List MeetingSummary) :
    render meetings = String.join (meetings.map fun m => render [m]) := by
  induction meetings with
  | nil => rfl
  | cons m meetings ih =>
    rw [List.map_cons, String.join_cons, ← ih, render, render, render, ← printAll_append]
    congr 1
    simp [nodes]

/-- The index shows of a meeting the items of its minutes, whatever date and recording these are
made with, and has one link for each topic and each resolution, which leads to it. A scan shows of
each folder its transcript, and the index is made of the parts of its meetings. -/
theorem Index.links_lead_to_items :
    (∀ (c : Compiler) (key transcript : String) (date date' : Option Date) (audio : Bool),
      let summary := MeetingSummary.of c key transcript date
      let minutes := c.compile .html transcript date' audio
      summary.topics = minutes.record.topics ∧
      summary.resolutions = minutes.record.resolutions ∧
      ∃ part page, elements? (render [summary]) = some part ∧
        elements? minutes.document = some page ∧ LinksItems key part page) ∧
    (∀ (store : Store) (c : Compiler) (root : Path) (found : Archive.Scan),
      Archive.scan store c root = .ok found → ∀ m ∈ found.meetings, ∃ transcript date,
        store.read ((root.join m.key).join transcriptName) = .ok transcript ∧
          m = .of c m.key transcript date) ∧
    ∀ meetings, render meetings = String.join (meetings.map fun m => render [m]) := by
  refine ⟨fun c key transcript date date' audio => ?_, fun store c root found h m hm => ?_,
    render_eq_join⟩
  · have heq := c.meetingSummary_eq key transcript date date' audio
    exact ⟨congrArg MeetingSummary.topics heq, congrArg MeetingSummary.resolutions heq, _, _,
      elements?_printAll (allFit_nodes _), c.elements?_document transcript date' audio,
      c.linksItems key transcript date date' audio⟩
  · obtain ⟨transcript, hread, hm⟩ := Archive.mem_scan h hm
    exact ⟨transcript, _, hread, hm⟩

theorem Index.links_lead_to_items_archive :
    let c : Compiler := ⟨{}, [], ⟨2013, 2, 5, by decide⟩⟩
    let store : Store := ⟨[(["2013-02-05"], .folder), (["2013-02-05", "irc.log"],
      .file "[1] <ann> topic: Budget".toUTF8)], [], by decide⟩
    ∃ found, Archive.scan store c "/" = .ok found ∧
      ∃ m ∈ found.meetings, m.topics = ["Budget"] ∧ ∃ transcript date,
        store.read ((Path.join "/" m.key).join transcriptName) = .ok transcript ∧
          m = .of c m.key transcript date := by
  intro c store
  have hscan : ((Archive.scan store c "/").toOption.any fun found =>
      found.meetings.any fun m => m.topics = ["Budget"]) = true := by
    decide +kernel
  obtain ⟨found, hfound, hany⟩ := (Option.any_eq_true _ _).mp hscan
  obtain ⟨m, hm, ht⟩ := List.any_eq_true.mp hany
  have h : Archive.scan store c "/" = .ok found := by
    cases hs : Archive.scan store c "/" with
    | error fault =>
      rw [hs] at hfound
      cases hfound
    | ok found' =>
      rw [hs] at hfound
      exact congrArg Except.ok (Option.some.inj hfound)
  exact ⟨found, h, m, hm, of_decide_eq_true ht,
    Index.links_lead_to_items.2.1 store c "/" found h m hm⟩

end Minutes
