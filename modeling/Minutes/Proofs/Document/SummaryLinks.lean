import Minutes.Proofs.Document.Anchors
import Minutes.Proofs.Transcript.Agenda

/-!
The links of HTML minutes. The lists of the summary lead to the items of the body one to one and in
order, comments lead to themselves, and every other link leads out of the page, unless the roster
gives a homepage that does not.
-/
namespace Minutes
open Html

/-- The homepages that the roster gives for those present. -/
def Record.homepages (r : Record) (roster : Roster) : List String :=
  (r.attendees roster).filterMap (·.2)

/-- Elements without anchors and outside the classes of items, with what they link to within the
page. -/
structure PointsTo (es : List Element) (targets : List String) : Prop where
  ids_eq : ids es = []
  fragments_eq : fragments es = targets
  ofClass_eq : ∀ kind : ItemKind, ofClass kind.label es = []

namespace PointsTo

variable {xs ys : List Element} {ts us : List String}

theorem nil : PointsTo [] [] := ⟨rfl, rfl, fun _ => rfl⟩

theorem append (hx : PointsTo xs ts) (hy : PointsTo ys us) : PointsTo (xs ++ ys) (ts ++ us) := by
  constructor
  · rw [ids_append, hx.ids_eq, hy.ids_eq, List.append_nil]
  · rw [fragments_append, hx.fragments_eq, hy.fragments_eq]
  · intro kind
    rw [ofClass_append, hx.ofClass_eq, hy.ofClass_eq, List.append_nil]

theorem flatMap {α : Type} {f : α → List Element} {g : α → List String}
    (h : ∀ a, PointsTo (f a) (g a)) (as : List α) : PointsTo (as.flatMap f) (as.flatMap g) := by
  induction as with
  | nil => exact nil
  | cons a as ih => exact (h a).append ih

theorem cons {e : Element} (h : PointsTo xs ts) (hid : e.values "id" = [])
    (href : e.values "href" = []) (hclass : ∀ kind : ItemKind, kind.label ∉ e.values "class") :
    PointsTo (e :: xs) ts := by
  constructor
  · rw [ids_cons, hid, h.ids_eq, List.append_nil]
  · rw [fragments_cons, href, h.fragments_eq]
    rfl
  · intro kind
    rw [ofClass_cons, if_neg (by simpa using hclass kind), h.ofClass_eq]

theorem bare (h : PointsTo xs ts) (tag text : String) : PointsTo (⟨tag, [], text⟩ :: xs) ts :=
  h.cons rfl rfl fun _ => List.not_mem_nil

end PointsTo

namespace Web

theorem elements_link (target label : String) :
    (link target label).elements = [⟨"a", [("href", target)], label⟩] := by
  simp [link, Node.elements, elementsAll, plainAll, Node.plain]

theorem pointsTo_link (target label : String) :
    PointsTo (link target label).elements (fragment? target).toList := by
  rw [elements_link]
  constructor
  · simp [Element.values]
  · cases h : fragment? target <;> simp [Element.values, h]
  · intro kind
    simp [Element.values]

theorem pointsTo_entry (title : String) {content : List Node} {targets : List String}
    (h : PointsTo (elementsAll content) targets) :
    PointsTo (elementsAll (entry title content)) targets := by
  have he : elementsAll (entry title content) =
      ⟨"dt", [], title⟩ :: ⟨"dd", [], String.ofList (plainAll content)⟩ ::
        elementsAll content := by
    simp [entry, newline, elementsAll, Node.elements, plainAll, Node.plain]
  rw [he]
  exact (h.bare _ _).bare _ _

theorem pointsTo_itemNode (kind item : String) (n : Nat) :
    PointsTo (itemNode kind item n).elements [anchor kind n] := by
  have h := pointsTo_link ("#" ++ anchor kind n) item
  rw [fragment?_hash] at h
  simp only [itemNode, Node.elements, elementsAll, List.append_nil]
  exact h.bare _ _

theorem pointsTo_numberedEntry (title kind : String) (items : List String) :
    PointsTo (elementsAll (numberedEntry title kind items))
      ((List.range' 1 items.length).map (anchor kind)) := by
  unfold numberedEntry
  split_ifs with h
  · rw [List.isEmpty_iff.mp h]
    exact .nil
  · apply pointsTo_entry
    have hlist := PointsTo.flatMap (fun p : String × Nat => pointsTo_itemNode kind p.1 p.2)
      (items.zipIdx 1)
    have ht : ((items.zipIdx 1).flatMap fun p => [anchor kind p.2]) =
        (List.range' 1 items.length).map (anchor kind) := by
      rw [← List.zipIdx_map_snd, List.map_map, List.map_eq_flatMap]
      rfl
    rw [ht, ← elementsAll_map] at hlist
    simp only [elementsAll, Node.elements, List.append_nil]
    exact hlist.bare _ _

theorem elementsAll_intersperse (separator : String) (nodes : List Node) :
    elementsAll (nodes.intersperse (.text separator)) = elementsAll nodes := by
  fun_induction List.intersperse with
  | case1 => rfl
  | case2 node => rfl
  | case3 node nodes hne ih => simp [elementsAll, Node.elements, ih]

theorem pointsTo_presentNodes (r : Record) (roster : Roster) :
    PointsTo (elementsAll (presentNodes r roster))
      ((r.homepages roster).filterMap fragment?) := by
  have htotal : elementsAll (r.totalPresent.toList.map Node.text) = [] := by
    cases r.totalPresent <;> rfl
  rw [presentNodes, elementsAll_intersperse, elementsAll_append, htotal, List.append_nil,
    Record.homepages]
  induction r.attendees roster with
  | nil => exact .nil
  | cons a attendees ih =>
    obtain ⟨name, homepage | homepage⟩ := a
    · exact ih
    · have h := (pointsTo_link homepage name).append ih
      rw [List.map_cons, elementsAll, List.filterMap_cons]
      cases hf : fragment? homepage <;> simpa [hf, attendeeNode] using h

theorem pointsTo_agendaEntry {r : Record} (h : r.AgendaLeadsOut) :
    PointsTo (elementsAll (agendaEntry r.agenda)) [] := by
  cases ha : r.agenda with
  | none => exact .nil
  | some url =>
    have hl := pointsTo_link url url
    rw [h url ha] at hl
    exact pointsTo_entry "Agenda" (hl.append .nil)

theorem pointsTo_audioEntry (audio : Bool) : PointsTo (elementsAll (audioEntry audio)) [] := by
  cases audio with
  | false => exact .nil
  | true => exact ⟨by decide, by decide, fun kind => by cases kind <;> decide⟩

/-- The links of a summary within the page are those of its lists, and whatever homepages lead
there. -/
theorem pointsTo_summaryNodes (today : Date) (roster : Roster) {r : Record}
    (h : r.AgendaLeadsOut) :
    PointsTo (elementsAll (summaryNodes today roster r))
      ((List.range' 1 r.topics.length).map (anchor "topic") ++
        (List.range' 1 r.resolutions.length).map (anchor "resolution") ++
        (List.range' 1 r.actions.length).map (anchor "action") ++
        (r.homepages roster).filterMap fragment?) := by
  have htext (title text : String) : PointsTo (elementsAll (entry title [.text text])) [] :=
    pointsTo_entry title .nil
  have hentries := (((((((pointsTo_agendaEntry h).append
    (pointsTo_numberedEntry "Topics" "topic" r.topics)).append
    (pointsTo_numberedEntry "Resolutions" "resolution" r.resolutions)).append
    (pointsTo_numberedEntry "Action Items" "action" r.actions)).append
    (htext "Organizer" (", ".intercalate r.chairs))).append
    (htext "Scribe" (", ".intercalate r.scribes))).append
    (pointsTo_entry "Present" (pointsTo_presentNodes r roster))).append
    (pointsTo_audioEntry r.audio)
  simp only [← elementsAll_append, List.nil_append, List.append_nil] at hentries
  have hsummary (text : String) (kind : ItemKind) :
      kind.label ∉ (Element.mk "div" [("class", "summary")] text).values "class" := by
    cases kind <;> simp [Element.values, ItemKind.label]
  simp only [summaryNodes, newline, elementsAll, Node.elements, List.nil_append, List.append_nil,
    List.cons_append]
  exact (((hentries.bare _ _).cons rfl rfl (hsummary _)).bare _ _).bare _ _

end Web

namespace Compiler

variable (c : Compiler) (transcript : String) (date : Option Date) (audio : Bool)

theorem agendaLeadsOut_hear : (c.hear transcript date audio).record.AgendaLeadsOut := by
  apply Hearing.agendaLeadsOut_run
  intro url h
  cases h

theorem elements?_document :
    elements? (c.compile .html transcript date audio).document =
      some (elementsAll (c.documentNodes (c.hear transcript date audio))) := by
  have hdoc : (c.compile .html transcript date audio).document =
      printAll (c.documentNodes (c.hear transcript date audio)) := c.document_html _
  rw [hdoc, elements?_printAll (c.allFit_documentNodes _)]

theorem elementsAll_documentNodes (hearing : Hearing) :
    elementsAll (c.documentNodes hearing) =
      elementsAll (Web.summaryNodes c.today c.roster hearing.record) ++
        bodyElements hearing.events :=
  elementsAll_append ..

/-- No two anchors of HTML minutes are the same. -/
theorem ids_documentNodes_nodup :
    (ids (elementsAll (c.documentNodes (c.hear transcript date audio)))).Nodup := by
  have hs :=
    Web.pointsTo_summaryNodes c.today c.roster (c.agendaLeadsOut_hear transcript date audio)
  rw [elementsAll_documentNodes, ids_append, hs.ids_eq, List.nil_append]
  exact c.ids_bodyElements_nodup transcript date audio

theorem ids_ofClass_hear (kind : ItemKind) :
    ids (ofClass kind.label (bodyElements (c.hear transcript date audio).events)) =
      (List.range' 1 ((c.hear transcript date audio).record.items kind).length).map
        (Web.anchor kind.label) := by
  rw [ids_ofClass_bodyElements, AnchorKind.names, number?_item_hear]
  rfl

end Compiler

/-- The links within a page whose summary stands before its body. `homepages` are link targets that
the roster chooses. -/
structure Anchored (homepages : List String) (summary body : List Element) : Prop where
  ids_nodup : (ids (summary ++ body)).Nodup
  lists : fragments summary =
    ids (ofClass "topic" body) ++ ids (ofClass "resolution" body) ++
      ids (ofClass "action" body) ++ homepages.filterMap fragment?
  selfLinks : fragments body = ids (ofClass "comment" body)
  resolved : ∀ x ∈ fragments (summary ++ body),
    (ids (summary ++ body)).count x = 1 ∨ x ∈ homepages.filterMap fragment?

theorem mem_ids_of_mem_ids_ofClass {className x : String} {es : List Element}
    (h : x ∈ ids (ofClass className es)) : x ∈ ids es := by
  obtain ⟨e, he, hx⟩ := List.mem_flatMap.mp h
  exact List.mem_flatMap.mpr ⟨e, (List.mem_filter.mp he).1, hx⟩

/-- Where the anchors are distinct, links to anchors of the body lead to one element each. -/
theorem Anchored.of_links {homepages : List String} {summary body : List Element}
    (hnodup : (ids (summary ++ body)).Nodup)
    (hlists : fragments summary =
      ids (ofClass "topic" body) ++ ids (ofClass "resolution" body) ++
        ids (ofClass "action" body) ++ homepages.filterMap fragment?)
    (hself : fragments body = ids (ofClass "comment" body)) :
    Anchored homepages summary body := by
  refine ⟨hnodup, hlists, hself, fun x hx => ?_⟩
  have honce {className : String} (hx : x ∈ ids (ofClass className body)) :
      (ids (summary ++ body)).count x = 1 := by
    apply List.count_eq_one_of_mem hnodup
    rw [ids_append]
    exact List.mem_append_right _ (mem_ids_of_mem_ids_ofClass hx)
  rw [fragments_append, hlists, hself] at hx
  simp only [List.mem_append] at hx
  rcases hx with (((hx | hx) | hx) | hx) | hx
  · exact .inl (honce hx)
  · exact .inl (honce hx)
  · exact .inl (honce hx)
  · exact .inr hx
  · exact .inl (honce hx)

namespace Compiler

variable (c : Compiler) (transcript : String) (date : Option Date) (audio : Bool)

/-- The anchors of HTML minutes are distinct. The summary links to each topic, resolution and
action item of the body, in order, and each comment to itself; what else links into the page is a
homepage that the roster gives for somebody present. -/
theorem anchored_document :
    ∃ summary body,
      elements? (c.summary (c.compile .html transcript date audio).record .html) = some summary ∧
      elements? (String.join ((c.hear transcript date audio).events.map Web.event)) =
        some body ∧
      elements? (c.compile .html transcript date audio).document = some (summary ++ body) ∧
      Anchored ((c.compile .html transcript date audio).record.homepages c.roster) summary
        body := by
  set hearing := c.hear transcript date audio
  obtain ⟨hs, hb⟩ := (allFit_append ..).mp (c.allFit_documentNodes hearing)
  have hnodup := c.ids_documentNodes_nodup transcript date audio
  have hpoints :=
    Web.pointsTo_summaryNodes c.today c.roster (c.agendaLeadsOut_hear transcript date audio)
  have htopics : ids (ofClass "topic" (bodyElements hearing.events)) =
      (List.range' 1 hearing.record.topics.length).map (Web.anchor "topic") :=
    c.ids_ofClass_hear transcript date audio .topic
  have hresolutions : ids (ofClass "resolution" (bodyElements hearing.events)) =
      (List.range' 1 hearing.record.resolutions.length).map (Web.anchor "resolution") :=
    c.ids_ofClass_hear transcript date audio .resolution
  have hactions : ids (ofClass "action" (bodyElements hearing.events)) =
      (List.range' 1 hearing.record.actions.length).map (Web.anchor "action") :=
    c.ids_ofClass_hear transcript date audio .action
  refine ⟨_, bodyElements hearing.events, elements?_printAll hs, ?_, ?_, .of_links ?_ ?_ ?_⟩
  · rw [join_event_html]
    exact elements?_printAll hb
  · rw [elements?_document, elementsAll_documentNodes]
    rfl
  · rwa [elementsAll_documentNodes] at hnodup
  · rw [htopics, hresolutions, hactions]
    exact hpoints.fragments_eq
  · rw [fragments_bodyElements, ids_ofClass_comment_bodyElements]

/-- A homepage is linked as the roster gives it, and may lead nowhere. -/
theorem anchored_document_homepage :
    let today : Date := ⟨2013, 2, 5, by decide⟩
    let c : Compiler := ⟨{}, [{ name := "Ann Lee", homepage := some "#nowhere" }], today⟩
    ∃ es, elements? (c.compile .html "[12:00] <ann> hello" (some today) false).document = some es ∧
      "nowhere" ∈ fragments es ∧ "nowhere" ∉ ids es := by
  intro today c
  refine ⟨_, c.elements?_document _ _ _, ?_⟩
  decide +kernel

end Compiler
end Minutes
