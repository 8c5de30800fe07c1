import Minutes.Proofs.Transcript.Numbering
import Minutes.Proofs.Transcript.Scribing

/-!
The record of a meeting only grows: what stands in it keeps its place and its number, nobody leaves,
and a recording that is denied stays denied. The events of a run tell what the record lists.
-/
namespace Minutes

/-- The names that are kept of a list stand in the order of their first appearance. -/
theorem pairwise_idxOf_eraseDups (names : List String) :
    names.eraseDups.Pairwise fun a b => names.idxOf a < names.idxOf b := by
  -- from the end, since a name that is there already changes nothing
  induction names using List.reverseRecOn with
  | nil => exact List.Pairwise.nil
  | append_singleton names name ih =>
    rw [List.eraseDups_append]
    have hold : ∀ a ∈ names.eraseDups, (names ++ [name]).idxOf a = names.idxOf a := by
      intro a ha
      exact List.idxOf_append_of_mem (List.mem_eraseDups.mp ha)
    apply List.pairwise_append.mpr ⟨?_, ?_, ?_⟩
    · refine ih.imp_of_mem ?_
      intro a b ha hb hab
      rwa [hold a ha, hold b hb]
    · by_cases hn : name ∈ names <;> simp [List.removeAll, hn, List.eraseDups_cons]
    · intro a ha b hb
      obtain ⟨hb, hn⟩ : b = name ∧ b ∉ names := by
        simpa [List.removeAll] using List.mem_eraseDups.mp hb
      subst hb
      rw [hold a ha, List.idxOf_append_of_notMem hn]
      exact (List.idxOf_lt_length_of_mem (List.mem_eraseDups.mp ha)).trans_le
        (Nat.le_add_right _ _)

namespace Record

/-- What stands in a record stands in a later one, and no recording turns up. -/
structure Grows (r r' : Record) : Prop where
  items : ∀ kind, r.items kind <+: r'.items kind
  history : r.scribeHistory <+: r'.scribeHistory
  scribes : r.scribes <+: r'.scribes
  comments : r.comments ≤ r'.comments
  present : r.present ⊆ r'.present
  audio : r'.audio = true → r.audio = true

theorem Grows.refl (r : Record) : r.Grows r where
  items _ := List.prefix_refl _
  history := List.prefix_refl _
  scribes := List.prefix_refl _
  comments := le_rfl
  present := List.Subset.refl _
  audio := id

theorem Grows.trans {a b c : Record} (h : a.Grows b) (h' : b.Grows c) : a.Grows c where
  items kind := (h.items kind).trans (h'.items kind)
  history := h.history.trans h'.history
  scribes := h.scribes.trans h'.scribes
  comments := h.comments.trans h'.comments
  present := List.Subset.trans h.present h'.present
  audio := h.audio ∘ h'.audio

/-- A recording is only ever denied. -/
theorem audio_of_audio_hear {r : Record} {s : Statement}
    (h : (r.hear s).record.audio = true) : r.audio = true := by
  have hw : (r.hear s).record.audio = (s.write r.heading).audio :=
    congrArg Heading.audio (heading_hear r s)
  rw [hw] at h
  cases s with
  | noAudio => cases h
  | _ => exact h

theorem grows_hear (r : Record) (s : Statement) : r.Grows (r.hear s).record where
  items kind := by
    rw [items_hear]
    exact List.prefix_append _ _
  history := by
    rw [scribeHistory_hear]
    exact List.prefix_append _ _
  scribes := by
    change r.scribeHistory.eraseDups <+: (r.hear s).record.scribeHistory.eraseDups
    rw [scribeHistory_hear, List.eraseDups_append]
    exact List.prefix_append _ _
  comments := by
    rw [comments_hear]
    exact Nat.le_add_right _ _
  present _ hn := mem_present_hear.mpr (.inr hn)
  audio := audio_of_audio_hear

end Record

/-- The text of a piece of information, by which only scribes are announced. -/
def Event.information? : Event → Option String
  | .information text => some text
  | _ => none

/-- The announcement of a scribe. -/
def announcement (name : String) : String := name ++ " is scribing."

theorem Record.information?_hear (r : Record) (s : Statement) :
    (r.hear s).event.information? = s.turn?.map fun turn => announcement turn.name := by
  cases s with
  | remark remark =>
    rcases hearRemark_cases r remark with ⟨_, _, he, _⟩ | ⟨_, _, he | ⟨_, he⟩⟩ <;>
      simp [hear, he, Event.information?, Statement.turn?]
  | _ => rfl

namespace Hearing

variable (aliases : AliasIndex)

theorem grows_run (r : Record) (lines : List (List Char)) :
    r.Grows (run aliases r lines).record := by
  induction lines generalizing r with
  | nil => exact .refl r
  | cons line lines ih => exact (r.grows_hear _).trans (ih _)

/-- A run announces the scribes of the turns that its lines begin. -/
theorem information?_run (r : Record) (lines : List (List Char)) :
    (run aliases r lines).events.filterMap (·.information?) =
      ((turns aliases lines).map (·.name)).map announcement := by
  induction lines generalizing r with
  | nil => rfl
  | cons line lines ih =>
    have hi := r.information?_hear (Statement.read aliases line)
    simp only [run, Record.hearLine]
    rw [turns_cons]
    cases ht : (Statement.read aliases line).turn? with
    | none =>
      rw [ht] at hi
      rw [List.filterMap_cons_none hi, ih]
      rfl
    | some turn =>
      rw [ht] at hi
      rw [List.filterMap_cons_some hi, ih]
      rfl

/-- From a fresh record on, topics, actions, resolutions and comments are numbered from one in their
order, the lists of items are the texts of the events, and the scribes are those announced, in the
order of their first announcements; and the record grows from any point of a run to any later one.
-/
theorem numbered_run (group : String) (chairs : List String) (date : Option Date) (audio : Bool)
    (lines : List (List Char)) :
    let opening : Record := { group, chairs, date, audio }
    let heard := run aliases opening lines
    (∀ kind,
      let items := heard.events.filterMap (·.item? kind)
      items.map (·.1) = List.range' 1 items.length ∧
        items.map (·.2) = heard.record.items kind) ∧
    heard.events.filterMap (·.commentId?) =
      List.range' 1 (heard.events.filterMap (·.commentId?)).length ∧
    (∃ announced : List String,
      heard.events.filterMap (·.information?) = announced.map announcement ∧
      (∀ name, name ∈ heard.record.scribes ↔ name ∈ announced) ∧
      heard.record.scribes.Pairwise fun a b => announced.idxOf a < announced.idxOf b) ∧
    ∀ later, heard.record.Grows (run aliases opening (lines ++ later)).record := by
  intro opening heard
  refine ⟨?_, commentId?_run aliases opening lines, ?_, ?_⟩
  · intro kind items
    have hempty : opening.items kind = [] := by cases kind <;> rfl
    have hr := items_run aliases kind opening lines
    have hn := item?_run aliases kind opening lines
    rw [hempty] at hr hn
    have htexts : items.map (·.2) = heard.record.items kind := hr.symm
    refine ⟨?_, htexts⟩
    change items = ((items.map (·.2)).zipIdx 1).map Prod.swap at hn
    rw [hn]
    simp [List.map_map, Function.comp_def, List.zipIdx_map_snd]
  · have hs : heard.record.scribes = ((turns aliases lines).map (·.name)).eraseDups :=
      congrArg (fun turns => (turns.map ScribeTurn.name).eraseDups)
        (turns_run aliases opening lines)
    refine ⟨_, information?_run aliases opening lines, ?_, ?_⟩
    · intro name
      rw [hs, List.mem_eraseDups]
    · rw [hs]
      exact pairwise_idxOf_eraseDups _
  · intro later
    rw [record_run_append]
    exact grows_run aliases _ later

end Hearing
end Minutes
