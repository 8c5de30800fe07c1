import Minutes.Document.Compile
import Minutes.Proofs.Transcript.Effect

/-!
Along a run the items of a kind are numbered in their order, and so are the comments. Neither
depends on what the heading of the record says.
-/
namespace Minutes

namespace Record

/-- The items of a kind in the record. -/
def items (r : Record) : ItemKind → List String
  | .topic => r.topics
  | .action => r.actions
  | .resolution => r.resolutions

theorem items_hear (kind : ItemKind) (r : Record) (s : Statement) :
    (r.hear s).record.items kind =
      r.items kind ++ ((r.hear s).event.item? kind).toList.map (·.2) := by
  have h := proceedings_hear r s
  cases kind with
  | topic => exact congrArg Proceedings.topics h
  | action => exact congrArg Proceedings.actions h
  | resolution => exact congrArg Proceedings.resolutions h

theorem comments_hear (r : Record) (s : Statement) :
    (r.hear s).record.comments =
      r.comments + (r.hear s).event.commentId?.toList.length :=
  congrArg Proceedings.comments (proceedings_hear r s)

/-- An item takes the number after those of its kind. -/
theorem number_of_item?_hear {kind : ItemKind} {r : Record} {s : Statement} {n : Nat}
    {text : String} (h : (r.hear s).event.item? kind = some (n, text)) :
    n = (r.items kind).length + 1 := by
  cases s with
  | remark remark =>
    rcases hearRemark_cases r remark with ⟨_, _, he, _⟩ | ⟨_, _, he | ⟨_, he⟩⟩ <;>
      · simp only [hear, he] at h
        cases kind <;> cases h
  | _ =>
    cases kind <;>
      first
      | exact (congrArg Prod.fst (Option.some.inj h)).symm
      | cases h

theorem commentId?_hear {r : Record} {s : Statement} {n : Nat}
    (h : (r.hear s).event.commentId? = some n) : n = r.comments + 1 := by
  cases s with
  | remark remark =>
    rcases hearRemark_cases r remark with ⟨_, hsaid, he, _⟩ | ⟨_, _, he | ⟨_, he⟩⟩ <;>
      simp only [hear, he] at h <;> cases h
    exact hsaid.id_eq
  | vote name message =>
    cases h
    rfl
  | _ => cases h

theorem items_congr {r r' : Record} (h : r.proceedings = r'.proceedings) (kind : ItemKind) :
    r.items kind = r'.items kind := by
  cases kind with
  | topic => exact congrArg Proceedings.topics h
  | action => exact congrArg Proceedings.actions h
  | resolution => exact congrArg Proceedings.resolutions h

end Record

namespace Hearing

variable (aliases : AliasIndex)

/-- The texts of the items of a kind among events. -/
def texts (kind : ItemKind) (events : List Event) : List String :=
  (events.filterMap (·.item? kind)).map (·.2)

theorem items_run (kind : ItemKind) (r : Record) (lines : List (List Char)) :
    (run aliases r lines).record.items kind =
      r.items kind ++ texts kind (run aliases r lines).events := by
  induction lines generalizing r with
  | nil => exact (List.append_nil _).symm
  | cons line lines ih =>
    simp only [run, Record.hearLine]
    rw [ih, Record.items_hear, List.append_assoc, texts, texts]
    congr 1
    cases h : (r.hear (Statement.read aliases line)).event.item? kind with
    | none => simp [h]
    | some item => simp [h]

/-- The items that a run adds are numbered from the first free number on. -/
theorem item?_run (kind : ItemKind) (r : Record) (lines : List (List Char)) :
    (run aliases r lines).events.filterMap (·.item? kind) =
      ((texts kind (run aliases r lines).events).zipIdx ((r.items kind).length + 1)).map
        Prod.swap := by
  induction lines generalizing r with
  | nil => rfl
  | cons line lines ih =>
    have hi := Record.items_hear kind r (Statement.read aliases line)
    simp only [run, Record.hearLine, texts] at ih ⊢
    cases h : (r.hear (Statement.read aliases line)).event.item? kind with
    | none =>
      rw [h, Option.toList_none, List.map_nil, List.append_nil] at hi
      rw [List.filterMap_cons_none h]
      conv_lhs => rw [ih, hi]
    | some item =>
      obtain ⟨n, text⟩ := item
      have hn := Record.number_of_item?_hear h
      rw [h, Option.toList_some, List.map_singleton] at hi
      rw [List.filterMap_cons_some h, List.map_cons, List.zipIdx_cons, List.map_cons, ← hn]
      congr 1
      conv_lhs => rw [ih, hi, List.length_append, List.length_singleton, ← hn]

/-- The comments that a run adds are numbered from the first free number on. -/
theorem commentId?_run (r : Record) (lines : List (List Char)) :
    (run aliases r lines).events.filterMap (·.commentId?) =
      List.range' (r.comments + 1)
        ((run aliases r lines).events.filterMap (·.commentId?)).length := by
  induction lines generalizing r with
  | nil => rfl
  | cons line lines ih =>
    have hc := Record.comments_hear r (Statement.read aliases line)
    simp only [run, Record.hearLine]
    cases h : (r.hear (Statement.read aliases line)).event.commentId? with
    | none =>
      rw [h, Option.toList_none, List.length_nil, Nat.add_zero] at hc
      rw [List.filterMap_cons_none h]
      conv_lhs => rw [ih, hc]
    | some n =>
      have hn := Record.commentId?_hear h
      rw [h, Option.toList_some, List.length_singleton] at hc
      rw [List.filterMap_cons_some h, List.length_cons, List.range'_succ, ← hn]
      congr 1
      conv_lhs => rw [ih, hc, ← hn]

/-- A run depends on no more of the record than the proceedings. -/
theorem run_congr {r r' : Record} (h : r.proceedings = r'.proceedings)
    (lines : List (List Char)) :
    (run aliases r lines).events = (run aliases r' lines).events ∧
      (run aliases r lines).record.proceedings = (run aliases r' lines).record.proceedings := by
  induction lines generalizing r r' with
  | nil => exact ⟨rfl, h⟩
  | cons line lines ih =>
    have he := Record.event_hear_congr h (Statement.read aliases line)
    obtain ⟨hes, hp⟩ := ih (Record.proceedings_hear_congr h (Statement.read aliases line))
    refine ⟨?_, hp⟩
    simp only [run, Record.hearLine]
    rw [he, hes]

end Hearing

namespace Compiler

variable (c : Compiler) (transcript : String) (date date' : Option Date) (audio audio' : Bool)

/-- The items of a kind, as the events number them, are those of the record in order. -/
theorem item?_hear (kind : ItemKind) :
    (c.hear transcript date audio).events.filterMap (·.item? kind) =
      (((c.hear transcript date audio).record.items kind).zipIdx 1).map Prod.swap := by
  have hempty : (c.opening date audio).items kind = [] := by cases kind <;> rfl
  have h := Hearing.item?_run c.aliases kind (c.opening date audio)
    (Text.lines transcript.toList)
  unfold hear
  rw [Hearing.items_run, hempty, List.nil_append]
  rwa [hempty] at h

theorem commentId?_hear :
    (c.hear transcript date audio).events.filterMap (·.commentId?) =
      List.range' 1 ((c.hear transcript date audio).events.filterMap (·.commentId?)).length :=
  Hearing.commentId?_run c.aliases (c.opening date audio) (Text.lines transcript.toList)

/-- The items of a meeting do not depend on its date and on a recording. -/
theorem items_hear_congr (kind : ItemKind) :
    (c.hear transcript date audio).record.items kind =
      (c.hear transcript date' audio').record.items kind := by
  have hp : (c.opening date audio).proceedings = (c.opening date' audio').proceedings := rfl
  exact Record.items_congr (Hearing.run_congr c.aliases hp _).2 kind

end Compiler
end Minutes
