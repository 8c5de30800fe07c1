import Minutes.Roster.AliasIndex
import Mathlib.Tactic

/-!
Whom an alias means: the first participant of the roster who claims it. So every name that an alias
leads to is that of a participant.
-/
namespace Minutes

/-- The names of the participants, in order. -/
def Roster.names (roster : Roster) : List String := roster.map (·.name)

namespace AliasIndex

/-- An alias that is claimed keeps its meaning, if it has one. -/
theorem lookup_claim (name : String) (index : AliasIndex) (a b : String) :
    (claim name index a).entries.lookup b =
      (index.entries.lookup b).or (if b = a then some name else none) := by
  unfold claim
  split
  · rename_i h
    split_ifs with hb
    · subst hb
      obtain ⟨owner, ho⟩ := Option.isSome_iff_exists.mp h
      rw [ho, Option.or_some]
      rfl
    · rw [Option.or_none]
  · rw [List.lookup_append]
    congr 1
    by_cases hb : b = a
    · simp [hb]
    · simp [List.lookup_cons, beq_false_of_ne hb, hb]

theorem lookup_claimAll (index : AliasIndex) (p : Participant) (b : String) :
    (index.claimAll p).entries.lookup b =
      (index.entries.lookup b).or (if b ∈ p.claims then some p.name else none) := by
  unfold claimAll
  induction p.claims generalizing index with
  | nil => simp
  | cons a claims ih =>
    rw [List.foldl_cons, ih, lookup_claim, Option.or_assoc]
    congr 1
    by_cases hb : b = a <;> simp [hb]

theorem lookup_foldl_claimAll (index : AliasIndex) (roster : Roster) (b : String) :
    (roster.foldl claimAll index).entries.lookup b =
      (index.entries.lookup b).or
        ((roster.find? fun p => decide (b ∈ p.claims)).map (·.name)) := by
  induction roster generalizing index with
  | nil => simp
  | cons p roster ih =>
    rw [List.foldl_cons, ih, lookup_claimAll, Option.or_assoc, List.find?_cons]
    congr 1
    by_cases hb : b ∈ p.claims <;> simp [hb]

/-- An alias means the first participant who claims it. -/
theorem resolve?_ofRoster (roster : Roster) (a : String) :
    (ofRoster roster).resolve? a =
      (roster.find? fun p => decide (lowerCase a ∈ p.claims)).map (·.name) := by
  unfold resolve? ofRoster
  rw [lookup_foldl_claimAll]
  rfl

/-- An alias means nobody but participants. -/
theorem mem_names_of_resolve? {roster : Roster} {a name : String}
    (h : (ofRoster roster).resolve? a = some name) : name ∈ roster.names := by
  rw [resolve?_ofRoster] at h
  obtain ⟨p, hp, rfl⟩ := Option.map_eq_some_iff.mp h
  exact List.mem_map_of_mem (List.mem_of_find?_eq_some hp)

/-- An entry of an attendance list means whom one of its parts means as an alias. -/
theorem exists_of_resolveAttendee? {index : AliasIndex} {entry name : String}
    (h : index.resolveAttendee? entry = some name) : ∃ a, index.resolve? a = some name := by
  simp only [resolveAttendee?, Option.or_eq_some_iff, Option.bind_eq_some_iff] at h
  rcases h with h | ⟨_, ⟨a, _, h⟩ | ⟨_, a, _, h⟩⟩
  · exact ⟨entry, h⟩
  · exact ⟨a, h⟩
  · exact ⟨a, h⟩

end AliasIndex

theorem Roster.chairs_subset_names (roster : Roster) : roster.chairs ⊆ roster.names :=
  List.map_subset _ (List.filter_subset_self roster)

end Minutes
