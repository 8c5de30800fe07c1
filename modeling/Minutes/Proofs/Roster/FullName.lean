import Minutes.Proofs.Roster.Claims
import Minutes.Proofs.Text.LowerCase

/-!
Participants in attendance lists by their names. No name is an alias as a whole, so an entry with
the name of a participant is found by its second word, or by its first if that is too short.
-/
namespace Minutes

/-- A participant who can be told by name: the first or the second word of it is long enough to be
an alias, and nobody of another name claims one of its words, or all of it. -/
structure Participant.IsKnownByName (p : Participant) (roster : Roster) : Prop where
  listed : p ∈ roster
  isLong : ∃ word ∈ (words p.name).take 2, 3 ≤ (lowerCase word).length
  ownsWords : ∀ q ∈ roster, q.name ≠ p.name → ∀ word ∈ words p.name, lowerCase word ∉ q.claims
  ownsName : ∀ q ∈ roster, q.name ≠ p.name → lowerCase (trim p.name) ∉ q.claims

theorem Participant.mem_claims_of_word {p : Participant} {word : String} (hw : word ∈ words p.name)
    (hlong : 3 ≤ (lowerCase word).length) : lowerCase word ∈ p.claims := by
  rw [claims, List.mem_filter]
  refine ⟨List.mem_map_of_mem (List.mem_append_left _ hw), ?_⟩
  rw [decide_eq_true_eq]
  exact hlong

namespace AliasIndex

variable {roster : Roster} {p : Participant} {a : String}

/-- An alias that nobody else claims means the participant, if it means anybody. -/
theorem resolve?_eq_none_or (hp : ∀ q ∈ roster, q.name ≠ p.name → lowerCase a ∉ q.claims) :
    (ofRoster roster).resolve? a = none ∨ (ofRoster roster).resolve? a = some p.name := by
  rw [resolve?_ofRoster]
  cases hfind : roster.find? fun q => decide (lowerCase a ∈ q.claims) with
  | none => exact .inl rfl
  | some q =>
    have hclaims : lowerCase a ∈ q.claims := by simpa using List.find?_some hfind
    have hname : q.name = p.name := by
      by_contra hne
      exact hp q (List.mem_of_find?_eq_some hfind) hne hclaims
    exact .inr (by rw [Option.map_some, hname])

theorem resolve?_of_claims (hlisted : p ∈ roster) (hclaims : lowerCase a ∈ p.claims)
    (hp : ∀ q ∈ roster, q.name ≠ p.name → lowerCase a ∉ q.claims) :
    (ofRoster roster).resolve? a = some p.name := by
  refine (resolve?_eq_none_or hp).resolve_left fun hnone => ?_
  rw [resolve?_ofRoster, Option.map_eq_none_iff, List.find?_eq_none] at hnone
  exact hnone p hlisted (by simpa using hclaims)

/-- A name in small letters means the participant who has it. -/
theorem resolveAttendee?_name (h : p.IsKnownByName roster) :
    (ofRoster roster).resolveAttendee? (lowerCase (trim p.name)) = some p.name := by
  have hentry : (ofRoster roster).resolve? (lowerCase (trim p.name)) = none ∨
      (ofRoster roster).resolve? (lowerCase (trim p.name)) = some p.name := by
    apply resolve?_eq_none_or
    simpa using h.ownsName
  -- a word of the entry means the participant, or nobody if it is short
  have hword : ∀ word ∈ words p.name, (ofRoster roster).resolve? (lowerCase word) = none ∨
      (ofRoster roster).resolve? (lowerCase word) = some p.name := by
    intro word hw
    apply resolve?_eq_none_or
    simpa using fun q hq hne => h.ownsWords q hq hne word hw
  have hlong : ∀ word ∈ words p.name, 3 ≤ (lowerCase word).length →
      (ofRoster roster).resolve? (lowerCase word) = some p.name := by
    intro word hw hl
    apply resolve?_of_claims h.listed
    · simpa using Participant.mem_claims_of_word hw hl
    · simpa using fun q hq hne => h.ownsWords q hq hne word hw
  obtain ⟨word, hmem, hl⟩ := h.isLong
  have hfound := hlong word (List.mem_of_mem_take hmem) hl
  simp only [resolveAttendee?, words_lowerCase, words_trim, List.getElem?_map]
  rcases hentry with hentry | hentry
  · rw [hentry, Option.none_or]
    rcases hws : words p.name with _ | ⟨first, _ | ⟨second, rest⟩⟩
    · rw [hws] at hmem
      cases hmem
    · rw [hws] at hmem
      obtain rfl := List.mem_singleton.mp hmem
      simpa using hfound
    · rw [hws] at hmem hword
      rcases hword second (by simp) with hsecond | hsecond
      · rcases List.mem_cons.mp hmem with rfl | hmem
        · simp [hsecond, hfound]
        · obtain rfl := List.mem_singleton.mp hmem
          rw [hfound] at hsecond
          cases hsecond
      · simp [hsecond]
  · rw [hentry, Option.some_or]

end AliasIndex
end Minutes
