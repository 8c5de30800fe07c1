import Minutes.Proofs.Roster.Claims

/-!
The alias index, as the roster tells it. An alias means the first participant who is called by it,
if it is long enough, and the index has one entry for each alias that means somebody. So whoever
joins a roster at its end takes no alias from those who are there.
-/
namespace Minutes

/-- Whether a word of the name or a declared alias of a participant is `key` in small letters. -/
def Participant.IsCalled (p : Participant) (key : String) : Prop :=
  (∃ word ∈ words p.name, lowerCase word = key) ∨
    ∃ declared ∈ p.aliases, lowerCase (trim declared) = key

/-- Of what a participant is called, all is claimed that is long enough. -/
theorem Participant.mem_claims_iff {p : Participant} {key : String} :
    key ∈ p.claims ↔ 3 ≤ key.length ∧ p.IsCalled key := by
  have hcalled : key ∈ p.callNames.map lowerCase ↔ p.IsCalled key := by
    simp [callNames, IsCalled]
  rw [claims, List.mem_filter, decide_eq_true_eq, hcalled, and_comm]
  rfl

namespace AliasIndex

/-- The aliases of an index, entry by entry. -/
def keys (index : AliasIndex) : List String := index.entries.map (·.1)

theorem mem_keys_iff {index : AliasIndex} {key : String} :
    key ∈ index.keys ↔ (index.entries.lookup key).isSome = true := by
  unfold keys
  induction index.entries with
  | nil => simp
  | cons entry entries ih =>
    rw [List.map_cons, List.mem_cons, List.lookup_cons, ih]
    by_cases h : key = entry.1
    · simp [h]
    · simp [h, beq_false_of_ne h]

/-- A claim enters no alias that is there. -/
theorem nodup_keys_claim {index : AliasIndex} (h : index.keys.Nodup) (name a : String) :
    (claim name index a).keys.Nodup := by
  unfold claim
  split_ifs with ha
  · exact h
  · have hnew : a ∉ index.keys := fun hm => ha (mem_keys_iff.mp hm)
    have hkeys : keys ⟨index.entries ++ [(a, name)]⟩ = index.keys ++ [a] := by simp [keys]
    rw [hkeys, List.nodup_append_comm]
    exact List.nodup_cons.mpr ⟨hnew, h⟩

theorem nodup_keys_claimAll {index : AliasIndex} (h : index.keys.Nodup) (p : Participant) :
    (index.claimAll p).keys.Nodup := by
  unfold claimAll
  induction p.claims generalizing index with
  | nil => exact h
  | cons a claims ih => exact ih (nodup_keys_claim h p.name a)

theorem nodup_keys_foldl_claimAll {index : AliasIndex} (h : index.keys.Nodup) (roster : Roster) :
    (roster.foldl claimAll index).keys.Nodup := by
  induction roster generalizing index with
  | nil => exact h
  | cons p roster ih => exact ih (nodup_keys_claimAll h p)

/-- The aliases of an index are those that are claimed. -/
theorem mem_keys_ofRoster_iff {roster : Roster} {key : String} :
    key ∈ (ofRoster roster).keys ↔ 3 ≤ key.length ∧ ∃ p ∈ roster, p.IsCalled key := by
  have hlookup : (ofRoster roster).entries.lookup key =
      (roster.find? fun p => decide (key ∈ p.claims)).map (·.name) :=
    lookup_foldl_claimAll empty roster key
  rw [mem_keys_iff, hlookup, Option.isSome_map, List.find?_isSome]
  simp only [decide_eq_true_eq, Participant.mem_claims_iff]
  constructor
  · rintro ⟨p, hp, hlong, hcalled⟩
    exact ⟨hlong, p, hp, hcalled⟩
  · rintro ⟨hlong, p, hp, hcalled⟩
    exact ⟨p, hp, hlong, hcalled⟩

theorem resolve?_eq_some_iff {roster : Roster} {a name : String} :
    (ofRoster roster).resolve? a = some name ↔
      3 ≤ (lowerCase a).length ∧ ∃ before p after, roster = before ++ p :: after ∧
        p.name = name ∧ p.IsCalled (lowerCase a) ∧ ∀ q ∈ before, ¬ q.IsCalled (lowerCase a) := by
  rw [resolve?_ofRoster, Option.map_eq_some_iff]
  simp only [List.find?_eq_some_iff_append, decide_eq_true_eq, Bool.not_eq_true',
    decide_eq_false_iff_not, Participant.mem_claims_iff]
  constructor
  · rintro ⟨p, ⟨⟨hlong, hcalled⟩, before, after, hr, hfirst⟩, hn⟩
    exact ⟨hlong, before, p, after, hr, hn, hcalled, fun q hq hc => hfirst q hq ⟨hlong, hc⟩⟩
  · rintro ⟨hlong, before, p, after, hr, hn, hcalled, hfirst⟩
    exact ⟨p, ⟨⟨hlong, hcalled⟩, before, after, hr, fun q hq hc => hfirst q hq hc.2⟩, hn⟩

theorem resolve?_eq_none_iff {roster : Roster} {a : String} :
    (ofRoster roster).resolve? a = none ↔
      (lowerCase a).length < 3 ∨ ∀ p ∈ roster, ¬ p.IsCalled (lowerCase a) := by
  rw [resolve?_ofRoster, Option.map_eq_none_iff, List.find?_eq_none]
  simp only [decide_eq_true_eq, Participant.mem_claims_iff, not_and]
  constructor
  · intro h
    by_cases hlong : 3 ≤ (lowerCase a).length
    · exact .inr fun p hp => h p hp hlong
    · exact .inl (not_le.mp hlong)
  · rintro (hshort | hnobody) p hp hlong
    · omega
    · exact hnobody p hp

/-- Participants who are appended give a meaning only to aliases that have none. -/
theorem resolve?_ofRoster_append (roster later : Roster) (a : String) :
    (ofRoster (roster ++ later)).resolve? a =
      ((ofRoster roster).resolve? a).or ((ofRoster later).resolve? a) := by
  simp only [resolve?_ofRoster, List.find?_append, Option.map_or]

/-- An alias of at least three small letters means the first participant of the roster who is called
by it, and any other means nobody. The index has one entry for each such alias, and participants who
are appended to the roster change no meaning. -/
theorem first_claimant (roster : Roster) :
    (∀ a name, (ofRoster roster).resolve? a = some name ↔
      3 ≤ (lowerCase a).length ∧ ∃ before p after, roster = before ++ p :: after ∧
        p.name = name ∧ p.IsCalled (lowerCase a) ∧
        ∀ q ∈ before, ¬ q.IsCalled (lowerCase a)) ∧
    (∀ a, (ofRoster roster).resolve? a = none ↔
      (lowerCase a).length < 3 ∨ ∀ p ∈ roster, ¬ p.IsCalled (lowerCase a)) ∧
    ((ofRoster roster).keys.Nodup ∧ ∀ key, key ∈ (ofRoster roster).keys ↔
      3 ≤ key.length ∧ ∃ p ∈ roster, p.IsCalled key) ∧
    ∀ (later : Roster) (a : String), (ofRoster (roster ++ later)).resolve? a =
      ((ofRoster roster).resolve? a).or ((ofRoster later).resolve? a) := by
  have hempty : empty.keys.Nodup := List.nodup_nil
  refine ⟨?_, ?_, ⟨nodup_keys_foldl_claimAll hempty roster, ?_⟩,
    resolve?_ofRoster_append roster⟩
  · intro a name
    exact resolve?_eq_some_iff
  · intro a
    exact resolve?_eq_none_iff
  · intro key
    exact mem_keys_ofRoster_iff

end AliasIndex
end Minutes
