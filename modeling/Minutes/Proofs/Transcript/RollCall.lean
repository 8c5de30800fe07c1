import Minutes.Proofs.Roster.FullName
import Minutes.Proofs.Transcript.Scribing

/-!
Attendance lists that give names in full. Such a list marks those whom it names, and nobody else.
-/
namespace Minutes

/-- Whether an argument gives a list of names, with commas between them and white space at will
before and after each. -/
def ListsNames (argument : String) (names : List String) : Prop :=
  ∃ pieces : List String, argument = ",".intercalate pieces ∧ pieces.map trim = names.map trim

theorem listEntries_of_listsNames {argument : String} {names : List String} (hne : names ≠ [])
    (hcomma : ∀ name ∈ names, ',' ∉ name.toList) (h : ListsNames argument names) :
    listEntries argument = names.map fun name => lowerCase (trim name) := by
  obtain ⟨pieces, rfl, hpieces⟩ := h
  have hnone : ∀ piece ∈ pieces.map String.toList, ',' ∉ piece := by
    intro s hs
    obtain ⟨piece, hpiece, rfl⟩ := List.mem_map.mp hs
    obtain ⟨name, hname, htrim⟩ := List.mem_map.mp (hpieces ▸ List.mem_map_of_mem hpiece)
    have hink : Text.isBlank ',' = false := by decide
    have hsame := congrArg String.toList htrim
    rw [toList_trim, toList_trim] at hsame
    rw [← Text.mem_trimmed_iff hink, ← hsame, Text.mem_trimmed_iff hink]
    exact hcomma name hname
  have hsplit : (",".intercalate pieces).toList.splitOn ',' = pieces.map String.toList := by
    rw [String.toList_intercalate]
    refine List.splitOn_intercalate ',' hnone fun hnil => hne ?_
    rw [List.map_eq_nil_iff.mp hnil] at hpieces
    exact List.map_eq_nil_iff.mp hpieces.symm
  calc listEntries (",".intercalate pieces)
      = (pieces.map trim).map lowerCase := by
        rw [listEntries, hsplit, List.map_map, List.map_map]
        simp [Function.comp_def]
    _ = names.map fun name => lowerCase (trim name) := by rw [hpieces, List.map_map]; rfl

theorem Attendance.ofEntry_name {roster : Roster} {p : Participant} (h : p.IsKnownByName roster)
    (nick : String) :
    ofEntry (.ofRoster roster) nick (lowerCase (trim p.name)) = .participant p.name := by
  have hne : lowerCase (trim p.name) ≠ "" := by
    intro hempty
    obtain ⟨word, hword, -⟩ := h.isLong
    have hwords := congrArg words hempty
    rw [words_lowerCase, words_trim] at hwords
    have hnone : words p.name = [] := List.map_eq_nil_iff.mp hwords
    rw [hnone] at hword
    cases hword
  rw [ofEntry, if_neg hne, AliasIndex.resolveAttendee?_name h]

namespace Record

/-- A list that gives nothing but participants marks them, and leaves no notes. -/
theorem hear_present_participants (r : Record) (names : List String) :
    r.hear (.present (names.map .participant)) = ⟨r.markAllPresent names, .recorded, []⟩ := by
  have hmarks : (names.map Attendance.participant).foldl attend r = r.markAllPresent names := by
    rw [List.foldl_map]
    rfl
  have hnotes : (names.map Attendance.participant).filterMap (·.note?) = [] := by
    simp [Attendance.note?]
  rw [hear, hmarks, hnotes]

/-- The name of a participant who can be told by it, trimmed and in small letters as an entry of a
list is, means that participant. So a line that lists such names marks the participants who have
them, and does nothing else. -/
theorem attendance_by_name (roster : Roster) :
    (∀ p : Participant, p.IsKnownByName roster →
      (AliasIndex.ofRoster roster).resolveAttendee? (lowerCase (trim p.name)) = some p.name) ∧
    ∀ (r : Record) (s : List Char) (line : CommentLine) (argument : String)
      (ps : List Participant), CommentLine.read? s = some line →
      Rule.claiming? line = some (.present, argument) →
      ps ≠ [] → (∀ p ∈ ps, p.IsKnownByName roster ∧ ',' ∉ p.name.toList) →
      ListsNames argument (ps.map (·.name)) →
      r.hearLine (.ofRoster roster) s = ⟨r.markAllPresent (ps.map (·.name)), .recorded, []⟩ ∧
      ∀ name, name ∈ (r.hearLine (.ofRoster roster) s).record.present ↔
        name ∈ r.present ∨ ∃ p ∈ ps, p.name = name := by
  refine ⟨fun p hp => AliasIndex.resolveAttendee?_name hp, ?_⟩
  intro r s line argument ps hl hc hne hps hlists
  have hentries : listEntries argument = ps.map fun p => lowerCase (trim p.name) := by
    rw [listEntries_of_listsNames (by simpa using hne) (by simpa using fun p hp => (hps p hp).2)
      hlists, List.map_map]
    rfl
  have hmarks : (listEntries argument).map (Attendance.ofEntry (.ofRoster roster) line.nick) =
      (ps.map (·.name)).map .participant := by
    rw [hentries, List.map_map, List.map_map, List.map_inj_left]
    intro p hp
    rw [Function.comp_apply, Function.comp_apply, Attendance.ofEntry_name (hps p hp).1]
  have hoc : r.hearLine (.ofRoster roster) s =
      ⟨r.markAllPresent (ps.map (·.name)), .recorded, []⟩ := by
    rw [hearLine, Statement.read_of_claiming hl hc]
    simp only [Statement.ofRule, hmarks]
    exact r.hear_present_participants (ps.map (·.name))
  refine ⟨hoc, fun name => ?_⟩
  rw [hoc, present_markAllPresent, mem_insertNames, List.mem_map, or_comm]

theorem attendance_by_name_initial_and_sigma :
    let mary : Participant := { name := "Mary J. Blige" }
    let nikos : Participant := { name := "ΝΊΚΟΣ ΠΑΠΆΣ", aliases := ["np"] }
    let prince : Participant := { name := "Prince" }
    let roster : Roster := [{ name := "Jo Li" }, mary, nikos, prince]
    let ps := [nikos, prince, mary, prince]
    let argument := " ΝΊΚΟΣ ΠΑΠΆΣ ,Prince, Mary J. Blige,Prince"
    let line : CommentLine :=
      ⟨"1", "jo", "present:" ++ argument, "[1] <jo> present:" ++ argument⟩
    let r : Record := { group := "G", chairs := [], date := none, audio := false }
    (CommentLine.read? line.raw.toList = some line ∧
      Rule.claiming? line = some (.present, argument)) ∧
    (∀ p ∈ ps, p.IsKnownByName roster ∧ ',' ∉ p.name.toList) ∧
    (AliasIndex.ofRoster roster).resolveAttendee? "νίκος παπάς" = some nikos.name ∧
    r.hearLine (.ofRoster roster) line.raw.toList =
      ⟨r.markAllPresent [nikos.name, prince.name, mary.name, prince.name], .recorded, []⟩ := by
  intro mary nikos prince roster ps argument line r
  have hl : CommentLine.read? line.raw.toList = some line := by decide +kernel
  have hc : Rule.claiming? line = some (.present, argument) := by decide +kernel
  have hknown : ∀ p ∈ ps, p.IsKnownByName roster ∧ ',' ∉ p.name.toList := by
    intro p hp
    have hlisted : ∀ p ∈ ps, p ∈ roster := by decide +kernel
    have hlong : ∀ p ∈ ps, ∃ word ∈ (words p.name).take 2, 3 ≤ (lowerCase word).length := by
      decide +kernel
    have hwords : ∀ p ∈ ps, ∀ q ∈ roster, q.name ≠ p.name →
        ∀ word ∈ words p.name, lowerCase word ∉ q.claims := by decide +kernel
    have hname : ∀ p ∈ ps, ∀ q ∈ roster, q.name ≠ p.name →
        lowerCase (trim p.name) ∉ q.claims := by decide +kernel
    have hcomma : ∀ p ∈ ps, ',' ∉ p.name.toList := by decide +kernel
    exact ⟨⟨hlisted p hp, hlong p hp, hwords p hp, hname p hp⟩, hcomma p hp⟩
  have hlists : ListsNames argument (ps.map (·.name)) :=
    ⟨[" ΝΊΚΟΣ ΠΑΠΆΣ ", "Prince", " Mary J. Blige", "Prince"], by decide +kernel,
      by decide +kernel⟩
  have hentry : lowerCase (trim nikos.name) = "νίκος παπάς" := by decide +kernel
  refine ⟨⟨hl, hc⟩, hknown, ?_, ?_⟩
  · rw [← hentry]
    exact (attendance_by_name roster).1 nikos (hknown nikos (by decide +kernel)).1
  · exact ((attendance_by_name roster).2 r _ line _ _ hl hc (by decide) hknown hlists).1

end Record
end Minutes
