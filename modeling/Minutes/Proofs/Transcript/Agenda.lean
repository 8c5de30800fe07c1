import Minutes.Proofs.Html.Links
import Minutes.Proofs.Transcript.Effect

/-!
The agenda of a meeting is a web address, and so its link leads out of the minutes.
-/
namespace Minutes
open Html

/-- The agenda of a record, if it has one, leads out of the page. -/
def Record.AgendaLeadsOut (r : Record) : Prop := ∀ url ∈ r.agenda, fragment? url = none

theorem Text.isPrefix_trimmed (s : List Char) : Text.trimmed s <+: Text.trimStart s :=
  List.rdropWhile_prefix Text.isBlank (Text.trimStart s)

theorem Text.trimStart_trimStart (s : List Char) :
    Text.trimStart (Text.trimStart s) = Text.trimStart s :=
  List.dropWhile_idempotent Text.isBlank s

theorem Rule.oneLine?_eq_some_iff {s argument : List Char} :
    oneLine? s = some argument ↔ s = argument ∧ '\n' ∉ argument := by
  unfold oneLine?
  split_ifs with hnewline
  · refine iff_of_false (by simp) ?_
    rintro ⟨rfl, hnone⟩
    exact hnone (by simpa using hnewline)
  · rw [Option.some_inj, iff_self_and]
    rintro rfl
    simpa using hnewline

namespace Statement

/-- An agenda begins with the protocol of a web address, and goes on to the end of the line. -/
theorem exists_of_argument?_agenda {s argument : List Char}
    (h : Rule.agenda.argument? s = some argument) :
    (Text.afterAnyLabel? ["http:", "https:"] argument).isSome = true ∧ '\n' ∉ argument ∧
      Text.trimStart argument = argument := by
  obtain ⟨rest, _, h⟩ := Option.bind_eq_some_iff.mp h
  obtain ⟨body, hbody, h⟩ := Option.bind_eq_some_iff.mp h
  obtain ⟨rfl, hnewline⟩ := Rule.oneLine?_eq_some_iff.mp h
  refine ⟨?_, hnewline, Text.trimStart_trimStart rest⟩
  rw [hbody]
  rfl

theorem isPrefix_trim_of_argument {s argument : List Char}
    (h : Rule.agenda.argument? s = some argument) :
    (trim (String.ofList argument)).toList <+: argument := by
  obtain ⟨-, -, hstart⟩ := exists_of_argument?_agenda h
  have hp := Text.isPrefix_trimmed argument
  rwa [hstart, ← String.toList_ofList (l := argument), ← toList_trim, String.toList_ofList] at hp

/-- An agenda is a web address. -/
theorem fragment?_of_argument {s argument : List Char}
    (h : Rule.agenda.argument? s = some argument) :
    fragment? (trim (String.ofList argument)) = none := by
  obtain ⟨hlabel, -, -⟩ := exists_of_argument?_agenda h
  have hp := isPrefix_trim_of_argument h
  cases argument with
  | nil => cases hlabel
  | cons c t =>
    apply fragment?_of_isPrefix_cons hp
    rintro rfl
    cases hlabel

/-- A rule other than that of the bots claims a line by its message. -/
theorem argument?_of_claiming {line : CommentLine} {rule : Rule} {argument : String}
    (hrule : rule ≠ .bot) (h : Rule.claiming? line = some (rule, argument)) :
    ∃ s, rule.argument? line.message.toList = some s ∧ argument = String.ofList s := by
  obtain ⟨⟨claiming, s⟩, hf, he⟩ := Option.map_eq_some_iff.mp h
  obtain ⟨rfl, rfl⟩ := Prod.mk.inj he
  obtain ⟨test, _, ht⟩ := List.exists_of_findSome?_eq_some hf
  cases test with
  | message rule =>
    obtain ⟨s', hs, he⟩ := Option.map_eq_some_iff.mp ht
    obtain ⟨rfl, rfl⟩ := Prod.mk.inj he
    exact ⟨s', hs, rfl⟩
  | botNick =>
    obtain ⟨_, _, he⟩ := Option.map_eq_some_iff.mp ht
    exact absurd (Prod.mk.inj he).1.symm hrule

theorem eq_of_ofRule_agenda {aliases : AliasIndex} {line : CommentLine} {rule : Rule}
    {argument url : String} (h : ofRule aliases line rule argument = .agenda url) :
    rule = .agenda ∧ url = trim argument := by
  cases rule with
  | agenda => exact ⟨rfl, (Statement.agenda.inj h).symm⟩
  | scribe | date | vote =>
    simp only [ofRule] at h
    split at h <;> cases h
  | _ => cases h

/-- What an agenda line says is what the rule finds in a message, trimmed. -/
theorem exists_argument_of_read {aliases : AliasIndex} {line : List Char} {url : String}
    (h : read aliases line = .agenda url) : ∃ message argument,
      Rule.agenda.argument? message = some argument ∧ url = trim (String.ofList argument) := by
  unfold read at h
  split at h
  · rename_i l _
    unfold ofLine at h
    split at h
    · rename_i rule argument hc
      obtain ⟨rfl, rfl⟩ := eq_of_ofRule_agenda h
      obtain ⟨s, hs, rfl⟩ := argument?_of_claiming (by decide) hc
      exact ⟨_, s, hs, rfl⟩
    · split_ifs at h
  · cases h

theorem fragment?_of_read {aliases : AliasIndex} {line : List Char} {url : String}
    (h : read aliases line = .agenda url) : fragment? url = none := by
  obtain ⟨message, argument, ha, rfl⟩ := exists_argument_of_read h
  exact fragment?_of_argument ha

theorem newline_notMem_of_read {aliases : AliasIndex} {line : List Char} {url : String}
    (h : read aliases line = .agenda url) : '\n' ∉ url.toList := by
  obtain ⟨message, argument, ha, rfl⟩ := exists_argument_of_read h
  obtain ⟨-, hnewline, -⟩ := exists_of_argument?_agenda ha
  rw [toList_trim, String.toList_ofList]
  exact fun hmem => hnewline (Text.mem_of_mem_trimmed hmem)

end Statement

namespace Hearing

variable {aliases : AliasIndex}

/-- The agenda of a record is that of the beginning or of an agenda line. -/
theorem agenda_run {P : String → Prop}
    (hP : ∀ line url, Statement.read aliases line = .agenda url → P url) {r : Record}
    (h : ∀ url ∈ r.agenda, P url) (lines : List (List Char)) :
    ∀ url ∈ (run aliases r lines).record.agenda, P url := by
  induction lines generalizing r with
  | nil => exact h
  | cons line lines ih =>
    apply ih
    intro url hurl
    have hw := congrArg Heading.agenda (Record.heading_hear r (Statement.read aliases line))
    change (r.hearLine aliases line).record.agenda = _ at hw
    rw [hw] at hurl
    cases hs : Statement.read aliases line with
    | agenda url' =>
      rw [hs] at hurl
      obtain rfl : url' = url := Option.some.inj hurl
      exact hP line url' hs
    | _ =>
      rw [hs] at hurl
      exact h url hurl

theorem agendaLeadsOut_run {r : Record} (h : r.AgendaLeadsOut) (lines : List (List Char)) :
    (run aliases r lines).record.AgendaLeadsOut :=
  agenda_run (fun _ _ hread => Statement.fragment?_of_read hread) h lines

end Hearing
end Minutes
