import Minutes.Document.Compile
import Minutes.Proofs.Transcript.Directive

/-!
Lines that cannot be used: noise, errors, continuations and what is only shown, and directives with
nothing in them that the roster or the calendar knows. They leave the record as it was, and the
lines after them are heard as if they had not been there.
-/
namespace Minutes

/-- Whether an event passes without a trace in the record. -/
def Event.isPassing : Event → Bool
  | .dropped | .error _ | .continuation _ | .proposal _ | .useCase _ => true
  | _ => false

namespace Record

/-- A line of which the record has no use. An attendance list is of no use if none of its entries
means a participant; an empty entry means whoever wrote the list. -/
inductive Unusable (aliases : AliasIndex) (r : Record) (s : List Char) : Prop where
  | passing (h : (r.hearLine aliases s).event.isPassing = true)
  | unknownScribe {line : CommentLine} {argument : String} (hl : CommentLine.read? s = some line)
      (hc : Rule.claiming? line = some (.scribe, argument))
      (h : aliases.resolve? (lowerCase (trim argument)) = none)
  | unreadableDate {line : CommentLine} {argument : String} (hl : CommentLine.read? s = some line)
      (hc : Rule.claiming? line = some (.date, argument)) (h : Date.read? argument = none)
  | nobodyPresent {line : CommentLine} {argument : String} (hl : CommentLine.read? s = some line)
      (hc : Rule.claiming? line = some (.present, argument))
      (h : ∀ entry ∈ listEntries argument,
        (if entry = "" then aliases.resolve? line.nick else aliases.resolveAttendee? entry) = none)

variable {aliases : AliasIndex} {r : Record}

theorem record_hear_of_isPassing {s : Statement} (h : (r.hear s).event.isPassing = true) :
    (r.hear s).record = r := by
  cases s with
  | remark remark =>
    rcases hearRemark_cases r remark with ⟨comment, -, he, -⟩ | ⟨-, hr, -⟩
    · rw [hear, he] at h
      cases h
    · exact hr
  | noise | blank | unknownScribe | unreadableDate | proposal | useCase => rfl
  | _ => cases h

/-- An attendance list adds nobody if none of its entries means a participant. -/
theorem foldl_attend_of_nobody {entries : List Attendance}
    (h : ∀ entry ∈ entries, entry.name? = none) : entries.foldl attend r = r := by
  rw [foldl_attend, List.filterMap_eq_nil_iff.mpr h]
  rfl

theorem record_hearLine_of_unusable {s : List Char} (h : r.Unusable aliases s) :
    (r.hearLine aliases s).record = r := by
  cases h with
  | passing h => exact record_hear_of_isPassing h
  | unknownScribe hl hc h =>
    rw [hearLine, Statement.read_of_claiming hl hc]
    simp only [Statement.ofRule, h, hear]
  | unreadableDate hl hc h =>
    rw [hearLine, Statement.read_of_claiming hl hc]
    simp only [Statement.ofRule, h, hear]
  | @nobodyPresent line argument hl hc h =>
    rw [hearLine, Statement.read_of_claiming hl hc]
    apply foldl_attend_of_nobody
    intro entry he
    obtain ⟨written, hw, rfl⟩ := List.mem_map.mp he
    have hnone := h written hw
    by_contra hsome
    obtain ⟨name, hname⟩ := Option.ne_none_iff_exists'.mp hsome
    rcases Attendance.name?_ofEntry_eq_some_iff.mp hname with ⟨hempty, hn⟩ | ⟨hne, hn⟩
    · rw [if_pos hempty, hn] at hnone
      cases hnone
    · rw [if_neg hne, hn] at hnone
      cases hnone

/-- A line that cannot be used leaves all of the record as it was, the number of comments included,
and the rest of the transcript is heard as without it. -/
theorem unusable_leaves_no_trace {s : List Char} (h : r.Unusable aliases s) :
    (r.hearLine aliases s).record = r ∧
    ∀ lines,
      (Hearing.run aliases r (s :: lines)).record = (Hearing.run aliases r lines).record ∧
      (Hearing.run aliases r (s :: lines)).events =
        (r.hearLine aliases s).event :: (Hearing.run aliases r lines).events := by
  have hr := record_hearLine_of_unusable h
  refine ⟨hr, fun lines => ?_⟩
  simp only [Hearing.run, hr, and_self]

theorem unusable_leaves_no_trace_lurker :
    let c : Compiler := ⟨{}, [{ name := "Ann Lee" }], ⟨2013, 2, 5, by decide⟩⟩
    let r := (Hearing.run c.aliases (c.opening none true)
      ["[1] <ann> scribe: ann".toList, "[2] <ann> hello".toList]).record
    let list : CommentLine :=
      ⟨"3", "lurker", "present: nobody, , Zed", "[3] <lurker> present: nobody, , Zed"⟩
    let remark := "[4] <lurker> hello".toList
    (r.Unusable c.aliases list.raw.toList ∧ r.Unusable c.aliases remark) ∧
    (r.hearLine c.aliases list.raw.toList).record = r ∧
    (r.hearLine c.aliases remark).record = r ∧ r.comments = 1 := by
  intro c r list remark
  have hl : CommentLine.read? list.raw.toList = some list := by decide +kernel
  have hc : Rule.claiming? list = some (.present, " nobody, , Zed") := by decide +kernel
  have hlist : r.Unusable c.aliases list.raw.toList := .nobodyPresent hl hc (by decide +kernel)
  have hremark : r.Unusable c.aliases remark := .passing (by decide +kernel)
  exact ⟨⟨hlist, hremark⟩, (unusable_leaves_no_trace hlist).1,
    (unusable_leaves_no_trace hremark).1, by decide +kernel⟩

end Record
end Minutes
