import Minutes.Proofs.Document.BlankLines
import Minutes.Proofs.Document.Outline
import Minutes.Proofs.Transcript.Heading
import Minutes.Publishing.Mail

/-!
The outline of a meeting in its plain minutes and in the post that announces them. No row of an
outline is empty or ends with white space. So closing up the minutes leaves the outline as it is, and
there is but one line feed at its end for the post to leave out.
-/
namespace Minutes
open Text

namespace Text

/-- A text that ends with something other than white space. -/
def EndsInInk (s : List Char) : Prop := ∃ c, s.getLast? = some c ∧ isBlank c = false

theorem EndsInInk.ne_nil {s : List Char} (h : EndsInInk s) : s ≠ [] := by
  rintro rfl
  obtain ⟨c, hlast, -⟩ := h
  cases hlast

theorem EndsInInk.append_left {t : List Char} (h : EndsInInk t) (s : List Char) :
    EndsInInk (s ++ t) := by
  obtain ⟨c, hlast, hc⟩ := h
  exact ⟨c, by rw [List.getLast?_append, hlast, Option.some_or], hc⟩

theorem IsWord.endsInInk {w : List Char} (h : IsWord w) : EndsInInk w :=
  ⟨w.getLast h.1, List.getLast?_eq_some_getLast h.1, h.2 _ (List.getLast_mem h.1)⟩

/-- A line ends with its last word. -/
theorem endsInInk_joinWords {line : List (List Char)} (hne : line ≠ [])
    (h : ∀ w ∈ line, IsWord w) : EndsInInk (joinWords line) := by
  induction line with
  | nil => exact absurd rfl hne
  | cons w line ih =>
    obtain ⟨hw, hline⟩ := List.forall_mem_cons.mp h
    cases line with
    | nil => simpa using hw.endsInInk
    | cons v line =>
      rw [joinWords, List.intercalate_cons_cons]
      exact (ih (List.cons_ne_nil v line) hline).append_left _

theorem endsInInk_trimmed {s : List Char} (h : trimmed s ≠ []) : EndsInInk (trimmed s) := by
  rw [trimmed, trimEnd] at h ⊢
  have hne : (trimStart s).reverse.dropWhile isBlank ≠ [] := by simpa using h
  have hnot := List.head?_dropWhile_not isBlank (trimStart s).reverse
  rw [List.head?_eq_some_head hne] at hnot
  exact ⟨_, by rw [List.getLast?_reverse, List.head?_eq_some_head hne], by simpa using hnot⟩

/-- Rows that end a text, each with a line feed, are parted as they were. -/
theorem intercalate_newline_concat_nil (rows : List (List Char)) :
    ['\n'].intercalate (rows ++ [[]]) = rows.flatMap (· ++ ['\n']) := by
  induction rows with
  | nil => rfl
  | cons row rows ih =>
    obtain ⟨next, more, hnext⟩ := List.exists_cons_of_ne_nil
      (List.append_ne_nil_of_right_ne_nil rows (List.cons_ne_nil ([] : List Char) []))
    rw [List.cons_append, List.flatMap_cons, ← ih, hnext, List.intercalate_cons_cons]

/-- Where rows end with ink, the line feed of the last one is all there is to trim. -/
theorem trimEnd_rows {rows : List (List Char)} (h : ∀ row ∈ rows, EndsInInk row) :
    let s := rows.flatMap (· ++ ['\n'])
    s = [] ∨ s = trimEnd s ++ ['\n'] ∧ EndsInInk (trimEnd s) := by
  intro s
  cases rows using List.reverseRecOn with
  | nil => exact .inl rfl
  | append_singleton rows row =>
    let kept := rows.flatMap (· ++ ['\n']) ++ row
    have hends : EndsInInk kept := (h row (by simp)).append_left _
    have hs : s = kept ++ ['\n'] := by simp [s, kept]
    obtain ⟨c, hlast, hc⟩ := id hends
    have htrimmed : trimEnd s = kept := by
      rw [hs]
      exact trimEnd_append (by simp) (by simp [hlast, hc])
    rw [htrimmed]
    exact .inr ⟨hs, hends⟩

end Text

/-- The agenda of a line is an address, with no white space after it. -/
theorem Statement.endsInInk_of_read {aliases : AliasIndex} {line : List Char} {url : String}
    (h : read aliases line = .agenda url) : EndsInInk url.toList := by
  obtain ⟨message, argument, ha, rfl⟩ := exists_argument_of_read h
  obtain ⟨hlabel, -, hstart⟩ := exists_of_argument?_agenda ha
  rw [toList_trim, String.toList_ofList]
  apply endsInInk_trimmed
  intro hempty
  have hnil : trimStart argument = [] :=
    List.dropWhile_eq_nil_iff.mpr (isBlank_of_trimmed_eq_nil hempty)
  rw [← hstart, hnil] at hlabel
  cases hlabel

theorem Record.IsHeard.endsInInk_agenda {r : Record} (h : r.IsHeard) :
    ∀ url ∈ r.agenda, EndsInInk url.toList := by
  obtain ⟨aliases, group, chairs, date, audio, lines, rfl⟩ := h
  exact Hearing.agenda_run (fun _ _ hread => Statement.endsInInk_of_read hread) (by simp) lines

theorem Compiler.isHeard_compile (c : Compiler) (mode : Mode) (transcript : String)
    (date : Option Date) (audio : Bool) : (c.compile mode transcript date audio).record.IsHeard :=
  ⟨_, _, _, _, _, _, rfl⟩

namespace Plain

theorem endsInInk_of_mem_itemRows {text : String} {n : Nat} {row : List Char}
    (h : row ∈ itemRows text n) : EndsInInk row := by
  obtain ⟨line, lines, hrows, hlines⟩ := exists_itemRows_eq text n
  have hends (l : List (List Char)) (hl : l ∈ line :: lines) : EndsInInk (joinWords l) :=
    endsInInk_joinWords (hlines l hl).1 (hlines l hl).2
  rw [hrows] at h
  rcases List.mem_cons.mp h with rfl | h
  · exact (hends line List.mem_cons_self).append_left _
  · obtain ⟨l, hl, rfl⟩ := List.mem_map.mp h
    exact (hends l (List.mem_cons_of_mem line hl)).append_left _

theorem endsInInk_of_mem_listRows {first : Nat} {items : List String} {row : List Char}
    (h : row ∈ listRows first items) : EndsInInk row := by
  obtain ⟨⟨text, n⟩, -, hrow⟩ := List.mem_flatMap.mp h
  exact endsInInk_of_mem_itemRows hrow

/-- The rows of an outline, each of which ends with a line feed. -/
def outlineRows (r : Record) : List (List Char) := (entries r).flatMap entryRows

theorem endsInInk_of_mem_outlineRows {r : Record} (h : r.IsHeard) {row : List Char}
    (hrow : row ∈ outlineRows r) : EndsInInk row := by
  obtain ⟨e, he, hrow⟩ := List.mem_flatMap.mp hrow
  have hunder : ∀ row ∈ e.2, EndsInInk row := by
    simp only [entries, List.mem_cons, List.not_mem_nil, or_false] at he
    rcases he with rfl | rfl | rfl | rfl
    · exact List.forall_mem_map.mpr fun url hurl =>
        (h.endsInInk_agenda url (Option.mem_toList.mp hurl)).append_left _
    all_goals exact fun row => endsInInk_of_mem_listRows
  rw [entryRows] at hrow
  split_ifs at hrow
  · cases hrow
  · rcases List.mem_cons.mp hrow with rfl | hrow
    · exact EndsInInk.append_left ⟨':', rfl, by decide⟩ e.1.toList
    · exact hunder row hrow

theorem toList_outline {r : Record} (h : r.IsHeard) :
    (outline r).toList = (outlineRows r).flatMap (· ++ ['\n']) := by
  have hrows := rows_outline h.newline_notMem_agenda
  rw [← intercalate_newline_concat_nil, outlineRows, ← hrows]
  exact (List.intercalate_splitOn '\n').symm

theorem newline_notMem_of_mem_outlineRows {r : Record} (h : r.IsHeard) {row : List Char}
    (hrow : row ∈ outlineRows r) : '\n' ∉ row := by
  apply newline_notMem_of_mem_rows (s := outline r)
  rw [rows_outline h.newline_notMem_agenda]
  exact List.mem_append_left _ hrow

/-- An outline stays as it is where a text is closed up, whatever stands before it. -/
theorem closeUpFrom_outline_append {r : Record} (h : r.IsHeard) (newlines : Nat) {s : List Char}
    (hs : s.head? ≠ some '\n') :
    closeUpFrom newlines ((outline r).toList ++ s) = (outline r).toList ++ closedUp s := by
  rw [toList_outline h]
  refine closeUpFrom_rows_append (fun row hrow => ⟨?_, ?_⟩) newlines hs
  · exact (endsInInk_of_mem_outlineRows h hrow).ne_nil
  · exact newline_notMem_of_mem_outlineRows h hrow

/-- Plain minutes are their title, an empty line and the outline, and then the organizers. -/
theorem exists_closeUp_summary {r : Record} (h : r.IsHeard) (today : Date) (baseUrl body : String) :
    ∃ rest, closeUp (summary today baseUrl r ++ body) =
      closeUp r.group ++ " Minutes for " ++ (r.dateOr today).iso ++ "\n\n" ++ outline r ++
        "Organizer:\n" ++ rest := by
  let title := " Minutes for " ++ (r.dateOr today).iso
  obtain ⟨after, hshape⟩ : ∃ after, summary today baseUrl r ++ body =
      r.group ++ (title ++ ("\n\n" ++ (outline r ++ ("Organizer:\n" ++ after)))) := by
    have hentry : "Organizer:\n  " = "Organizer:\n" ++ "  " := by decide
    simp only [summary, title, hentry, String.append_assoc]
    exact ⟨_, rfl⟩
  have hne : title.toList ≠ [] := by simp [title]
  have htitle : '\n' ∉ title.toList := by simp [title, Date.newline_notMem_iso]
  have hhead (s : List Char) : (title.toList ++ s).head? ≠ some '\n' := by simp [title]
  have hempty (s : List Char) : closedUp ("\n\n".toList ++ s) = "\n\n".toList ++ closeUpFrom 2 s :=
    rfl
  have horganizer : closedUp ("Organizer:\n".toList ++ after.toList) =
      "Organizer:\n".toList ++ closeUpFrom 1 after.toList := by
    simp [closedUp, closeUpFrom]
  have hbody : closedUp (title.toList ++ ("\n\n".toList ++ ((outline r).toList ++
      ("Organizer:\n".toList ++ after.toList)))) =
      title.toList ++ ("\n\n".toList ++ ((outline r).toList ++
        ("Organizer:\n".toList ++ closeUpFrom 1 after.toList))) := by
    rw [closedUp, closeUpFrom_row_append hne htitle, hempty,
      closeUpFrom_outline_append h 2 (by simp), horganizer]
  refine ⟨String.ofList (closeUpFrom 1 after.toList), String.toList_injective ?_⟩
  rw [hshape, toList_closeUp]
  simp only [String.toList_append] at hbody ⊢
  rw [closedUp_append_of_head? _ (hhead _), hbody]
  simp [title]

end Plain

/-- What a rule finds in a line is found in the message of the line. -/
theorem Rule.exists_argument?_of_mem_arguments {rule : Rule} (hrule : rule ≠ .bot)
    {lines : List (List Char)} {argument : String} (h : argument ∈ rule.arguments lines) :
    ∃ message s, rule.argument? message = some s ∧ argument = String.ofList s := by
  obtain ⟨line, -, hin⟩ := List.mem_filterMap.mp h
  obtain ⟨⟨claiming, found⟩, hclaimed, hin⟩ := Option.bind_eq_some_iff.mp hin
  obtain ⟨rfl, rfl⟩ : claiming = rule ∧ found = argument := by simpa using hin
  obtain ⟨comment, -, hclaiming⟩ := Option.bind_eq_some_iff.mp hclaimed
  obtain ⟨s, hs, rfl⟩ := Statement.argument?_of_claiming hrule hclaiming
  exact ⟨_, s, hs, rfl⟩

/-- No line puts a line feed into the name of the group. -/
theorem Hearing.newline_notMem_group_run {aliases : AliasIndex} {r : Record}
    (h : '\n' ∉ r.group.toList) (lines : List (List Char)) :
    '\n' ∉ (run aliases r lines).record.group.toList := by
  have hgroup : (run aliases r lines).record.group =
      ((Rule.meeting.arguments lines).getLast?.map trim).getD r.group :=
    (Rule.decides_group aliases).run_of_total r lines
  rw [hgroup]
  cases hlast : (Rule.meeting.arguments lines).getLast? with
  | none => exact h
  | some argument =>
    obtain ⟨message, s, hs, rfl⟩ :=
      Rule.exists_argument?_of_mem_arguments (by decide) (List.mem_of_getLast? hlast)
    obtain ⟨rest, -, hline⟩ := Option.bind_eq_some_iff.mp hs
    obtain ⟨-, hnone⟩ := Rule.oneLine?_eq_some_iff.mp hline
    rw [Option.map_some, Option.getD_some, toList_trim, String.toList_ofList]
    exact fun hmem => hnone (mem_of_mem_trimmed hmem)

namespace Post

/-- A post leaves out one line feed of an outline. -/
theorem outline_eq {r : Record} (h : r.IsHeard) :
    Plain.outline r = "" ∨
      Plain.outline r = content r ++ "\n" ∧ EndsInInk (content r).toList := by
  have htrimmed := trimEnd_rows fun row hrow => Plain.endsInInk_of_mem_outlineRows h hrow
  rw [← Plain.toList_outline h] at htrimmed
  rcases htrimmed with hnil | ⟨houtline, hends⟩
  · exact .inl (String.toList_eq_nil_iff.mp hnil)
  · have hcontent : (content r).toList = trimEnd (Plain.outline r).toList := String.toList_ofList
    rw [← hcontent] at houtline hends
    refine .inr ⟨String.toList_injective ?_, hends⟩
    rw [String.toList_append]
    exact houtline

/-- The outline of a meeting stands in its plain minutes as it is, after the title and an empty line
and before the organizers; the title is a line unless the name of the group in the settings is more
than one. A post has for its content the same outline without the white space at its end, which is
one line feed if there is anything in the outline. -/
theorem outline_announced (c : Compiler) (transcript : String) (date : Option Date) (audio : Bool) :
    let minutes := c.compile .text transcript date audio
    let outline := Plain.outline minutes.record
    let title := closeUp minutes.record.group ++ " Minutes for " ++
      (minutes.record.dateOr c.today).iso
    let content := String.ofList (trimEnd outline.toList)
    (∃ rest, minutes.document = title ++ "\n\n" ++ outline ++ "Organizer:\n" ++ rest) ∧
    ('\n' ∉ c.settings.group.toList →
      closeUp minutes.record.group = minutes.record.group ∧ '\n' ∉ title.toList) ∧
    (outline = "" ∨ outline = content ++ "\n" ∧ EndsInInk content.toList) ∧
    ∀ url, ∃ values, values.lookup "content" = some content ∧
      ∀ template, compose c.today template minutes.record url = fillTemplate template values := by
  intro minutes outline title content
  have hheard := c.isHeard_compile .text transcript date audio
  refine ⟨?_, fun hgroup => ?_, outline_eq hheard, fun url => ⟨_, ?_, fun template => rfl⟩⟩
  · exact Plain.exists_closeUp_summary hheard c.today c.settings.baseUrl _
  · have hone : '\n' ∉ minutes.record.group.toList :=
      Hearing.newline_notMem_group_run hgroup (Text.lines transcript.toList)
    refine ⟨closeUp_of_notMem hone, ?_⟩
    simp [title, closeUp_of_notMem hone, hone, Date.newline_notMem_iso]
  · rfl

/-- A topic that takes more than a line is on the same lines in the post as in the minutes. -/
theorem outline_announced_long :
    let c : Compiler :=
      { settings := { group := "Lists CG", baseUrl := "https://example.org/" }
        roster := [{ name := "Ann Lee" }], today := ⟨2013, 2, 5, by decide⟩ }
    let topic := "Lists of lists, and whether the algorithm that turns them to triples is done"
    let minutes := c.compile .text ("[1] <ann> topic: " ++ topic) none false
    let outline := "Topics:\n  1. Lists of lists, and whether the algorithm that turns them to\n" ++
      "    triples is done"
    '\n' ∉ c.settings.group.toList ∧
    (∃ rest, minutes.document =
      "Lists CG Minutes for 2013-02-05\n\n" ++ outline ++ "\nOrganizer:\n" ++ rest) ∧
    ∃ values, values.lookup "content" = some outline ∧
      ∀ template, compose c.today template minutes.record "" = fillTemplate template values := by
  intro c topic minutes outline
  have hgroup : '\n' ∉ c.settings.group.toList := by decide
  have hrecord : minutes.record =
      { group := "Lists CG", chairs := [], topics := [topic], date := none, audio := false } := by
    decide +kernel
  have houtline : Plain.outline minutes.record = outline ++ "\n" := by
    rw [hrecord]
    decide +kernel
  obtain ⟨⟨rest, hdocument⟩, hkept, -, hpost⟩ :=
    outline_announced c ("[1] <ann> topic: " ++ topic) none false
  have hcontent : String.ofList (trimEnd (Plain.outline minutes.record).toList) = outline := by
    rw [houtline]
    decide +kernel
  have htitle : minutes.record.group ++ " Minutes for " ++ (minutes.record.dateOr c.today).iso =
      "Lists CG Minutes for 2013-02-05" := by
    rw [hrecord]
    decide
  refine ⟨hgroup, ⟨rest, ?_⟩, hcontent ▸ hpost ""⟩
  rw [hdocument, (hkept hgroup).1, htitle, houtline]
  simp [String.append_assoc]

end Post
end Minutes
