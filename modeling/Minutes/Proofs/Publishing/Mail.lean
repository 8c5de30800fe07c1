import Minutes.Proofs.Document.LineFeeds
import Minutes.Proofs.Publishing.Template
import Minutes.Proofs.Text.Words
import Minutes.Publishing.Mail

/-!
A mail as it arrives: header lines up to the first empty line, and then the body. It arrives as it
was composed unless a value puts a line feed into the subject.
-/
namespace Minutes
open Text

namespace Text

/-- The lines of a text up to its first empty line, and the text after that line. The line that is
being read has begun with `line`. -/
def headersFrom? (line : List Char) : List Char → Option (List (List Char) × List Char)
  | [] => none
  | c :: s =>
    if c = '\n' then
      if line = [] then some ([], s)
      else (headersFrom? [] s).map fun (lines, rest) => (line :: lines, rest)
    else headersFrom? (line ++ [c]) s

theorem headersFrom?_append {s : List Char} (h : '\n' ∉ s) (line t : List Char) :
    headersFrom? line (s ++ t) = headersFrom? (line ++ s) t := by
  induction s generalizing line with
  | nil => rw [List.nil_append, List.append_nil]
  | cons c s ih =>
    obtain ⟨hc, hs⟩ : '\n' ≠ c ∧ '\n' ∉ s := by simpa using h
    rw [List.cons_append, headersFrom?, if_neg hc.symm, ih hs, List.append_assoc,
      List.singleton_append]

theorem headersFrom?_written {lines : List (List Char)}
    (h : ∀ line ∈ lines, line ≠ [] ∧ '\n' ∉ line) (rest : List Char) :
    headersFrom? [] (lines.flatMap (· ++ ['\n']) ++ '\n' :: rest) = some (lines, rest) := by
  induction lines with
  | nil => rfl
  | cons line lines ih =>
    obtain ⟨⟨hne, hline⟩, hlines⟩ := List.forall_mem_cons.mp h
    rw [List.flatMap_cons, List.append_assoc, List.append_assoc, headersFrom?_append hline,
      List.nil_append, List.singleton_append, headersFrom?, if_pos rfl, if_neg hne, ih hlines]
    rfl

theorem written_of_headersFrom? {line s rest : List Char} {lines : List (List Char)}
    (hline : '\n' ∉ line) (h : headersFrom? line s = some (lines, rest)) :
    line ++ s = lines.flatMap (· ++ ['\n']) ++ '\n' :: rest ∧
      ∀ l ∈ lines, l ≠ [] ∧ '\n' ∉ l := by
  -- the beginning of a line that has been read stands before the text, and has no line feed itself
  induction s generalizing line lines with
  | nil => cases h
  | cons c s ih =>
    rw [headersFrom?] at h
    split_ifs at h with hc hempty
    · obtain ⟨rfl, rfl⟩ : [] = lines ∧ s = rest := by simpa using h
      simp [hc, hempty]
    · obtain ⟨⟨lines, rest⟩, hrest, heq⟩ := Option.map_eq_some_iff.mp h
      obtain ⟨rfl, rfl⟩ := Prod.mk.inj heq
      obtain ⟨htext, hlines⟩ := ih List.not_mem_nil hrest
      rw [List.nil_append] at htext
      refine ⟨?_, List.forall_mem_cons.mpr ⟨⟨hempty, hline⟩, hlines⟩⟩
      rw [hc, htext, List.flatMap_cons, List.append_assoc, List.append_assoc,
        List.singleton_append]
    · have hnext : '\n' ∉ line ++ [c] := by simpa [hline] using Ne.symm hc
      obtain ⟨htext, hlines⟩ := ih hnext h
      exact ⟨by simpa using htext, hlines⟩

end Text

namespace Mail

/-- A message in its parts: its header lines, and the body after its first empty line. -/
def parts? (text : String) : Option (List String × String) :=
  (headersFrom? [] text.toList).map fun (lines, rest) =>
    (lines.map String.ofList, String.ofList rest)

/-- A message has headers and a body if it is made of them and no header breaks its line. -/
theorem parts?_eq_some_iff {text body : String} {headers : List String} :
    parts? text = some (headers, body) ↔
      text = String.join (headers.map (· ++ "\n")) ++ "\n" ++ body ∧
        ∀ header ∈ headers, header ≠ "" ∧ '\n' ∉ header.toList := by
  constructor
  · intro h
    obtain ⟨⟨lines, rest⟩, hparts, heq⟩ := Option.map_eq_some_iff.mp h
    obtain ⟨rfl, rfl⟩ := Prod.mk.inj heq
    obtain ⟨htext, hlines⟩ := written_of_headersFrom? List.not_mem_nil hparts
    constructor
    · apply String.toList_injective
      rw [List.nil_append] at htext
      rw [htext]
      simp [List.flatMap_map]
    · rw [List.forall_mem_map]
      simpa using hlines
  · rintro ⟨rfl, hheaders⟩
    have hlines : ∀ line ∈ headers.map String.toList, line ≠ [] ∧ '\n' ∉ line := by
      rw [List.forall_mem_map]
      simpa using hheaders
    have hread := headersFrom?_written hlines body.toList
    have htext : (String.join (headers.map (· ++ "\n")) ++ "\n" ++ body).toList =
        (headers.map String.toList).flatMap (· ++ ['\n']) ++ '\n' :: body.toList := by
      simp [List.flatMap_map]
    rw [parts?, htext, hread]
    simp

def headerText (field value : String) : String := field ++ ": " ++ value

/-- The headers that a mail is meant to have, each on a line. -/
def headers (mail : Mail) : List String :=
  (if mail.sender = "" then [] else [headerText "From" mail.sender]) ++
    (if mail.recipient = "" then [] else [headerText "To" mail.recipient]) ++
    [headerText "Subject" mail.subject]

theorem text_eq_headers (mail : Mail) :
    mail.text = String.join (mail.headers.map (· ++ "\n")) ++ "\n" ++ mail.body := by
  unfold text headers optionalHeader
  split_ifs <;> simp [headerLine, headerText, String.append_assoc]

theorem newline_mem_headerText_iff {field : String} (h : '\n' ∉ field.toList) (value : String) :
    '\n' ∈ (headerText field value).toList ↔ '\n' ∈ value.toList := by
  simp [headerText, h]

theorem headerText_ne_empty (field value : String) : headerText field value ≠ "" := by
  intro h
  have hempty := congrArg String.toList h
  simp [headerText] at hempty

/-- A mail arrives as it was composed if no header takes more than its line. -/
theorem parts?_text_iff (mail : Mail) :
    parts? mail.text = some (mail.headers, mail.body) ↔
      '\n' ∉ mail.sender.toList ∧ '\n' ∉ mail.recipient.toList ∧ '\n' ∉ mail.subject.toList := by
  have hfrom : '\n' ∉ "From".toList := by decide
  have hto : '\n' ∉ "To".toList := by decide
  have hsubject : '\n' ∉ "Subject".toList := by decide
  rw [parts?_eq_some_iff, and_iff_right mail.text_eq_headers]
  unfold headers
  split_ifs with hsender hrecipient hrecipient <;>
    simp [*, headerText_ne_empty, newline_mem_headerText_iff]

end Mail

theorem newline_mem_joined_iff (names : List String) :
    '\n' ∈ (" and ".intercalate names).toList ↔ ∃ name ∈ names, '\n' ∈ name.toList := by
  have hsep : '\n' ∉ " and ".toList := by decide
  rw [String.toList_intercalate, mem_intercalate_iff hsep]
  simp

/-- The values that can break the line of a subject: all but the date. -/
theorem Mail.newline_mem_subject_iff (today : Date) (template : MailTemplate) (minutes : Compiled)
    (url : String) (h : '\n' ∉ template.subject.toList) :
    '\n' ∈ (Mail.compose today template minutes url).subject.toList ↔
      ("scribe" ∈ Template.places template.subject ∧
        ∃ name ∈ minutes.record.scribes, '\n' ∈ name.toList) ∨
      ("url" ∈ Template.places template.subject ∧ '\n' ∈ url.toList) ∨
      ("content" ∈ Template.places template.subject ∧ '\n' ∈ minutes.document.toList) := by
  have hdate := Date.newline_notMem_iso (minutes.record.dateOr today)
  unfold Mail.compose
  rw [Template.mem_fillTemplate_iff h]
  simp only [Template.value_cons, Template.value_nil]
  constructor
  · rintro ⟨name, hname, hnewline⟩
    -- a name that is none of the four has no value, and so no line feed
    split_ifs at hnewline with hd hs hu hc
    · exact absurd hnewline hdate
    · subst hs
      exact .inl ⟨hname, (newline_mem_joined_iff _).mp hnewline⟩
    · subst hu
      exact .inr (.inl ⟨hname, hnewline⟩)
    · subst hc
      exact .inr (.inr ⟨hname, hnewline⟩)
    · cases hnewline
  · rintro (⟨hname, hnewline⟩ | ⟨hname, hnewline⟩ | ⟨hname, hnewline⟩)
    · exact ⟨"scribe", hname, (newline_mem_joined_iff _).mpr hnewline⟩
    · exact ⟨"url", hname, hnewline⟩
    · exact ⟨"content", hname, hnewline⟩

/-- The mail with the minutes of a transcript arrives as it was composed unless its subject takes in
the text of the minutes, or an address or the name of a scribe that has more than one line. -/
theorem Mail.compose_splits_iff (c : Compiler) (mode : Mode) (transcript : String)
    (date : Option Date) (audio : Bool) (template : MailTemplate) (url : String)
    (hrecipient : '\n' ∉ template.recipient.toList) (hsender : '\n' ∉ template.sender.toList)
    (hsubject : '\n' ∉ template.subject.toList) :
    let minutes := c.compile mode transcript date audio
    let mail := Mail.compose c.today template minutes url
    let placed := Template.places template.subject
    Mail.parts? mail.text = some (mail.headers, mail.body) ↔
      "content" ∉ placed ∧ ("url" ∈ placed → '\n' ∉ url.toList) ∧
        ("scribe" ∈ placed → ∀ name ∈ minutes.record.scribes, '\n' ∉ name.toList) := by
  intro minutes mail placed
  have hdocument : '\n' ∈ minutes.document.toList := c.newline_mem_document mode _
  have haddresses : '\n' ∉ mail.sender.toList ∧ '\n' ∉ mail.recipient.toList :=
    ⟨hsender, hrecipient⟩
  rw [Mail.parts?_text_iff, ← and_assoc, and_iff_right haddresses,
    Mail.newline_mem_subject_iff c.today template minutes url hsubject]
  constructor
  · intro h
    refine ⟨fun hc => h (.inr (.inr ⟨hc, hdocument⟩)), fun hu hn => h (.inr (.inl ⟨hu, hn⟩)), ?_⟩
    exact fun hs name hname hn => h (.inl ⟨hs, name, hname, hn⟩)
  · rintro ⟨hc, hu, hs⟩ (⟨h, name, hname, hn⟩ | ⟨h, hn⟩ | ⟨h, _⟩)
    · exact hs h name hname hn
    · exact hu h hn
    · exact hc h

/-- A subject that names the scribe keeps to its line. -/
theorem Mail.compose_splits_scribe :
    let c : Compiler :=
      { settings := {}, roster := [{ name := "Ann Lee" }], today := ⟨2013, 2, 5, by decide⟩ }
    let template : MailTemplate :=
      { recipient := "list@example.org"
        subject := "Minutes of \x7b\x7bdate\x7d\x7d by \x7b\x7bscribe\x7d\x7d" }
    let minutes := c.compile .text "[12:00] <ann> scribe: ann" none false
    let mail := Mail.compose c.today template minutes "https://example.org/2013-02-05/"
    ('\n' ∉ template.recipient.toList ∧ '\n' ∉ template.sender.toList ∧
      '\n' ∉ template.subject.toList) ∧
    Mail.parts? mail.text = some (mail.headers, mail.body) ∧
    mail.headers = ["To: list@example.org", "Subject: Minutes of 2013-02-05 by Ann Lee"] := by
  intro c template minutes mail
  have hrecipient : '\n' ∉ template.recipient.toList := by decide
  have hsender : '\n' ∉ template.sender.toList := by decide
  have hsubject : '\n' ∉ template.subject.toList := by decide
  have hplaced : Template.places template.subject = ["date", "scribe"] := by decide +kernel
  have hscribes : minutes.record.scribes = ["Ann Lee"] := by decide +kernel
  have hsplits := Mail.compose_splits_iff c .text "[12:00] <ann> scribe: ann" none false template
    "https://example.org/2013-02-05/" hrecipient hsender hsubject
  refine ⟨⟨hrecipient, hsender, hsubject⟩, hsplits.mpr ?_, by decide +kernel⟩
  refine ⟨by simp [hplaced], by simp [hplaced], fun _ name hname => ?_⟩
  obtain rfl : name = "Ann Lee" := by simpa [minutes, hscribes] using hname
  decide

/-- The text of the minutes in a subject ends the headers early, and the rest falls into the body. -/
theorem Mail.compose_cut_by_content :
    let c : Compiler :=
      { settings := {}, roster := [{ name := "Ann Lee" }], today := ⟨2013, 2, 5, by decide⟩ }
    let template : MailTemplate :=
      { recipient := "list@example.org"
        subject := "Minutes \x7b\x7bcontent\x7d\x7d"
        body := "\x7b\x7burl\x7d\x7d" }
    let minutes := c.compile .text "[12:00] <ann> hello" none false
    let mail := Mail.compose c.today template minutes "https://example.org/2013-02-05/"
    ('\n' ∉ template.recipient.toList ∧ '\n' ∉ template.sender.toList ∧
      '\n' ∉ template.subject.toList) ∧
    Mail.parts? mail.text ≠ some (mail.headers, mail.body) := by
  intro c template minutes mail
  have hsubject : '\n' ∉ template.subject.toList := by decide
  have hplaced : "content" ∈ Template.places template.subject := by decide +kernel
  have hdocument : '\n' ∈ minutes.document.toList := c.newline_mem_document .text _
  have hbreak : '\n' ∈ mail.subject.toList :=
    (Mail.newline_mem_subject_iff _ _ _ _ hsubject).mpr (.inr (.inr ⟨hplaced, hdocument⟩))
  refine ⟨⟨by decide, by decide, hsubject⟩, fun hparts => ?_⟩
  exact (mail.parts?_text_iff.mp hparts).2.2 hbreak

end Minutes
