import Minutes.Meeting
import Minutes.Proofs.Document.LineFeeds
import Minutes.Proofs.Document.Wording
import Minutes.Proofs.Files.Write
import Minutes.Proofs.Transcript.Growth
import Minutes.Proofs.Transcript.Heading

/-!
Where plain minutes say that the recording is: in the folder that is named after the date of the
minutes. The date is that of the folder of the meeting unless a date line sets another.
-/
namespace Minutes
open Files

/-- The date that a date line sets. -/
def Statement.date? : Statement → Option Date
  | .date d => some d
  | _ => none

theorem Record.date_hear (r : Record) (s : Statement) :
    (r.hear s).record.date = s.date?.or r.date := by
  have hw : (r.hear s).record.date = (s.write r.heading).date :=
    congrArg Heading.date (heading_hear r s)
  rw [hw]
  cases s <;> rfl

namespace Hearing

variable (aliases : AliasIndex)

/-- The dates that the lines of a transcript set. -/
def dates (lines : List (List Char)) : List Date :=
  lines.filterMap fun line => (Statement.read aliases line).date?

/-- The last date line has its way. -/
theorem date_run (r : Record) (lines : List (List Char)) :
    (run aliases r lines).record.date = (dates aliases lines).getLast?.or r.date := by
  have hline (r : Record) (line : List Char) : (r.hearLine aliases line).record.date =
      ((Statement.read aliases line).date?.map some).getD r.date := by
    rw [Record.hearLine, Record.date_hear]
    cases (Statement.read aliases line).date? <;> rfl
  rw [last_set (·.date) _ hline, ← List.map_filterMap, getD_getLast?_map_some, dates]

end Hearing

namespace Plain

/-- The summary up to those who are present. -/
def summaryLead (today : Date) (r : Record) : String :=
  r.group ++ " Minutes for " ++ (r.dateOr today).iso ++ "\n\n" ++ outline r ++
    "Organizer:\n  " ++ " and ".intercalate r.chairs ++ "\n" ++
    "Scribe:\n  " ++ " and ".intercalate r.scribes ++ "\n" ++
    "Present:\n  " ++ filled (", ".intercalate (r.present ++ r.totalPresent.toList)) ++ "\n"

/-- The entry of the recording in a summary; it is left out if there is none. -/
def audioEntry (audio : Bool) (address : String) : String :=
  if audio then "Audio:\n  " ++ address ++ "\n" else ""

theorem summary_eq (today : Date) (baseUrl : String) (r : Record) :
    summary today baseUrl r = summaryLead today r ++
      (audioEntry r.audio (audioAddress baseUrl (r.dateOr today)) ++ "\n") := by
  unfold audioEntry
  cases h : r.audio <;> simp [summary, summaryLead, audioText, h, String.append_assoc]

theorem getLast?_audioAddress (baseUrl : String) (date : Date) :
    (audioAddress baseUrl date).toList.getLast? = some 'g' := by
  have hfile : "/audio.ogg".toList.getLast? = some 'g' := by decide
  rw [audioAddress, String.toList_append, List.getLast?_append, hfile, Option.some_or]

end Plain

/-- Closing up a blank line before a text makes no difference to its words. -/
theorem Text.words_closeUpFrom_newline (newlines : Nat) (s : List Char) :
    words (closeUpFrom newlines ('\n' :: s)) = words s := by
  have h := words_append_closeUpFrom newlines [] ('\n' :: s) (.inr rfl)
  rwa [List.nil_append, List.nil_append, words_cons isBlank_newline] at h

/-- Closing up keeps the entry of the recording, and closes up the address in it on its own. -/
theorem exists_closeUp_audioEntry (lead : String) (audio : Bool) {address : String} {c : Char}
    (hlast : address.toList.getLast? = some c) (hc : c ≠ '\n') (rest : String) :
    ∃ body, closeUp (lead ++ (Plain.audioEntry audio address ++ "\n") ++ rest) =
        closeUp lead ++ Plain.audioEntry audio (closeUp address) ++ body ∧
      words body = words rest := by
  obtain ⟨newlines, hlead⟩ := Text.exists_closeUpFrom_append 0 lead.toList
    (Plain.audioEntry audio address ++ "\n" ++ rest).toList
  cases audio with
  | false =>
    refine ⟨String.ofList (Text.closeUpFrom newlines ('\n' :: rest.toList)), ?_, ?_⟩
    · apply String.toList_injective
      simpa [Text.closedUp, Plain.audioEntry] using hlead
    · simp only [words, String.toList_ofList, Text.words_closeUpFrom_newline]
  | true =>
    -- the title ends any run of line feeds before it, and the address any run within it
    have htitle : "Audio:\n  ".toList.getLast? = some ' ' := by decide
    have hkept : Text.closeUpFrom newlines "Audio:\n  ".toList = "Audio:\n  ".toList := by
      simp [Text.closeUpFrom]
    have hentry : Text.closeUpFrom newlines
        ("Audio:\n  ".toList ++ (address.toList ++ '\n' :: '\n' :: rest.toList)) =
        "Audio:\n  ".toList ++ (Text.closedUp address.toList ++
          '\n' :: Text.closeUpFrom 1 ('\n' :: rest.toList)) := by
      rw [Text.closeUpFrom_append htitle (by decide), hkept, Text.closeUpFrom_append hlast hc]
      rfl
    refine ⟨String.ofList (Text.closeUpFrom 1 ('\n' :: rest.toList)), ?_, ?_⟩
    · apply String.toList_injective
      have hshape : (Plain.audioEntry true address ++ "\n" ++ rest).toList =
          "Audio:\n  ".toList ++ (address.toList ++ '\n' :: '\n' :: rest.toList) := by
        simp [Plain.audioEntry]
      rw [hshape, hentry] at hlead
      simpa [Text.closedUp, Plain.audioEntry] using hlead
    · simp only [words, String.toList_ofList, Text.words_closeUpFrom_newline]

namespace Meeting

theorem audio_of_read {store : Store} {folder : Path} {m : Meeting}
    (h : read store folder = .ok m) : m.audio = store.isFile (folder.join recordingName) := by
  simp only [read] at h
  split at h
  · cases h
  · split_ifs at h
    split at h
    · cases h
      rfl
    · cases h

/-- The folder that plain minutes name for a recording is that of the meeting if it has the date of
the minutes for its name. -/
theorem audioAddress_eq_url_iff (m : Meeting) (baseUrl : String) (date : Date) :
    Plain.audioAddress baseUrl date = m.url baseUrl ++ recordingName ↔ m.key = date.iso := by
  have hfile : "/audio.ogg" = "/" ++ recordingName := by decide
  unfold Plain.audioAddress url
  rw [hfile]
  simp only [← String.append_assoc, String.append_right_inj, String.append_left_inj]
  exact eq_comm

/-- Plain minutes have an entry for the recording only if it was found in the folder of the meeting.
The address in it, closed up as all the text is, leads to the folder under the common address that
is named after the date of the minutes. -/
theorem recording_address {store : Store} {folder : Path} {m : Meeting}
    (h : read store folder = .ok m) (c : Compiler) :
    let heard := c.hear m.transcript (some m.date) m.audio
    let minutes := m.compile c .text
    let dates := Hearing.dates c.aliases (Text.lines m.transcript.toList)
    let date := dates.getLast?.getD m.date
    let address := Plain.audioAddress c.settings.baseUrl date
    (∃ body,
      minutes.document = closeUp (Plain.summaryLead c.today minutes.record) ++
        Plain.audioEntry minutes.record.audio (closeUp address) ++ body ∧
      words body = words (String.join (heard.events.map Plain.event))) ∧
    (minutes.record.audio = true → store.isFile (folder.join recordingName) = true) ∧
    (address = m.url c.settings.baseUrl ++ recordingName ↔ m.key = date.iso) ∧
    ('\n' ∉ c.settings.baseUrl.toList → closeUp address = address) := by
  intro heard minutes dates date address
  have hdate : minutes.record.dateOr c.today = date := by
    have hrun : minutes.record.date = dates.getLast?.or (some m.date) :=
      Hearing.date_run c.aliases (c.opening (some m.date) m.audio) _
    rw [Record.dateOr, hrun]
    change _ = dates.getLast?.getD m.date
    cases dates.getLast? <;> rfl
  refine ⟨?_, fun haudio => ?_, m.audioAddress_eq_url_iff _ _, fun hbase => ?_⟩
  · have hdocument : minutes.document = closeUp (Plain.summaryLead c.today minutes.record ++
        (Plain.audioEntry minutes.record.audio address ++ "\n") ++
          String.join (heard.events.map Plain.event)) := by
      have hsummary := Plain.summary_eq c.today c.settings.baseUrl minutes.record
      rw [hdate] at hsummary
      rw [← hsummary]
      rfl
    rw [hdocument]
    exact exists_closeUp_audioEntry _ _ (Plain.getLast?_audioAddress ..) (by decide) _
  · have hgrows := Hearing.grows_run c.aliases (c.opening (some m.date) m.audio)
      (Text.lines m.transcript.toList)
    rw [← audio_of_read h]
    exact hgrows.audio haudio
  · apply closeUp_of_notMem
    simp [address, Plain.audioAddress, hbase, date.newline_notMem_iso]

/-- A folder with nothing but the date in its name has the recording where the minutes say. -/
theorem recording_address_dated :
    let c : Compiler :=
      { settings := { baseUrl := "https://example.org/" }, roster := [{ name := "Ann Lee" }]
        today := ⟨2013, 2, 5, by decide⟩ }
    let store : Store :=
      { entries := [(["2013-02-05"], .folder),
          (["2013-02-05", "irc.log"], .file "[12:00] <ann> hello".toUTF8),
          (["2013-02-05", "audio.ogg"], .file "".toUTF8)] }
    ∃ m, read store "2013-02-05" = .ok m ∧ ∃ body,
      (m.compile c .text).document =
        closeUp (Plain.summaryLead c.today (m.compile c .text).record) ++
          Plain.audioEntry true (m.url c.settings.baseUrl ++ recordingName) ++ body := by
  intro c store
  let m : Meeting :=
    { path := "2013-02-05", key := "2013-02-05", date := ⟨2013, 2, 5, by decide⟩
      transcript := "[12:00] <ann> hello", audio := true }
  have hread : read store "2013-02-05" = .ok m :=
    Store.toOption_eq_some_iff.mp (by decide +kernel)
  have hdates : Hearing.dates c.aliases (Text.lines m.transcript.toList) = [] := by decide +kernel
  have haudio : (m.compile c .text).record.audio = true := by decide +kernel
  obtain ⟨⟨body, hdocument, -⟩, -, hurl, hkept⟩ := recording_address hread c
  rw [hkept (by decide), hurl.mpr (by rw [hdates]; decide), haudio] at hdocument
  exact ⟨m, hread, body, hdocument⟩

/-- A folder may have more than the date in its name, which the address leaves out. -/
theorem recording_address_elsewhere :
    let c : Compiler :=
      { settings := { baseUrl := "https://example.org/" }, roster := [{ name := "Ann Lee" }]
        today := ⟨2013, 2, 5, by decide⟩ }
    let store : Store :=
      { entries := [(["2013-02-05-telecon"], .folder),
          (["2013-02-05-telecon", "irc.log"], .file "[12:00] <ann> hello".toUTF8),
          (["2013-02-05-telecon", "audio.ogg"], .file "".toUTF8)] }
    ∃ m, read store "2013-02-05-telecon" = .ok m ∧
      (m.compile c .text).document =
        "Meeting Minutes for 2013-02-05\n\nOrganizer:\n  \nScribe:\n  \nPresent:\n  Ann Lee\n" ++
        "Audio:\n  https://example.org/2013-02-05/audio.ogg\n\nAnn Lee: Hello\n" ∧
      m.url c.settings.baseUrl ++ recordingName =
        "https://example.org/2013-02-05-telecon/audio.ogg" := by
  intro c store
  let m : Meeting :=
    { path := "2013-02-05-telecon", key := "2013-02-05-telecon", date := ⟨2013, 2, 5, by decide⟩
      transcript := "[12:00] <ann> hello", audio := true }
  have hread : read store "2013-02-05-telecon" = .ok m :=
    Store.toOption_eq_some_iff.mp (by decide +kernel)
  exact ⟨m, hread, by decide +kernel, by decide +kernel⟩

end Meeting
end Minutes
