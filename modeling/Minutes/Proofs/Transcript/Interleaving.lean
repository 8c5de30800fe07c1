import Minutes.Document.Compile
import Minutes.Proofs.Transcript.Effect

/-!
Recorded lines and visible lines do not touch each other: a run may hear all recorded lines first
and all visible lines after them.
-/
namespace Minutes

namespace Record

/-- A recorded line and a visible line may change places. -/
theorem hear_comm (r : Record) {a b : Statement} (ha : a.showing = .recorded)
    (hb : b.showing = .visible) :
    ((r.hear a).record.hear b).record = ((r.hear b).record.hear a).record := by
  have hp : (r.hear a).record.proceedings = r.proceedings := proceedings_hear_of_recorded r ha
  have hw : b.showing ≠ .recorded := by rw [hb]; decide
  apply eq_of_parts
  · simp only [heading_hear, write_of_not_recorded hw]
  · rw [proceedings_hear_of_recorded _ ha, proceedings_hear_congr hp]
  · simp only [present_hear]
    rw [marks_congr hp, marks_of_recorded (r.hear b).record r ha, insertNames_comm]

end Record

namespace Hearing

variable (aliases : AliasIndex)

/-- The lines of a transcript that show in a way, as far as line and roster tell. -/
def showingLines (how : Showing) (lines : List (List Char)) : List (List Char) :=
  lines.filter fun line => decide ((Statement.read aliases line).showing = how)

variable {aliases} in
theorem showingLines_cons_of_eq {how : Showing} {line : List Char} (lines : List (List Char))
    (h : (Statement.read aliases line).showing = how) :
    showingLines aliases how (line :: lines) = line :: showingLines aliases how lines :=
  List.filter_cons_of_pos (decide_eq_true h)

variable {aliases} in
theorem showingLines_cons_of_ne {how : Showing} {line : List Char} (lines : List (List Char))
    (h : (Statement.read aliases line).showing ≠ how) :
    showingLines aliases how (line :: lines) = showingLines aliases how lines :=
  List.filter_cons_of_neg (by simpa using h)

/-- A visible line may be heard before the recorded lines that it follows. -/
theorem record_run_hear (r : Record) {s : Statement} (hs : s.showing = .visible)
    {lines : List (List Char)}
    (h : ∀ line ∈ lines, (Statement.read aliases line).showing = .recorded) :
    (run aliases (r.hear s).record lines).record =
      ((run aliases r lines).record.hear s).record := by
  induction lines generalizing r with
  | nil => rfl
  | cons line lines ih =>
    have hl := h line List.mem_cons_self
    change (run aliases ((r.hear s).record.hear (Statement.read aliases line)).record
      lines).record = ((run aliases (r.hear (Statement.read aliases line)).record
      lines).record.hear s).record
    rw [← Record.hear_comm r hl hs]
    exact ih _ (fun l hm => h l (List.mem_cons_of_mem line hm))

/-- The record is that of the recorded lines followed by the visible ones. -/
theorem record_run_showingLines (r : Record) (lines : List (List Char)) :
    (run aliases r lines).record =
      (run aliases r (showingLines aliases .recorded lines ++
        showingLines aliases .visible lines)).record := by
  induction lines generalizing r with
  | nil => rfl
  | cons line lines ih =>
    change (run aliases (r.hear (Statement.read aliases line)).record lines).record = _
    rw [ih]
    cases hs : (Statement.read aliases line).showing with
    | dropped =>
      rw [Record.hear_of_dropped r hs, showingLines_cons_of_ne lines (by simp [hs]),
        showingLines_cons_of_ne lines (by simp [hs])]
    | recorded =>
      rw [showingLines_cons_of_eq lines hs, showingLines_cons_of_ne lines (by simp [hs])]
      rfl
    | visible =>
      have hr : ∀ l ∈ showingLines aliases .recorded lines,
          (Statement.read aliases l).showing = .recorded := by
        intro l hl
        exact of_decide_eq_true (List.mem_filter.mp hl).2
      rw [showingLines_cons_of_ne lines (by simp [hs]), showingLines_cons_of_eq lines hs,
        record_run_append, record_run_append, record_run_hear aliases r hs hr]
      rfl

/-- What is shown is what the visible lines alone would show. -/
theorem visible_events_run {r r' : Record} (h : r.proceedings = r'.proceedings)
    (lines : List (List Char)) :
    (run aliases r lines).events.filter (fun e => decide (e.showing = .visible)) =
      (run aliases r' (showingLines aliases .visible lines)).events := by
  induction lines generalizing r r' with
  | nil => rfl
  | cons line lines ih =>
    have he := Record.showing_hear r (Statement.read aliases line)
    change ((r.hear (Statement.read aliases line)).event ::
      (run aliases (r.hear (Statement.read aliases line)).record lines).events).filter _ = _
    cases hs : (Statement.read aliases line).showing with
    | dropped =>
      rw [List.filter_cons_of_neg (by simp [he, hs]), Record.hear_of_dropped r hs,
        showingLines_cons_of_ne lines (by simp [hs])]
      exact ih h
    | recorded =>
      rw [List.filter_cons_of_neg (by simp [he, hs]),
        showingLines_cons_of_ne lines (by simp [hs])]
      exact ih ((Record.proceedings_hear_of_recorded r hs).trans h)
    | visible =>
      rw [List.filter_cons_of_pos (by simp [he, hs]), showingLines_cons_of_eq lines hs,
        ih (Record.proceedings_hear_congr h _), Record.event_hear_congr h]
      rfl

/-- The lines of a run whose events show in a way are told by line and roster. -/
theorem filter_zip_events_run (how : Showing) (r : Record) (lines : List (List Char)) :
    ((lines.zip (run aliases r lines).events).filter
      fun p => decide (p.2.showing = how)).map (·.1) = showingLines aliases how lines := by
  induction lines generalizing r with
  | nil => rfl
  | cons line lines ih =>
    have he := Record.showing_hear r (Statement.read aliases line)
    change (((line, (r.hear (Statement.read aliases line)).event) ::
      lines.zip (run aliases (r.hear (Statement.read aliases line)).record lines).events).filter
      _).map _ = _
    by_cases hs : (Statement.read aliases line).showing = how
    · rw [List.filter_cons_of_pos (by simp [he, hs]), showingLines_cons_of_eq lines hs,
        List.map_cons, ih]
    · rw [List.filter_cons_of_neg (by simp [he, hs]), showingLines_cons_of_ne lines hs, ih]

end Hearing

namespace Mode

theorem event_of_silent (mode : Mode) {e : Event} (h : e.showing ≠ .visible) :
    mode.event e = "" := by
  cases e <;> first | exact absurd rfl h | (cases mode <;> rfl)

/-- Silent events leave nothing in a document. -/
theorem join_event_visible (mode : Mode) (events : List Event) :
    String.join (events.map mode.event) =
      String.join ((events.filter fun e => decide (e.showing = .visible)).map mode.event) := by
  induction events with
  | nil => rfl
  | cons e events ih =>
    by_cases h : e.showing = .visible
    · rw [List.filter_cons_of_pos (by simp [h])]
      simp only [List.map_cons, String.join_cons, ih]
    · rw [List.filter_cons_of_neg (by simp [h])]
      simp only [List.map_cons, String.join_cons, ih, event_of_silent mode h, String.empty_append]

end Mode

/-- The lines of a transcript whose events in its minutes show in a way, in order. -/
def Compiler.linesShowing (c : Compiler) (how : Showing) (transcript : String)
    (date : Option Date) (audio : Bool) : List (List Char) :=
  let lines := Text.lines transcript.toList
  ((lines.zip (c.hear transcript date audio).events).filter
    fun p => decide (p.2.showing = how)).map (·.1)

/-- Whether a line is dropped, recorded or visible is told by line and roster. Two transcripts with
the same recorded lines and the same visible lines, each in order, have the same minutes. -/
theorem Compiler.compile_interleaving :
    (∀ (roster : Roster) (line : List Char) (r r' : Record),
      (r.hearLine (.ofRoster roster) line).event.showing =
        (r'.hearLine (.ofRoster roster) line).event.showing) ∧
    ∀ (c : Compiler) (mode : Mode) (date : Option Date) (audio : Bool) (s t : String),
      c.linesShowing .recorded s date audio = c.linesShowing .recorded t date audio →
      c.linesShowing .visible s date audio = c.linesShowing .visible t date audio →
      (c.compile mode s date audio).document = (c.compile mode t date audio).document ∧
      (c.compile mode s date audio).record = (c.compile mode t date audio).record := by
  constructor
  · intro roster line r r'
    exact (r.showing_hear _).trans (r'.showing_hear _).symm
  intro c mode date audio s t hr hv
  simp only [linesShowing, hear, Hearing.filter_zip_events_run] at hr hv
  have hrec : (c.hear s date audio).record = (c.hear t date audio).record := by
    unfold hear
    rw [Hearing.record_run_showingLines, hr, hv, ← Hearing.record_run_showingLines]
  refine ⟨?_, hrec⟩
  have hev : String.join ((c.hear s date audio).events.map mode.event) =
      String.join ((c.hear t date audio).events.map mode.event) := by
    rw [mode.join_event_visible, mode.join_event_visible (c.hear t date audio).events]
    unfold hear
    rw [Hearing.visible_events_run c.aliases rfl, hv, ← Hearing.visible_events_run c.aliases rfl]
  change c.document mode (c.hear s date audio) = c.document mode (c.hear t date audio)
  unfold document
  rw [hrec, hev]

theorem Compiler.compile_interleaving_swapped :
    let c : Compiler := ⟨{}, [{ name := "Ann Lee" }], ⟨2013, 2, 5, by decide⟩⟩
    let s := "[1] <ann> present+\n[2] <ann> hello"
    let t := "[2] <ann> hello\nnoise\n[1] <ann> present+"
    c.linesShowing .recorded s none true = c.linesShowing .recorded t none true ∧
    c.linesShowing .visible s none true = c.linesShowing .visible t none true ∧
    (c.compile .html s none true).document = (c.compile .html t none true).document ∧
    (c.compile .html s none true).record = (c.compile .html t none true).record := by
  intro c s t
  have hr : c.linesShowing .recorded s none true = c.linesShowing .recorded t none true := by
    decide +kernel
  have hv : c.linesShowing .visible s none true = c.linesShowing .visible t none true := by
    decide +kernel
  exact ⟨hr, hv, Compiler.compile_interleaving.2 c .html none true s t hr hv⟩

end Minutes
