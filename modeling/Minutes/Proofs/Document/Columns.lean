import Minutes.Document.Plain
import Minutes.Proofs.Text.Filling

/-!
The columns of plain minutes. Paragraphs are filled with different widths and indentations, but all
of them keep to the columns and the two of an indentation, as far as words can be parted, and each
goes on in rows that are indented.
-/
namespace Minutes.Plain
open Text

/-- The rows of a text, which line feeds part. -/
def rows (s : String) : List (List Char) := s.toList.splitOn '\n'

/-- A row that keeps to the columns and the two of an indentation, or has but one word. -/
def IsNarrow (row : List Char) : Prop :=
  row.length ≤ width + 2 ∨ ∃ indent w, IsWord w ∧ row = List.replicate indent ' ' ++ w

/-- A paragraph, which may have empty rows around it: its rows are narrow, and those on which it
goes on after the first are indented. -/
structure IsParagraph (indent : Nat) (s : String) : Prop where
  narrow : ∀ row ∈ rows s, IsNarrow row
  indented : ∀ row ∈ ((rows s).filter (· ≠ [])).tail, List.replicate indent ' ' <+: row

theorem newline_notMem_of_mem_rows {s : String} {row : List Char} (h : row ∈ rows s) :
    '\n' ∉ row := by
  rw [rows, List.splitOn_eq_splitOnP] at h
  intro hnewline
  have hapart := eq_false_of_mem_splitOnP h '\n' hnewline
  simp at hapart

theorem rows_empty : rows "" = [[]] := List.splitOn_eq_singleton (by simp)

theorem rows_newline (s t : String) : rows (s ++ "\n" ++ t) = rows s ++ rows t := by
  have hchars : (s ++ "\n" ++ t).toList = s.toList ++ '\n' :: t.toList := by simp
  rw [rows, hchars, List.splitOn_append_cons_self]
  rfl

theorem rows_append_newline (s : String) : rows (s ++ "\n") = rows s ++ [[]] := by
  have h := rows_newline s ""
  rwa [String.append_empty, rows_empty] at h

theorem rows_newline_append (s : String) : rows ("\n" ++ s) = [] :: rows s := by
  have h := rows_newline "" s
  rwa [String.empty_append, rows_empty] at h

theorem isNarrow_nil : IsNarrow [] := .inl (Nat.zero_le _)

namespace IsParagraph

variable {indent : Nat} {s : String}

theorem append_newline (h : IsParagraph indent s) : IsParagraph indent (s ++ "\n") where
  narrow := by
    rw [rows_append_newline]
    exact List.forall_mem_append.mpr ⟨h.narrow, by simpa using isNarrow_nil⟩
  indented := by
    rw [rows_append_newline, List.filter_append]
    simpa using h.indented

theorem newline_append (h : IsParagraph indent s) : IsParagraph indent ("\n" ++ s) where
  narrow := by
    rw [rows_newline_append]
    exact List.forall_mem_cons.mpr ⟨isNarrow_nil, h.narrow⟩
  indented := by
    rw [rows_newline_append]
    simpa using h.indented

theorem append_newlines (h : IsParagraph indent s) : IsParagraph indent (s ++ "\n\n") := by
  have htwo : "\n\n" = "\n" ++ "\n" := by decide
  rw [htwo, ← String.append_assoc]
  exact h.append_newline.append_newline

theorem newlines_append (h : IsParagraph indent s) : IsParagraph indent ("\n\n" ++ s) := by
  have htwo : "\n\n" = "\n" ++ "\n" := by decide
  rw [htwo, String.append_assoc]
  exact h.newline_append.newline_append

/-- A paragraph is known by its rows. -/
theorem of_rows {row : List Char} {more : List (List Char)} (hrows : rows s = row :: more)
    (hrow : IsNarrow row)
    (hmore : ∀ r ∈ more, IsNarrow r ∧ List.replicate indent ' ' <+: r) : IsParagraph indent s where
  narrow := by
    rw [hrows]
    exact List.forall_mem_cons.mpr ⟨hrow, fun r hr => (hmore r hr).1⟩
  indented := by
    intro r hr
    rw [hrows, List.filter_cons] at hr
    split_ifs at hr
    · exact (hmore r (List.mem_filter.mp hr).1).2
    · exact (hmore r (List.mem_filter.mp (List.mem_of_mem_tail hr)).1).2

end IsParagraph

/-- Indented lines are the rows of their text. -/
theorem append_intercalate (start indent line : List Char) (lines : List (List Char)) :
    start ++ ('\n' :: indent).intercalate (line :: lines) =
      ['\n'].intercalate ((start ++ line) :: lines.map (indent ++ ·)) := by
  induction lines generalizing start line with
  | nil => simp
  | cons next lines ih =>
    rw [List.intercalate_cons_cons, List.map_cons, List.intercalate_cons_cons, ← ih]
    simp

theorem newline_notMem_joinWords {line : List (List Char)} (h : ∀ w ∈ line, IsWord w) :
    '\n' ∉ joinWords line := by
  rw [joinWords, mem_intercalate_iff (by simp)]
  rintro ⟨w, hw, hnewline⟩
  have hblank := (h w hw).2 '\n' hnewline
  rw [isBlank_newline] at hblank
  cases hblank

/-- A filled text has for its rows what stands before it with the first line, and then the indented
lines. -/
theorem rows_append_wrap_of_fill {start indent : List Char} (lineBreak : String)
    (hbreak : lineBreak.toList = '\n' :: indent) (hstart : '\n' ∉ start) (hindent : '\n' ∉ indent)
    {limit : Nat} {s : String} {line : List (List Char)} {lines : List (List (List Char))}
    (hfill : fill limit (Text.words s.toList) = line :: lines) :
    rows (String.ofList start ++ wrap limit lineBreak s) =
      (start ++ joinWords line) :: lines.map (indent ++ joinWords ·) := by
  have hlines : ∀ l ∈ line :: lines, '\n' ∉ joinWords l := by
    intro l hl
    have hfilled := filled_fill limit (Text.words s.toList)
    exact newline_notMem_joinWords (hfilled.isWord (hfill ▸ hl))
  obtain ⟨hline, hlines⟩ := List.forall_mem_cons.mp hlines
  rw [rows, String.toList_append, String.toList_ofList, toList_wrap, wrapped, hbreak, hfill,
    List.map_cons, append_intercalate, List.splitOn_intercalate _ _ (by simp), List.map_map]
  · rfl
  · simp only [List.forall_mem_cons, List.forall_mem_map, List.mem_append, not_or]
    exact ⟨⟨hstart, hline⟩, fun l hl => ⟨hindent, hlines l hl⟩⟩

/-- The rows of a filled text are lines with what stands before them, of which one that is too wide
is a word. -/
theorem rows_append_wrap {start indent : List Char} (lineBreak : String)
    (hbreak : lineBreak.toList = '\n' :: indent) (hstart : '\n' ∉ start) (hindent : '\n' ∉ indent)
    (limit : Nat) (s : String) :
    ∃ line lines, rows (String.ofList start ++ wrap limit lineBreak s) =
        (start ++ line) :: lines.map (indent ++ ·) ∧
      ∀ l ∈ line :: lines, l.length ≤ limit ∨ IsWord l := by
  have hfilled := filled_fill limit (Text.words s.toList)
  cases hfill : fill limit (Text.words s.toList) with
  | nil =>
    refine ⟨[], [], ?_, by simp⟩
    rw [rows, String.toList_append, String.toList_ofList, toList_wrap, wrapped, hfill]
    simp [List.splitOn_eq_singleton hstart]
  | cons line lines =>
    rw [hfill] at hfilled
    refine ⟨joinWords line, lines.map joinWords, ?_, ?_⟩
    · rw [rows_append_wrap_of_fill lineBreak hbreak hstart hindent hfill, List.map_map]
      rfl
    · rw [← List.map_cons, List.forall_mem_map]
      intro l hl
      refine (hfilled.fits l hl).imp_right ?_
      rintro ⟨w, rfl⟩
      rw [joinWords_singleton]
      exact hfilled.isWord hl w List.mem_cons_self

theorem newline_notMem_spaces (n : Nat) : '\n' ∉ List.replicate n ' ' := fun h => by
  cases List.eq_of_mem_replicate h

theorem isNarrow_append {limit : Nat} (indent : Nat) {line : List Char}
    (hlimit : indent + limit ≤ width + 2) (h : line.length ≤ limit ∨ IsWord line) :
    IsNarrow (List.replicate indent ' ' ++ line) := by
  rcases h with h | h
  · left
    rw [List.length_append, List.length_replicate]
    omega
  · exact .inr ⟨indent, line, h, rfl⟩

/-- A filled text is a paragraph if its width leaves room for what stands before its lines. -/
theorem isParagraph_wrap (start : Nat) {indent limit : Nat} (lineBreak : String)
    (hbreak : lineBreak.toList = '\n' :: List.replicate indent ' ')
    (hstart : start + limit ≤ width + 2) (hindent : indent + limit ≤ width + 2) (s : String) :
    IsParagraph indent (String.ofList (List.replicate start ' ') ++ wrap limit lineBreak s) := by
  obtain ⟨line, lines, hrows, hlines⟩ :=
    rows_append_wrap lineBreak hbreak (newline_notMem_spaces start)
      (newline_notMem_spaces indent) limit s
  obtain ⟨hline, hlines⟩ := List.forall_mem_cons.mp hlines
  refine .of_rows hrows (isNarrow_append start hstart hline) (List.forall_mem_map.mpr fun l hl => ?_)
  exact ⟨isNarrow_append indent hindent (hlines l hl), List.prefix_append _ _⟩

theorem isParagraph_filled (s : String) : IsParagraph 2 (filled s) := by
  have h : IsParagraph 2 (String.ofList (List.replicate 0 ' ') ++ filled s) :=
    isParagraph_wrap 0 indent (by decide) (by decide) (by decide) s
  rwa [List.replicate_zero, String.ofList_nil, String.empty_append] at h

theorem isParagraph_event {e : Event} (h : ∀ id text, e ≠ .topic id text) :
    IsParagraph 2 (event e) := by
  cases e with
  | dropped | recorded => exact .of_rows rows_empty isNarrow_nil (by simp)
  | information text | comment comment => exact (isParagraph_filled _).append_newline
  | topic id text => exact absurd rfl (h id text)
  | action id text => exact (isParagraph_filled _).newlines_append.append_newlines
  | proposal text | resolution id text | useCase text =>
    exact (isParagraph_filled _).newline_append.append_newlines
  | continuation text =>
    exact (isParagraph_wrap 2 indent (by decide) (by decide) (by decide) text).append_newline
  | error text => exact (isParagraph_filled _).newline_append.append_newline

theorem isParagraph_item (text : String) (n : Nat) : IsParagraph 4 (item text n) :=
  (isParagraph_wrap 2 itemIndent (by decide) (by decide) (by decide) _).append_newline

/-- The title of a list and its items, as an outline has them; an empty list is left out. -/
def listParagraphs (title : String) (items : List String) : List String :=
  if items.isEmpty then []
  else (title ++ ":\n") :: (items.zipIdx 1).map fun (text, n) => item text n

/-- What the lists of topics, resolutions and actions are made of. -/
def outlineParagraphs (r : Record) : List String :=
  listParagraphs "Topics" r.topics ++ listParagraphs "Resolutions" r.resolutions ++
    listParagraphs "Action Items" r.actions

theorem numberedList_eq_join (title : String) (items : List String) :
    numberedList title items = String.join (listParagraphs title items) := by
  unfold numberedList listParagraphs
  split_ifs
  · rfl
  · rw [String.join_cons]

theorem outline_eq_join (r : Record) :
    outline r = agendaText r.agenda ++ String.join (outlineParagraphs r) := by
  simp only [outline, outlineParagraphs, numberedList_eq_join, String.join_append,
    String.append_assoc]

theorem title_newline (title : String) : title ++ ":\n" = title ++ ":" ++ "\n" := by
  rw [String.append_assoc]
  rfl

theorem isParagraph_title {title : String} (h : '\n' ∉ title.toList)
    (hlength : title.toList.length ≤ width + 1) (indent : Nat) :
    IsParagraph indent (title ++ ":\n") := by
  have hrow : rows (title ++ ":") = [title.toList ++ [':']] := by
    rw [rows, String.toList_append]
    exact List.splitOn_eq_singleton (by simp [h])
  rw [title_newline]
  refine (IsParagraph.of_rows hrow (.inl ?_) (by simp)).append_newline
  rw [List.length_append, List.length_singleton]
  omega

theorem title_or_item_of_mem_listParagraphs {title p : String} {items : List String}
    (h : p ∈ listParagraphs title items) : p = title ++ ":\n" ∨ ∃ text n, p = item text n := by
  unfold listParagraphs at h
  split_ifs at h
  · cases h
  · rcases List.mem_cons.mp h with rfl | h
    · exact .inl rfl
    · obtain ⟨⟨text, n⟩, -, rfl⟩ := List.mem_map.mp h
      exact .inr ⟨text, n, rfl⟩

theorem title_or_item_of_mem_outlineParagraphs {r : Record} {p : String}
    (h : p ∈ outlineParagraphs r) :
    (∃ title ∈ ["Topics", "Resolutions", "Action Items"], p = title ++ ":\n") ∨
      ∃ text n, p = item text n := by
  simp only [outlineParagraphs, List.mem_append] at h
  rcases h with (h | h) | h <;>
    exact (title_or_item_of_mem_listParagraphs h).imp_left fun htitle => ⟨_, by simp, htitle⟩

theorem isParagraph_of_mem_outlineParagraphs {r : Record} {p : String}
    (h : p ∈ outlineParagraphs r) : IsParagraph 4 p := by
  rcases title_or_item_of_mem_outlineParagraphs h with ⟨title, htitle, rfl⟩ | ⟨text, n, rfl⟩
  · have hshort : ∀ title ∈ ["Topics", "Resolutions", "Action Items"],
        '\n' ∉ title.toList ∧ title.toList.length ≤ width + 1 := by decide
    obtain ⟨hnewline, hlength⟩ := hshort title htitle
    exact isParagraph_title hnewline hlength 4
  · exact isParagraph_item text n

theorem exists_eq_append_newline {r : Record} {p : String} (h : p ∈ outlineParagraphs r) :
    ∃ s, p = s ++ "\n" := by
  rcases title_or_item_of_mem_outlineParagraphs h with ⟨title, -, rfl⟩ | ⟨text, n, rfl⟩
  · exact ⟨title ++ ":", title_newline title⟩
  · exact ⟨_, rfl⟩

/-- Paragraphs that end with their rows have no other rows when they are put together. -/
theorem isNarrow_of_mem_rows_join {ps : List String} (hend : ∀ p ∈ ps, ∃ s, p = s ++ "\n")
    (hnarrow : ∀ p ∈ ps, ∀ row ∈ rows p, IsNarrow row) :
    ∀ row ∈ rows (String.join ps), IsNarrow row := by
  induction ps with
  | nil => simpa [rows_empty] using isNarrow_nil
  | cons p ps ih =>
    obtain ⟨⟨s, rfl⟩, hends⟩ := List.forall_mem_cons.mp hend
    obtain ⟨hs, hps⟩ := List.forall_mem_cons.mp hnarrow
    rw [rows_append_newline, List.forall_mem_append] at hs
    rw [String.join_cons, rows_newline, List.forall_mem_append]
    exact ⟨hs.1, ih hends hps⟩

/-- The entry of those present in a summary. -/
def presentEntry (r : Record) : String :=
  "Present:\n  " ++ filled (", ".intercalate (r.present ++ r.totalPresent.toList)) ++ "\n"

theorem exists_summary_eq (today : Date) (baseUrl : String) (r : Record) :
    ∃ before, summary today baseUrl r =
      before ++ "\n" ++ presentEntry r ++ audioText baseUrl (r.dateOr today) r.audio := by
  refine ⟨r.group ++ " Minutes for " ++ (r.dateOr today).iso ++ "\n\n" ++ outline r ++
    "Organizer:\n  " ++ " and ".intercalate r.chairs ++ "\n" ++
    "Scribe:\n  " ++ " and ".intercalate r.scribes, ?_⟩
  simp only [summary, presentEntry, String.append_assoc]

theorem isParagraph_presentEntry (r : Record) : IsParagraph 2 (presentEntry r) := by
  have hspaces : '\n' ∉ [' ', ' '] := by decide
  obtain ⟨line, lines, hrows, hlines⟩ := rows_append_wrap indent (by decide)
    hspaces hspaces width (", ".intercalate (r.present ++ r.totalPresent.toList))
  have hentry : rows ("Present:" ++ "\n" ++ (String.ofList [' ', ' '] ++
      filled (", ".intercalate (r.present ++ r.totalPresent.toList)))) =
      "Present:".toList :: (line :: lines).map ([' ', ' '] ++ ·) := by
    rw [rows_newline, filled, hrows]
    rfl
  refine (IsParagraph.of_rows hentry (.inl (by decide))
    (List.forall_mem_map.mpr fun l hl => ?_)).append_newline
  exact ⟨isNarrow_append 2 (by decide) (hlines l hl), List.prefix_append _ _⟩

/-- Plain minutes keep to their columns. But for the titles of topics, every row of an event, of the
lists of an outline and of the entry of those present is narrow; paragraphs go on with two spaces,
and items with four. -/
theorem columns_kept :
    (∀ e : Event, (∀ id text, e ≠ .topic id text) → IsParagraph 2 (event e)) ∧
    (∀ r : Record, outline r = agendaText r.agenda ++ String.join (outlineParagraphs r) ∧
      (∀ p ∈ outlineParagraphs r, IsParagraph 4 p) ∧
      ∀ row ∈ rows (String.join (outlineParagraphs r)), IsNarrow row) ∧
    ∀ (today : Date) (baseUrl : String) (r : Record),
      (∃ before, summary today baseUrl r =
        before ++ "\n" ++ presentEntry r ++ audioText baseUrl (r.dateOr today) r.audio) ∧
      IsParagraph 2 (presentEntry r) := by
  refine ⟨fun e h => isParagraph_event h, fun r => ⟨outline_eq_join r, ?_, ?_⟩,
    fun today baseUrl r => ⟨exists_summary_eq today baseUrl r, isParagraph_presentEntry r⟩⟩
  · exact fun p hp => isParagraph_of_mem_outlineParagraphs hp
  · exact isNarrow_of_mem_rows_join (fun p hp => exists_eq_append_newline hp)
      fun p hp => (isParagraph_of_mem_outlineParagraphs hp).narrow

/-- A long remark and a long topic go on with their indentations, and a word that is too wide has a
row to itself. -/
theorem columns_kept_long :
    let remark : Event := .comment
      { id := 1, speaker := "Dave Longley"
        text := "See https://example.org/minutes/2013-02-05/lists-of-lists/algorithm.html#a too" }
    let r : Record :=
      { group := "Meeting", chairs := [], date := none, audio := false
        topics := ["Lists of lists, and whether the algorithm that turns them to triples is done"] }
    (rows (event remark)).map String.ofList =
      ["Dave Longley: See",
       "  https://example.org/minutes/2013-02-05/lists-of-lists/algorithm.html#a", "  too", ""] ∧
    IsParagraph 2 (event remark) ∧
    (outlineParagraphs r).flatMap (fun p => (rows p).map String.ofList) =
      ["Topics:", "", "  1. Lists of lists, and whether the algorithm that turns them to",
       "    triples is done", ""] ∧
    (∀ p ∈ outlineParagraphs r, IsParagraph 4 p) ∧
    ∀ row ∈ rows (String.join (outlineParagraphs r)), IsNarrow row := by
  intro remark r
  obtain ⟨hevent, hrecord, -⟩ := columns_kept
  obtain ⟨-, hitems, hrows⟩ := hrecord r
  exact ⟨by decide +kernel, hevent remark (by simp [remark]), by decide +kernel, hitems, hrows⟩

end Minutes.Plain
