import Mathlib.Data.List.SplitBy
import Minutes.Proofs.Document.Columns
import Minutes.Proofs.Transcript.Agenda

/-!
The outline of plain minutes can be read back. A row that is not indented is a title, one with two
spaces begins an item, and one with four goes on with it, whatever the items say; so the outlines
of two meetings are the same only if they say the same.
-/
namespace Minutes
open Text

/-- A record to which the lines of some transcript lead. -/
def Record.IsHeard (r : Record) : Prop :=
  ∃ aliases group chairs date audio lines,
    r = (Hearing.run aliases { group, chairs, date, audio } lines).record

theorem Record.IsHeard.newline_notMem_agenda {r : Record} (h : r.IsHeard) :
    ∀ url ∈ r.agenda, '\n' ∉ url.toList := by
  obtain ⟨aliases, group, chairs, date, audio, lines, rfl⟩ := h
  exact Hearing.agenda_run (fun _ _ hread => Statement.newline_notMem_of_read hread) (by simp) lines

namespace Text

theorem flatMap_words_splitOn_newline (s : List Char) :
    (s.splitOn '\n').flatMap words = words s := by
  have h := words_intercalate (List.cons_ne_nil '\n' []) (by simp) (s.splitOn '\n')
  rw [List.intercalate_splitOn] at h
  exact h.symm

/-- A line begins with its first word. -/
theorem prefix_joinWords (w : List Char) (line : List (List Char)) :
    w <+: joinWords (w :: line) := by
  cases line with
  | nil => simp
  | cons v line =>
    rw [joinWords, List.intercalate_cons_cons, List.append_assoc]
    exact List.prefix_append _ _

theorem isWord_number (n : Nat) : IsWord ((toString n).toList ++ ['.']) := by
  refine ⟨by simp, fun c hc => ?_⟩
  rcases List.mem_append.mp hc with hc | hc
  · have hdigit : c.isDigit = true := Nat.isDigit_of_mem_toDigits (b := 10) (by decide) (by decide)
      (by simpa using hc)
    exact isBlank_of_isAsciiWordChar (by simp [isAsciiWordChar, Char.isAlphanum, hdigit])
  · obtain rfl := List.mem_singleton.mp hc
    decide

/-- The number of an item is a word before those of its text. -/
theorem words_numbered (n : Nat) (text : String) :
    words (toString n ++ ". " ++ text).toList =
      ((toString n).toList ++ ['.']) :: words text.toList := by
  have hshape : (toString n ++ ". " ++ text).toList =
      ((toString n).toList ++ ['.']) ++ ' ' :: text.toList := by simp
  rw [hshape, words_append_cons isBlank_space, words_of_isWord (isWord_number n)]
  rfl

end Text

namespace Plain

/-- Whether a row is under a title. -/
def isIndented (row : List Char) : Bool := row.head? == some ' '

def titleRow (title : String) : List Char := title.toList ++ [':']

/-- The rows of an entry; a title with nothing under it is left out. -/
def entryRows (e : String × List (List Char)) : List (List Char) :=
  if e.2 = [] then [] else titleRow e.1 :: e.2

/-- The rows under a title, as far as they are indented. -/
def rowsUnder (title : String) (rows : List (List Char)) : List (List Char) :=
  (rows.dropWhile (· != titleRow title)).tail.takeWhile isIndented

/-- Only what is under a title is indented. -/
def IsEntry (e : String × List (List Char)) : Prop :=
  isIndented (titleRow e.1) = false ∧ ∀ row ∈ e.2, isIndented row = true

theorem titleRow_injective : Function.Injective titleRow := fun _ _ h =>
  String.toList_injective (List.append_cancel_right h)

theorem takeWhile_isIndented_entries {entries : List (String × List (List Char))}
    (h : ∀ e ∈ entries, IsEntry e) :
    (entries.flatMap entryRows ++ [[]]).takeWhile isIndented = [] := by
  induction entries with
  | nil => rfl
  | cons e entries ih =>
    obtain ⟨he, hentries⟩ := List.forall_mem_cons.mp h
    rw [List.flatMap_cons, List.append_assoc, entryRows]
    split_ifs
    · exact ih hentries
    · rw [List.cons_append, List.takeWhile_cons_of_neg (by simp [he.1])]

section Entries

variable {title : String} {e : String × List (List Char)}
  {entries : List (String × List (List Char))}

theorem rowsUnder_own (he : IsEntry e) (hne : e.2 ≠ []) (rest : List (List Char)) :
    rowsUnder e.1 (entryRows e ++ rest) = e.2 ++ rest.takeWhile isIndented := by
  rw [entryRows, if_neg hne, rowsUnder, List.cons_append, List.dropWhile_cons_of_neg (by simp),
    List.tail_cons, List.takeWhile_append_of_pos he.2]

/-- The search for a title passes over other entries. -/
theorem rowsUnder_other (he : IsEntry e) (htitle : isIndented (titleRow title) = false)
    (hne : e.1 ≠ title) (rest : List (List Char)) :
    rowsUnder title (entryRows e ++ rest) = rowsUnder title rest := by
  -- the title is no other title, and not indented as what is under those
  have hskip : ∀ row ∈ entryRows e, (row != titleRow title) = true := by
    intro row hrow
    rw [entryRows] at hrow
    rw [bne_iff_ne]
    split_ifs at hrow
    · cases hrow
    · rcases List.mem_cons.mp hrow with rfl | hrow
      · exact titleRow_injective.ne hne
      · rintro rfl
        rw [he.2 _ hrow] at htitle
        cases htitle
  rw [rowsUnder, List.dropWhile_append_of_pos hskip, rowsUnder]

theorem rowsUnder_of_notMem (h : ∀ e ∈ entries, IsEntry e)
    (htitle : isIndented (titleRow title) = false) (hnew : title ∉ entries.map (·.1)) :
    rowsUnder title (entries.flatMap entryRows ++ [[]]) = [] := by
  induction entries with
  | nil =>
    have hrow : ([[]] : List (List Char)).tail = [] := rfl
    rw [List.flatMap_nil, List.nil_append, rowsUnder]
    cases hend : ([] : List Char) != titleRow title <;> simp [hend]
  | cons e entries ih =>
    obtain ⟨he, hentries⟩ := List.forall_mem_cons.mp h
    rw [List.map_cons, List.mem_cons, not_or] at hnew
    rw [List.flatMap_cons, List.append_assoc, rowsUnder_other he htitle (Ne.symm hnew.1)]
    exact ih hentries hnew.2

/-- What is under a title is found, whatever entries there are before it and after it. -/
theorem rowsUnder_of_mem (h : ∀ e ∈ entries, IsEntry e) (hnodup : (entries.map (·.1)).Nodup)
    (hmem : e ∈ entries) : rowsUnder e.1 (entries.flatMap entryRows ++ [[]]) = e.2 := by
  induction entries with
  | nil => cases hmem
  | cons e' entries ih =>
    obtain ⟨he', hentries⟩ := List.forall_mem_cons.mp h
    obtain ⟨hnew, hnodup⟩ := List.nodup_cons.mp hnodup
    have he := h e hmem
    rw [List.flatMap_cons, List.append_assoc]
    rcases List.mem_cons.mp hmem with rfl | hmem
    -- an empty entry is left out, and then its title is nowhere, as no other entry has it
    · by_cases hempty : e.2 = []
      · rw [entryRows, if_pos hempty, List.nil_append, hempty]
        exact rowsUnder_of_notMem hentries he.1 hnew
      · rw [rowsUnder_own he hempty, takeWhile_isIndented_entries hentries, List.append_nil]
    · have hne : e.1 ≠ e'.1 := ne_of_mem_of_not_mem (List.mem_map_of_mem hmem) hnew
      rw [rowsUnder_other he' he.1 hne.symm]
      exact ih hentries hnodup hmem

end Entries

/-- Whether a row goes on with the item of the row before it. -/
def goesOn (row : List Char) : Bool := (List.replicate 4 ' ').isPrefixOf row

def itemRows (text : String) (n : Nat) : List (List Char) :=
  rows ("  " ++ wrap (width - 2) itemIndent (toString n ++ ". " ++ text))

/-- The rows of items that are numbered from `first` on. -/
def listRows (first : Nat) (items : List String) : List (List Char) :=
  (items.zipIdx first).flatMap fun p => itemRows p.1 p.2

theorem listRows_cons (first : Nat) (text : String) (items : List String) :
    listRows first (text :: items) = itemRows text first ++ listRows (first + 1) items := rfl

/-- The words of the items that some rows hold, without their numbers. -/
def itemWords (rows : List (List Char)) : List (List String) :=
  (rows.splitBy fun _ row => goesOn row).map fun item =>
    (item.flatMap Text.words).tail.map String.ofList

/-- The rows of an item hold its number and its words, wherever the lines are broken. -/
theorem flatMap_words_itemRows (text : String) (n : Nat) :
    (itemRows text n).flatMap Text.words =
      ((toString n).toList ++ ['.']) :: Text.words text.toList := by
  rw [itemRows, rows, flatMap_words_splitOn_newline, String.toList_append,
    words_blanks_append (by simp), toList_wrap, words_wrapped _ (by decide) (by simp [itemIndent]),
    words_numbered]

theorem goesOn_line {line : List (List Char)} (hne : line ≠ []) (h : ∀ w ∈ line, IsWord w) :
    goesOn (List.replicate 2 ' ' ++ joinWords line) = false := by
  obtain ⟨w, line, rfl⟩ := List.exists_cons_of_ne_nil hne
  obtain ⟨hw, hblank⟩ := h w List.mem_cons_self
  obtain ⟨c, w, rfl⟩ := List.exists_cons_of_ne_nil hw
  obtain ⟨more, hline⟩ := prefix_joinWords (c :: w) line
  have hc : ' ' ≠ c := by
    rintro rfl
    simpa using hblank ' ' List.mem_cons_self
  rw [← hline]
  simp [goesOn, List.replicate_succ, List.isPrefixOf, hc]

/-- An item has lines of words, the first after two spaces and the others after four. -/
theorem exists_itemRows_eq (text : String) (n : Nat) : ∃ line lines,
    itemRows text n = (List.replicate 2 ' ' ++ joinWords line) ::
      lines.map (List.replicate 4 ' ' ++ joinWords ·) ∧
    ∀ l ∈ line :: lines, l ≠ [] ∧ ∀ w ∈ l, IsWord w := by
  let numbered := toString n ++ ". " ++ text
  have hfilled := filled_fill (width - 2) (Text.words numbered.toList)
  have hwords := hfilled.words
  cases hfill : fill (width - 2) (Text.words numbered.toList) with
  | nil =>
    rw [hfill, words_numbered] at hwords
    cases hwords
  | cons line lines =>
    rw [hfill] at hfilled
    refine ⟨line, lines, ?_, fun l hl => ⟨hfilled.nonempty l hl, hfilled.isWord hl⟩⟩
    exact rows_append_wrap_of_fill itemIndent (by decide) (newline_notMem_spaces 2)
      (newline_notMem_spaces 4) hfill

/-- An item begins with two spaces and a word, and goes on with four spaces. -/
theorem exists_itemRows (text : String) (n : Nat) : ∃ first more,
    itemRows text n = first :: more ∧ isIndented first = true ∧ goesOn first = false ∧
      ∀ row ∈ more, isIndented row = true ∧ goesOn row = true := by
  obtain ⟨line, lines, hrows, hlines⟩ := exists_itemRows_eq text n
  obtain ⟨hne, hwords⟩ := hlines line List.mem_cons_self
  refine ⟨_, _, hrows, rfl, goesOn_line hne hwords, List.forall_mem_map.mpr fun l hl => ⟨rfl, ?_⟩⟩
  exact List.isPrefixOf_iff_prefix.mpr (List.prefix_append _ _)

/-- A row that begins an item does not go on with the one before. -/
theorem goesOn_head?_listRows (first : Nat) (items : List String) :
    ∀ row ∈ (listRows first items).head?, goesOn row = false := by
  intro row hrow
  cases items with
  | nil => cases hrow
  | cons text items =>
    obtain ⟨begin, more, hitem, -, hbegin, -⟩ := exists_itemRows text first
    rw [listRows_cons, hitem] at hrow
    obtain rfl := Option.some.inj hrow
    exact hbegin

theorem itemWords_itemRows (text : String) (n : Nat) :
    itemWords (itemRows text n) = [words text] := by
  obtain ⟨begin, more, hitem, -, -, hmore⟩ := exists_itemRows text n
  -- only the first row does not go on, and it has none before it
  have hchain : (itemRows text n).IsChain fun _ row => goesOn row := by
    rw [hitem]
    clear hitem
    induction more generalizing begin with
    | nil => exact List.isChain_singleton _
    | cons row more ih =>
      obtain ⟨hrow, hmore⟩ := List.forall_mem_cons.mp hmore
      exact List.isChain_cons_cons.mpr ⟨hrow.2, ih row hmore⟩
  rw [itemWords, List.splitBy_of_isChain (by simp [hitem]) hchain, List.map_singleton,
    flatMap_words_itemRows, List.tail_cons]
  rfl

/-- The words of each item are read, whatever its number. -/
theorem itemWords_listRows (first : Nat) (items : List String) :
    itemWords (listRows first items) = items.map words := by
  induction items generalizing first with
  | nil => rfl
  | cons text items ih =>
    have hnext := goesOn_head?_listRows (first + 1) items
    have hsplit : itemWords (listRows first (text :: items)) =
        itemWords (itemRows text first) ++ itemWords (listRows (first + 1) items) := by
      rw [itemWords, listRows_cons, List.splitBy_append fun _ _ row hrow => hnext row hrow,
        List.map_append]
      rfl
    rw [hsplit, itemWords_itemRows, ih, List.map_cons, List.singleton_append]

theorem isIndented_of_mem_listRows {first : Nat} {items : List String} {row : List Char}
    (h : row ∈ listRows first items) : isIndented row = true := by
  obtain ⟨⟨text, n⟩, -, hrow⟩ := List.mem_flatMap.mp h
  obtain ⟨begin, more, hitem, hbegin, -, hmore⟩ := exists_itemRows text n
  change row ∈ itemRows text n at hrow
  rw [hitem] at hrow
  rcases List.mem_cons.mp hrow with rfl | hrow
  · exact hbegin
  · exact (hmore row hrow).1

/-- The row under the title of the agenda. -/
def agendaRows (agenda : Option String) : List (List Char) :=
  agenda.toList.map fun url => List.replicate 2 ' ' ++ url.toList

def agendaIn (rows : List (List Char)) : Option String :=
  rows.head?.map fun row => String.ofList (row.drop 2)

theorem agendaIn_agendaRows (agenda : Option String) : agendaIn (agendaRows agenda) = agenda := by
  cases agenda <;> simp [agendaIn, agendaRows]

def titles : List String := ["Agenda", "Topics", "Resolutions", "Action Items"]

def entries (r : Record) : List (String × List (List Char)) :=
  [("Agenda", agendaRows r.agenda), ("Topics", listRows 1 r.topics),
    ("Resolutions", listRows 1 r.resolutions), ("Action Items", listRows 1 r.actions)]

theorem isIndented_titleRow : ∀ title ∈ titles, isIndented (titleRow title) = false := by decide

theorem map_fst_entries (r : Record) : (entries r).map (·.1) = titles := rfl

theorem isEntry_of_mem_entries {r : Record} : ∀ e ∈ entries r, IsEntry e := by
  intro e he
  have htitle : e.1 ∈ titles := by
    rw [← map_fst_entries r]
    exact List.mem_map_of_mem he
  refine ⟨isIndented_titleRow e.1 htitle, ?_⟩
  simp only [entries, List.mem_cons, List.not_mem_nil, or_false] at he
  rcases he with rfl | rfl | rfl | rfl
  · exact List.forall_mem_map.mpr fun _ _ => rfl
  all_goals exact fun row => isIndented_of_mem_listRows

theorem rows_agendaText_append {agenda : Option String} (h : ∀ url ∈ agenda, '\n' ∉ url.toList)
    (s : String) : rows (agendaText agenda ++ s) =
      entryRows ("Agenda", agendaRows agenda) ++ rows s := by
  cases agenda with
  | none => simp [agendaText, entryRows, agendaRows]
  | some url =>
    have hurl : rows ("  " ++ url) = [List.replicate 2 ' ' ++ url.toList] := by
      rw [rows, String.toList_append]
      exact List.splitOn_eq_singleton (by simpa using h url rfl)
    have htitle : rows "Agenda:" = [titleRow "Agenda"] := by decide
    have hshape : agendaText (some url) ++ s =
        "Agenda:" ++ "\n" ++ ("  " ++ url) ++ "\n" ++ s := by
      simp [agendaText, ← String.append_assoc]
    rw [hshape, rows_newline, rows_newline, htitle, hurl]
    rfl

theorem rows_join_items (first : Nat) (items : List String) (s : String) :
    rows (String.join ((items.zipIdx first).map fun (text, n) => item text n) ++ s) =
      listRows first items ++ rows s := by
  induction items generalizing first with
  | nil => simp [listRows]
  | cons text items ih =>
    rw [List.zipIdx_cons, List.map_cons, String.join_cons, String.append_assoc]
    change rows (item text first ++ _) = _
    rw [item, rows_newline, ih, listRows_cons, List.append_assoc]
    rfl

theorem rows_numberedList_append {title : String} (h : '\n' ∉ title.toList) (items : List String)
    (s : String) : rows (numberedList title items ++ s) =
      entryRows (title, listRows 1 items) ++ rows s := by
  cases items with
  | nil => simp [numberedList, entryRows, listRows]
  | cons text items =>
    obtain ⟨begin, more, hitem, -⟩ := exists_itemRows text 1
    have hne : listRows 1 (text :: items) ≠ [] := by
      simp [listRows_cons, hitem]
    have htitle : rows (title ++ ":") = [titleRow title] := by
      rw [rows, String.toList_append]
      exact List.splitOn_eq_singleton (by simp [h])
    rw [numberedList, if_neg (by simp), entryRows, if_neg hne, title_newline, String.append_assoc,
      rows_newline, htitle, rows_join_items, List.singleton_append, List.cons_append]

theorem rows_outline {r : Record} (h : ∀ url ∈ r.agenda, '\n' ∉ url.toList) :
    rows (outline r) = (entries r).flatMap entryRows ++ [[]] := by
  have houtline : outline r = agendaText r.agenda ++ (numberedList "Topics" r.topics ++
      (numberedList "Resolutions" r.resolutions ++
        (numberedList "Action Items" r.actions ++ ""))) := by
    simp [outline, String.append_assoc]
  rw [houtline, rows_agendaText_append h, rows_numberedList_append (by decide),
    rows_numberedList_append (by decide), rows_numberedList_append (by decide), rows_empty]
  simp [entries]

/-- What an outline says: the agenda, and the words of the items of each list. -/
structure Outline where
  agenda : Option String
  topics : List (List String)
  resolutions : List (List String)
  actions : List (List String)

def readOutline (s : String) : Outline where
  agenda := agendaIn (rowsUnder "Agenda" (rows s))
  topics := itemWords (rowsUnder "Topics" (rows s))
  resolutions := itemWords (rowsUnder "Resolutions" (rows s))
  actions := itemWords (rowsUnder "Action Items" (rows s))

/-- An outline is read back, whatever the texts of its items. -/
theorem readOutline_outline {r : Record} (h : ∀ url ∈ r.agenda, '\n' ∉ url.toList) :
    readOutline (outline r) = ⟨r.agenda, r.topics.map words, r.resolutions.map words,
      r.actions.map words⟩ := by
  have hunder : ∀ e ∈ entries r, rowsUnder e.1 (rows (outline r)) = e.2 := by
    intro e he
    rw [rows_outline h]
    exact rowsUnder_of_mem isEntry_of_mem_entries (by rw [map_fst_entries]; decide) he
  simp only [entries, List.forall_mem_cons] at hunder
  obtain ⟨hagenda, htopics, hresolutions, hactions, -⟩ := hunder
  rw [readOutline, hagenda, htopics, hresolutions, hactions, agendaIn_agendaRows,
    itemWords_listRows, itemWords_listRows, itemWords_listRows]

theorem item_congr {text text' : String} (h : words text = words text') (n : Nat) :
    item text n = item text' n := by
  have hwords : Text.words text.toList = Text.words text'.toList :=
    List.map_injective_iff.mpr (fun _ _ => String.ofList_injective) h
  have hnumbered : Text.words (toString n ++ ". " ++ text).toList =
      Text.words (toString n ++ ". " ++ text').toList := by
    rw [words_numbered, words_numbered, hwords]
  rw [item, item, wrap, wrap, wrapped_congr hnumbered]

theorem items_congr {items items' : List String} (h : items.map words = items'.map words)
    (first : Nat) :
    ((items.zipIdx first).map fun (text, n) => item text n) =
      (items'.zipIdx first).map fun (text, n) => item text n := by
  induction items generalizing items' first with
  | nil =>
    obtain rfl := List.map_eq_nil_iff.mp h.symm
    rfl
  | cons text items ih =>
    obtain ⟨text', items', rfl, htext, hitems⟩ := List.map_eq_cons_iff.mp h.symm
    rw [List.zipIdx_cons, List.zipIdx_cons, List.map_cons, List.map_cons, ih hitems.symm]
    exact congrArg (· :: _) (item_congr htext.symm first)

theorem numberedList_congr {items items' : List String} (h : items.map words = items'.map words)
    (title : String) : numberedList title items = numberedList title items' := by
  have hempty : items.isEmpty = items'.isEmpty := by
    rw [← List.isEmpty_map (f := words), h, List.isEmpty_map]
  rw [numberedList, numberedList, hempty, items_congr h]

/-- The outlines of two meetings are the same just if their agendas are, and their lists of topics,
resolutions and actions have as many items with the same words in each. -/
theorem outline_unambiguous {r r' : Record} (hr : r.IsHeard) (hr' : r'.IsHeard) :
    outline r = outline r' ↔ r.agenda = r'.agenda ∧ r.topics.map words = r'.topics.map words ∧
      r.resolutions.map words = r'.resolutions.map words ∧
      r.actions.map words = r'.actions.map words := by
  constructor
  · intro h
    have hread := congrArg readOutline h
    rw [readOutline_outline hr.newline_notMem_agenda,
      readOutline_outline hr'.newline_notMem_agenda] at hread
    simpa using hread
  · rintro ⟨hagenda, htopics, hresolutions, hactions⟩
    rw [outline, outline, hagenda, numberedList_congr htopics, numberedList_congr hresolutions,
      numberedList_congr hactions]

/-- A topic that looks like a title is still a topic, and white space in one makes no difference. -/
theorem outline_unambiguous_white_space :
    let heard (lines : List String) : Record :=
      (Hearing.run (.ofRoster []) { group := "Meeting", chairs := [], date := none, audio := false }
        (lines.map String.toList)).record
    let r := heard ["[1] <ann> Agenda: http://a.org/b", "[2] <ann> Topic: Actions  and   votes",
      "[3] <ann> Topic: Action Items:"]
    let r' := heard ["[1] <ann> Topic: Actions and votes", "[2] <bob> agenda: http://a.org/b ",
      "[3] <bob> topic: Action  Items:"]
    r.IsHeard ∧ r'.IsHeard ∧ r.topics ≠ r'.topics ∧
    outline r = "Agenda:\n  http://a.org/b\nTopics:\n  1. Actions and votes\n  2. Action Items:\n" ∧
    outline r' = outline r ∧ r'.agenda = r.agenda ∧ r'.topics.map words = r.topics.map words := by
  intro heard r r'
  have hr : r.IsHeard := ⟨_, _, _, _, _, _, rfl⟩
  have hr' : r'.IsHeard := ⟨_, _, _, _, _, _, rfl⟩
  have houtline : outline r =
      "Agenda:\n  http://a.org/b\nTopics:\n  1. Actions and votes\n  2. Action Items:\n" := by
    decide +kernel
  have hsame : outline r' = outline r := by
    rw [houtline]
    decide +kernel
  obtain ⟨hagenda, htopics, -⟩ := (outline_unambiguous hr' hr).mp hsame
  exact ⟨hr, hr', by decide +kernel, houtline, hsame, hagenda, htopics⟩

end Plain
end Minutes
