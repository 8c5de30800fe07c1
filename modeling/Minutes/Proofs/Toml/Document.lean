import Minutes.Proofs.Toml.Strings
import Minutes.Toml.Document

/-!
Sections come back as they were written: the document has a table for each of them, and the table a
text for each entry, in their order.
-/
namespace Minutes.Toml

/-- A name that needs no quotation marks as a key. -/
def IsBare (name : String) : Prop := name.toList ≠ [] ∧ name.toList.all isKeyChar = true

instance (name : String) : Decidable (IsBare name) := inferInstanceAs (Decidable (_ ∧ _))

/-- An entry as a document has it. -/
def textItem (entry : String × String) : String × Item := (entry.1, .value (.string entry.2))

namespace Section

/-- The table that a section is read as. -/
def table (s : Section) : Table := .mk .header (s.entries.map textItem)

/-- All names of a section can be written, and none of its keys is given twice. -/
structure WellNamed (s : Section) : Prop where
  name : IsBare s.name
  keys : ∀ e ∈ s.entries, IsBare e.1
  distinct : (s.entries.map (·.1)).Nodup

end Section

namespace Table
variable {origin : Origin} {entries : List (String × Item)} {key : String}

theorem get?_eq_none (h : key ∉ entries.map (·.1)) : (mk origin entries).get? key = none := by
  refine List.lookup_eq_none_iff.mpr fun e he => ?_
  simp only [bne_iff_ne, ne_eq]
  rintro rfl
  exact h (List.mem_map_of_mem he)

theorem get?_last (h : key ∉ entries.map (·.1)) (item : Item) :
    (mk origin (entries ++ [(key, item)])).get? key = some item := by
  have hnone : (mk origin entries).get? key = none := get?_eq_none h
  show (entries ++ [(key, item)]).lookup key = some item
  rw [List.lookup_append, show entries.lookup key = none from hnone, List.lookup_cons_self]
  rfl

/-- A new entry is put at the end. -/
theorem set_new (h : key ∉ entries.map (·.1)) (item : Item) :
    (mk origin entries).set key item = mk origin (entries ++ [(key, item)]) := by
  rw [set, get?_eq_none h]
  rfl

theorem set_last (h : key ∉ entries.map (·.1)) (item item' : Item) :
    (mk origin (entries ++ [(key, item)])).set key item' =
      mk origin (entries ++ [(key, item')]) := by
  have hkept : (entries.map fun e => if e.1 = key then (key, item') else e) = entries := by
    conv_rhs => rw [← List.map_id entries]
    refine List.map_congr_left fun e he => if_neg ?_
    rintro rfl
    exact h (List.mem_map_of_mem he)
  rw [set, get?_last h]
  simp [Table.entries, Table.origin, hkept]

end Table

theorem ne_of_isKeyChar {c d : Char} (hc : isKeyChar c = true) (hd : isKeyChar d = false) :
    c ≠ d := by
  rintro rfl
  rw [hc] at hd
  cases hd

theorem skipSpace_of_isKeyChar {c : Char} (h : isKeyChar c = true) (s : List Char) :
    skipSpace (c :: s) = c :: s := by
  have hspace := ne_of_isKeyChar h (d := ' ') (by decide)
  have htab := ne_of_isKeyChar h (d := '\t') (by decide)
  exact List.dropWhile_cons_of_neg (by simp [isSpace, hspace, htab])

section
variable {name : String} {c : Char} {s : List Char}

/-- A bare name starts with a character of its own. -/
theorem IsBare.exists_cons (h : IsBare name) :
    ∃ d t, name.toList = d :: t ∧ isKeyChar d = true := by
  obtain ⟨d, t, hname⟩ := List.exists_cons_of_ne_nil h.1
  refine ⟨d, t, hname, List.all_eq_true.mp h.2 d ?_⟩
  rw [hname]
  exact List.mem_cons_self

/-- A bare name is read up to the first character that cannot belong to it. -/
theorem keyPart?_bare (h : IsBare name) (hc : isKeyChar c = false) :
    keyPart? (name.toList ++ c :: s) = some (name, c :: s) := by
  obtain ⟨d, t, hname, hd⟩ := h.exists_cons
  have hall := List.all_eq_true.mp h.2
  have htake : (name.toList ++ c :: s).takeWhile isKeyChar = name.toList := by
    rw [List.takeWhile_append_of_pos hall, List.takeWhile_cons_of_neg (by simp [hc]),
      List.append_nil]
  have hdrop : (name.toList ++ c :: s).dropWhile isKeyChar = c :: s := by
    rw [List.dropWhile_append_of_pos hall, List.dropWhile_cons_of_neg (by simp [hc])]
  unfold keyPart?
  split
  · rename_i heq
    rw [hname] at heq
    exact absurd (List.cons.inj heq).1 (ne_of_isKeyChar hd (by decide))
  · rename_i heq
    rw [hname] at heq
    exact absurd (List.cons.inj heq).1 (ne_of_isKeyChar hd (by decide))
  · rw [htake, hdrop, List.isEmpty_eq_false_iff.mpr h.1, String.ofList_toList]
    rfl

/-- A key of one bare name. -/
theorem key?_bare (h : IsBare name) (hc : isKeyChar c = false)
    (hpoint : (skipSpace (c :: s)).head? ≠ some '.') :
    key? (name.toList ++ c :: s) = some ([], name, skipSpace (c :: s)) := by
  obtain ⟨d, t, hname, hd⟩ := h.exists_cons
  have hskip : skipSpace (name.toList ++ c :: s) = name.toList ++ c :: s := by
    rw [hname]
    exact skipSpace_of_isKeyChar hd _
  have hwithin : keyWithin? nestingLimit (name.toList ++ c :: s) =
      some ([name], skipSpace (c :: s)) := by
    rw [nestingLimit, keyWithin?, hskip, keyPart?_bare h hc]
    simp only [bind, Option.bind]
    split
    · rename_i heq
      rw [heq] at hpoint
      exact absurd rfl hpoint
    · rfl
  rw [key?, hwithin]
  rfl

end

theorem afterLine?_newline (s : List Char) : afterLine? ('\n' :: s) = some s := by
  simp [afterLine?, skipSpace, isSpace, afterNewline?]

/-- A value in marks is a string. -/
theorem value?_stringChars (text : String) (rest : List Char) :
    value? (stringChars text.toList ++ '\n' :: rest) = some (.string text, '\n' :: rest) := by
  have hread := string?_stringChars text.toList rest
  obtain ⟨mark, s, hs, hmark⟩ := stringChars_mark text.toList
  rw [hs, List.cons_append] at hread ⊢
  unfold value? valueWithin?
  simp only [if_pos hmark, hread, Option.map_some, String.ofList_toList]

/-- White space before a string is skipped up to its mark. -/
theorem skipSpace_stringChars (text rest : List Char) :
    skipSpace (' ' :: (stringChars text ++ rest)) = stringChars text ++ rest := by
  obtain ⟨mark, s, hs, rfl | rfl⟩ := stringChars_mark text
  · rw [hs]
    rfl
  · rw [hs]
    rfl

namespace Draft

theorem statement?_header (d : Draft) {name : String} (h : IsBare name) (rest : List Char) :
    d.statement? ('[' :: name.toList ++ "]\n".toList ++ rest) =
      (d.openTable false [] name).map (·, rest) := by
  obtain ⟨c, t, hname, hc⟩ := h.exists_cons
  have htext : '[' :: name.toList ++ "]\n".toList ++ rest =
      '[' :: (name.toList ++ ']' :: '\n' :: rest) := by simp
  have hkey : key? (name.toList ++ ']' :: '\n' :: rest) = some ([], name, ']' :: '\n' :: rest) :=
    key?_bare h (by decide) nofun
  have helement : ((name.toList ++ ']' :: '\n' :: rest).head? == some '[') = false := by
    rw [hname]
    simpa using ne_of_isKeyChar hc (by decide)
  rw [htext]
  show d.header? _ = _
  simp only [header?, helement, Bool.false_eq_true, if_false, hkey, afterChar?, if_true,
    afterLine?_newline, bind, Option.bind]
  cases d.openTable false [] name <;> rfl

theorem statement?_entry (d : Draft) {entry : String × String} (h : IsBare entry.1)
    (rest : List Char) :
    d.statement? (entryChars entry ++ rest) =
      (d.add [] entry.1 (.string entry.2)).map (·, rest) := by
  obtain ⟨c, t, hname, hc⟩ := h.exists_cons
  have htext : entryChars entry ++ rest =
      entry.1.toList ++ ' ' :: '=' :: ' ' :: (stringChars entry.2.toList ++ '\n' :: rest) := by
    simp [entryChars]
  have hkey : key? (entry.1.toList ++ ' ' :: '=' :: ' ' ::
        (stringChars entry.2.toList ++ '\n' :: rest)) =
      some ([], entry.1, '=' :: ' ' :: (stringChars entry.2.toList ++ '\n' :: rest)) :=
    key?_bare h (by decide) nofun
  have hentry : d.statement? (entryChars entry ++ rest) = d.entry? (entryChars entry ++ rest) := by
    -- The first character of a key starts neither a header nor a comment.
    have hheader := ne_of_isKeyChar hc (d := '[') (by decide)
    have hcomment := ne_of_isKeyChar hc (d := '#') (by decide)
    have hnewline := ne_of_isKeyChar hc (d := '\n') (by decide)
    have hreturn := ne_of_isKeyChar hc (d := '\r') (by decide)
    rw [htext, hname, List.cons_append, statement?, skipSpace_of_isKeyChar hc]
    simp [hheader, hcomment, hnewline, hreturn]
  rw [hentry, htext, entry?, hkey]
  simp only [afterChar?, if_true, skipSpace_stringChars, value?_stringChars,
    afterLine?_newline, bind, Option.bind]
  cases d.add [] entry.1 (.string entry.2) <;> rfl

theorem statement?_newline (d : Draft) (rest : List Char) :
    d.statement? ('\n' :: rest) = some (d, rest) := by
  simp [statement?, skipSpace, isSpace, afterLine?, afterNewline?]

/-- The draft after all statements of a text, each of which has a character at least. -/
def read? (d : Draft) (s : List Char) : Option Draft := d.readWithin? s.length s

theorem readWithin?_succ (fuel : Nat) (d : Draft) (c : Char) (s : List Char) :
    d.readWithin? (fuel + 1) (c :: s) =
      (d.statement? (c :: s)).bind fun (d, rest) => d.readWithin? fuel rest := by
  rw [readWithin?]
  · rfl
  · nofun

theorem readWithin?_mono {fuel more : Nat} {d d' : Draft} {s : List Char}
    (h : d.readWithin? fuel s = some d') (hle : fuel ≤ more) : d.readWithin? more s = some d' := by
  induction fuel generalizing more d s with
  | zero =>
    cases s with
    | nil => rwa [readWithin?] at h ⊢
    | cons c s => cases h
  | succ fuel ih =>
    cases s with
    | nil => rwa [readWithin?] at h ⊢
    | cons c s =>
      obtain ⟨more, rfl⟩ := Nat.exists_eq_add_of_le' (Nat.lt_of_lt_of_le (Nat.succ_pos fuel) hle)
      rw [readWithin?_succ] at h ⊢
      obtain ⟨⟨d₁, rest⟩, hstatement, h⟩ := Option.bind_eq_some_iff.mp h
      rw [hstatement]
      exact ih h (by omega)

/-- A statement is read first, and the rest of the text after it. -/
theorem read?_of_statement {d d₁ d' : Draft} {s rest : List Char}
    (hstatement : d.statement? s = some (d₁, rest)) (hlt : rest.length < s.length)
    (hrest : d₁.read? rest = some d') : d.read? s = some d' := by
  cases s with
  | nil => cases hlt
  | cons c s =>
    rw [read?, List.length_cons, readWithin?_succ, hstatement]
    exact readWithin?_mono hrest (Nat.le_of_lt_succ hlt)

/-- A draft in the middle of a section, with the tables before it and its entries so far. -/
def within (done : List (String × Item)) (name : String) (entries : List (String × Item)) : Draft :=
  { root := .mk .header (done ++ [(name, .table (.mk .header entries))]), path := [name] }

variable {done : List (String × Item)} {name : String}

theorem openTable_new {d : Draft} (hroot : d.root = .mk .header done)
    (hname : name ∉ done.map (·.1)) : d.openTable false [] name = some (within done name []) := by
  simp only [openTable, Table.change, Bool.false_eq_true, if_false, Table.openHeader, hroot,
    Table.get?_eq_none hname, Table.set_new hname, Option.map_some]
  rfl

theorem add_within (hname : name ∉ done.map (·.1)) {entries : List (String × Item)} {key : String}
    (hkey : key ∉ entries.map (·.1)) (value : Value) :
    (within done name entries).add [] key value =
      some (within done name (entries ++ [(key, .value value)])) := by
  have hadd : (Table.mk .header entries).addDotted [] key value =
      some (.mk .header (entries ++ [(key, .value value)])) := by
    simp [Table.addDotted, Table.change, Table.add, Table.get?_eq_none hkey, Table.set_new hkey]
  simp [add, within, Table.change, Table.get?_last hname, hadd, Table.set_last hname]

theorem read?_entries (hname : name ∉ done.map (·.1)) {rest : List Char} {d' : Draft}
    (given : List (String × String)) (entries : List (String × Item))
    (hbare : ∀ e ∈ given, IsBare e.1)
    (hdistinct : (entries.map (·.1) ++ given.map (·.1)).Nodup)
    (hrest : (within done name (entries ++ given.map textItem)).read? rest = some d') :
    (within done name entries).read? (given.flatMap entryChars ++ rest) = some d' := by
  induction given generalizing entries with
  | nil => simpa using hrest
  | cons e given ih =>
    have hkey : e.1 ∉ entries.map (·.1) := by
      intro hmem
      exact (List.nodup_append.mp hdistinct).2.2 _ hmem _ List.mem_cons_self rfl
    rw [List.flatMap_cons, List.append_assoc]
    have hstatement := statement?_entry (within done name entries) (hbare e List.mem_cons_self)
      (given.flatMap entryChars ++ rest)
    rw [add_within hname hkey, Option.map_some] at hstatement
    refine read?_of_statement hstatement ?_ ?_
    · simp [entryChars]
      omega
    · refine ih _ (fun e' he' => hbare e' (List.mem_cons_of_mem e he')) ?_ ?_
      · simpa using hdistinct
      · simpa [textItem] using hrest

/-- A section adds its table to those before it. -/
theorem read?_section {d d' : Draft} (hroot : d.root = .mk .header done) {s : Section}
    (hs : s.WellNamed) (hname : s.name ∉ done.map (·.1)) {rest : List Char}
    (hrest : (within done s.name (s.entries.map textItem)).read? rest = some d') :
    d.read? (s.chars ++ rest) = some d' := by
  have hstatement := statement?_header d hs.name (s.entries.flatMap entryChars ++ rest)
  rw [openTable_new hroot hname, Option.map_some] at hstatement
  rw [Section.chars, List.append_assoc]
  refine read?_of_statement hstatement ?_ ?_
  · simp
    omega
  · exact read?_entries hname s.entries [] hs.keys (by simpa using hs.distinct) hrest

/-- All sections are read as tables, in their order. -/
theorem read?_sections (sections : List Section) {d : Draft} (done : List (String × Item))
    (hroot : d.root = .mk .header done) (hs : ∀ s ∈ sections, s.WellNamed)
    (hdistinct : (done.map (·.1) ++ sections.map (·.name)).Nodup) :
    ∃ d', d.read? (['\n'].intercalate (sections.map Section.chars)) = some d' ∧
      d'.root = .mk .header (done ++ sections.map fun s => (s.name, .table s.table)) := by
  induction sections generalizing d done with
  | nil =>
    refine ⟨d, ?_, by simpa using hroot⟩
    rfl
  | cons s sections ih =>
    have hname : s.name ∉ done.map (·.1) := by
      intro hmem
      exact (List.nodup_append.mp hdistinct).2.2 _ hmem _ List.mem_cons_self rfl
    obtain ⟨d', hread, hd'⟩ := ih (d := within done s.name (s.entries.map textItem))
      (done ++ [(s.name, .table s.table)]) rfl (fun t ht => hs t (List.mem_cons_of_mem s ht))
      (by simpa using hdistinct)
    refine ⟨d', ?_, by simpa using hd'⟩
    cases sections with
    | nil =>
      have hone := read?_section hroot (hs s List.mem_cons_self) hname hread
      simpa [List.intercalate] using hone
    | cons t sections =>
      have hbreak := read?_of_statement (statement?_newline _ _) (Nat.lt_succ_self _) hread
      have hmore := read?_section hroot (hs s List.mem_cons_self) hname hbreak
      simpa [List.intercalate] using hmore

end Draft

/-- A document of sections is read as a table of their tables. -/
theorem document?_documentText {sections : List Section} (hs : ∀ s ∈ sections, s.WellNamed)
    (hdistinct : (sections.map (·.name)).Nodup) :
    document? (documentText sections) =
      some (.mk .header (sections.map fun s => (s.name, .table s.table))) := by
  have hmark : (documentText sections).toList.head? ≠ some byteOrderMark := by
    rw [documentText, String.toList_ofList]
    rcases sections with - | ⟨s, - | ⟨t, sections⟩⟩
    · nofun
    · simp [List.intercalate, Section.chars, byteOrderMark]
    · simp [List.intercalate, Section.chars, byteOrderMark]
  obtain ⟨d, hread, hroot⟩ := Draft.read?_sections sections (d := {}) [] rfl hs
    (by simpa using hdistinct)
  unfold document?
  rw [if_neg hmark, documentText, String.toList_ofList]
  show (Draft.read? {} _).map _ = _
  rw [hread, Option.map_some, hroot]
  rfl

end Minutes.Toml
