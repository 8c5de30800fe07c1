import Minutes.Proofs.Text.Blank
import Minutes.Text.Wrap

/-!
The words of a text. They are told by what stands between its white space, so neither filling lines
with the words nor closing up blank lines changes them.
-/
namespace Minutes.Text

/-- A run of characters that are not white space. -/
def IsWord (w : List Char) : Prop := w ≠ [] ∧ ∀ c ∈ w, isBlank c = false

/-- What stands between separators has none. -/
theorem eq_false_of_mem_splitOnP {p : Char → Bool} {s w : List Char} (h : w ∈ s.splitOnP p) :
    ∀ c ∈ w, p c = false := by
  induction s generalizing w with
  | nil =>
    rw [List.splitOnP_nil, List.mem_singleton] at h
    simp [h]
  | cons d s ih =>
    obtain ⟨piece, pieces, hpieces⟩ := List.exists_cons_of_ne_nil (List.splitOnP_ne_nil p s)
    rw [List.splitOnP_cons_eq_if_modifyHead] at h
    split_ifs at h with hd
    · rcases List.mem_cons.mp h with rfl | h
      · simp
      · exact ih h
    · rw [hpieces, List.modifyHead_cons] at h
      rcases List.mem_cons.mp h with rfl | h
      · intro c hc
        rcases List.mem_cons.mp hc with rfl | hc
        · exact Bool.eq_false_iff.mpr hd
        · exact ih (hpieces ▸ List.mem_cons_self) c hc
      · exact ih (hpieces ▸ List.mem_cons_of_mem _ h)

theorem isWord_of_mem_words {s w : List Char} (h : w ∈ words s) : IsWord w := by
  obtain ⟨hs, hne⟩ := List.mem_filter.mp h
  exact ⟨by simpa using hne, eq_false_of_mem_splitOnP hs⟩

@[simp] theorem words_nil : words [] = [] := by simp [words, List.splitOnP_nil]

theorem words_of_isWord {w : List Char} (h : IsWord w) : words w = [w] := by
  rw [words, List.splitOnP_eq_singleton h.2]
  simp [h.1]

/-- White space parts the words before it from those after it. -/
theorem words_append_cons {c : Char} (hc : isBlank c = true) (s t : List Char) :
    words (s ++ c :: t) = words s ++ words t := by
  rw [words, List.splitOnP_append_cons s t hc, List.filter_append]
  rfl

theorem words_cons {c : Char} (hc : isBlank c = true) (s : List Char) : words (c :: s) = words s :=
  words_append_cons hc [] s

/-- What follows white space, or begins the text, has its words to itself. -/
theorem words_append {s : List Char} (h : s.getLast?.all isBlank = true) (t : List Char) :
    words (s ++ t) = words s ++ words t := by
  cases s using List.reverseRecOn with
  | nil => simp
  | append_singleton s c =>
    have hc : isBlank c = true := by simpa using h
    rw [List.append_assoc, List.singleton_append, words_append_cons hc, words_append_cons hc,
      words_nil, List.append_nil]

theorem words_blanks_append {t : List Char} (h : ∀ c ∈ t, isBlank c = true) (s : List Char) :
    words (t ++ s) = words s := by
  induction t with
  | nil => rfl
  | cons c t ih =>
    rw [List.cons_append, words_cons (h c List.mem_cons_self)]
    exact ih fun d hd => h d (List.mem_cons_of_mem c hd)

theorem words_append_blanks {t : List Char} (h : ∀ c ∈ t, isBlank c = true) (s : List Char) :
    words (s ++ t) = words s := by
  cases t with
  | nil => rw [List.append_nil]
  | cons c t =>
    have ht := words_blanks_append (fun d hd => h d (List.mem_cons_of_mem c hd)) []
    rw [List.append_nil, words_nil] at ht
    rw [words_append_cons (h c List.mem_cons_self), ht, List.append_nil]

@[simp] theorem words_trimmed (s : List Char) : words (trimmed s) = words s := by
  obtain ⟨before, after, hs, hbefore, hafter⟩ := exists_trimmed_eq s
  conv_rhs => rw [hs, words_append_blanks hafter, words_blanks_append hbefore]

/-- White space between the parts of a text parts their words. -/
theorem words_intercalate {sep : List Char} (hne : sep ≠ []) (hb : ∀ c ∈ sep, isBlank c = true)
    (parts : List (List Char)) : words (sep.intercalate parts) = parts.flatMap words := by
  have hlast (s : List Char) : (s ++ sep).getLast?.all isBlank = true := by
    have hm := hb _ (List.getLast_mem hne)
    simp [List.getLast?_append, List.getLast?_eq_some_getLast hne, hm]
  induction parts with
  | nil => simp
  | cons part parts ih =>
    cases parts with
    | nil => simp
    | cons next parts =>
      rw [List.intercalate_cons_cons, words_append (hlast part), words_append_blanks hb, ih,
        ← List.flatMap_cons]

/-- A character outside the separator is in one of the parts. -/
theorem mem_intercalate_iff {c : Char} {sep : List Char} (h : c ∉ sep) (parts : List (List Char)) :
    c ∈ sep.intercalate parts ↔ ∃ part ∈ parts, c ∈ part := by
  induction parts with
  | nil => simp
  | cons part parts ih =>
    cases parts with
    | nil => simp
    | cons next parts =>
      rw [List.intercalate_cons_cons, List.mem_append, List.mem_append, ih]
      simp [h]

theorem words_joinWords {line : List (List Char)} (h : ∀ w ∈ line, IsWord w) :
    words (joinWords line) = line := by
  rw [joinWords, words_intercalate (by simp) (by simp)]
  induction line with
  | nil => rfl
  | cons w line ih =>
    rw [List.flatMap_cons, words_of_isWord (h w List.mem_cons_self),
      ih fun v hv => h v (List.mem_cons_of_mem w hv)]
    rfl

theorem flatten_fillFrom (width : Nat) (line : List (List Char)) (used : Nat)
    (ws : List (List Char)) : (fillFrom width line used ws).flatten = line ++ ws := by
  fun_induction fillFrom width line used ws with
  | case1 => simp
  | case2 line used w ws _ ih => simpa using ih
  | case3 line used w ws _ ih => simp [ih]

/-- Filling lines loses no word and adds none. -/
theorem flatten_fill (width : Nat) (ws : List (List Char)) : (fill width ws).flatten = ws := by
  cases ws with
  | nil => rfl
  | cons w ws => exact flatten_fillFrom width [w] w.length ws

theorem words_wrapped (width : Nat) {lineBreak : List Char} (hne : lineBreak ≠ [])
    (hb : ∀ c ∈ lineBreak, isBlank c = true) (s : List Char) :
    words (wrapped width lineBreak s) = words s := by
  have hlines : ∀ line ∈ fill width (words s), words (joinWords line) = line := by
    intro line hl
    apply words_joinWords
    intro w hw
    apply isWord_of_mem_words (s := s)
    rw [← flatten_fill width (words s)]
    exact List.mem_flatten_of_mem hl hw
  rw [wrapped, words_intercalate hne hb, List.flatMap_map, List.flatMap_congr hlines,
    List.flatMap_id', flatten_fill]

/-- A line feed is only ever left out after white space. -/
theorem words_append_closeUpFrom (newlines : Nat) (before s : List Char)
    (h : newlines < 2 ∨ before.getLast?.all isBlank = true) :
    words (before ++ closeUpFrom newlines s) = words (before ++ s) := by
  induction s generalizing newlines before with
  | nil => rfl
  | cons c s ih =>
    unfold closeUpFrom
    split_ifs with hc hn
    · subst hc
      have hlast : (before ++ ['\n']).getLast?.all isBlank = true := by simp
      simpa using ih (newlines + 1) (before ++ ['\n']) (.inr hlast)
    · subst hc
      have hlast := h.resolve_left hn
      rw [ih newlines before (.inr hlast), words_append hlast, words_append hlast,
        words_cons isBlank_newline]
    · simpa using ih 0 (before ++ [c]) (.inl (by decide))

/-- What is closed up after a text is closed up on its own, from some number of line feeds on. -/
theorem exists_closeUpFrom_append (newlines : Nat) (s t : List Char) :
    ∃ newlines', closeUpFrom newlines (s ++ t) =
      closeUpFrom newlines s ++ closeUpFrom newlines' t := by
  induction s generalizing newlines with
  | nil => exact ⟨newlines, rfl⟩
  | cons c s ih =>
    simp only [List.cons_append, closeUpFrom]
    split_ifs with hc hn
    · obtain ⟨n, hn⟩ := ih (newlines + 1)
      exact ⟨n, by rw [hn, List.cons_append]⟩
    · exact ih newlines
    · obtain ⟨n, hn⟩ := ih 0
      exact ⟨n, by rw [hn, List.cons_append]⟩

end Minutes.Text
