import Minutes.Proofs.Text.Words

/-!
Lines filled with the words of a text. Each line takes as many words as fit on it, and a text that
has been filled at one width can be filled again at any other as if it never had been.
-/
namespace Minutes.Text

/-- Lines that hold words in their order, each as many as it can: only a single word may be wider
than a line, and no line could also have held the first word of the next. -/
structure Filled (width : Nat) (ws : List (List Char)) (lines : List (List (List Char))) :
    Prop where
  words : lines.flatten = ws
  nonempty : ∀ line ∈ lines, line ≠ []
  fits : ∀ line ∈ lines, (joinWords line).length ≤ width ∨ ∃ w, line = [w]
  full : lines.IsChain fun line next => ∀ w ∈ next.head?, width < (joinWords (line ++ [w])).length

@[simp] theorem joinWords_singleton (w : List Char) : joinWords [w] = w :=
  List.intercalate_singleton

/-- A word at the end of a line takes a space and its own characters. -/
theorem length_joinWords_concat {line : List (List Char)} (h : line ≠ []) (w : List Char) :
    (joinWords (line ++ [w])).length = (joinWords line).length + 1 + w.length := by
  induction line with
  | nil => exact absurd rfl h
  | cons v line ih =>
    cases line with
    | nil =>
      simp [joinWords, List.intercalate_cons_cons]
      omega
    | cons u line =>
      have hline := ih (List.cons_ne_nil u line)
      simp only [joinWords, List.cons_append, List.intercalate_cons_cons, List.length_append,
        List.length_singleton] at hline ⊢
      omega

theorem joinWords_ne_nil {line : List (List Char)} (hne : line ≠ []) (h : ∀ w ∈ line, IsWord w) :
    joinWords line ≠ [] := by
  intro hempty
  have hwords := words_joinWords h
  rw [hempty, words_nil] at hwords
  exact hne hwords.symm

/-- The line that is being filled keeps its words. -/
theorem exists_fillFrom_eq_cons (width : Nat) (line : List (List Char)) (used : Nat)
    (ws : List (List Char)) :
    ∃ more rest, fillFrom width line used ws = (line ++ more) :: rest := by
  fun_induction fillFrom width line used ws with
  | case1 line used => exact ⟨[], [], by rw [List.append_nil]⟩
  | case2 line used w ws _ ih =>
    obtain ⟨more, rest, hfill⟩ := ih
    exact ⟨w :: more, rest, by rw [hfill, List.append_assoc, List.singleton_append]⟩
  | case3 line used w ws _ ih => exact ⟨[], _, by rw [List.append_nil]⟩

/-- Filling goes on from a line that has words and is as wide as it counts. -/
theorem filled_fillFrom {width used : Nat} {line : List (List Char)} (ws : List (List Char))
    (hne : line ≠ []) (hused : (joinWords line).length = used)
    (hfits : used ≤ width ∨ ∃ w, line = [w]) :
    Filled width (line ++ ws) (fillFrom width line used ws) := by
  fun_induction fillFrom width line used ws with
  | case1 line used =>
    refine ⟨by simp, ?_, ?_, List.isChain_singleton _⟩
    · simpa using hne
    · simpa [hused] using hfits
  | case2 line used w ws hroom ih =>
    have hlength := length_joinWords_concat hne w
    rw [hused] at hlength
    have hfilled := ih (by simp) hlength (.inl hroom)
    rwa [List.append_assoc, List.singleton_append] at hfilled
  | case3 line used w ws hroom ih =>
    have hnext := ih (by simp) (by rw [joinWords_singleton]) (.inr ⟨w, rfl⟩)
    obtain ⟨more, rest, hfill⟩ := exists_fillFrom_eq_cons width [w] w.length ws
    refine ⟨?_, ?_, ?_, ?_⟩
    · rw [List.flatten_cons, hnext.words, List.singleton_append]
    · exact List.forall_mem_cons.mpr ⟨hne, hnext.nonempty⟩
    · exact List.forall_mem_cons.mpr ⟨by rwa [hused], hnext.fits⟩
    · have hfull := hnext.full
      rw [hfill] at hfull ⊢
      refine List.isChain_cons_cons.mpr ⟨fun v hv => ?_, hfull⟩
      obtain rfl : w = v := by simpa using hv
      rw [length_joinWords_concat hne, hused]
      omega

theorem filled_fill (width : Nat) (ws : List (List Char)) : Filled width ws (fill width ws) := by
  cases ws with
  | nil => exact ⟨rfl, by simp [fill], by simp [fill], List.isChain_nil⟩
  | cons w ws => exact filled_fillFrom ws (by simp) (by rw [joinWords_singleton]) (.inr ⟨w, rfl⟩)

/-- Lines that hold words of a text hold no words but those. -/
theorem Filled.isWord {width : Nat} {s : List Char} {lines : List (List (List Char))}
    (h : Filled width (Text.words s) lines) {line : List (List Char)} (hline : line ∈ lines) :
    ∀ w ∈ line, IsWord w := by
  intro w hw
  apply isWord_of_mem_words (s := s)
  rw [← h.words]
  exact List.mem_flatten_of_mem hline hw

/-- Filling reads the words of a text alone. -/
theorem wrapped_congr {s t : List Char} (h : words s = words t) (width : Nat)
    (lineBreak : List Char) : wrapped width lineBreak s = wrapped width lineBreak t := by
  rw [wrapped, wrapped, h]

end Minutes.Text

namespace Minutes
open Text

/-- A filled text is the words of the text in lines that hold as many of them as they can. If white
space stands between its lines, it can be filled again as the text itself. -/
theorem wrap_filled (width : Nat) (lineBreak s : String) :
    (∃ lines, Filled width (Text.words s.toList) lines ∧ (∀ line ∈ lines, joinWords line ≠ []) ∧
      (wrap width lineBreak s).toList = lineBreak.toList.intercalate (lines.map joinWords)) ∧
    (lineBreak ≠ "" → (∀ c ∈ lineBreak.toList, isBlank c = true) → ∀ width' lineBreak',
      wrap width' lineBreak' (wrap width lineBreak s) = wrap width' lineBreak' s) := by
  constructor
  · have hfilled := filled_fill width (Text.words s.toList)
    refine ⟨_, hfilled, fun line hline => ?_, toList_wrap width lineBreak s⟩
    exact joinWords_ne_nil (hfilled.nonempty line hline) (hfilled.isWord hline)
  · intro hne hb width' lineBreak'
    apply String.toList_injective
    rw [toList_wrap, toList_wrap, toList_wrap]
    exact wrapped_congr (words_wrapped width (by simpa using hne) hb s.toList) _ _

theorem wrap_filled_indented :
    wrap 15 "\n  " "the quick brown fox jumps over the lazy dog" =
      "the quick brown\n  fox jumps over\n  the lazy dog" ∧
    wrap 20 "\n" "the quick brown\n  fox jumps over\n  the lazy dog" =
      wrap 20 "\n" "the quick brown fox jumps over the lazy dog" := by
  have hfill : wrap 15 "\n  " "the quick brown fox jumps over the lazy dog" =
      "the quick brown\n  fox jumps over\n  the lazy dog" := by decide +kernel
  have hblank : ∀ c ∈ "\n  ".toList, isBlank c = true := by simp
  refine ⟨hfill, ?_⟩
  rw [← hfill]
  exact (wrap_filled 15 "\n  " _).2 (by decide) hblank 20 "\n"

end Minutes
