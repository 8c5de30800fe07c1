import Minutes.Proofs.Text.Filling

/-!
Filled lines are the fewest. However else the words are broken into lines that fit, after any number
of lines the filled ones hold at least as many of the words.
-/
namespace Minutes.Text
open scoped List

/-- A way to break words into lines. The words keep their order, and only a single word may be wider
than a line. -/
structure Broken (width : Nat) (ws : List (List Char)) (lines : List (List (List Char))) :
    Prop where
  words : lines.flatten = ws
  fits : ∀ line ∈ lines, (joinWords line).length ≤ width ∨ ∃ w, line = [w]

variable {width : Nat} {ws : List (List Char)}

theorem Filled.broken {lines : List (List (List Char))} (h : Filled width ws lines) :
    Broken width ws lines :=
  ⟨h.words, h.fits⟩

theorem Filled.tail {line : List (List Char)} {lines : List (List (List Char))}
    (h : Filled width ws (line :: lines)) : Filled width lines.flatten lines where
  words := rfl
  nonempty := fun next hnext => h.nonempty next (List.mem_cons_of_mem line hnext)
  fits := fun next hnext => h.fits next (List.mem_cons_of_mem line hnext)
  full := h.full.tail

/-- Each word of a line takes its characters and a space, but for the last one. -/
theorem length_joinWords_add_one {line : List (List Char)} (h : line ≠ []) :
    (joinWords line).length + 1 = (line.map fun w => w.length + 1).sum := by
  induction line using List.reverseRecOn with
  | nil => exact absurd rfl h
  | append_singleton line w ih =>
    cases line with
    | nil => simp
    | cons v line =>
      have hline := ih (List.cons_ne_nil v line)
      rw [length_joinWords_concat (List.cons_ne_nil v line), List.map_append, List.sum_append,
        ← hline, List.map_singleton, List.sum_singleton, Nat.add_assoc]

/-- A line of some of the words is no wider. -/
theorem length_joinWords_le_of_sublist {line other : List (List Char)} (h : line <+ other) :
    (joinWords line).length ≤ (joinWords other).length := by
  rcases eq_or_ne line [] with rfl | hline
  · exact Nat.zero_le _
  · have hother : other ≠ [] := fun hother => hline (List.sublist_nil.mp (hother ▸ h))
    have hsum : (line.map fun w => w.length + 1).sum ≤ (other.map fun w => w.length + 1).sum :=
      (h.map fun w : List Char => w.length + 1).sum_le_sum fun _ _ => Nat.zero_le _
    have hline' := length_joinWords_add_one hline
    have hother' := length_joinWords_add_one hother
    omega

/-- A line that fits does not hold all of a filled line and the next word too. -/
theorem Filled.not_sublist {line other : List (List Char)} {lines : List (List (List Char))}
    {w : List Char} {rest : List (List Char)} (h : Filled width ws (line :: lines))
    (hrest : lines.flatten = w :: rest)
    (hfits : (joinWords other).length ≤ width ∨ ∃ v, other = [v]) : ¬ line ++ [w] <+ other := by
  intro hsub
  cases lines with
  | nil => cases hrest
  | cons next lines =>
    obtain ⟨v, next, rfl⟩ :=
      List.exists_cons_of_ne_nil (h.nonempty next (List.mem_cons_of_mem line List.mem_cons_self))
    obtain ⟨rfl, -⟩ := List.cons.inj hrest
    rcases hfits with hfits | ⟨u, rfl⟩
    · have hwide := (List.isChain_cons_cons.mp h.full).1 v rfl
      have := length_joinWords_le_of_sublist hsub
      omega
    · have hlength := hsub.length_le
      have hline := List.length_pos_iff.mpr (h.nonempty line List.mem_cons_self)
      simp only [List.length_append, List.length_singleton] at hlength
      omega

/-- The first filled line goes at least as far as any other line that begins no later and fits. -/
theorem Filled.rest_suffix {line other rest : List (List Char)} {lines : List (List (List Char))}
    (h : Filled width ws (line :: lines))
    (hfits : (joinWords other).length ≤ width ∨ ∃ w, other = [w])
    (hsuffix : ws <:+ other ++ rest) : lines.flatten <:+ rest := by
  obtain ⟨before, hbefore⟩ := hsuffix
  rw [← h.words, List.flatten_cons, ← List.append_assoc] at hbefore
  have hlines : lines.flatten <:+ other ++ rest := ⟨before ++ line, hbefore⟩
  rcases List.suffix_or_suffix_of_suffix hlines (List.suffix_append other rest) with hs | hs
  · exact hs
  · obtain ⟨ahead, hahead⟩ := hs
    cases ahead with
    | nil => exact ⟨[], hahead.symm⟩
    | cons w ahead =>
      -- the other line would hold the filled one and the word after it
      rw [← hahead, ← List.append_assoc] at hbefore
      have hother : before ++ line ++ w :: ahead = other := List.append_cancel_right hbefore
      have hsub : line ++ [w] <+ other := by
        rw [← hother, List.append_assoc]
        exact (List.Sublist.append_left ((List.nil_sublist ahead).cons_cons w) line).trans
          (List.sublist_append_right before _)
      exact absurd hsub (h.not_sublist hahead.symm hfits)

/-- Filled lines are no more than lines that fit and hold the same words, or more before them. -/
theorem Filled.length_le_of_suffix {lines others : List (List (List Char))}
    (h : Filled width ws lines)
    (hfits : ∀ other ∈ others, (joinWords other).length ≤ width ∨ ∃ w, other = [w])
    (hsuffix : ws <:+ others.flatten) : lines.length ≤ others.length := by
  induction others generalizing ws lines with
  | nil =>
    rw [List.flatten_nil, List.suffix_nil, ← h.words, List.flatten_eq_nil_iff] at hsuffix
    have hlines : lines = [] := List.eq_nil_iff_forall_not_mem.mpr fun line hline =>
      h.nonempty line hline (hsuffix line hline)
    rw [hlines, List.length_nil]
  | cons other others ih =>
    cases lines with
    | nil => exact Nat.zero_le _
    | cons line lines =>
      obtain ⟨hother, hothers⟩ := List.forall_mem_cons.mp hfits
      exact Nat.succ_le_succ (ih h.tail hothers (h.rest_suffix hother hsuffix))

end Minutes.Text

namespace Minutes
open Text

/-- A filled text takes the fewest lines. It is written in one of the ways in which its words break
into lines that fit, and no other way has fewer lines. -/
theorem wrap_fewest (width : Nat) (s : String) :
    Broken width (Text.words s.toList) (fill width (Text.words s.toList)) ∧
    (∀ lineBreak : String, (wrap width lineBreak s).toList =
      lineBreak.toList.intercalate ((fill width (Text.words s.toList)).map joinWords)) ∧
    ∀ others, Broken width (Text.words s.toList) others →
      (fill width (Text.words s.toList)).length ≤ others.length := by
  have hfilled := filled_fill width (Text.words s.toList)
  refine ⟨hfilled.broken, fun lineBreak => toList_wrap width lineBreak s, fun others h => ?_⟩
  exact hfilled.length_le_of_suffix h.fits (h.words ▸ List.suffix_rfl)

/-- Lines of more even width are no fewer. -/
theorem wrap_fewest_even :
    Broken 6 (Text.words "aaa bb cc ddddddd".toList)
      [["aaa".toList], ["bb".toList, "cc".toList], ["ddddddd".toList]] ∧
    wrap 6 "\n" "aaa bb cc ddddddd" = "aaa bb\ncc\nddddddd" ∧
    (fill 6 (Text.words "aaa bb cc ddddddd".toList)).length ≤ 3 := by
  have hbroken : Broken 6 (Text.words "aaa bb cc ddddddd".toList)
      [["aaa".toList], ["bb".toList, "cc".toList], ["ddddddd".toList]] :=
    ⟨by decide, by simp [joinWords, List.intercalate_cons_cons]⟩
  exact ⟨hbroken, by decide, (wrap_fewest 6 "aaa bb cc ddddddd").2.2 _ hbroken⟩

end Minutes
