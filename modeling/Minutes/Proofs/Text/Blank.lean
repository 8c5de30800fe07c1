import Minutes.Text.Blank
import Minutes.Text.WordChar
import Mathlib.Data.List.TakeWhile
import Mathlib.Tactic

/-!
White space and the runs of characters that it ends.
-/
namespace Minutes.Text

@[simp] theorem isBlank_space : isBlank ' ' = true := by decide

@[simp] theorem isBlank_newline : isBlank '\n' = true := by decide

/-- The longest run of a class of characters is what stands before the first character outside. -/
theorem takeWhile_dropWhile_iff {p : Char → Bool} {s run rest : List Char} :
    s.takeWhile p = run ∧ s.dropWhile p = rest ↔
      s = run ++ rest ∧ (∀ c ∈ run, p c = true) ∧ rest.head?.all (!p ·) = true := by
  constructor
  · rintro ⟨rfl, rfl⟩
    refine ⟨List.takeWhile_append_dropWhile.symm, fun c hc => List.mem_takeWhile_imp hc, ?_⟩
    have h := List.head?_dropWhile_not p s
    cases hd : (s.dropWhile p).head? with
    | none => rfl
    | some c => simpa [hd] using h
  · rintro ⟨rfl, hrun, hrest⟩
    rw [List.takeWhile_append_of_pos hrun, List.dropWhile_append_of_pos hrun]
    cases rest with
    | nil => simp
    | cons c rest =>
      have hc : p c = false := by simpa using hrest
      simp [hc]

/-- A text is split at the first of some character. -/
theorem takeWhile_bne_iff {c : Char} {s before rest : List Char} :
    s.takeWhile (· != c) = before ∧ (∃ d, s.dropWhile (· != c) = d :: rest) ↔
      s = before ++ c :: rest ∧ c ∉ before := by
  have hclass : (∀ d ∈ before, (d != c) = true) ↔ c ∉ before := by
    simp [List.forall_mem_ne']
  constructor
  · rintro ⟨htake, d, hdrop⟩
    obtain ⟨hs, hbefore, hd⟩ := takeWhile_dropWhile_iff.mp ⟨htake, hdrop⟩
    obtain rfl : d = c := by simpa using hd
    exact ⟨hs, hclass.mp hbefore⟩
  · rintro ⟨hs, hbefore⟩
    have hc : (c :: rest).head?.all (!(· != c) ·) = true := by simp
    obtain ⟨htake, hdrop⟩ := takeWhile_dropWhile_iff.mpr ⟨hs, hclass.mpr hbefore, hc⟩
    exact ⟨htake, c, hdrop⟩

/-- A table of ranges as a number, with a binary digit for each code point in it. Two tables are
compared by their digits, and not range by range. -/
def tableMask (ranges : List (Nat × Nat)) : Nat :=
  ranges.foldr (fun r mask => (2 ^ (r.2 + 1 - r.1) - 1) <<< r.1 ||| mask) 0

theorem testBit_tableMask {ranges : List (Nat × Nat)} {n : Nat} :
    (tableMask ranges).testBit n = true ↔ ∃ r ∈ ranges, r.1 ≤ n ∧ n ≤ r.2 := by
  induction ranges with
  | nil => simp [tableMask]
  | cons r ranges ih =>
    have hr : ((2 ^ (r.2 + 1 - r.1) - 1) <<< r.1).testBit n = true ↔ r.1 ≤ n ∧ n ≤ r.2 := by
      rw [Nat.testBit_shiftLeft, Nat.testBit_two_pow_sub_one, Bool.and_eq_true, decide_eq_true_iff,
        decide_eq_true_iff]
      omega
    rw [tableMask, List.foldr_cons, Nat.testBit_or, Bool.or_eq_true, hr, ← tableMask, ih]
    simp

/-- A code point is in one of two tables only, if no digit is set in both masks. -/
theorem not_exists_range_of_apart {ranges others : List (Nat × Nat)}
    (hapart : tableMask ranges &&& tableMask others = 0) {n : Nat}
    (h : ∃ r ∈ ranges, r.1 ≤ n ∧ n ≤ r.2) : ¬ ∃ r ∈ others, r.1 ≤ n ∧ n ≤ r.2 := by
  intro hother
  have hboth : (tableMask ranges &&& tableMask others).testBit n = true := by
    rw [Nat.testBit_and, testBit_tableMask.mpr h, testBit_tableMask.mpr hother]
    rfl
  rw [hapart, Nat.zero_testBit] at hboth
  cases hboth

theorem inRanges_eq_false_of_apart {ranges others : List (Nat × Nat)}
    (hapart : tableMask ranges &&& tableMask others = 0) {c : Char}
    (h : inRanges ranges c = true) : inRanges others c = false := by
  rw [← Bool.not_eq_true, inRanges_iff]
  exact not_exists_range_of_apart hapart (inRanges_iff.mp h)

theorem wordRanges_apart_blankRanges : tableMask wordRanges &&& tableMask blankRanges = 0 := by
  decide +kernel

theorem isBlank_of_isAsciiWordChar {c : Char} (h : isAsciiWordChar c = true) :
    isBlank c = false := by
  have hcode : 0x30 ≤ c.toNat ∧ c.toNat ≤ 0x7A := by
    delta isAsciiWordChar Char.isAlphanum Char.isAlpha Char.isUpper Char.isLower Char.isDigit at h
    simp only [Bool.or_eq_true, Bool.and_eq_true, decide_eq_true_eq, ge_iff_le,
      UInt32.le_iff_toNat_le, beq_iff_eq] at h
    change (((65 ≤ c.toNat ∧ c.toNat ≤ 90) ∨ (97 ≤ c.toNat ∧ c.toNat ≤ 122)) ∨
      (48 ≤ c.toNat ∧ c.toNat ≤ 57)) ∨ c = '_' at h
    rcases h with h | rfl
    · omega
    · decide
  have hapart : tableMask [(0x30, 0x7A)] &&& tableMask blankRanges = 0 := by decide
  exact inRanges_eq_false_of_apart hapart (by simpa [inRanges] using hcode)

/-- No word character is white space. -/
theorem isBlank_of_isWordChar {c : Char} (h : isWordChar c = true) : isBlank c = false := by
  unfold isWordChar at h
  split_ifs at h with hascii
  · exact isBlank_of_isAsciiWordChar h
  · exact inRanges_eq_false_of_apart wordRanges_apart_blankRanges h

theorem isBlank_of_trimmed_eq_nil {s : List Char} (h : trimmed s = []) :
    ∀ c ∈ s, isBlank c = true := by
  intro c hc
  rw [trimmed, trimEnd, List.reverse_eq_nil_iff, List.dropWhile_eq_nil_iff] at h
  rw [← List.takeWhile_append_dropWhile (p := isBlank) (l := s)] at hc
  rcases List.mem_append.mp hc with hc | hc
  · exact List.mem_takeWhile_imp hc
  · exact h c (List.mem_reverse.mpr hc)

theorem exists_trimmed_eq (s : List Char) : ∃ before after, s = before ++ trimmed s ++ after ∧
    (∀ c ∈ before, isBlank c = true) ∧ ∀ c ∈ after, isBlank c = true := by
  refine ⟨s.takeWhile isBlank, ((trimStart s).reverse.takeWhile isBlank).reverse, ?_,
    fun c hc => List.mem_takeWhile_imp hc,
    fun c hc => List.mem_takeWhile_imp (List.mem_reverse.mp hc)⟩
  have hend : trimmed s ++ ((trimStart s).reverse.takeWhile isBlank).reverse = trimStart s := by
    rw [trimmed, trimEnd, ← List.reverse_append, List.takeWhile_append_dropWhile,
      List.reverse_reverse]
  rw [List.append_assoc, hend]
  exact List.takeWhile_append_dropWhile.symm

theorem mem_of_mem_trimmed {c : Char} {s : List Char} (h : c ∈ trimmed s) : c ∈ s := by
  obtain ⟨before, after, hs, -, -⟩ := exists_trimmed_eq s
  rw [hs]
  simp [h]

/-- Trimming takes nothing but white space. -/
theorem mem_trimmed_iff {c : Char} (hc : isBlank c = false) {s : List Char} :
    c ∈ trimmed s ↔ c ∈ s := by
  obtain ⟨before, after, hs, hbefore, hafter⟩ := exists_trimmed_eq s
  have hb : c ∉ before := fun h => by simp [hbefore c h] at hc
  have ha : c ∉ after := fun h => by simp [hafter c h] at hc
  conv_rhs => rw [hs]
  simp [hb, ha]

theorem trimStart_of_head? {s : List Char} (h : s.head?.all (!isBlank ·) = true) :
    trimStart s = s := by
  have hrun : ∀ c ∈ [], isBlank c = true := fun c hc => absurd hc List.not_mem_nil
  exact (takeWhile_dropWhile_iff.mpr ⟨(List.nil_append s).symm, hrun, h⟩).2

theorem trimEnd_append {s after : List Char} (ha : ∀ c ∈ after, isBlank c = true)
    (hlast : s.getLast?.all (!isBlank ·) = true) : trimEnd (s ++ after) = s := by
  have hafter : ∀ c ∈ after.reverse, isBlank c = true := fun c hc => ha c (List.mem_reverse.mp hc)
  have hend : s.reverse.dropWhile isBlank = s.reverse :=
    trimStart_of_head? (by rwa [List.head?_reverse])
  rw [trimEnd, List.reverse_append, List.dropWhile_append_of_pos hafter, hend,
    List.reverse_reverse]

/-- White space around a text is all that is trimmed, if the text has none at its ends. -/
theorem trimmed_append {before s after : List Char} (hb : ∀ c ∈ before, isBlank c = true)
    (ha : ∀ c ∈ after, isBlank c = true) (hfirst : s.head?.all (!isBlank ·) = true)
    (hlast : s.getLast?.all (!isBlank ·) = true) : trimmed (before ++ s ++ after) = s := by
  rw [trimmed, trimStart, List.append_assoc, List.dropWhile_append_of_pos hb]
  cases s with
  | nil => simp [trimEnd, List.dropWhile_eq_nil_iff.mpr ha]
  | cons c s =>
    have hstart : ((c :: s) ++ after).dropWhile isBlank = (c :: s) ++ after :=
      trimStart_of_head? (by simpa using hfirst)
    rw [hstart, trimEnd_append ha hlast]

end Minutes.Text
