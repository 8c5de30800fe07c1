import Minutes.Calendar.Written
import Minutes.Proofs.Text.Blank

/-!
Numbers in decimal digits. What is written in a fixed width is read back, and two rows of digits
of one length that give the same number are the same.
-/
namespace Minutes.Calendar
open Text

theorem isDigit_iff {c : Char} : isDigit c = true ↔ 48 ≤ c.toNat ∧ c.toNat ≤ 57 := by
  simp only [isDigit, Char.isDigit, Bool.and_eq_true, decide_eq_true_eq, ge_iff_le,
    UInt32.le_iff_toNat_le]
  rfl

theorem isBlank_of_isDigit {c : Char} (h : isDigit c = true) : isBlank c = false := by
  have hdigit : c.isDigit = true := h
  exact isBlank_of_isAsciiWordChar (by simp [isAsciiWordChar, Char.isAlphanum, hdigit])

theorem isAlpha_of_isDigit {c : Char} (h : isDigit c = true) : c.isAlpha = false := by
  rw [isDigit_iff] at h
  rw [← Bool.not_eq_true]
  delta Char.isAlpha Char.isUpper Char.isLower
  simp only [Bool.or_eq_true, Bool.and_eq_true, decide_eq_true_eq, ge_iff_le,
    UInt32.le_iff_toNat_le]
  change ¬ ((65 ≤ c.toNat ∧ c.toNat ≤ 90) ∨ (97 ≤ c.toNat ∧ c.toNat ≤ 122))
  omega

theorem isDigit_of_isAlpha {c : Char} (h : c.isAlpha = true) : isDigit c = false := by
  rw [← Bool.not_eq_true]
  intro hdigit
  rw [isAlpha_of_isDigit hdigit] at h
  cases h

theorem isBlank_of_isAlpha {c : Char} (h : c.isAlpha = true) : isBlank c = false :=
  isBlank_of_isAsciiWordChar (by simp [isAsciiWordChar, Char.isAlphanum, h])

theorem isDigit_of_mem_digits {width n : Nat} {c : Char} (h : c ∈ Date.digits width n) :
    isDigit c = true := by
  rcases List.mem_append.mp h with h | h
  · rw [List.eq_of_mem_replicate h]
    rfl
  · exact Nat.isDigit_of_mem_toDigits (by decide) (by decide) h

theorem digits_ne_nil (width n : Nat) : Date.digits width n ≠ [] := by
  simp [Date.digits, Nat.toDigits_ne_nil]

theorem length_digits {width n : Nat} (hw : 0 < width) (hn : n < 10 ^ width) :
    (Date.digits width n).length = width := by
  have hshown := (Nat.length_toDigits_le_iff (by decide) hw).mpr hn
  simp only [Date.digits, List.length_append, List.length_replicate]
  omega

@[simp] theorem numeral_digits (width n : Nat) : numeral (Date.digits width n) = n := by
  change Nat.ofDigitChars 10 (_ ++ _) 0 = n
  simp [Nat.ofDigitChars_append, Nat.ofDigitChars_replicate_zero]

theorem numeral_concat (s : List Char) (c : Char) :
    numeral (s ++ [c]) = 10 * numeral s + (c.toNat - 48) := by
  simp only [numeral, List.foldl_append, List.foldl_cons, List.foldl_nil]
  rfl

/-- A number in a given number of digits is written in one way. -/
theorem eq_of_numeral_eq {s t : List Char} (hs : ∀ c ∈ s, isDigit c = true)
    (ht : ∀ c ∈ t, isDigit c = true) (hlength : s.length = t.length)
    (h : numeral s = numeral t) : s = t := by
  induction s using List.reverseRecOn generalizing t with
  | nil => exact (List.length_eq_zero_iff.mp hlength.symm).symm
  | append_singleton s c ih =>
    cases t using List.reverseRecOn with
    | nil => simp at hlength
    | append_singleton t d =>
      have hc := isDigit_iff.mp (hs c (by simp))
      have hd := isDigit_iff.mp (ht d (by simp))
      rw [numeral_concat, numeral_concat] at h
      have hst : s = t := by
        refine ih (fun e he => hs e (by simp [he])) (fun e he => ht e (by simp [he])) ?_ (by omega)
        simpa using hlength
      have hcd : c = d := Char.toNat_inj.mp (by omega)
      rw [hst, hcd]

theorem numeral_lt {s : List Char} (hs : ∀ c ∈ s, isDigit c = true) :
    numeral s < 10 ^ s.length := by
  induction s using List.reverseRecOn with
  | nil => decide
  | append_singleton s c ih =>
    have hc := isDigit_iff.mp (hs c (by simp))
    have hlt := ih fun d hd => hs d (by simp [hd])
    rw [numeral_concat, List.length_append, List.length_singleton, Nat.pow_succ]
    omega

/-- Digits are the way in which their number is written. -/
theorem digits_numeral {s : List Char} (hne : s ≠ []) (hs : ∀ c ∈ s, isDigit c = true) :
    Date.digits s.length (numeral s) = s := by
  have hlength := length_digits (List.length_pos_iff.mpr hne) (numeral_lt hs)
  exact eq_of_numeral_eq (fun c hc => isDigit_of_mem_digits hc) hs hlength (numeral_digits _ _)

section
variable {s rest : List Char}

theorem takeWhile_isDigit_append (hs : ∀ c ∈ s, isDigit c = true)
    (hrest : rest.head?.all (!isDigit ·) = true) : (s ++ rest).takeWhile isDigit = s :=
  (takeWhile_dropWhile_iff.mpr ⟨rfl, hs, hrest⟩).1

/-- A number without a limit ends where its digits end. -/
theorem number?_none_append (hne : s ≠ []) (hs : ∀ c ∈ s, isDigit c = true)
    (hrest : rest.head?.all (!isDigit ·) = true) :
    number? none (s ++ rest) = some (numeral s, rest) := by
  simp [number?, takeWhile_isDigit_append hs hrest, hne]

/-- A number ends where it has as many digits as it may have, or where its digits end. -/
theorem number?_some_append {most : Nat} (hne : s ≠ []) (hs : ∀ c ∈ s, isDigit c = true)
    (hend : s.length = most ∨ s.length < most ∧ rest.head?.all (!isDigit ·) = true) :
    number? (some most) (s ++ rest) = some (numeral s, rest) := by
  rcases hend with rfl | ⟨hlt, hrest⟩
  · simp [number?, List.takeWhile_append_of_pos hs, hne]
  · simp [number?, takeWhile_isDigit_append hs hrest, List.take_of_length_le hlt.le, hne]

theorem number?_eq_none {most : Option Nat} (h : s.head?.all (!isDigit ·) = true) :
    number? most s = none := by
  have hrun : s.takeWhile isDigit = [] :=
    takeWhile_isDigit_append (fun c hc => absurd hc List.not_mem_nil) h
  cases most <;> simp [number?, hrun]

theorem fixed?_append (hs : ∀ c ∈ s, isDigit c = true) (rest : List Char) :
    fixed? s.length (s ++ rest) = some (numeral s, rest) := by
  simpa [fixed?] using hs

end

end Minutes.Calendar
