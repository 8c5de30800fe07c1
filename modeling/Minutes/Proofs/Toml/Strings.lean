import Minutes.Toml.Writing
import Mathlib.Tactic

/-!
Strings come back as they were written. A string with escapes is read character by character: each
stands for itself, or is an escape that gives it back. A literal string holds nothing that could end
it early.
-/
namespace Minutes.Toml

/-- A string that has been read, with a character before it. -/
def push (c : Char) (found : List Char × List Char) : List Char × List Char :=
  (c :: found.1, found.2)

/-- Characters that give a character after the backslash of an escape, and that do not join two
lines there. -/
structure Escapes (c letter : Char) (rest : List Char) : Prop where
  escape : ∀ s, escape? (letter :: rest ++ s) = some (c, s)
  inLine : isLineSpace letter = false ∧ letter ≠ '\r'

theorem escapes_letter {c letter : Char} (hwidth : escapeWidth? letter = none)
    (h : letterEscape? letter = some c) (hline : isLineSpace letter = false ∧ letter ≠ '\r') :
    Escapes c letter [] := by
  refine ⟨fun s => ?_, hline⟩
  rw [List.singleton_append, escape?, hwidth]
  simp only [h, Option.map_some]

/-- Two hexadecimal digits are enough for every character that has no escape of a letter. -/
theorem escapes_digits {c : Char} (h : isText c = false) :
    Escapes c 'u' ['0', '0', hexCapital (c.toNat / 16), hexCapital (c.toNat % 16)] := by
  have hsmall : c.toNat < 128 := by
    by_contra hlarge
    simp only [isText, Bool.or_eq_false_iff, Bool.and_eq_false_iff, decide_eq_false_iff_not] at h
    omega
  have hall : ∀ n < 128, codePoint? ['0', '0', hexCapital (n / 16), hexCapital (n % 16)] =
      some (Char.ofNat n) := by decide
  have hdigits := hall c.toNat hsmall
  rw [Char.ofNat_toNat] at hdigits
  refine ⟨fun s => ?_, by decide⟩
  simp [escape?, escapeWidth?, hdigits]

/-- A character of a string is written as itself or as an escape of it. -/
theorem stringChar_cases (multiLine : Bool) (c : Char) :
    (stringChar multiLine c = [c] ∧ c ≠ '"' ∧ c ≠ '\\' ∧
        (isText c = true ∨ multiLine = true ∧ c = '\n')) ∨
      ∃ letter rest, stringChar multiLine c = '\\' :: letter :: rest ∧ Escapes c letter rest := by
  unfold stringChar
  split_ifs with hquote hbackslash hb ht hn hmulti hf hr htext
  · subst hquote
    exact .inr ⟨_, _, rfl, escapes_letter (by decide) (by decide) (by decide)⟩
  · subst hbackslash
    exact .inr ⟨_, _, rfl, escapes_letter (by decide) (by decide) (by decide)⟩
  · subst hb
    exact .inr ⟨_, _, rfl, escapes_letter (by decide) (by decide) (by decide)⟩
  · subst ht
    exact .inr ⟨_, _, rfl, escapes_letter (by decide) (by decide) (by decide)⟩
  · exact .inl ⟨rfl, hquote, hbackslash, .inr ⟨hmulti, hn⟩⟩
  · subst hn
    exact .inr ⟨_, _, rfl, escapes_letter (by decide) (by decide) (by decide)⟩
  · subst hf
    exact .inr ⟨_, _, rfl, escapes_letter (by decide) (by decide) (by decide)⟩
  · subst hr
    exact .inr ⟨_, _, rfl, escapes_letter (by decide) (by decide) (by decide)⟩
  · exact .inl ⟨rfl, hquote, hbackslash, .inl htext⟩
  · exact .inr ⟨_, _, rfl, escapes_digits (Bool.eq_false_of_not_eq_true htext)⟩

theorem basic?_escape {c : Char} {s after : List Char} (h : escape? s = some (c, after)) :
    basic? ('\\' :: s) = (basic? after).map (push c) := by
  rw [basic?, if_neg (by decide), if_pos rfl]
  split
  · rename_i found
    rw [h] at found
    cases found
    rfl
  · rename_i found
    rw [h] at found
    cases found

theorem multiLineBasic?_escape {c : Char} {s after : List Char} (hjoin : afterLineJoin? s = none)
    (h : escape? s = some (c, after)) :
    multiLineBasic? ('\\' :: s) = (multiLineBasic? after).map (push c) := by
  rw [multiLineBasic?, if_neg (by decide), if_pos rfl]
  split
  · rename_i joined
    rw [hjoin] at joined
    cases joined
  · split
    · rename_i found
      rw [h] at found
      cases found
      rfl
    · rename_i found
      rw [h] at found
      cases found

/-- A backslash joins lines only if white space comes after it. -/
theorem Escapes.afterLineJoin?_eq_none {c letter : Char} {rest : List Char}
    (h : Escapes c letter rest) (s : List Char) : afterLineJoin? (letter :: rest ++ s) = none := by
  obtain ⟨hspace, hreturn⟩ := h.inLine
  simp only [isLineSpace, Bool.or_eq_false_iff, beq_eq_false_iff_ne] at hspace
  obtain ⟨hspace, hnewline⟩ := hspace
  have hskip : skipSpace (letter :: rest ++ s) = letter :: (rest ++ s) :=
    List.dropWhile_cons_of_neg (by simp [hspace])
  rw [afterLineJoin?, hskip, Option.map_eq_none_iff]
  unfold afterNewline?
  split
  · rename_i heq
    exact absurd (List.cons.inj heq).1 hnewline
  · rename_i heq
    exact absurd (List.cons.inj heq).1 hreturn
  · rfl

/-- A written character gives itself to a string on one line. -/
theorem basic?_stringChar (c : Char) (s : List Char) :
    basic? (stringChar false c ++ s) = (basic? s).map (push c) := by
  rcases stringChar_cases false c with ⟨hself, hquote, hbackslash, htext | ⟨hmulti, -⟩⟩ |
    ⟨letter, rest, hescape, hreads⟩
  · rw [hself, List.singleton_append, basic?, if_neg hquote, if_neg hbackslash, if_pos htext]
    rfl
  · cases hmulti
  · rw [hescape]
    exact basic?_escape (hreads.escape s)

/-- A written character gives itself to a string on several lines. -/
theorem multiLineBasic?_stringChar (c : Char) (s : List Char) :
    multiLineBasic? (stringChar true c ++ s) = (multiLineBasic? s).map (push c) := by
  rcases stringChar_cases true c with ⟨hself, hquote, hbackslash, htext⟩ |
    ⟨letter, rest, hescape, hreads⟩
  · have hplain : isText c = true ∨ c = '\n' := htext.imp_right And.right
    rw [hself, List.singleton_append, multiLineBasic?, if_neg hquote, if_neg hbackslash,
      if_pos hplain]
    rfl
  · rw [hescape]
    exact multiLineBasic?_escape (hreads.afterLineJoin?_eq_none s) (hreads.escape s)

/-- What reads every character of a string and then its end reads the string. -/
theorem read_flatMap {read : List Char → Option (List Char × List Char)} {write : Char → List Char}
    {after rest : List Char} (hchar : ∀ c s, read (write c ++ s) = (read s).map (push c))
    (hend : read after = some ([], rest)) (s : List Char) :
    read (s.flatMap write ++ after) = some (s, rest) := by
  induction s with
  | nil => exact hend
  | cons c s ih =>
    rw [List.flatMap_cons, List.append_assoc, hchar, ih]
    rfl

/-- Three marks end a string on several lines, unless more of them follow. -/
theorem closing?_marks {mark : Char} {rest : List Char} (h : rest.head? ≠ some mark) :
    closing? mark (mark :: mark :: rest) = some ([], rest) := by
  have htake : rest.takeWhile (· == mark) = [] := by
    cases rest with
    | nil => rfl
    | cons c rest =>
      have hc : (c == mark) = false := by simpa using h
      exact List.takeWhile_cons_of_neg (by simp [hc])
  simp [closing?, htake]

theorem basic?_written (s rest : List Char) :
    basic? (s.flatMap (stringChar false) ++ '"' :: rest) = some (s, rest) := by
  refine read_flatMap basic?_stringChar ?_ s
  rw [basic?, if_pos rfl]

theorem multiLineBasic?_written {rest : List Char} (h : rest.head? ≠ some '"') (s : List Char) :
    multiLineBasic? (s.flatMap (stringChar true) ++ '"' :: '"' :: '"' :: rest) = some (s, rest) := by
  refine read_flatMap multiLineBasic?_stringChar ?_ s
  rw [multiLineBasic?, if_pos rfl]
  split
  · rename_i found hfound
    rw [← hfound, closing?_marks h]
  · rename_i hfound
    rw [closing?_marks h] at hfound
    cases hfound

theorem literal?_written {s : List Char} (h : ∀ c ∈ s, isText c = true ∧ c ≠ '\'')
    (rest : List Char) : literal? (s ++ '\'' :: rest) = some (s, rest) := by
  induction s with
  | nil => rw [List.nil_append, literal?, if_pos rfl]
  | cons c s ih =>
    obtain ⟨htext, hmark⟩ := h c List.mem_cons_self
    rw [List.cons_append, literal?, if_neg hmark, if_pos htext,
      ih fun d hd => h d (List.mem_cons_of_mem c hd)]
    rfl

/-- An apostrophe in a string without three of them in a row, and without one at its end, does not
end the string. -/
theorem closing?_literal {s : List Char} (h : hasClosingMarks ('\'' :: s) = false)
    (hlast : ('\'' :: s).getLast? ≠ some '\'') (after : List Char) :
    closing? '\'' (s ++ '\'' :: after) = none := by
  cases s with
  | nil => exact absurd rfl hlast
  | cons c s =>
    cases s with
    | nil =>
      have hc : c ≠ '\'' := by simpa using hlast
      simp [closing?, hc]
    | cons d s =>
      by_cases hmarks : c = '\'' ∧ d = '\''
      · obtain ⟨rfl, rfl⟩ := hmarks
        cases h
      · simp [closing?, hmarks]

theorem hasClosingMarks_tail {c : Char} {s : List Char} (h : hasClosingMarks (c :: s) = false) :
    hasClosingMarks s = false := by
  unfold hasClosingMarks at h
  split at h
  · cases h
  · rename_i heq
    rwa [(List.cons.inj heq).2]
  · rename_i heq
    cases heq

theorem multiLineLiteral?_written {s rest : List Char}
    (htext : ∀ c ∈ s, isText c = true ∨ c = '\n') (hmarks : hasClosingMarks s = false)
    (hlast : s.getLast? ≠ some '\'') (hrest : rest.head? ≠ some '\'') :
    multiLineLiteral? (s ++ '\'' :: '\'' :: '\'' :: rest) = some (s, rest) := by
  induction s with
  | nil =>
    rw [List.nil_append, multiLineLiteral?, if_pos rfl, closing?_marks hrest]
  | cons c s ih =>
    have htail : s.getLast? ≠ some '\'' := by
      cases s with
      | nil => nofun
      | cons d s => simpa using hlast
    have hread := ih (fun d hd => htext d (List.mem_cons_of_mem c hd))
      (hasClosingMarks_tail hmarks) htail
    rw [List.cons_append, multiLineLiteral?]
    by_cases hc : c = '\''
    · subst hc
      rw [if_pos rfl, closing?_literal hmarks hlast, hread]
      rfl
    · rw [if_neg hc, if_pos (htext c List.mem_cons_self), hread]
      rfl

theorem string?_basic {s : List Char} (h : ∀ after, s ≠ '"' :: '"' :: after) :
    string? ('"' :: s) = basic? s := by
  unfold string?
  split
  · rename_i after heq
    exact absurd (List.cons.inj heq).2 (h after)
  · rename_i heq
    rw [(List.cons.inj heq).2]
  · rename_i heq
    cases (List.cons.inj heq).1
  · rename_i heq
    cases (List.cons.inj heq).1
  · rename_i hbasic _ _
    exact absurd rfl (hbasic s)

theorem string?_literal {s : List Char} (h : ∀ after, s ≠ '\'' :: '\'' :: after) :
    string? ('\'' :: s) = literal? s := by
  unfold string?
  split
  · rename_i heq
    cases (List.cons.inj heq).1
  · rename_i heq
    cases (List.cons.inj heq).1
  · rename_i after heq
    exact absurd (List.cons.inj heq).2 (h after)
  · rename_i heq
    rw [(List.cons.inj heq).2]
  · rename_i hliteral
    exact absurd rfl (hliteral s)

/-- A string on one line cannot be mistaken for the start of one on several lines. -/
theorem written_ne_marks (s rest after : List Char) :
    s.flatMap (stringChar false) ++ '"' :: '\n' :: rest ≠ '"' :: '"' :: after := by
  intro heq
  cases s with
  | nil => cases heq
  | cons c s =>
    rw [List.flatMap_cons, List.append_assoc] at heq
    rcases stringChar_cases false c with ⟨hself, hquote, -⟩ | ⟨letter, tail, hescape, -⟩
    · rw [hself] at heq
      exact hquote (List.cons.inj heq).1
    · rw [hescape] at heq
      cases heq

theorem string?_basicChars (s rest : List Char) :
    string? (basicChars s ++ '\n' :: rest) = some (s, '\n' :: rest) := by
  unfold basicChars
  cases isMultiLine s with
  | true =>
    have hrest : ('\n' :: rest).head? ≠ some '"' := by simp
    have hread := multiLineBasic?_written hrest s
    simpa [string?, dropNewline, afterNewline?] using hread
  | false =>
    have hread := string?_basic (written_ne_marks s rest)
    rw [basic?_written] at hread
    simpa using hread

theorem afterNewline?_of_isText {c : Char} (h : isText c = true) (s : List Char) :
    afterNewline? (c :: s) = none := by
  unfold afterNewline?
  split
  · rename_i heq
    rw [(List.cons.inj heq).1] at h
    cases h
  · rename_i heq
    rw [(List.cons.inj heq).1] at h
    cases h
  · rfl

/-- A text that is written as a literal string has no characters that would need an escape. -/
theorem isLiteral_spec {s : List Char} (h : isLiteral s = true) :
    s ≠ [] ∧ (∀ c ∈ s, isText c = true ∨ c = '\n') ∧ hasClosingMarks s = false ∧
      s.getLast? ≠ some '\'' := by
  simp only [isLiteral, Bool.and_eq_true, List.all_eq_true, Bool.or_eq_true, beq_iff_eq,
    Bool.not_eq_true', bne_iff_ne] at h
  obtain ⟨⟨⟨hany, htext⟩, hmarks⟩, hlast⟩ := h
  refine ⟨?_, htext, hmarks, hlast⟩
  rintro rfl
  cases hany

theorem string?_literalChars {s : List Char} (h : isLiteral s = true) (rest : List Char) :
    string? (literalChars s ++ '\n' :: rest) = some (s, '\n' :: rest) := by
  obtain ⟨hne, htext, hmarks, hlast⟩ := isLiteral_spec h
  have hrest : ('\n' :: rest).head? ≠ some '\'' := by simp
  have hmulti := multiLineLiteral?_written htext hmarks hlast hrest
  unfold literalChars
  cases hline : isMultiLine s with
  | true => simpa [string?, dropNewline, afterNewline?] using hmulti
  | false =>
    have hplain (c : Char) (hc : c ∈ s) : isText c = true := by
      refine (htext c hc).resolve_right ?_
      rintro rfl
      simp [isMultiLine, hc] at hline
    obtain ⟨c, t, rfl⟩ := List.exists_cons_of_ne_nil hne
    have hhead := hplain c List.mem_cons_self
    cases hmark : (c :: t).contains '\'' with
    | true =>
      have hkept : dropNewline (c :: t ++ '\'' :: '\'' :: '\'' :: '\n' :: rest) =
          c :: t ++ '\'' :: '\'' :: '\'' :: '\n' :: rest := by
        rw [List.cons_append, dropNewline, afterNewline?_of_isText hhead]
        rfl
      rw [← hkept] at hmulti
      simpa [string?] using hmulti
    | false =>
      have hnone : ∀ d ∈ c :: t, d ≠ '\'' := by
        rintro _ hd rfl
        simp [hd] at hmark
      have hread : string? ('\'' :: (c :: t ++ '\'' :: '\n' :: rest)) = _ :=
        string?_literal fun after heq => hnone c List.mem_cons_self (List.cons.inj heq).1
      rw [literal?_written fun d hd => ⟨hplain d hd, hnone d hd⟩] at hread
      simpa using hread

/-- A string is written with marks around it. -/
theorem stringChars_mark (s : List Char) :
    ∃ mark t, stringChars s = mark :: t ∧ (mark = '"' ∨ mark = '\'') := by
  unfold stringChars literalChars basicChars
  split_ifs
  all_goals first
    | exact ⟨'"', _, rfl, .inl rfl⟩
    | exact ⟨'\'', _, rfl, .inr rfl⟩

/-- A string is read back from what is written for it at the end of a line. -/
theorem string?_stringChars (s rest : List Char) :
    string? (stringChars s ++ '\n' :: rest) = some (s, '\n' :: rest) := by
  unfold stringChars
  split_ifs with h
  · exact string?_literalChars h rest
  · exact string?_basicChars s rest

end Minutes.Toml
