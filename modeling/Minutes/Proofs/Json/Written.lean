import Minutes.Json.Value
import Minutes.Roster.Writing
import Mathlib.Tactic

/-!
Written JSON is read back: white space is skipped, a string gives its characters, and the parts of a
list or an object are found one after the other.
-/
namespace Minutes.Json
open RosterFile (stringChar stringText)

/-- White space as it may stand between the tokens of JSON. -/
abbrev Blanks := { s : List Char // ∀ c ∈ s, isBlank c = true }

/-- Nothing between two tokens. -/
def Blanks.none : Blanks := ⟨[], by simp⟩

theorem skipBlanks_append (gap : Blanks) (s : List Char) :
    skipBlanks (gap ++ s) = skipBlanks s := List.dropWhile_append_of_pos gap.2

theorem skipBlanks_cons {c : Char} (h : isBlank c = false) (s : List Char) :
    skipBlanks (c :: s) = c :: s := List.dropWhile_cons_of_neg (by simp [h])

section strings

/-- A string that has been read, with a character before it. -/
def push (c : Char) (found : List Char × List Char) : List Char × List Char :=
  (c :: found.1, found.2)

theorem string_quote (s : List Char) : string ('"' :: s) = .ok ([], s) := by
  rw [string, if_pos rfl]

theorem string_plain {c : Char} (hquote : c ≠ '"') (hbackslash : c ≠ '\\') (hc : 0x20 ≤ c.toNat)
    (s : List Char) : string (c :: s) = (string s).map (push c) := by
  rw [string, if_neg hquote, if_neg hbackslash, if_neg (Nat.not_lt.mpr hc)]
  rfl

theorem string_escaped {c : Char} {s after : List Char} (h : escaped s = .ok (c, after)) :
    string ('\\' :: s) = (string after).map (push c) := by
  rw [string, if_neg (by decide), if_pos rfl]
  split
  · rename_i found
    rw [h] at found
    cases found
  · rename_i found
    rw [h] at found
    cases found
    rfl

theorem escaped_letter {letter c : Char} (hletter : letter ≠ 'u')
    (h : letterEscape? letter = some c) (s : List Char) : escaped (letter :: s) = .ok (c, s) := by
  rw [escaped, if_neg hletter, h]

/-- A control character is written by its code in four digits. -/
theorem escaped_control {c : Char} (h : c.toNat < 0x20) (s : List Char) :
    escaped ('u' :: '0' :: '0' :: Text.hexDigit (c.toNat / 16) :: Text.hexDigit (c.toNat % 16) ::
      s) = .ok (c, s) := by
  have hall : ∀ n < 0x20, let digits := ['0', '0', Text.hexDigit (n / 16), Text.hexDigit (n % 16)]
      ¬ byteCount digits < 4 ∧ Text.hexNumber? digits = some n ∧ isLowSurrogate n = false ∧
        isHighSurrogate n = false := by decide
  obtain ⟨hbytes, hnumber, hlow, hhigh⟩ := hall c.toNat h
  have hdigits : hex4 ('0' :: '0' :: Text.hexDigit (c.toNat / 16) ::
      Text.hexDigit (c.toNat % 16) :: s) = .ok (c.toNat, s) := by
    simp [hex4, hbytes, hnumber]
  rw [escaped, if_pos rfl, numericEscape, hdigits]
  simp [bind, Except.bind, hlow, hhigh]

/-- A character of a string is written as itself, or as an escape of it. -/
theorem stringChar_cases (c : Char) :
    (stringChar c = [c] ∧ c ≠ '"' ∧ c ≠ '\\' ∧ 0x20 ≤ c.toNat) ∨
      ∃ escape, stringChar c = '\\' :: escape ∧ ∀ s, escaped (escape ++ s) = .ok (c, s) := by
  unfold stringChar
  split_ifs with hquote hbackslash hb hf hn hr ht hcontrol
  · subst hquote
    exact .inr ⟨['"'], rfl, escaped_letter (by decide) (by decide)⟩
  · subst hbackslash
    exact .inr ⟨['\\'], rfl, escaped_letter (by decide) (by decide)⟩
  · subst hb
    exact .inr ⟨['b'], rfl, escaped_letter (by decide) (by decide)⟩
  · subst hf
    exact .inr ⟨['f'], rfl, escaped_letter (by decide) (by decide)⟩
  · subst hn
    exact .inr ⟨['n'], rfl, escaped_letter (by decide) (by decide)⟩
  · subst hr
    exact .inr ⟨['r'], rfl, escaped_letter (by decide) (by decide)⟩
  · subst ht
    exact .inr ⟨['t'], rfl, escaped_letter (by decide) (by decide)⟩
  · exact .inr ⟨_, rfl, escaped_control hcontrol⟩
  · exact .inl ⟨rfl, hquote, hbackslash, Nat.not_lt.mp hcontrol⟩

theorem string_stringChar (c : Char) (s : List Char) :
    string (stringChar c ++ s) = (string s).map (push c) := by
  rcases stringChar_cases c with ⟨hself, hquote, hbackslash, hc⟩ | ⟨escape, hescape, hread⟩
  · rw [hself]
    exact string_plain hquote hbackslash hc s
  · rw [hescape]
    exact string_escaped (hread s)

/-- A string is read back after its opening quotation mark. -/
theorem string_written (s rest : List Char) :
    string (s.flatMap stringChar ++ '"' :: rest) = .ok (s, rest) := by
  induction s with
  | nil => exact string_quote rest
  | cons c s ih =>
    rw [List.flatMap_cons, List.append_assoc, string_stringChar, ih]
    rfl

theorem toList_stringText (s : String) :
    (stringText s).toList = '"' :: (s.toList.flatMap stringChar ++ ['"']) := by
  rw [stringText, String.toList_ofList, List.cons_append]

theorem stringText_append (s : String) (rest : List Char) :
    (stringText s).toList ++ rest = '"' :: (s.toList.flatMap stringChar ++ '"' :: rest) := by
  rw [toList_stringText, List.cons_append, List.append_assoc, List.singleton_append]

theorem key_stringText (s : String) (rest : List Char) :
    key ((stringText s).toList ++ rest) = .ok (s.toList, rest) := by
  rw [stringText_append, key, if_pos rfl, string_written]

theorem valueWithin_stringText (fuel room : Nat) (s : String) (rest : List Char) :
    valueWithin (fuel + 1) room ((stringText s).toList ++ rest) =
      .ok (.string s.toList, rest) := by
  rw [stringText_append, valueWithin, skipBlanks_cons (by decide)]
  simp only [if_true, string_written]
  rfl

end strings

/-- Parts with commas between them. Unless it is the first, the next part has a comma before it. -/
def listed (first : Bool) : List (List Char) → List Char
  | [] => []
  | part :: parts => (if first then [] else [',']) ++ part ++ listed false parts

theorem intercalate_eq_listed (parts : List (List Char)) :
    [','].intercalate parts = listed true parts := by
  induction parts with
  | nil => rfl
  | cons part parts ih =>
    cases parts with
    | nil => simp [listed]
    | cons next parts =>
      rw [List.intercalate_cons_cons, ih]
      simp [listed]

/-- As many parts as there are, so many characters they have at least. -/
theorem length_le_listed (first : Bool) (parts : List (List Char))
    (h : ∀ part ∈ parts, part ≠ []) : parts.length ≤ (listed first parts).length := by
  induction parts generalizing first with
  | nil => exact Nat.zero_le _
  | cons part parts ih =>
    have hpart := List.length_pos_of_ne_nil (h part List.mem_cons_self)
    have hparts := ih false fun p hp => h p (List.mem_cons_of_mem part hp)
    simp only [listed, List.length_cons, List.length_append]
    omega

section lists

variable {closing : Char}

theorem nextItem_append (first : Bool) (gap : Blanks) (s : List Char) :
    nextItem closing first (gap ++ s) = nextItem closing first s := by
  rw [nextItem, nextItem, skipBlanks_append]

theorem nextItem_closing (h : isBlank closing = false) (first : Bool) (s : List Char) :
    nextItem closing first (closing :: s) = .ok (false, s) := by
  rw [nextItem, skipBlanks_cons h]
  simp

theorem nextItem_first (hquote : '"' ≠ closing) {s text : List Char}
    (h : skipBlanks s = '"' :: text) : nextItem closing true s = .ok (true, '"' :: text) := by
  rw [nextItem, h]
  simp [hquote]

theorem nextItem_comma (hcomma : ',' ≠ closing) (hquote : '"' ≠ closing) {s text : List Char}
    (h : skipBlanks s = '"' :: text) :
    nextItem closing false (',' :: s) = .ok (true, '"' :: text) := by
  rw [nextItem, skipBlanks_cons (by decide)]
  simp [hcomma, h, hquote]

/-- The next part of a list or an object starts with a string. -/
theorem nextItem_listed (hcomma : ',' ≠ closing) (hquote : '"' ≠ closing) (first : Bool)
    (gap : Blanks) (name : String) (part : List Char) (parts : List (List Char))
    (rest : List Char) :
    nextItem closing first
        (listed first ((gap ++ ((stringText name).toList ++ part)) :: parts) ++ rest) =
      .ok (true, (stringText name).toList ++ (part ++ (listed false parts ++ rest))) := by
  have hskip (s : List Char) : skipBlanks (gap ++ ((stringText name).toList ++ s)) =
      '"' :: (name.toList.flatMap stringChar ++ '"' :: s) := by
    rw [skipBlanks_append, stringText_append]
    exact skipBlanks_cons (by decide) _
  rw [stringText_append name (part ++ (listed false parts ++ rest))]
  cases first with
  | true =>
    simp only [listed, if_true, List.nil_append, List.append_assoc]
    exact nextItem_first hquote (hskip _)
  | false =>
    simp only [listed, Bool.false_eq_true, if_false, List.append_assoc, List.cons_append,
      List.nil_append]
    exact nextItem_comma hcomma hquote (hskip _)

theorem colon_append (gap : Blanks) (s : List Char) : colon (gap ++ ':' :: s) = .ok s := by
  rw [colon, skipBlanks_append, skipBlanks_cons (by decide)]
  rfl

/-- A list of strings is read back. -/
theorem itemsWithin_written (fuel room : Nat) (first : Bool) (texts : List String)
    (rest : List Char) (h : texts.length < fuel) :
    itemsWithin fuel room first
        (listed first (texts.map fun s => (stringText s).toList) ++ ']' :: rest) =
      .ok (texts.map fun s => .string s.toList, rest) := by
  induction texts generalizing fuel first with
  | nil =>
    obtain ⟨fuel, rfl⟩ := Nat.exists_eq_add_of_lt h
    rw [itemsWithin, List.map_nil, listed, List.nil_append, nextItem_closing (by decide)]
    rfl
  | cons s texts ih =>
    obtain ⟨fuel, rfl⟩ : ∃ n, fuel = n + 2 := ⟨fuel - 2, by simp at h; omega⟩
    have hnext : nextItem ']' first _ = _ :=
      nextItem_listed (by decide) (by decide) first .none s []
        (texts.map fun s => (stringText s).toList) (']' :: rest)
    rw [List.append_nil, List.nil_append, Blanks.none, List.nil_append] at hnext
    have hrest := ih (fuel + 1) false (by simpa using h)
    rw [itemsWithin, List.map_cons, hnext]
    simp only [bind, Except.bind, if_true, valueWithin_stringText, hrest]
    rfl

theorem valueWithin_list (fuel room : Nat) (texts : List String) (rest : List Char)
    (h : texts.length < fuel) :
    valueWithin (fuel + 1) (room + 1)
        ('[' :: (listed true (texts.map fun s => (stringText s).toList) ++ ']' :: rest)) =
      .ok (.list (texts.map fun s => .string s.toList), rest) := by
  have hmark : isDigit '[' = false := by decide
  rw [valueWithin, skipBlanks_cons (by decide)]
  simp [hmark, itemsWithin_written fuel room true texts rest h, bind, Except.bind]

end lists

end Minutes.Json
