import Minutes.Text.Hex

/-!
The strings of TOML: on one line or on several, with escapes or literal.
-/
namespace Minutes.Toml

def isSpace (c : Char) : Bool := c == ' ' || c == '\t'

def skipSpace (s : List Char) : List Char := s.dropWhile isSpace

/-- The characters that comments and strings may hold: all but the controls, of which a tab is
allowed. -/
def isText (c : Char) : Bool := c == '\t' || (decide (0x20 ≤ c.toNat) && decide (c.toNat ≠ 0x7F))

/-- The text after a line end. -/
def afterNewline? : List Char → Option (List Char)
  | '\n' :: s => some s
  | '\r' :: '\n' :: s => some s
  | _ => none

/-- The character with a code point in hexadecimal digits. -/
def codePoint? (digits : List Char) : Option Char := do
  let n ← Text.hexNumber? digits
  if n < 0xD800 ∨ (0xDFFF < n ∧ n < 0x110000) then some (Char.ofNat n) else none

/-- The escapes of a single letter. -/
def letterEscape? (c : Char) : Option Char :=
  if c = '"' ∨ c = '\\' then some c
  else if c = 'b' then some '\x08'
  else if c = 't' then some '\t'
  else if c = 'n' then some '\n'
  else if c = 'f' then some '\x0c'
  else if c = 'r' then some '\r'
  else none

/-- The number of digits of a numeric escape. -/
def escapeWidth? (c : Char) : Option Nat :=
  if c = 'u' then some 4 else if c = 'U' then some 8 else none

/-- The character of an escape after its backslash. -/
def escape? : List Char → Option (Char × List Char)
  | [] => none
  | c :: s =>
    match escapeWidth? c with
    | some width =>
      if (s.take width).length = width then (codePoint? (s.take width)).map (·, s.drop width)
      else none
    | none => (letterEscape? c).map (·, s)

theorem escape?_length {s rest : List Char} {c : Char} (h : escape? s = some (c, rest)) :
    rest.length < s.length := by
  unfold escape? at h
  split at h
  · simp at h
  · split at h
    · split at h
      · simp only [Option.map_eq_some_iff, Prod.mk.injEq] at h
        obtain ⟨_, _, _, rfl⟩ := h
        simp only [List.length_drop, List.length_cons]; omega
      · simp at h
    · simp only [Option.map_eq_some_iff, Prod.mk.injEq] at h
      obtain ⟨_, _, _, rfl⟩ := h
      simp

/-- A string with escapes on one line, after its opening quotation mark. -/
def basic? (s : List Char) : Option (List Char × List Char) :=
  match s with
  | [] => none
  | c :: rest =>
    if c = '"' then some ([], rest)
    else if c = '\\' then
      match found : escape? rest with
      | some (x, after) =>
        have : after.length < rest.length := escape?_length found
        (basic? after).map fun (xs, tail) => (x :: xs, tail)
      | none => none
    else if isText c then (basic? rest).map fun (xs, tail) => (c :: xs, tail)
    else none
termination_by s.length

/-- A literal string on one line, after its opening quotation mark. -/
def literal? : List Char → Option (List Char × List Char)
  | [] => none
  | c :: s =>
    if c = '\'' then some ([], s)
    else if isText c then (literal? s).map fun (xs, tail) => (c :: xs, tail)
    else none

/-- What stands after the first mark of a closing row of three, four or five marks. All but the last
three of them belong to the string. -/
def closing? (mark : Char) (s : List Char) : Option (List Char × List Char) :=
  match s with
  | a :: b :: rest =>
    if a = mark ∧ b = mark then
      let extra := (rest.takeWhile (· == mark)).take 2
      some (extra, rest.drop extra.length)
    else none
  | _ => none

def isLineSpace (c : Char) : Bool := isSpace c || c == '\n'

/-- A text without the white space and line ends at its head. -/
def skipLines : List Char → List Char
  | [] => []
  | c :: s =>
    if isLineSpace c then skipLines s
    else if c = '\r' ∧ s.head? = some '\n' then skipLines s
    else c :: s

theorem skipLines_length_le (s : List Char) : (skipLines s).length ≤ s.length := by
  induction s with
  | nil => simp [skipLines]
  | cons c s ih =>
    unfold skipLines
    split
    · simp; omega
    · split
      · simp; omega
      · simp

/-- The text after a backslash that ends a line, and after all white space that follows. -/
def afterLineJoin? (s : List Char) : Option (List Char) :=
  (afterNewline? (skipSpace s)).map skipLines

theorem afterNewline?_length {s rest : List Char} (h : afterNewline? s = some rest) :
    rest.length < s.length := by
  unfold afterNewline? at h
  split at h
  · cases h; simp only [List.length_cons]; omega
  · cases h; simp only [List.length_cons]; omega
  · simp at h

theorem afterLineJoin?_length {s rest : List Char} (h : afterLineJoin? s = some rest) :
    rest.length < s.length := by
  unfold afterLineJoin? at h
  obtain ⟨t, ht, rfl⟩ := Option.map_eq_some_iff.1 h
  have h1 := afterNewline?_length ht
  have h2 := skipLines_length_le t
  have h3 : (skipSpace s).length ≤ s.length := (List.dropWhile_suffix _).length_le
  omega

/-- A string with escapes on several lines, after its opening marks. A backslash at the end of a
line joins the line to the text of the next. -/
def multiLineBasic? (s : List Char) : Option (List Char × List Char) :=
  match s with
  | [] => none
  | c :: rest =>
    if c = '"' then
      match closing? '"' rest with
      | some found => some found
      | none => (multiLineBasic? rest).map fun (xs, tail) => (c :: xs, tail)
    else if c = '\\' then
      match joined : afterLineJoin? rest with
      | some after =>
        have : after.length < rest.length := afterLineJoin?_length joined
        multiLineBasic? after
      | none =>
        match found : escape? rest with
        | some (x, after) =>
          have : after.length < rest.length := escape?_length found
          (multiLineBasic? after).map fun (xs, tail) => (x :: xs, tail)
        | none => none
    else if isText c ∨ c = '\n' then (multiLineBasic? rest).map fun (xs, tail) => (c :: xs, tail)
    else if c = '\r' ∧ rest.head? = some '\n' then multiLineBasic? rest
    else none
termination_by s.length

/-- A literal string on several lines, after its opening marks. -/
def multiLineLiteral? : List Char → Option (List Char × List Char)
  | [] => none
  | c :: s =>
    if c = '\'' then
      match closing? '\'' s with
      | some found => some found
      | none => (multiLineLiteral? s).map fun (xs, tail) => (c :: xs, tail)
    else if isText c ∨ c = '\n' then (multiLineLiteral? s).map fun (xs, tail) => (c :: xs, tail)
    else if c = '\r' ∧ s.head? = some '\n' then multiLineLiteral? s
    else none

/-- A line end directly after the opening marks is not part of the string. -/
def dropNewline (s : List Char) : List Char := (afterNewline? s).getD s

/-- A string of any kind. -/
def string? : List Char → Option (List Char × List Char)
  | '"' :: '"' :: '"' :: s => multiLineBasic? (dropNewline s)
  | '"' :: s => basic? s
  | '\'' :: '\'' :: '\'' :: s => multiLineLiteral? (dropNewline s)
  | '\'' :: s => literal? s
  | _ => none

end Minutes.Toml
