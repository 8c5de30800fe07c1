import Minutes.Text.Hex

/-!
The tokens of JSON. A reader takes a text and returns what it has read with the rest of the text,
or the first fault in the text.
-/
namespace Minutes.Json

/-- What is wrong with a text: it is not JSON, or JSON of another shape than expected, or it ends
too early. -/
inductive Fault where
  | malformed
  | mismatched
  | truncated
  deriving DecidableEq

def isBlank (c : Char) : Bool := c == ' ' || c == '\n' || c == '\t' || c == '\r'

def skipBlanks (s : List Char) : List Char := s.dropWhile isBlank

/-- The rest of a word that has begun. -/
def word : List Char → List Char → Except Fault (List Char)
  | [], s => .ok s
  | _ :: _, [] => .error .truncated
  | w :: ws, c :: s => if c = w then word ws s else .error .malformed

/-- The bytes that a text takes up in UTF-8. -/
def byteCount (s : List Char) : Nat := s.foldl (fun n c => n + c.utf8Size) 0

/-- The number in four hexadecimal digits. Fewer than four bytes are too few for them. -/
def hex4 (s : List Char) : Except Fault (Nat × List Char) :=
  if byteCount (s.take 4) < 4 then .error .truncated
  else match Text.hexNumber? (s.take 4) with
    | some n => if (s.take 4).length = 4 then .ok (n, s.drop 4) else .error .malformed
    | none => .error .malformed

def isLowSurrogate (n : Nat) : Bool := 0xDC00 ≤ n && n ≤ 0xDFFF

def isHighSurrogate (n : Nat) : Bool := 0xD800 ≤ n && n ≤ 0xDBFF

/-- The second half of a character that takes two escapes. -/
def lowHalf (s : List Char) : Except Fault (Nat × List Char) := do
  let (n, rest) ← hex4 (← word ['\\', 'u'] s)
  if isLowSurrogate n then .ok (n, rest) else .error .malformed

/-- The character of a numeric escape. -/
def numericEscape (s : List Char) : Except Fault (Char × List Char) := do
  let (n, rest) ← hex4 s
  if isLowSurrogate n then .error .malformed
  else if isHighSurrogate n then do
    let (m, rest) ← lowHalf rest
    .ok (Char.ofNat (0x10000 + (n - 0xD800) * 0x400 + (m - 0xDC00)), rest)
  else .ok (Char.ofNat n, rest)

/-- The escapes of a single letter. -/
def letterEscape? (c : Char) : Option Char :=
  if c = '"' ∨ c = '\\' ∨ c = '/' then some c
  else if c = 'b' then some '\x08'
  else if c = 'f' then some '\x0c'
  else if c = 'n' then some '\n'
  else if c = 'r' then some '\r'
  else if c = 't' then some '\t'
  else none

/-- The character of an escape after its backslash. -/
def escaped : List Char → Except Fault (Char × List Char)
  | [] => .error .truncated
  | c :: s =>
    if c = 'u' then numericEscape s
    else match letterEscape? c with
      | some e => .ok (e, s)
      | none => .error .malformed

theorem word_length {ws s rest : List Char} (h : word ws s = .ok rest) :
    rest.length + ws.length = s.length := by
  fun_induction word ws s with
  | case1 => simp_all
  | case2 => simp at h
  | case3 w ws s ih => have := ih h; simp; omega
  | case4 => simp at h

theorem hex4_length {s rest : List Char} {n : Nat} (h : hex4 s = .ok (n, rest)) :
    rest.length < s.length := by
  unfold hex4 at h
  split at h
  · simp at h
  · split at h
    · split at h
      · next hl =>
        cases h
        simp only [List.length_take] at hl
        simp only [List.length_drop]; omega
      · simp at h
    · simp at h

theorem lowHalf_length {s rest : List Char} {n : Nat} (h : lowHalf s = .ok (n, rest)) :
    rest.length < s.length := by
  unfold lowHalf at h
  cases hw : word ['\\', 'u'] s with
  | error f => simp [hw, bind, Except.bind] at h
  | ok t =>
    cases hh : hex4 t with
    | error f => simp [hw, hh, bind, Except.bind] at h
    | ok p =>
      obtain ⟨m, u⟩ := p
      simp only [hw, hh, bind, Except.bind] at h
      split at h
      · cases h
        have := word_length hw
        have := hex4_length hh
        omega
      · simp at h

theorem numericEscape_length {s rest : List Char} {c : Char}
    (h : numericEscape s = .ok (c, rest)) : rest.length < s.length := by
  unfold numericEscape at h
  cases hh : hex4 s with
  | error f => simp [hh, bind, Except.bind] at h
  | ok p =>
    obtain ⟨n, t⟩ := p
    have := hex4_length hh
    simp only [hh, bind, Except.bind] at h
    split at h
    · simp at h
    · split at h
      · cases hl : lowHalf t with
        | error f => simp [hl] at h
        | ok q =>
          obtain ⟨m, u⟩ := q
          have := lowHalf_length hl
          simp only [hl] at h
          have ht := (Prod.mk.inj (Except.ok.inj h)).2
          subst ht; omega
      · have ht := (Prod.mk.inj (Except.ok.inj h)).2
        subst ht; omega

theorem escaped_length {s rest : List Char} {c : Char} (h : escaped s = .ok (c, rest)) :
    rest.length < s.length := by
  unfold escaped at h
  split at h
  · simp at h
  · split at h
    · have := numericEscape_length h
      simp; omega
    · split at h
      · cases h; simp
      · simp at h

/-- The contents of a string after its opening quotation mark. -/
def string (s : List Char) : Except Fault (List Char × List Char) :=
  match s with
  | [] => .error .truncated
  | c :: rest =>
    if c = '"' then .ok ([], rest)
    else if c = '\\' then
      match found : escaped rest with
      | .error f => .error f
      | .ok (x, after) =>
        have : after.length < rest.length := escaped_length found
        (string after).map fun (xs, tail) => (x :: xs, tail)
    else if c.toNat < 0x20 then .error .malformed
    else (string rest).map fun (xs, tail) => (c :: xs, tail)
termination_by s.length

/-- The text after a string that is not kept, so that its surrogates need not be paired. -/
def skipString : List Char → Except Fault (List Char)
  | [] => .error .truncated
  | c :: s =>
    if c = '"' then .ok s
    else if c = '\\' then
      match s with
      | [] => .error .truncated
      | e :: s =>
        if e = 'u' then
          match hex4 s with
          | .error f => .error f
          | .ok _ =>
            match s with
            | _ :: _ :: _ :: _ :: s => skipString s
            | _ => .error .truncated
        else if (letterEscape? e).isSome then skipString s
        else .error .malformed
    else if c.toNat < 0x20 then .error .malformed
    else skipString s

/-- The text after a colon. -/
def colon (s : List Char) : Except Fault (List Char) :=
  match skipBlanks s with
  | ':' :: rest => .ok rest
  | _ :: _ => .error .malformed
  | [] => .error .truncated

/-- Whether a list goes on, with the text at its next item or after its closing bracket. `first`
holds before the first item, which no comma precedes. -/
def nextItem (closing : Char) (first : Bool) (s : List Char) : Except Fault (Bool × List Char) :=
  match skipBlanks s with
  | [] => .error .truncated
  | c :: rest =>
    if c = closing then .ok (false, rest)
    else if first then .ok (true, c :: rest)
    else if c = ',' then
      match skipBlanks rest with
      | [] => .error .truncated
      | d :: tail => if d = closing then .error .malformed else .ok (true, d :: tail)
    else .error .malformed

/-- The key of a member, and the text after it. -/
def key : List Char → Except Fault (List Char × List Char)
  | [] => .error .truncated
  | c :: s => if c = '"' then string s else .error .malformed

end Minutes.Json
