import Minutes.Calendar.Date
import Minutes.DoubleRange
import Minutes.Toml.Strings

/-!
The numbers and dates of TOML. Their values are not used, but they must exist: an integer has 64
bits, a floating-point number is not too large for double precision, a day is in the calendar.
-/
namespace Minutes.Toml

/-- The digits at the head of a text, and the text after them. An underscore may stand between two
digits. -/
def digitRun (isDigit : Char → Bool) : List Char → List Char × List Char
  | [] => ([], [])
  | c :: s =>
    if isDigit c then
      let (digits, rest) := digitRun isDigit s
      (c :: digits, rest)
    else if c = '_' ∧ s.head?.any isDigit then digitRun isDigit s
    else ([], c :: s)

/-- A run of digits that starts with one. -/
def digits? (isDigit : Char → Bool) (s : List Char) : Option (List Char × List Char) :=
  if s.head?.any isDigit then some (digitRun isDigit s) else none

/-- The digits of a whole number. It has no zero before another digit. -/
def wholeDigits? (s : List Char) : Option (List Char × List Char) :=
  if s.head? = some '0' then some (['0'], s.tail) else digits? (·.isDigit) s

def digitsValue (base : Nat) (digits : List Char) : Nat :=
  digits.foldl (fun n c => base * n + (Text.hexValue? c).getD 0) 0

/-- Whether a text starts with a minus sign, and the text after a sign. -/
def afterSign : List Char → Bool × List Char
  | [] => (false, [])
  | c :: s => if c = '-' then (true, s) else if c = '+' then (false, s) else (false, c :: s)

def fitsWord (negative : Bool) (n : Nat) : Bool :=
  if negative then n ≤ Nat.pow 2 63 else n < Nat.pow 2 63

/-- The text after a number in a base that its second character names. -/
def afterBased? (s : List Char) : Option (List Char) := do
  let base ←
    match s with
    | '0' :: 'x' :: _ => some 16
    | '0' :: 'o' :: _ => some 8
    | '0' :: 'b' :: _ => some 2
    | _ => none
  let (digits, rest) ← digits? (fun c => (Text.hexValue? c).any (· < base)) (s.drop 2)
  if fitsWord false (digitsValue base digits) then some rest else none

def afterDecimal? (s : List Char) : Option (List Char) := do
  let (negative, s) := afterSign s
  let (digits, rest) ← wholeDigits? s
  if fitsWord negative (digitsValue 10 digits) then some rest else none

/-- The text after an integer. -/
def afterInteger? (s : List Char) : Option (List Char) :=
  if s.head? = some '0' ∧ s.tail.head?.any "xob".toList.contains then afterBased? s
  else afterDecimal? s

/-- Whether `significand` times ten to the power `exponent` rounds to infinity. The size of the
significand tells most powers apart without computing them. -/
def isInfinite (significand : Nat) (exponent : Int) : Bool :=
  match exponent with
  | .ofNat e =>
    if significand = 0 then false
    else if 308 < e then true
    else DoubleRange.bound ≤ significand * Nat.pow 10 e
  | .negSucc e =>
    if significand.log2 < 3 * (e + 1) then false
    else DoubleRange.bound * Nat.pow 10 (e + 1) ≤ significand

/-- The digits after a point. -/
def fraction? : List Char → Option (List Char × List Char)
  | '.' :: s => digits? (·.isDigit) s
  | _ => none

/-- The exponent after its mark. -/
def exponent? : List Char → Option (Int × List Char)
  | [] => none
  | c :: s =>
    if c = 'e' ∨ c = 'E' then do
      let (negative, s) := afterSign s
      let (digits, rest) ← digits? (·.isDigit) s
      let n : Int := digitsValue 10 digits
      some (if negative then -n else n, rest)
    else none

/-- The text after infinity or a number that is none. -/
def afterSpecial? (s : List Char) : Option (List Char) :=
  let s := (afterSign s).2
  if "inf".toList.isPrefixOf s ∨ "nan".toList.isPrefixOf s then some (s.drop 3) else none

/-- The text after a number with a fraction, an exponent or both. -/
def afterFinite? (s : List Char) : Option (List Char) := do
  let (negative, s) := afterSign s
  let (whole, s) ← wholeDigits? s
  let (decimals, power, rest) ←
    match fraction? s with
    | some (decimals, s) =>
      match exponent? s with
      | some (power, rest) => some (decimals, power, rest)
      | none => some (decimals, 0, s)
    | none => (exponent? s).map ([], ·)
  if !negative && isInfinite (digitsValue 10 (whole ++ decimals)) (power - decimals.length) then
    none
  else some rest

def afterFloat? (s : List Char) : Option (List Char) := afterFinite? s <|> afterSpecial? s

/-- A number of two digits within bounds, and the text after it. -/
def twoDigits? (least most : Nat) : List Char → Option (Nat × List Char)
  | a :: b :: s =>
    let n := digitsValue 10 [a, b]
    if a.isDigit ∧ b.isDigit ∧ least ≤ n ∧ n ≤ most then some (n, s) else none
  | _ => none

def afterChar? (c : Char) : List Char → Option (List Char)
  | [] => none
  | x :: s => if x = c then some s else none

/-- The text after a day. -/
def afterDate? (s : List Char) : Option (List Char) := do
  let year := s.take 4
  if year.length < 4 ∨ !year.all (·.isDigit) then none
  else
    let s ← afterChar? '-' (s.drop 4)
    let (month, s) ← twoDigits? 1 12 s
    let s ← afterChar? '-' s
    let (day, s) ← twoDigits? 1 31 s
    let _ ← Date.of? (digitsValue 10 year) month day
    some s

/-- The text after hours and minutes. -/
def afterMinutes? (s : List Char) : Option (List Char) := do
  let (_, s) ← twoDigits? 0 23 s
  let s ← afterChar? ':' s
  (twoDigits? 0 59 s).map (·.2)

/-- The text after a time of day. -/
def afterTime? (s : List Char) : Option (List Char) := do
  let s ← afterMinutes? s
  let s ← afterChar? ':' s
  let (_, s) ← twoDigits? 0 60 s
  match s with
  | '.' :: t => if t.head?.any (·.isDigit) then some (t.dropWhile (·.isDigit)) else some s
  | _ => some s

/-- The text after the distance to universal time, if there is one. -/
def afterOffset (s : List Char) : List Char :=
  match s with
  | [] => []
  | c :: rest =>
    if c = 'Z' ∨ c = 'z' then rest
    else if c = '+' ∨ c = '-' then (afterMinutes? rest).getD s
    else s

/-- The text after the time of a date, if there is one. -/
def afterTimeOfDate (s : List Char) : List Char :=
  match s with
  | [] => []
  | c :: rest =>
    if c = 'T' ∨ c = 't' ∨ c = ' ' then ((afterTime? rest).map afterOffset).getD s else s

/-- The text after a date, a time or both. -/
def afterDateTime? (s : List Char) : Option (List Char) :=
  (afterDate? s).map afterTimeOfDate <|> afterTime? s

end Minutes.Toml
