import Minutes.DoubleRange
import Minutes.Json.Scan

/-!
The numbers of JSON. Their values are not used, but a number that is kept must not be larger than
a floating-point number of double precision can be.
-/
namespace Minutes.Json

def digitValue (c : Char) : Nat := c.toNat - '0'.toNat

def isDigit (c : Char) : Bool := c.isDigit

/-- The largest significand of 64 bits. -/
def largestSignificand : Nat := Nat.pow 2 64 - 1

/-- A significand extended by digits as long as it fits in 64 bits, and how many it has taken. -/
def extend (significand : Nat) : List Char → Nat × Nat
  | [] => (significand, 0)
  | c :: cs =>
    let n := 10 * significand + digitValue c
    if n ≤ largestSignificand then
      let (result, taken) := extend n cs
      (result, taken + 1)
    else (significand, 0)

/-- A number rounded to 53 binary digits, a tie to the even neighbour. -/
def roundToDouble (n : Nat) : Nat :=
  let excess := n.log2 - 52
  let unit := Nat.pow 2 excess
  let q := n / unit
  let r := n % unit
  if 2 * r > unit ∨ (2 * r = unit ∧ q % 2 = 1) then (q + 1) * unit else q * unit

/-- Whether a number is out of range: `significand` times ten to the power `exponent`, computed
from the nearest double of each factor. -/
def overflows (significand : Nat) (exponent : Int) : Bool :=
  significand != 0 && decide (0 ≤ exponent) &&
    (decide (308 < exponent) ||
      decide (DoubleRange.bound ≤
        roundToDouble significand * roundToDouble (Nat.pow 10 exponent.toNat)))

/-- The digits of the integer part, which has no zero before another digit. -/
def integerDigits (s : List Char) : Except Fault (List Char × List Char) :=
  match s with
  | [] => .error .truncated
  | c :: rest =>
    if c = '0' then
      if rest.head?.any isDigit then .error .malformed else .ok ([c], rest)
    else if isDigit c then .ok (s.takeWhile isDigit, s.dropWhile isDigit)
    else .error .malformed

/-- The digits after a decimal point, if there is one. -/
def fractionDigits : List Char → Except Fault (List Char × List Char)
  | '.' :: s =>
    if (s.takeWhile isDigit).isEmpty then .error (if s.isEmpty then .truncated else .malformed)
    else .ok (s.takeWhile isDigit, s.dropWhile isDigit)
  | s => .ok ([], s)

def isExponentMark (c : Char) : Bool := c == 'e' || c == 'E'

/-- The exponent, if there is one. -/
def exponent : List Char → Except Fault (Int × List Char)
  | [] => .ok (0, [])
  | c :: s =>
    if isExponentMark c then
      let negative := s.head? == some '-'
      let s := if negative || s.head? == some '+' then s.tail else s
      if (s.takeWhile isDigit).isEmpty then .error (if s.isEmpty then .truncated else .malformed)
      else
        let n : Int := (s.takeWhile isDigit).foldl (fun n c => 10 * n + digitValue c) 0
        .ok (if negative then -n else n, s.dropWhile isDigit)
    else .ok (0, c :: s)

/-- The text after a number without its sign. -/
def unsigned (s : List Char) : Except Fault (List Char) := do
  let (whole, s) ← integerDigits s
  let (fraction, s) ← fractionDigits s
  let (power, s) ← exponent s
  let (significand, taken) := extend 0 whole
  let (significand, used) := extend significand fraction
  if overflows significand (whole.length - taken - used + power) then .error .malformed
  else .ok s

/-- The text after a number. -/
def number : List Char → Except Fault (List Char)
  | '-' :: s => unsigned s
  | s => unsigned s

/-- A fault in a number that is not kept: it is never that the text ends too early. -/
def asMalformed (r : Except Fault α) : Except Fault α := r.mapError fun _ => .malformed

/-- The text after a number that is not kept, and so may have any size. -/
def skipNumber (s : List Char) : Except Fault (List Char) := asMalformed do
  let s := match s with
    | '-' :: s => s
    | s => s
  let (_, s) ← integerDigits s
  let (_, s) ← fractionDigits s
  let (_, s) ← exponent s
  .ok s

end Minutes.Json
