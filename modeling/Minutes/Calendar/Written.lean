import Minutes.Text.Blank
import Minutes.Calendar.Date

/-!
The written forms of a date: forms made of parts, each of which can be read and written, and
time stamps.
-/
namespace Minutes.Calendar
open Text

/-- The parts that written dates are made of. -/
inductive Part where
  | year
  | month
  | day
  /-- The name of the month in full, of which all after three letters may be left out. -/
  | monthName
  | monthAbbreviation
  | gap
  | mark (c : Char)
  deriving DecidableEq

/-- The numbers read so far; a number that is not given counts as zero. -/
structure Reading where
  year : Int := 0
  month : Nat := 0
  day : Nat := 0

def Reading.date? (r : Reading) : Option Date := Date.of? r.year r.month r.day

def monthNames : List String :=
  ["January", "February", "March", "April", "May", "June", "July", "August", "September",
   "October", "November", "December"]

def monthName (month : Nat) : List Char := (monthNames.getD (month - 1) "").toList

/-- The first three letters of the name. -/
def monthAbbreviation (month : Nat) : List Char := (monthName month).take 3

def isDigit (c : Char) : Bool := c.isDigit

def numeral (s : List Char) : Nat := s.foldl (fun n c => 10 * n + (c.toNat - '0'.toNat)) 0

/-- A number of at least one digit and at most `most`, and the text after it. -/
def number? (most : Option Nat) (s : List Char) : Option (Nat × List Char) :=
  let run := s.takeWhile isDigit
  let shown := match most with
    | some m => run.take m
    | none => run
  if shown.isEmpty then none else some (numeral shown, s.drop shown.length)

/-- A year has any number of digits after a sign, and at most four without one. -/
def year? : List Char → Option (Int × List Char)
  | '-' :: s => (number? none s).map fun r => (-(r.1 : Int), r.2)
  | '+' :: s => (number? none s).map fun r => ((r.1 : Int), r.2)
  | s => (number? (some 4) s).map fun r => ((r.1 : Int), r.2)

/-- What follows a name at the head of a text; the case of ASCII letters does not matter. -/
def afterName? : List Char → List Char → Option (List Char)
  | [], s => some s
  | _ :: _, [] => none
  | n :: name, c :: s => if c.toLower = n.toLower then afterName? name s else none

/-- A month by the first three letters of its name. -/
def abbreviation? (s : List Char) : Option (Nat × List Char) :=
  (List.range' 1 12).findSome? fun month =>
    (afterName? (monthAbbreviation month) s).map (month, ·)

/-- A month by its name, or by the first three letters if the rest does not follow. -/
def monthName? (s : List Char) : Option (Nat × List Char) :=
  (abbreviation? s).map fun (month, rest) =>
    (month, (afterName? ((monthName month).drop 3) rest).getD rest)

/-- Reads a part at the head of a text. White space may stand before a number. -/
def Part.read (part : Part) (r : Reading) (s : List Char) : Option (Reading × List Char) :=
  match part with
  | .year => (year? (trimStart s)).map fun (n, rest) => ({ r with year := n }, rest)
  | .month => (number? (some 2) (trimStart s)).map fun (n, rest) => ({ r with month := n }, rest)
  | .day => (number? (some 2) (trimStart s)).map fun (n, rest) => ({ r with day := n }, rest)
  | .monthName => (monthName? s).map fun (n, rest) => ({ r with month := n }, rest)
  | .monthAbbreviation => (abbreviation? s).map fun (n, rest) => ({ r with month := n }, rest)
  | .gap => some (r, trimStart s)
  | .mark c =>
    match s with
    | d :: rest => if d = c then some (r, rest) else none
    | [] => none

def Part.write (d : Date) : Part → List Char
  | .year => Date.yearChars d.year
  | .month => Date.digits 2 d.month
  | .day => Date.digits 2 d.day
  | .monthName => Calendar.monthName d.month
  | .monthAbbreviation => Calendar.monthAbbreviation d.month
  | .gap => [' ']
  | .mark c => [c]

abbrev Form := List Part

def readParts : Form → Reading → List Char → Option Reading
  | [], r, [] => some r
  | [], _, _ :: _ => none
  | part :: form, r, s => do
    let (r, rest) ← part.read r s
    readParts form r rest

/-- The date that a whole text gives in a form. -/
def Form.read? (form : Form) (s : List Char) : Option Date :=
  (readParts form {} s).bind Reading.date?

def Form.write (form : Form) (d : Date) : List Char := form.flatMap (Part.write d)

/-- The forms of a date line, in the order in which they are tried. -/
def forms : List Form :=
  [[.year, .mark '-', .month, .mark '-', .day],
   [.year, .mark '/', .month, .mark '/', .day],
   [.monthName, .gap, .day, .mark ',', .gap, .year],
   [.monthAbbreviation, .gap, .day, .mark ',', .gap, .year],
   [.day, .gap, .monthName, .gap, .year]]

/-- A number of exactly `width` digits. -/
def fixed? (width : Nat) (s : List Char) : Option (Nat × List Char) :=
  let shown := s.take width
  if shown.length = width ∧ shown.all isDigit then some (numeral shown, s.drop width) else none

def mark? (c : Char) : List Char → Option (List Char)
  | d :: rest => if d = c then some rest else none
  | [] => none

/-- The fraction of a second, of any length; its value is not used. -/
def afterFraction? : List Char → Option (List Char)
  | '.' :: s => if (s.takeWhile isDigit).isEmpty then none else some (s.dropWhile isDigit)
  | s => some s

/-- The offset from universal time in minutes: a letter Z, or a sign, hours and minutes. -/
def offset? : List Char → Option (Int × List Char)
  | 'Z' :: s => some (0, s)
  | 'z' :: s => some (0, s)
  | sign :: s =>
    if sign = '+' ∨ sign = '-' ∨ sign = Char.ofNat 0x2212 then do
      let (hours, s) ← fixed? 2 s
      let (minutes, s) ← fixed? 2 (← mark? ':' s)
      if minutes ≤ 59 ∧ hours ≤ 23 then
        let offset : Int := hours * 60 + minutes
        some (if sign = '+' then offset else -offset, s)
      else none
    else none
  | [] => none

/-- A moment as a time stamp gives it: the date and time of day at a place, and how far the clock
there is ahead of universal time. The second 60 is a leap second. -/
structure Stamp where
  date : Date
  hour : Nat
  minute : Nat
  second : Nat
  offset : Int

def isSeparator (c : Char) : Bool := c == 'T' || c == 't' || c == ' '

/-- A time stamp of internet form: date, time of day with an optional fraction, and offset. -/
def Stamp.read? (s : List Char) : Option Stamp := do
  let (year, s) ← fixed? 4 s
  let (month, s) ← fixed? 2 (← mark? '-' s)
  let (day, s) ← fixed? 2 (← mark? '-' s)
  let s ← match s with
    | c :: rest => if isSeparator c then some rest else none
    | [] => none
  let (hour, s) ← fixed? 2 s
  let (minute, s) ← fixed? 2 (← mark? ':' s)
  let (second, s) ← fixed? 2 (← mark? ':' s)
  let (offset, s) ← offset? (← afterFraction? s)
  let date ← Date.of? year month day
  if s.isEmpty ∧ hour ≤ 23 ∧ minute ≤ 59 ∧ second ≤ 60 then
    some ⟨date, hour, minute, second, offset⟩
  else none

/-- The date of a date line: in the first form that fits, or that of a time stamp as written. -/
def readDate? (s : List Char) : Option Date :=
  let s := trimmed s
  (forms.findSome? (·.read? s)).or ((Stamp.read? s).map Stamp.date)

end Minutes.Calendar

namespace Minutes

def Date.read? (s : String) : Option Date := Calendar.readDate? s.toList

end Minutes
