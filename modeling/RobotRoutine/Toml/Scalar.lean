import RobotRoutine.Number.Decimal
import RobotRoutine.Toml.Quoted
import RobotRoutine.Toml.Value

/-!
Values that stand without quotes: numbers, truth values, dates and times.

Digits may be grouped by single underscores.  A decimal integer has no leading zero; the other bases
have a letter of their own and no sign.
-/

namespace RobotRoutine.Toml

def isScalarChar (c : Char) : Bool :=
  c.isAlphanum || c == '+' || c == '-' || c == '_' || c == '.' || c == ':'

/-- Digits without the underscores between them; an underscore has a digit on either side. -/
def ungroup? (isDigit : Char → Bool) : List Char → Option (List Char)
  | [] => none
  | [c] => if isDigit c then some [c] else none
  | c :: '_' :: rest => if isDigit c then (ungroup? isDigit rest).map (c :: ·) else none
  | c :: rest => if isDigit c then (ungroup? isDigit rest).map (c :: ·) else none

/-- The digits of a whole number, which starts with a zero only if it is zero. -/
def wholeDigits? (cs : List Char) : Option (List Char) :=
  match ungroup? Char.isDigit cs with
  | some ('0' :: _ :: _) => none
  | found => found

def valueInBase (base : Nat) (digits : List Char) : Nat :=
  digits.foldl (fun value c => value * base + (hexValue? c).getD 0) 0

def based? (base : Nat) (cs : List Char) : Option Value :=
  let isDigit := fun c => match hexValue? c with
    | some n => decide (n < base)
    | none => false
  (ungroup? isDigit cs).map fun digits => .integer (valueInBase base digits)

def optionalDigits? : Option (List Char) → Option (List Char)
  | none => some []
  | some cs => ungroup? Char.isDigit cs

/-- Splits at the first character that a test picks; the rest comes without it. -/
def splitFirst (picks : Char → Bool) (cs : List Char) : List Char × Option (List Char) :=
  match cs.dropWhile fun c => !picks c with
  | [] => (cs, none)
  | _ :: rest => (cs.takeWhile fun c => !picks c, some rest)

def exponent? : Option (List Char) → Option Int
  | none => some 0
  | some cs =>
      let (negative, digits) := Number.spanSign cs
      (ungroup? Char.isDigit digits).map fun digits =>
        let value : Int := valueInBase 10 digits
        if negative then -value else value

def decimal? (negative : Bool) (cs : List Char) : Option Value := do
  let (number, exponent) := splitFirst (fun c => c == 'e' || c == 'E') cs
  let (whole, fraction) := splitFirst (fun c => c == '.') number
  let wholeDigits ← wholeDigits? whole
  let fractionDigits ← optionalDigits? fraction
  let power ← exponent? exponent
  if fraction.isNone && exponent.isNone then none
  else
    let value := Binary64.ofDecimal negative (valueInBase 10 (wholeDigits ++ fractionDigits))
      (power - fractionDigits.length)
    if value.isInfinite then some .floatBeyondRange else some (.float value)

/-- A number without its sign. -/
def unsigned? (negative : Bool) (cs : List Char) : Option Value :=
  if cs = ['i', 'n', 'f'] then some (.float (Binary64.infinity negative))
  else if cs = ['n', 'a', 'n'] then
    some (.float { Binary64.notANumber with negative })
  else
    match wholeDigits? cs with
    | some digits =>
        let value : Int := valueInBase 10 digits
        some (.integer (if negative then -value else value))
    | none => decimal? negative cs

def number? (cs : List Char) : Option Value :=
  match cs with
  | '0' :: 'x' :: rest => based? 16 rest
  | '0' :: 'o' :: rest => based? 8 rest
  | '0' :: 'b' :: rest => based? 2 rest
  | '+' :: rest => unsigned? false rest
  | '-' :: rest => unsigned? true rest
  | _ => unsigned? false cs

/-! Dates and times. -/

/-- The value of a field of exactly `width` digits, and what follows it. -/
def field? (width : Nat) (cs : List Char) : Option (Nat × List Char) :=
  if (cs.take width).length = width ∧ (cs.take width).all Char.isDigit then
    some (valueInBase 10 (cs.take width), cs.drop width)
  else none

def isLeapYear (year : Nat) : Bool :=
  (year % 4 == 0 && year % 100 != 0) || year % 400 == 0

/-- The number of days of a month; there is none beyond the twelfth. -/
def daysIn (year month : Nat) : Nat :=
  if month = 2 then if isLeapYear year then 29 else 28
  else if month = 4 ∨ month = 6 ∨ month = 9 ∨ month = 11 then 30
  else if 1 ≤ month ∧ month ≤ 12 then 31
  else 0

def afterDate? (cs : List Char) : Option (List Char) := do
  let (year, cs) ← field? 4 cs
  let '-' :: cs := cs | none
  let (month, cs) ← field? 2 cs
  let '-' :: cs := cs | none
  let (day, cs) ← field? 2 cs
  if 1 ≤ day ∧ day ≤ daysIn year month then some cs else none

def afterFraction? : List Char → Option (List Char)
  | '.' :: c :: rest => if c.isDigit then some (rest.dropWhile Char.isDigit) else none
  | '.' :: [] => none
  | cs => some cs

def afterSeconds? : List Char → Option (List Char)
  | ':' :: cs => do
      let (second, cs) ← field? 2 cs
      if second ≤ 60 then afterFraction? cs else none
  | cs => some cs

def afterMinutes? (cs : List Char) : Option (List Char) := do
  let (hour, cs) ← field? 2 cs
  let ':' :: cs := cs | none
  let (minute, cs) ← field? 2 cs
  if hour ≤ 23 ∧ minute ≤ 59 then some cs else none

def afterTime? (cs : List Char) : Option (List Char) := (afterMinutes? cs).bind afterSeconds?

def isOffset : List Char → Bool
  | [] => true
  | '+' :: cs => afterMinutes? cs == some []
  | '-' :: cs => afterMinutes? cs == some []
  | [c] => c == 'Z' || c == 'z'
  | _ => false

/-- True of a date, a time, or a date with a time that may say how far it is off. -/
def isMoment (cs : List Char) : Bool :=
  match afterDate? cs with
  | some [] => true
  | some (c :: rest) =>
      (c == 'T' || c == 't' || c == ' ') &&
        match afterTime? rest with
        | some rest => isOffset rest
        | none => false
  | none => afterTime? cs == some []

def scalar? (cs : List Char) : Option Value :=
  if cs = ['t', 'r', 'u', 'e'] then some (.boolean true)
  else if cs = ['f', 'a', 'l', 's', 'e'] then some (.boolean false)
  else if isMoment cs then some .moment
  else number? cs

/-- Splits off the characters of an unquoted value.  A date may go on behind a blank. -/
def spanScalar (cs : List Char) : List Char × List Char :=
  let first := cs.takeWhile isScalarChar
  match cs.dropWhile isScalarChar with
  | ' ' :: c :: rest =>
      if afterDate? first = some [] ∧ c.isDigit then
        (first ++ ' ' :: (c :: rest).takeWhile isScalarChar, (c :: rest).dropWhile isScalarChar)
      else (first, ' ' :: c :: rest)
  | rest => (first, rest)

end RobotRoutine.Toml
