import DeclarationDocs.Toml.Table
import DeclarationDocs.Toml.Text

/-!
# TOML numbers, truth values and date-times

Integers have 64 bits with a sign. Doubles are nearest to what is written; one too large is refused
unless it is negative, and then it is infinite. Underscores may stand between digits. Of a date-time
only its being one matters here, but its fields must be in range.
-/

namespace DeclarationDocs.Toml

namespace Scalar

/-! ## Digits -/

def digitValue (c : Char) : Nat := (Text.hexValue? c).getD 0

def ofDigits (base : Nat) (digits : List Char) : Nat :=
  digits.foldl (fun n digit => base * n + digitValue digit) 0

/-- Digits with single underscores between them, the first digit having been seen. -/
def moreDigits? (isDigit : Char → Bool) : List Char → Option (List Char × List Char)
  | '_' :: c :: rest =>
    if isDigit c then (moreDigits? isDigit rest).map (Text.lead c) else none
  | c :: rest =>
    if c = '_' then none
    else if isDigit c then (moreDigits? isDigit rest).map (Text.lead c)
    else some ([], c :: rest)
  | [] => some ([], [])

def digits? (isDigit : Char → Bool) : List Char → Option (List Char × List Char)
  | c :: rest => if isDigit c then (moreDigits? isDigit rest).map (Text.lead c) else none
  | [] => none

def isOctal (c : Char) : Bool := '0' ≤ c && c ≤ '7'

def isBinary (c : Char) : Bool := c = '0' || c = '1'

def isHex (c : Char) : Bool := (Text.hexValue? c).isSome

/-- A sign, if there is one: whether it is a minus, and what follows it. -/
def spanSign : List Char → Bool × List Char
  | '-' :: rest => (true, rest)
  | '+' :: rest => (false, rest)
  | text => (false, text)

/-! ## Integers -/

def integer? (value : Int) : Option Item :=
  if -9223372036854775808 ≤ value ∧ value ≤ 9223372036854775807 then some (.integer value)
  else none

def based? (base : Nat) (isDigit : Char → Bool) (text : List Char) :
    Option (Item × List Char) := do
  let (digits, rest) ← digits? isDigit text
  let item ← integer? (ofDigits base digits)
  return (item, rest)

def whole? : List Char → Option (List Char × List Char)
  | '0' :: rest => some (['0'], rest)
  | text => digits? Char.isDigit text

/-! ## Doubles -/

def fraction? : List Char → Option (List Char × List Char)
  | '.' :: rest => digits? Char.isDigit rest
  | text => some ([], text)

def exponent? : List Char → Option (Option Int × List Char)
  | [] => some (none, [])
  | c :: rest =>
    if c = 'e' ∨ c = 'E' then do
      let (negative, rest) := spanSign rest
      let (digits, rest) ← digits? Char.isDigit rest
      let magnitude := ofDigits 10 digits
      return (some (if negative then -(magnitude : Int) else magnitude), rest)
    else some (none, c :: rest)

/-- The double nearest to `digits · 10 ^ exponent`. Beyond 400 places from the point the nearest one
is zero or infinity, whatever the digits. -/
def nearest (digits : List Char) (exponent : Int) : Float :=
  let significand := ofDigits 10 digits
  let leading := (Nat.toDigits 10 significand).length + exponent
  if significand = 0 ∨ leading < -400 then 0
  else if 400 < leading then 1 / 0
  else Float.ofScientific significand (exponent < 0) exponent.natAbs

/-- The item a double is; only a negative one may be infinite. -/
def real? (negative : Bool) (magnitude : Float) : Option Item :=
  if negative then some (.real (-magnitude))
  else if magnitude.isInf then none
  else some (.real magnitude)

/-- A decimal number, which is an integer when it has neither point nor exponent. -/
def decimal? (negative : Bool) (text : List Char) : Option (Item × List Char) := do
  let (whole, afterWhole) ← whole? text
  let (fraction, afterFraction) ← fraction? afterWhole
  let (exponent, rest) ← exponent? afterFraction
  let item ←
    if fraction.isEmpty && exponent.isNone then
      let magnitude := ofDigits 10 whole
      integer? (if negative then -(magnitude : Int) else magnitude)
    else
      real? negative (nearest (whole ++ fraction) (exponent.getD 0 - fraction.length))
  return (item, rest)

def number? (text : List Char) : Option (Item × List Char) :=
  match text with
  | '0' :: 'x' :: rest => based? 16 isHex rest
  | '0' :: 'o' :: rest => based? 8 isOctal rest
  | '0' :: 'b' :: rest => based? 2 isBinary rest
  | text =>
    match spanSign text with
    | (true, 'i' :: 'n' :: 'f' :: rest) => some (.real (-(1 / 0)), rest)
    | (false, 'i' :: 'n' :: 'f' :: rest) => some (.real (1 / 0), rest)
    | (_, 'n' :: 'a' :: 'n' :: rest) => some (.real (0 / 0), rest)
    | (negative, rest) => decimal? negative rest

/-! ## Date-times -/

def twoDigits? (low high : Nat) : List Char → Option (Nat × List Char)
  | a :: b :: rest =>
    let value := ofDigits 10 [a, b]
    if a.isDigit && b.isDigit && low ≤ value && value ≤ high then some (value, rest) else none
  | _ => none

def expect? (c : Char) : List Char → Option (List Char)
  | d :: rest => if c = d then some rest else none
  | [] => none

def daysOf (year month : Nat) : Nat :=
  if month = 2 then
    if year % 4 = 0 ∧ (year % 100 ≠ 0 ∨ year % 400 = 0) then 29 else 28
  else if month ∈ [4, 6, 9, 11] then 30
  else 31

def date? (text : List Char) : Option (List Char) := do
  let (century, rest) ← twoDigits? 0 99 text
  let (yearOfCentury, rest) ← twoDigits? 0 99 rest
  let rest ← expect? '-' rest
  let (month, rest) ← twoDigits? 1 12 rest
  let rest ← expect? '-' rest
  let (day, rest) ← twoDigits? 1 31 rest
  guard (day ≤ daysOf (100 * century + yearOfCentury) month)
  return rest

/-- The digits of a fraction of a second, if there is one; what follows is returned. -/
def dropFraction? : List Char → Option (List Char)
  | '.' :: c :: rest => if c.isDigit then some (rest.dropWhile Char.isDigit) else none
  | '.' :: [] => none
  | text => some text

def time? (text : List Char) : Option (List Char) := do
  let (_, rest) ← twoDigits? 0 23 text
  let rest ← expect? ':' rest
  let (_, rest) ← twoDigits? 0 59 rest
  let rest ← expect? ':' rest
  let (_, rest) ← twoDigits? 0 60 rest
  dropFraction? rest

/-- The offset of a time from the universal time, if there is one; what follows is returned. -/
def dropOffset? : List Char → Option (List Char)
  | [] => some []
  | c :: rest =>
    if c = 'Z' ∨ c = 'z' then some rest
    else if c = '+' ∨ c = '-' then do
      let (_, rest) ← twoDigits? 0 23 rest
      let rest ← expect? ':' rest
      let (_, rest) ← twoDigits? 0 59 rest
      return rest
    else some (c :: rest)

/-- The time of a date, if there is one; what follows is returned. After a blank there need not be
a time. -/
def dropTime? : List Char → Option (List Char)
  | [] => some []
  | c :: rest =>
    if c = 'T' ∨ c = 't' then (time? rest).bind dropOffset?
    else if c = ' ' ∧ (time? rest).isSome then (time? rest).bind dropOffset?
    else some (c :: rest)

def startsDateTime : List Char → Bool
  | a :: b :: ':' :: _ => a.isDigit && b.isDigit
  | a :: b :: c :: d :: '-' :: _ => a.isDigit && b.isDigit && c.isDigit && d.isDigit
  | _ => false

def dateTime? (text : List Char) : Option (Item × List Char) :=
  let rest :=
    match date? text with
    | some rest => dropTime? rest
    | none => time? text
  rest.map fun rest => (.dateTime, rest)

/-! ## All of them -/

/-- The number, truth value or date-time at the start of a text. -/
def read? (text : List Char) : Option (Item × List Char) :=
  match text with
  | 't' :: 'r' :: 'u' :: 'e' :: rest => some (.boolean true, rest)
  | 'f' :: 'a' :: 'l' :: 's' :: 'e' :: rest => some (.boolean false, rest)
  | text => if startsDateTime text then dateTime? text else number? text

end Scalar

end DeclarationDocs.Toml
