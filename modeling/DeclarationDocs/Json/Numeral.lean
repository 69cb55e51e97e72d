import DeclarationDocs.Problem
import DeclarationDocs.Decimal.Spelling

/-!
# JSON numbers

A number is read as an integer when it is written without fraction and exponent and fits into 64
bits, with a sign or without; `-0` is no integer. Every other number is a double. Its digits are
gathered into a 64-bit significand, digits that no longer fit are dropped, and the significand is
then scaled by a power of ten. A number beyond the range of doubles cannot be read.
-/

namespace DeclarationDocs.Json

/-- A number in a document. -/
inductive Number where
  | integer (value : Int)
  | real (value : Float)

namespace Number

def found : Number → Found
  | integer value => .integer value
  | real value => .real (Decimal.spell .compact value)

end Number

/-- A number as it is written. -/
structure Numeral where
  negative : Bool
  whole : List Nat
  /-- The digits after the point, if there is a point. -/
  fraction : Option (List Nat)
  exponent : Option Int

namespace Numeral

/-! ## Grammar -/

def digitValue (c : Char) : Nat := c.toNat - '0'.toNat

def ofDigits (digits : List Nat) : Nat := digits.foldl (fun n digit => 10 * n + digit) 0

/-- The digits at the start of a text, and what follows them. -/
def spanDigits (text : List Char) : List Nat × List Char :=
  ((text.takeWhile Char.isDigit).map digitValue, text.dropWhile Char.isDigit)

/-- The digits at the start of a text that has to start with one. -/
def digits? (text : List Char) : Option (List Nat × List Char) :=
  if (spanDigits text).1.isEmpty then none else some (spanDigits text)

/-- The digits before the point: no zero stands before other digits. -/
def whole? (text : List Char) : Option (List Nat × List Char) :=
  (digits? text).filter fun found => found.1.head? != some 0 || found.1.length = 1

def fraction? : List Char → Option (Option (List Nat) × List Char)
  | '.' :: rest => (digits? rest).map fun found => (some found.1, found.2)
  | text => some (none, text)

def spanMinus : List Char → Bool × List Char
  | '-' :: rest => (true, rest)
  | text => (false, text)

def spanSign : List Char → Bool × List Char
  | '+' :: rest => (false, rest)
  | text => spanMinus text

def signed (negative : Bool) (magnitude : Nat) : Int :=
  if negative then -(magnitude : Int) else magnitude

def exponent? : List Char → Option (Option Int × List Char)
  | [] => some (none, [])
  | c :: rest =>
    if c = 'e' ∨ c = 'E' then
      (digits? (spanSign rest).2).map fun found =>
        (some (signed (spanSign rest).1 (ofDigits found.1)), found.2)
    else some (none, c :: rest)

def read? (text : List Char) : Option (Numeral × List Char) :=
  (whole? (spanMinus text).2).bind fun (whole, afterWhole) =>
    (fraction? afterWhole).bind fun (fraction, afterFraction) =>
      (exponent? afterFraction).map fun (exponent, rest) =>
        (⟨(spanMinus text).1, whole, fraction, exponent⟩, rest)

/-! ### What is left is shorter -/

theorem length_digits? {text : List Char} {found : List Nat × List Char}
    (done : digits? text = some found) : found.2.length < text.length := by
  unfold digits? at done
  split at done
  next => simp at done
  next notEmpty =>
    obtain rfl := Option.some.inj done
    match text with
    | [] => simp [spanDigits] at notEmpty
    | c :: tail =>
      by_cases digit : c.isDigit
      · have := (List.dropWhile_sublist Char.isDigit (l := tail)).length_le
        simp only [spanDigits, List.dropWhile_cons, digit, if_true, List.length_cons]
        omega
      · simp [spanDigits, digit] at notEmpty

theorem length_whole? {text : List Char} {found : List Nat × List Char}
    (done : whole? text = some found) : found.2.length < text.length :=
  length_digits? (Option.filter_eq_some_iff.mp done).1

theorem length_fraction? {text : List Char} {found : Option (List Nat) × List Char}
    (done : fraction? text = some found) : found.2.length ≤ text.length := by
  unfold fraction? at done
  split at done
  next tail =>
    obtain ⟨digits, read, rfl⟩ := Option.map_eq_some_iff.mp done
    have := length_digits? read
    simp only [List.length_cons]
    omega
  next =>
    obtain rfl := Option.some.inj done
    exact Nat.le_refl _

theorem length_spanMinus (text : List Char) : (spanMinus text).2.length ≤ text.length := by
  unfold spanMinus
  split <;> simp

theorem length_spanSign (text : List Char) : (spanSign text).2.length ≤ text.length := by
  unfold spanSign
  split
  · simp
  · exact length_spanMinus text

theorem length_exponent? {text : List Char} {found : Option Int × List Char}
    (done : exponent? text = some found) : found.2.length ≤ text.length := by
  unfold exponent? at done
  split at done
  next =>
    obtain rfl := Option.some.inj done
    exact Nat.le_refl _
  next c tail =>
    split at done
    next =>
      obtain ⟨digits, read, rfl⟩ := Option.map_eq_some_iff.mp done
      have := length_digits? read
      have := length_spanSign tail
      simp only [List.length_cons]
      omega
    next =>
      obtain rfl := Option.some.inj done
      exact Nat.le_refl _

/-- What is left after a number is shorter than the text it was read from. -/
theorem length_of_read? {text : List Char} {found : Numeral × List Char}
    (done : read? text = some found) : found.2.length < text.length := by
  obtain ⟨⟨_, afterWhole⟩, whole, done⟩ := Option.bind_eq_some_iff.mp done
  obtain ⟨⟨_, afterFraction⟩, fraction, done⟩ := Option.bind_eq_some_iff.mp done
  obtain ⟨⟨_, rest⟩, exponent, rfl⟩ := Option.map_eq_some_iff.mp done
  have first := length_spanMinus text
  have second := length_whole? whole
  have third := length_fraction? fraction
  have fourth := length_exponent? exponent
  simp only at *
  omega

/-! ## Value -/

/-- Append digits to a significand as long as it stays below `2 ^ 64`; the digits left over are
returned. -/
def gather (significand : Nat) : List Nat → Nat × List Nat
  | [] => (significand, [])
  | digit :: rest =>
    if 10 * significand + digit < 18446744073709551616 then gather (10 * significand + digit) rest
    else (significand, digit :: rest)

def powerOfTen (n : Nat) : Float := Float.ofScientific 1 false n

/-- The largest power of ten by which a significand is scaled in one step. -/
def largestStep : Nat := 308

/-- Scale a significand by a power of ten. A negative power is applied in steps, of which three
leave nothing of any significand. -/
def scale? (significand : Nat) (exponent : Int) : Option Float :=
  let start : Float := significand.toUInt64.toFloat
  if significand = 0 then some start
  else if 0 ≤ exponent then
    if largestStep < exponent.toNat then none
    else
      let scaled := start * powerOfTen exponent.toNat
      if scaled.isInf then none else some scaled
  else
    let places := exponent.natAbs
    let steps := (places - 1) / largestStep
    let stepped := (List.replicate (min steps 3) (powerOfTen largestStep)).foldl (· / ·) start
    some (stepped / powerOfTen (places - steps * largestStep))

/-- The integer a number is, when it is written as one and fits. -/
def integer? (negative : Bool) (magnitude : Nat) : Option Int :=
  if negative then
    if magnitude = 0 ∨ 9223372036854775808 < magnitude then none else some (-(magnitude : Int))
  else some magnitude

/-- The value of a number; none when it is beyond the range of doubles. -/
def value? (numeral : Numeral) : Option Number :=
  let (wholePart, dropped) := gather 0 numeral.whole
  let real (significand : Nat) (exponent : Int) : Option Number :=
    (scale? significand exponent).map fun magnitude =>
      .real (if numeral.negative then -magnitude else magnitude)
  match numeral.fraction, numeral.exponent, dropped with
  | none, none, [] =>
    match integer? numeral.negative wholePart with
    | some value => some (.integer value)
    | none => real wholePart 0
  | fraction, exponent, dropped =>
    let digits := fraction.getD []
    let (significand, ignored) := gather wholePart digits
    let places : Int := (dropped.length : Int) - (digits.length - ignored.length : Nat)
    real significand (places + exponent.getD 0)

end Numeral

end DeclarationDocs.Json
