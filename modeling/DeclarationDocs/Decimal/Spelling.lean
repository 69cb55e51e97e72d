import DeclarationDocs.Decimal.Shortest

/-!
# Spelling floating-point numbers

A finite number is spelled with its shortest digits. A style says which of two equally near decimals
is taken, and for which exponents of the leading digit it is spelled out in full; the others take
the form `1.25e+20` or `1.25e-7`, whose exponent always has a sign. A number spelled in full has at
least one digit after the point.
-/

namespace DeclarationDocs.Decimal

/-- A way to spell numbers. -/
structure Style where
  ties : Ties
  /-- Which numbers are spelled out in full, by the exponent of their leading digit. -/
  inFull : Int → Bool

/-- Numbers with an exponent of at least -5 and at most 15 are spelled out in full, and ties go to
the even digit. -/
def Style.compact : Style := ⟨.toEven, fun exponent => -5 ≤ exponent && exponent ≤ 15⟩

/-- All numbers are spelled out in full, and ties go away from zero. -/
def Style.full : Style := ⟨.awayFromZero, fun _ => true⟩

def digitChars (n : Nat) : List Char := Nat.toDigits 10 n

def spellInFull (decimal : Decimal) : List Char :=
  let digits := digitChars decimal.digits
  let places := (-decimal.exponent).toNat
  if places = 0 then
    digits ++ List.replicate decimal.exponent.toNat '0' ++ ['.', '0']
  else
    let padded := List.replicate (places + 1 - digits.length) '0' ++ digits
    padded.take (padded.length - places) ++ '.' :: padded.drop (padded.length - places)

def leadingExponent (decimal : Decimal) : Int :=
  decimal.exponent + (digitChars decimal.digits).length - 1

/-- The decimal with one digit before the point and an exponent without leading zeros. -/
def spellWithExponent (decimal : Decimal) : List Char :=
  let exponent := decimal.leadingExponent
  let sign := if exponent < 0 then '-' else '+'
  match digitChars decimal.digits with
  | [] => []
  | leading :: rest =>
    let fraction := if rest.isEmpty then [] else '.' :: rest
    leading :: fraction ++ 'e' :: sign :: digitChars exponent.natAbs

def spell (style : Style) (x : Float) : String :=
  if x.isNaN then "NaN"
  else
    let sign := if x.toBits ≥ 0x8000000000000000 then ['-'] else []
    if x.isInf then String.ofList (sign ++ ['i', 'n', 'f'])
    else
      let decimal := shortest style.ties x
      let body :=
        if decimal.digits = 0 ∨ style.inFull decimal.leadingExponent then decimal.spellInFull
        else decimal.spellWithExponent
      String.ofList (sign ++ body)

end DeclarationDocs.Decimal
