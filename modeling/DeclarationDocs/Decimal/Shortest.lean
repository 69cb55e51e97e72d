/-!
# The shortest decimal of a floating-point number

Among the decimals that read back as a given double, the ones on the coarsest grid of powers of ten
have the fewest digits, and of those the nearest to the double is taken. Two of them can be equally
near, and then a rule for ties decides. The search works with exact integers: a finite double is
`significand · 2 ^ exponent`, and a decimal reads back as it when it lies between the midpoints to
the two neighbouring doubles.
-/

namespace DeclarationDocs

/-- The number `digits · 10 ^ exponent`. -/
structure Decimal where
  digits : Nat
  exponent : Int
deriving DecidableEq, Inhabited

namespace Decimal

/-- Which of two equally near decimals is taken. -/
inductive Ties where
  /-- The one with an even last digit. -/
  | toEven
  /-- The one of greater magnitude. -/
  | awayFromZero
deriving DecidableEq

/-- The numbers that read back as a double, as fractions over one denominator. The ends belong to
the interval when `closed` is set. -/
structure Interval where
  low : Nat
  value : Nat
  high : Nat
  denominator : Nat
  closed : Bool

/-- The first bit of a significand, which is not stored; 52 bits follow it. -/
def hiddenBit : Nat := 4503599627370496

/-- The fields of a double: its significand and the exponent of two that goes with it. -/
def fields (x : Float) : Nat × Int :=
  let bits : Nat := x.toBits.toNat
  let biased : Nat := bits / hiddenBit % 2048
  let fraction : Nat := bits % hiddenBit
  if biased = 0 then (fraction, -1074) else (fraction + hiddenBit, (biased : Int) - 1075)

/-- The interval of the numbers that read back as a double. A double at a power of two has a nearer
neighbour below than above, unless it is among the smallest. -/
def Interval.ofFloat (x : Float) : Interval :=
  let (significand, exponent) := fields x
  let nearBelow := significand = hiddenBit ∧ -1074 < exponent
  let scale := Nat.pow 2 (exponent - 2).toNat
  { low := (4 * significand - if nearBelow then 1 else 2) * scale
    value := 4 * significand * scale
    high := (4 * significand + 2) * scale
    denominator := Nat.pow 2 (2 - exponent).toNat
    closed := significand % 2 = 0 }

def Interval.inUnits (interval : Interval) (k : Int) : Interval :=
  let scale := Nat.pow 10 (-k).toNat
  { interval with
    low := interval.low * scale
    value := interval.value * scale
    high := interval.high * scale
    denominator := interval.denominator * Nat.pow 10 k.toNat }

def Interval.contains (interval : Interval) (n : Nat) : Bool :=
  let scaled := n * interval.denominator
  if interval.closed then interval.low ≤ scaled && scaled ≤ interval.high
  else interval.low < scaled && scaled < interval.high

/-- The whole number in the interval that is nearest to its value. -/
def Interval.nearest? (ties : Ties) (interval : Interval) : Option Nat :=
  let below := interval.value / interval.denominator
  let rest := 2 * (interval.value % interval.denominator)
  match interval.contains below, interval.contains (below + 1) with
  | true, true =>
    let tieGoesDown := ties = .toEven ∧ below % 2 = 0
    if rest < interval.denominator ∨ (rest = interval.denominator ∧ tieGoesDown) then some below
    else some (below + 1)
  | true, false => some below
  | false, true => some (below + 1)
  | false, false => none

/-- The exponents of ten at which a double can have its last digit, coarsest first. -/
def gridExponents : List Int := (List.range 650).map fun (i : Nat) => 309 - (i : Int)

/-- The shortest decimal of the magnitude of a finite double; zero for zero. -/
def shortest (ties : Ties) (x : Float) : Decimal :=
  let interval := Interval.ofFloat x
  if interval.value = 0 then ⟨0, 0⟩
  else
    (gridExponents.findSome? fun k =>
      ((interval.inUnits k).nearest? ties).map fun digits => ⟨digits, k⟩).getD ⟨0, 0⟩

end Decimal

end DeclarationDocs
