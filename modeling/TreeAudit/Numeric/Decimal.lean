import TreeAudit.Numeric.Binary64

/-!
Decimal text of binary floating point numbers: with a fixed number of places,
rounded from the exact value, and in the fewest digits from which the same
number is read back.
-/

set_option autoImplicit false
set_option relaxedAutoImplicit false

namespace TreeAudit.Numeric

/-- The number `significand * 10 ^ exponent`. -/
structure Decimal where
  significand : Nat
  exponent : Int

namespace Decimal

open Rounding

/-- Exactly `places` digits after the point. -/
def fixed (places : Nat) (x : Binary64) : String :=
  match x.toUnits? (Nat.pow 10 places) with
  | some units =>
    let tail := toString (units % Nat.pow 10 places)
    toString (units / Nat.pow 10 places) ++ "." ++
      "".pushn '0' (places - tail.length) ++ tail
  | none => if x = .nan then "NaN" else "inf"

/-- The reals that round to one floating point number: those between two bounds,
given in quarters of the unit of its last bit, with the bounds themselves if
they belong to it. -/
structure Interval where
  low : Nat
  high : Nat
  closed : Bool

/-- The gap below a power of two is half the gap above it. -/
def interval (significand : Nat) (exponent : Int) : Interval where
  low := 4 * significand -
    (if significand = 1 <<< 52 ∧ Binary64.minExponent < exponent then 1 else 2)
  high := 4 * significand + 2
  closed := significand % 2 = 0

/-- Whether `n * 10 ^ k` lies in the interval around a number whose last bit has
the value `2 ^ exponent`. -/
def Interval.holds (bounds : Interval) (exponent : Int) (n : Nat) (k : Int) : Bool :=
  let (scale, unit) := Binary64.scaled 1 (exponent - 2)
  let value := n * Nat.pow 10 k.toNat * unit
  let ulp := Nat.pow 10 (-k).toNat * scale
  if bounds.closed then bounds.low * ulp ≤ value && value ≤ bounds.high * ulp
  else bounds.low * ulp < value && value < bounds.high * ulp

/-- Whether a quotient is below `10 ^ k`. -/
def isBelowPower (num den : Nat) (k : Int) : Bool :=
  num * Nat.pow 10 (-k).toNat < den * Nat.pow 10 k.toNat

/-- How many decimal digits stand before the point of a positive number; for a number below
one, the count of zeros after the point, negated. The number of binary digits leaves two
choices. -/
def magnitude (significand : Nat) (exponent : Int) : Int :=
  let (num, den) := Binary64.scaled significand exponent
  let low := (significand.log2 + exponent) * 30103 / 100000 + 1
  if isBelowPower num den low then low else low + 1

/-- Of the two multiples of `10 ^ k` next to the number, the nearer one that
reads back as it; `round` decides between two that are equally near. -/
def onGrid? (round : Nat → Nat → Nat) (significand : Nat) (exponent k : Int) :
    Option Decimal :=
  let bounds := interval significand exponent
  let (num, den) := Binary64.scaled significand exponent
  let num := num * Nat.pow 10 (-k).toNat
  let den := den * Nat.pow 10 k.toNat
  let below := num / den
  let nearest := round num den
  let other := if nearest = below then below + 1 else below
  if bounds.holds exponent nearest k then some ⟨nearest, k⟩
  else if bounds.holds exponent other k then some ⟨other, k⟩
  else none

/-- The first of the coarser and then ever finer decimal grids that has a
multiple reading back as the number. -/
def firstOnGrid (round : Nat → Nat → Nat) (significand : Nat) (exponent k : Int) :
    (grids : Nat) → Decimal
  | 0 => ⟨significand, exponent⟩
  | grids + 1 =>
    match onGrid? round significand exponent k with
    | some decimal => decimal
    | none => firstOnGrid round significand exponent (k - 1) grids

/-- The coarsest grid tried is that of the power of ten above the number, for a
number that reads as this power itself; seventeen digits always suffice. -/
def shortest (round : Nat → Nat → Nat) (significand : Nat) (exponent : Int) : Decimal :=
  if significand = 0 then ⟨0, 0⟩
  else firstOnGrid round significand exponent (magnitude significand exponent) 18

/-- How a format writes numbers in exponent notation and values that are none. -/
structure Layout where
  signOfPositiveExponent : String
  infinite : String
  nan : String

/-- Positional notation from the fifth place after the point up to sixteen
digits before it, always with a point; exponent notation beyond. -/
def layOut (layout : Layout) (d : Decimal) : String :=
  let digits := toString d.significand
  let point : Int := digits.length + d.exponent
  if d.significand = 0 then "0.0"
  else if 0 ≤ d.exponent ∧ point ≤ 16 then digits.pushn '0' d.exponent.toNat ++ ".0"
  else if 0 < point ∧ point ≤ 16 then
    String.ofList (digits.toList.take point.toNat) ++ "." ++
      String.ofList (digits.toList.drop point.toNat)
  else if -5 < point ∧ point ≤ 0 then "0.".pushn '0' (-point).toNat ++ digits
  else
    let exponent := point - 1
    let fraction := digits.toList.drop 1
    String.ofList (digits.toList.take 1) ++
      (if fraction.isEmpty then "" else "." ++ String.ofList fraction) ++ "e" ++
      (if exponent < 0 then "-" else layout.signOfPositiveExponent) ++ toString exponent.natAbs

/-- The shortest text of a number in a layout. Of two equally near it is the even one. -/
def shortestText (layout : Layout) : Binary64 → String
  | .finite significand exponent => (shortest nearestEven significand exponent).layOut layout
  | .infinite => layout.infinite
  | .nan => layout.nan

/-- Positional notation whatever the size, always with a point. -/
def positional (d : Decimal) : String :=
  let digits := toString d.significand
  let point : Int := digits.length + d.exponent
  if 0 ≤ d.exponent then digits.pushn '0' d.exponent.toNat ++ ".0"
  else if 0 < point then
    String.ofList (digits.toList.take point.toNat) ++ "." ++
      String.ofList (digits.toList.drop point.toNat)
  else "0.".pushn '0' (-point).toNat ++ digits

/-- The shortest digits of a number in positional notation. Of two equally near it is the
greater one. -/
def positionalText : Binary64 → String
  | .finite significand exponent => (shortest nearestUp significand exponent).positional
  | .infinite => "inf"
  | .nan => "NaN"

end Decimal

end TreeAudit.Numeric
