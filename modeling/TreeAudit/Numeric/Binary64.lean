import TreeAudit.Numeric.Rounding

/-!
Non-negative binary floating point numbers of 53 significant bits. Every
operation takes the exact rational result and rounds it to the nearest value,
ties to the even significand, as IEEE 754 asks of the double format.
-/

set_option autoImplicit false
set_option relaxedAutoImplicit false

namespace TreeAudit

/-- The value `significand * 2 ^ exponent`, or one of the two values that are no
number. Rounding keeps the significand below `2 ^ 53`. -/
inductive Binary64 where
  | finite (significand : Nat) (exponent : Int)
  | infinite
  | nan
deriving DecidableEq

namespace Binary64

open Numeric.Rounding

def minExponent : Int := -1074

def maxExponent : Int := 971

def zero : Binary64 := .finite 0 minExponent

/-- Numerator and denominator of `n * 2 ^ e`. -/
def scaled (n : Nat) (e : Int) : Nat × Nat :=
  if 0 ≤ e then (n <<< e.toNat, 1) else (n, 1 <<< (-e).toNat)

/-- The exponent at which the quotient of two positive numbers has 53 bits
before the point, or the smallest exponent if that is larger. -/
def exponentOf (num den : Nat) : Int :=
  let low : Int := (num.log2 : Int) - (den.log2 : Int) - 53
  let (scale, unit) := scaled 1 low
  let e := if num * unit < (den * scale) <<< 53 then low else low + 1
  max e minExponent

/-- The value nearest to `num / den`. A quotient by zero is infinite, and of
zero by zero it is no number. -/
def ofRatio (num den : Nat) : Binary64 :=
  if den = 0 then (if num = 0 then .nan else .infinite)
  else if num = 0 then zero
  else
    let e := exponentOf num den
    let (scale, unit) := scaled 1 e
    let significand := nearestEven (num * unit) (den * scale)
    let (significand, e) :=
      if significand = 1 <<< 53 then (1 <<< 52, e + 1) else (significand, e)
    if e ≤ maxExponent then .finite significand e else .infinite

def ofNat (n : Nat) : Binary64 := ofRatio n 1

def mul : Binary64 → Binary64 → Binary64
  | .finite a e, .finite b f =>
    let (num, den) := scaled (a * b) (e + f)
    ofRatio num den
  | .nan, _ => .nan
  | _, .nan => .nan
  | .infinite, .finite b _ => if b = 0 then .nan else .infinite
  | .finite a _, .infinite => if a = 0 then .nan else .infinite
  | .infinite, .infinite => .infinite

def div : Binary64 → Binary64 → Binary64
  | .finite a e, .finite b f =>
    let (num, den) := scaled a (e - f)
    ofRatio num (den * b)
  | .nan, _ => .nan
  | _, .nan => .nan
  | .infinite, .finite _ _ => .infinite
  | .finite _ _, .infinite => zero
  | .infinite, .infinite => .nan

def add : Binary64 → Binary64 → Binary64
  | .finite a e, .finite b f =>
    let low := min e f
    let (num, den) := scaled (a <<< (e - low).toNat + b <<< (f - low).toNat) low
    ofRatio num den
  | .nan, _ => .nan
  | _, .nan => .nan
  | .infinite, _ => .infinite
  | _, .infinite => .infinite

instance : Mul Binary64 := ⟨mul⟩
instance : Div Binary64 := ⟨div⟩
instance : Add Binary64 := ⟨add⟩

/-- The smaller of a value and one; a value that is no number counts as larger. -/
def capAtOne (x : Binary64) : Binary64 :=
  match x with
  | .finite a e =>
    let (num, den) := scaled a e
    if num < den then x else ofNat 1
  | _ => ofNat 1

/-- The value counted in units of `1 / unitsPerOne`, rounded to the nearest
whole number of them. -/
def toUnits? (unitsPerOne : Nat) : Binary64 → Option Nat
  | .finite a e =>
    let (num, den) := scaled a e
    some (nearestEven (num * unitsPerOne) den)
  | _ => none

end Binary64

end TreeAudit
