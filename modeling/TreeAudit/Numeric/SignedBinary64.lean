import TreeAudit.Numeric.Binary64

/-!
Binary floating point numbers with a sign: their bits as IEEE 754 lays them out, their
order, and the rational number that a finite one is. The two zeros are equal in the order.
-/

set_option autoImplicit false
set_option relaxedAutoImplicit false

namespace TreeAudit

structure SignedBinary64 where
  negative : Bool
  magnitude : Binary64
deriving DecidableEq

namespace SignedBinary64

/-- The number with the given 64 bits: a sign, eleven bits of exponent, and 52 bits of the
significand. -/
def ofBits (bits : Nat) : SignedBinary64 :=
  let fraction : Nat := bits % (1 <<< 52)
  let exponent : Nat := (bits >>> 52) % (1 <<< 11)
  let magnitude : Binary64 :=
    if exponent = 0x7FF then (if fraction = 0 then .infinite else .nan)
    else if exponent = 0 then .finite fraction Binary64.minExponent
    else .finite ((1 <<< 52) + fraction) ((exponent : Int) - 1 + Binary64.minExponent)
  ⟨0x8000000000000000 ≤ bits, magnitude⟩

/-- The number nearest to `num / den`. -/
def ofRatio (num : Int) (den : Nat) : SignedBinary64 :=
  ⟨num < 0, Binary64.ofRatio num.natAbs den⟩

def ofInt (n : Int) : SignedBinary64 := ofRatio n 1

/-- The number nearest to `significand * 10 ^ exponent`. -/
def ofDecimal (negative : Bool) (significand : Nat) (exponent : Int) : SignedBinary64 :=
  ⟨negative, Binary64.ofRatio (significand * Nat.pow 10 exponent.toNat)
    (Nat.pow 10 (-exponent).toNat)⟩

def neg (x : SignedBinary64) : SignedBinary64 := { x with negative := !x.negative }

/-- Numerator and denominator of a finite number. -/
def ratio? (x : SignedBinary64) : Option (Int × Nat) :=
  match x.magnitude with
  | .finite significand exponent =>
    let (num, den) := Binary64.scaled significand exponent
    some (if x.negative then -num else num, den)
  | _ => none

/-- The order of numbers. What is no number counts as infinite. -/
def order (x y : SignedBinary64) : Ordering :=
  match x.ratio?, y.ratio? with
  | some (a, b), some (c, d) => compare (a * d) (c * b)
  | none, some _ => if x.negative then .lt else .gt
  | some _, none => if y.negative then .gt else .lt
  | none, none =>
    if x.negative = y.negative then .eq else if x.negative then .lt else .gt

/-- The order of a whole number and another. -/
def orderInt (n : Int) (x : SignedBinary64) : Ordering :=
  match x.ratio? with
  | some (a, b) => compare (n * b) a
  | none => if x.negative then .gt else .lt

/-- The whole number a number is, if it is one. -/
def toInt? (x : SignedBinary64) : Option Int :=
  x.ratio?.bind fun (num, den) ↦ if num % den = 0 then some (num / den) else none

/-- The whole number next to zero from a finite number. -/
def truncate? (x : SignedBinary64) : Option Int :=
  x.ratio?.map fun (num, den) ↦ num.tdiv den

example : ofBits 0x3FF8000000000000 = ofRatio 3 2 := by decide +kernel
example : order (ofInt (-1)) (ofDecimal false 1 (-3)) = .lt := by decide +kernel
example : order (ofInt 0) (ofInt 0).neg = .eq := by decide +kernel

end SignedBinary64

end TreeAudit
