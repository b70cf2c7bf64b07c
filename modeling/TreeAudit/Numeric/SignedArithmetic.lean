import TreeAudit.Numeric.SignedBinary64

/-!
Arithmetic on binary floating point numbers: the exact result, rounded to the nearest
number. Where the limit of the results is no single number, there is none.
-/

set_option autoImplicit false
set_option relaxedAutoImplicit false

namespace TreeAudit.SignedBinary64

def infinity (negative : Bool) : SignedBinary64 := ⟨negative, .infinite⟩

def isZero (x : SignedBinary64) : Bool :=
  match x.ratio? with
  | some (num, _) => num = 0
  | none => false

def add? (x y : SignedBinary64) : Option SignedBinary64 :=
  match x.ratio?, y.ratio? with
  | some (a, b), some (c, d) => some (ofRatio (a * d + c * b) (b * d))
  | none, some _ => some x
  | some _, none => some y
  | none, none => if x.negative = y.negative then some x else none

def sub? (x y : SignedBinary64) : Option SignedBinary64 := x.add? y.neg

def mul? (x y : SignedBinary64) : Option SignedBinary64 :=
  match x.ratio?, y.ratio? with
  | some (a, b), some (c, d) => some (ofRatio (a * c) (b * d))
  | _, _ => if x.isZero || y.isZero then none else some (infinity (x.negative != y.negative))

/-- The quotient by a number that is not zero. -/
def div? (x y : SignedBinary64) : Option SignedBinary64 :=
  match x.ratio?, y.ratio? with
  | some (a, b), some (c, d) => some (ofRatio (a * d * c.sign) (b * c.natAbs))
  | some _, none => some (ofInt 0)
  | none, some _ => some (infinity (x.negative != y.negative))
  | none, none => none

example : (ofRatio 1 10).add? (ofRatio 2 10) = some (ofBits 0x3FD3333333333334) := by
  decide +kernel
example : (ofInt 1).div? (ofInt (-4)) = some (ofRatio (-1) 4) := by decide +kernel
example : (infinity true).add? (infinity false) = none := by decide +kernel

end TreeAudit.SignedBinary64
