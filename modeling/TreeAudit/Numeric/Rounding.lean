
/-!
Rounding a quotient of natural numbers to the nearest natural number. From the middle
it goes to the even neighbour, or up.
-/

set_option autoImplicit false
set_option relaxedAutoImplicit false

namespace TreeAudit.Numeric.Rounding

/-- The natural number nearest to `num / den`; a half goes to the even one. -/
def nearestEven (num den : Nat) : Nat :=
  let below := num / den
  let twice := 2 * (num % den)
  if den < twice ∨ (twice = den ∧ below % 2 = 1) then below + 1 else below

/-- The natural number nearest to `num / den`; a half goes up. -/
def nearestUp (num den : Nat) : Nat := (2 * num + den) / (2 * den)

end TreeAudit.Numeric.Rounding
