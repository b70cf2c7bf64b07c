/-!
Sums of natural numbers. A sum is a fold, so that it means the same in every module, whatever
algebra it imports. For the same reason powers are written as `Nat.pow`, those of two as shifts.
-/

set_option autoImplicit false
set_option relaxedAutoImplicit false

namespace TreeAudit.Numeric

def total (counts : List Nat) : Nat := counts.foldr (· + ·) 0

end TreeAudit.Numeric
