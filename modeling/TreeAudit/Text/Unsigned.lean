
/-!
Unsigned machine words written in decimal: an optional plus sign and at least
one ASCII digit, with a value below two to the sixty-fourth. Leading zeros are
accepted and other digit alphabets are not.
-/

set_option autoImplicit false
set_option relaxedAutoImplicit false

namespace TreeAudit.Text.Unsigned

def wordBound : Nat := 0x10000000000000000

def digit? (c : Char) : Option Nat :=
  if '0' ≤ c ∧ c ≤ '9' then some (c.toNat - '0'.toNat) else none

/-- The value of a run of digits read after `value`. -/
def digitsFrom? (value : Nat) : List Char → Option Nat
  | [] => some value
  | c :: rest =>
    match digit? c with
    | some d => digitsFrom? (10 * value + d) rest
    | none => none

/-- The value of a non-empty text of digits, however large. -/
def natural? : List Char → Option Nat
  | [] => none
  | digits => digitsFrom? 0 digits

def unsigned? (text : List Char) : Option Nat :=
  let digits := match text with
    | '+' :: rest => rest
    | other => other
  match natural? digits with
  | some value => if value < wordBound then some value else none
  | none => none

end TreeAudit.Text.Unsigned
