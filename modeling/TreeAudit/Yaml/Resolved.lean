import TreeAudit.Numeric.Decimal
import TreeAudit.Text.Escaped
import TreeAudit.Text.Unsigned
import TreeAudit.Yaml.Document

/-!
What a scalar stands for. A plain scalar may be nothing, a truth value or a number; a
number of digits only that begins with a zero is a text. A tag may ask for one of
these, and a quoted scalar without such a tag is a text.
-/

set_option autoImplicit false
set_option relaxedAutoImplicit false

namespace TreeAudit.Yaml

/-- Values of scalars. Whole numbers of more than a machine word are told apart. -/
inductive Resolved where
  | null
  | bool (b : Bool)
  | unsigned (n : Nat)
  | negative (n : Nat)
  | wideUnsigned (n : Nat)
  | wideNegative (n : Nat)
  | float (minus : Bool) (magnitude : Binary64)
  | text (text : List Char)
deriving DecidableEq

namespace Resolved

open Text.Unsigned (digit?)

def isNull (text : List Char) : Bool :=
  ["null", "Null", "NULL", "~"].any fun word ↦ text = word.toList

def bool? (text : List Char) : Option Bool :=
  if ["true", "True", "TRUE"].any fun word ↦ text = word.toList then some true
  else if ["false", "False", "FALSE"].any fun word ↦ text = word.toList then some false
  else none

def dropPlus : List Char → List Char
  | '+' :: rest => rest
  | unsignedText => unsignedText

/-- Whether all characters are digits, with a zero before others. -/
def hasLeadingZero (text : List Char) : Bool :=
  let digits := match text with
    | '-' :: rest => rest
    | other => dropPlus other
  match digits with
  | '0' :: c :: rest => (c :: rest).all Char.isDigit
  | _ => false

/-- The value of a digit in a base of at most sixteen. -/
def digitIn? (base : Nat) (c : Char) : Option Nat :=
  match Scalar.hexValue? c with
  | some value => if value < base then some value else none
  | none => none

def numberFrom? (base value : Nat) : List Char → Option Nat
  | [] => some value
  | c :: rest =>
    match digitIn? base c with
    | some digit => numberFrom? base (base * value + digit) rest
    | none => none

/-- The value of some digits, of which there has to be one. -/
def number? (base : Nat) (digits : List Char) : Option Nat :=
  if digits.isEmpty then none else numberFrom? base 0 digits

/-- The base that a text announces, and the digits after that. -/
def basedDigits? : List Char → Option (Nat × List Char)
  | '0' :: 'x' :: digits => some (16, digits)
  | '0' :: 'o' :: digits => some (8, digits)
  | '0' :: 'b' :: digits => some (2, digits)
  | _ => none

/-- The value of digits in the base they announce, or else of ten. -/
def magnitude? (text : List Char) : Option Nat :=
  match basedDigits? text with
  | some (base, digits) => number? base digits
  | none => number? 10 text

/-- A number of no sign or a plus sign, below a bound. -/
def unsigned? (bound : Nat) (text : List Char) : Option Nat :=
  if hasLeadingZero text then none
  else
    match magnitude? (dropPlus text) with
    | some n => if n < bound then some n else none
    | none => none

/-- The size of a number with a minus sign, up to a bound. -/
def negative? (bound : Nat) (text : List Char) : Option Nat :=
  if hasLeadingZero text then none
  else
    match text with
    | '-' :: rest =>
      match magnitude? rest with
      | some n => if n ≤ bound then some n else none
      | none => none
    | _ => none

def integer? (text : List Char) : Option Resolved :=
  match unsigned? 0x10000000000000000 text with
  | some n => some (unsigned n)
  | none =>
    match negative? 0x8000000000000000 text with
    | some n => some (negative n)
    | none =>
      match unsigned? (1 <<< 128) text with
      | some n => some (wideUnsigned n)
      | none => (negative? (1 <<< 127) text).map wideNegative

/-- The parts of a numeral with a point or an exponent: the digits before and after the
point, and the exponent. -/
structure Numeral where
  whole : List Char
  fraction : List Char
  exponent : Int

def exponent? : List Char → Option Int
  | [] => some 0
  | c :: rest =>
    if c = 'e' ∨ c = 'E' then
      match rest with
      | '-' :: digits => (number? 10 digits).map fun n ↦ -(n : Int)
      | digits => (number? 10 (dropPlus digits)).map fun n ↦ (n : Int)
    else none

def numeral? (text : List Char) : Option Numeral :=
  let whole := text.takeWhile Char.isDigit
  let rest := text.drop whole.length
  let (fraction, rest) := match rest with
    | '.' :: after =>
      let fraction := after.takeWhile Char.isDigit
      (fraction, after.drop fraction.length)
    | other => ([], other)
  if whole.isEmpty && fraction.isEmpty then none
  else (exponent? rest).map fun exponent ↦ ⟨whole, fraction, exponent⟩

/-- Exponents beyond this decide the value on their own. -/
def farExponent : Nat := 400

/-- The value of a numeral, unless it is too large. -/
def Numeral.value? (numeral : Numeral) : Option Binary64 :=
  let digits := numeral.whole ++ numeral.fraction
  let significand := (numberFrom? 10 0 digits).getD 0
  let exponent := numeral.exponent - numeral.fraction.length
  let value : Binary64 :=
    if significand = 0 ∨ exponent + digits.length < -farExponent then .zero
    else if farExponent < exponent then .infinite
    else .ofRatio (significand * Nat.pow 10 exponent.toNat) (Nat.pow 10 (-exponent).toNat)
  if value = .infinite then none else some value

def special? (text : List Char) : Option Resolved :=
  if [".inf", ".Inf", ".INF"].any fun word ↦ dropPlus text = word.toList then
    some (float false .infinite)
  else if ["-.inf", "-.Inf", "-.INF"].any fun word ↦ text = word.toList then
    some (float true .infinite)
  else if [".nan", ".NaN", ".NAN"].any fun word ↦ text = word.toList then
    some (float false .nan)
  else none

def float? (text : List Char) : Option Resolved :=
  match special? text with
  | some value => some value
  | none =>
    match text with
    | '-' :: rest => ((numeral? rest).bind Numeral.value?).map (float true)
    | other => ((numeral? (dropPlus other)).bind Numeral.value?).map (float false)

/-- What a plain scalar without a tag stands for. -/
def ofPlain (scalar : List Char) : Resolved :=
  if scalar.isEmpty || isNull scalar then null
  else
    match bool? scalar with
    | some b => bool b
    | none =>
      match integer? scalar with
      | some value => value
      | none =>
        if hasLeadingZero scalar then text scalar else (float? scalar).getD (text scalar)

/-- The name of a value's type and the value, as messages give them. -/
def describe : Resolved → String
  | null => "unit value"
  | bool b => "boolean `" ++ (if b then "true" else "false") ++ "`"
  | unsigned n => "integer `" ++ toString n ++ "`"
  | negative n => "integer `" ++ (if n = 0 then "" else "-") ++ toString n ++ "`"
  | wideUnsigned n => "integer `" ++ toString n ++ "` as u128"
  | wideNegative n => "integer `-" ++ toString n ++ "` as i128"
  | float minus magnitude =>
    "floating point `" ++ (if minus then "-" else "") ++
      Numeric.Decimal.positionalText magnitude ++ "`"
  | text t => "string " ++ Text.Escaped.quote (String.ofList t)

end Resolved

/-- The tags that ask for a type of scalars. -/
inductive ScalarTag where
  | null
  | bool
  | integer
  | float
deriving DecidableEq

namespace ScalarTag

def ofTag? (tag : List Char) : Option ScalarTag :=
  if tag = "tag:yaml.org,2002:null".toList then some null
  else if tag = "tag:yaml.org,2002:bool".toList then some bool
  else if tag = "tag:yaml.org,2002:int".toList then some integer
  else if tag = "tag:yaml.org,2002:float".toList then some float
  else none

/-- What a scalar with the tag stands for, if it can. -/
def read? (tag : ScalarTag) (text : List Char) : Option Resolved :=
  match tag with
  | null => if Resolved.isNull text then some .null else none
  | bool => (Resolved.bool? text).map .bool
  | integer => Resolved.integer? text
  | float => Resolved.float? text

def wanted : ScalarTag → String
  | null => "null"
  | bool => "a boolean"
  | integer => "an integer"
  | float => "a float"

end ScalarTag

/-- How a scalar is described that was not expected: as a value of another type, or as
one that does not fit its own tag. -/
inductive Mismatch where
  | type (found : String)
  | value (found wanted : String)
deriving DecidableEq

namespace Mismatch

def ofResolved (value : Resolved) : Mismatch := type value.describe

def ofScalar (tag : Option (List Char)) (text : List Char) (style : ScalarStyle) : Mismatch :=
  match tag with
  | none => ofResolved (if style = .plain then .ofPlain text else .text text)
  | some tag =>
    match ScalarTag.ofTag? tag with
    | some scalarTag =>
      match scalarTag.read? text with
      | some resolved => ofResolved resolved
      | none => value (Resolved.text text).describe scalarTag.wanted
    | none =>
      ofResolved
        (if tag.head? = some '!' && style = .plain then .ofPlain text else .text text)

/-- The message where `expected` was expected. -/
def message (expected : String) : Mismatch → String
  | type found => "invalid type: " ++ found ++ ", expected " ++ expected
  | value found wanted => "invalid value: " ++ found ++ ", expected " ++ wanted

end Mismatch

end TreeAudit.Yaml
