import TreeAudit.Numeric.Decimal
import TreeAudit.Text.Escaped

/-!
What can be wrong with a JSON text, and where: the line, and in it the column,
counted in bytes.
-/

set_option autoImplicit false
set_option relaxedAutoImplicit false

namespace TreeAudit.Json

/-- Numbers as their text gives them: a word without sign, a negative word, or a
floating point number. -/
inductive Number where
  | unsigned (n : Nat)
  | negative (n : Nat)
  | float (minus : Bool) (magnitude : Binary64)
deriving DecidableEq

/-- Floating point numbers in messages. -/
def messageNumber : Numeric.Decimal.Layout where
  signOfPositiveExponent := "+"
  infinite := "inf"
  nan := "NaN"

def Number.describe : Number → String
  | unsigned n => "integer `" ++ toString n ++ "`"
  | negative n => "integer `-" ++ toString n ++ "`"
  | float minus magnitude =>
    "floating point `" ++ (if minus then "-" else "") ++
      Numeric.Decimal.shortestText messageNumber magnitude ++ "`"

/-- A value found where one of another type is needed. -/
inductive Unexpected where
  | null
  | bool (b : Bool)
  | number (n : Number)
  | string (s : String)
  | sequence
  | map
deriving DecidableEq

def Unexpected.describe : Unexpected → String
  | null => "null"
  | bool b => "boolean `" ++ (if b then "true" else "false") ++ "`"
  | number n => n.describe
  | string s => "string " ++ Text.Escaped.quote s
  | sequence => "sequence"
  | map => "map"

inductive Fault where
  | expectedValue
  | expectedIdent
  | expectedColon
  | expectedListEnd
  | expectedObjectEnd
  | keyMustBeString
  | trailingCharacters
  | trailingComma
  | endInValue
  | endInList
  | endInObject
  | endInString
  | invalidNumber
  | numberOutOfRange
  | invalidEscape
  | controlCharacter
  | endOfHexEscape
  | loneSurrogate
  | recursionLimit
  | duplicateField (name : String)
  | invalidType (found : Unexpected) (expected : String)
  | invalidLength (length : Nat) (expected : String)
deriving DecidableEq

def Fault.message : Fault → String
  | expectedValue => "expected value"
  | expectedIdent => "expected ident"
  | expectedColon => "expected `:`"
  | expectedListEnd => "expected `,` or `]`"
  | expectedObjectEnd => "expected `,` or `\x7d`"
  | keyMustBeString => "key must be a string"
  | trailingCharacters => "trailing characters"
  | trailingComma => "trailing comma"
  | endInValue => "EOF while parsing a value"
  | endInList => "EOF while parsing a list"
  | endInObject => "EOF while parsing an object"
  | endInString => "EOF while parsing a string"
  | invalidNumber => "invalid number"
  | numberOutOfRange => "number out of range"
  | invalidEscape => "invalid escape"
  | controlCharacter => "control character (\\u0000-\\u001F) found while parsing a string"
  | endOfHexEscape => "unexpected end of hex escape"
  | loneSurrogate => "lone leading surrogate in hex escape"
  | recursionLimit => "recursion limit exceeded"
  | duplicateField name => "duplicate field `" ++ name ++ "`"
  | invalidType found expected =>
    "invalid type: " ++ found.describe ++ ", expected " ++ expected
  | invalidLength length expected =>
    "invalid length " ++ toString length ++ ", expected " ++ expected

/-- A place in a text: its line from one, and the bytes before it in that line. -/
structure Place where
  line : Nat
  column : Nat
deriving DecidableEq

structure Error where
  fault : Fault
  place : Place
deriving DecidableEq

def Error.message (error : Error) : String :=
  error.fault.message ++ " at line " ++ toString error.place.line ++
    " column " ++ toString error.place.column

end TreeAudit.Json
