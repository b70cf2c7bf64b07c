import TreeAudit.Database.Affinity
import TreeAudit.Numeric.SignedArithmetic

/-!
What a value of one kind amounts to where another kind is asked for. Of a text, the number
at its front counts.
-/

set_option autoImplicit false
set_option relaxedAutoImplicit false

namespace TreeAudit.Database.Value

def ofBool (b : Bool) : Value := .integer (if b then 1 else 0)

/-- A real number, or nothing. -/
def ofReal? (x? : Option SignedBinary64) : Value := x?.elim .null .real

/-- A whole number, or the nearest that there is. -/
def clamped (n : Int) : Int := max Numeral.leastInteger (min Numeral.greatestInteger n)

def toReal : Value → SignedBinary64
  | .null => .ofInt 0
  | .integer n => .ofInt n
  | .real x => x
  | .text bytes | .blob bytes => (Numeral.read (Numeral.characters bytes)).real

def toInt : Value → Int
  | .null => 0
  | .integer n => n
  | .real x =>
    match x.truncate? with
    | some n => clamped n
    | none => if x.negative then Numeral.leastInteger else Numeral.greatestInteger
  | .text bytes | .blob bytes => clamped (Numeral.read (Numeral.characters bytes)).integer

/-- A value as an operand of arithmetic: a number, or nothing. -/
def toNumber : Value → Value
  | .text bytes | .blob bytes =>
    let reading := Numeral.read (Numeral.characters bytes)
    let isWhole := reading.extent = .none || reading.extent = .all && !reading.isReal
    if isWhole && Numeral.isInteger reading.integer then .integer reading.integer
    else .real reading.real
  | value => value

/-- Whether a value counts as true. Nothing counts as neither. -/
def truth? : Value → Option Bool
  | .null => none
  | .integer n => some (n ≠ 0)
  | value => some !value.toReal.isZero

def ofTruth? (truth? : Option Bool) : Value := truth?.elim .null ofBool

/-- The bytes of a value as a text. Nothing is no text. -/
def textBytes? (encoding : Encoding) : Value → Option (List UInt8)
  | .text bytes => some bytes
  | .blob bytes => some (encoding.decode bytes)
  | value =>
    match Numeral.toText value with
    | .text bytes => some bytes
    | _ => none

/-- A value whose bytes are to be read as a number: a binary one counts as a text. -/
def readable (encoding : Encoding) : Value → Value
  | .blob bytes => .text (encoding.decode bytes)
  | value => value

/-- The bytes of a value as a binary one. -/
def blobBytes (encoding : Encoding) (value : Value) : List UInt8 :=
  match value with
  | .blob bytes => bytes
  | .text bytes => encoding.encode bytes
  | value => (value.textBytes? encoding).getD []

/-- The numbers around zero of which all whole ones are exact. -/
def exactBound : Int := 0x8000000000000

/-- A text as the number at its front. -/
def castToNumber (value : Value) : Value :=
  match value with
  | .text _ | .blob _ =>
    match value.toNumber with
    | .real x =>
      match x.toInt? with
      | some n => if -exactBound ≤ n && n < exactBound then .integer n else .real x
      | none => .real x
    | number => number
  | value => value

/-- A value made one of the kind that a type with some affinity names. -/
def cast (encoding : Encoding) (affinity : Affinity) (value : Value) : Value :=
  if value.isNull then .null
  else
    match affinity with
    | .blob => .blob (value.blobBytes encoding)
    | .text => .text ((value.textBytes? encoding).getD [])
    | .numeric => (value.readable encoding).castToNumber
    | .integer => .integer (value.readable encoding).toInt
    | .real => .real (value.readable encoding).toReal

example : (Value.ofString "12abc").toNumber = .integer 12 := by decide +kernel
example : (Value.ofString "1.5x").toInt = 1 := by decide +kernel
example : (Value.ofString "2.0").cast .utf8 .numeric = .integer 2 := by decide +kernel
example : (Value.ofString "abc").truth? = some false := by decide +kernel

end TreeAudit.Database.Value
