import TreeAudit.Database.Value
import TreeAudit.Numeric.Decimal

/-!
Numbers written in texts, and the texts of numbers. A text reads as a number up to the
first character that does not fit, with spaces around it; digits beyond those that a word of
64 bits can hold count as zeros. A real number is written with fifteen significant digits,
always with a point, and with an exponent if it is far from one.
-/

set_option autoImplicit false
set_option relaxedAutoImplicit false

namespace TreeAudit.Database.Numeral

def isSpace (c : Char) : Bool := c = ' ' || ('\t' ≤ c && c ≤ '\r')

def digitValue (c : Char) : Nat := c.toNat - 48

/-- How much of a text is a number. -/
inductive Extent where
  | none
  | front
  | all
deriving DecidableEq

/-- A number read from a text. -/
structure Reading where
  negative : Bool
  /-- The digits in front of the point, and all of them. -/
  whole : List Char
  significand : Nat
  exponent : Int
  /-- Whether there is a point or an exponent. -/
  isReal : Bool
  extent : Extent

/-- As many leading digits as a word holds, as a number, and how many are left out. -/
def leading : (value : Nat) → List Char → Nat × Nat
  | value, [] => (value, 0)
  | value, c :: rest =>
    if 1844674407370955160 ≤ value then (value, rest.length + 1)
    else leading (10 * value + digitValue c) rest

/-- The digits behind the point that a word still holds, and how many they are. -/
def trailing : (value : Nat) → List Char → Nat × Nat
  | value, [] => (value, 0)
  | value, c :: rest =>
    if 1844674407370955160 ≤ value then trailing value rest
    else
      let (value, count) := trailing (10 * value + digitValue c) rest
      (value, count + 1)

def signOf : List Char → Bool × List Char
  | '-' :: rest => (true, rest)
  | '+' :: rest => (false, rest)
  | text => (false, text)

/-- The exponent at the front of a text behind its letter, which needs a digit, and the rest
of the text. -/
def exponentOf? (text : List Char) : Option (Int × List Char) :=
  let (negative, text) := signOf text
  let digits := text.takeWhile Char.isDigit
  let value : Nat := min 10000 (digits.foldl (fun value c ↦ 10 * value + digitValue c) 0)
  if digits.isEmpty then none
  else some (if negative then -value else value, text.dropWhile Char.isDigit)

/-- Reads a number from the front of a text. -/
def read (text : List Char) : Reading :=
  let (negative, text) := signOf (text.dropWhile isSpace)
  let whole := text.takeWhile Char.isDigit
  let text := text.dropWhile Char.isDigit
  let (value, dropped) := leading 0 whole
  let (hasPoint, fraction, text) := match text with
    | '.' :: rest => (true, rest.takeWhile Char.isDigit, rest.dropWhile Char.isDigit)
    | rest => (false, [], rest)
  let (significand, places) := trailing value fraction
  let hasDigits := !(whole.isEmpty && fraction.isEmpty)
  let (hasLetter, exponent?, text) := match text with
    | c :: rest =>
      if c = 'e' || c = 'E' then
        match exponentOf? rest with
        | some (exponent, rest) => (true, some exponent, rest)
        | none => (true, none, (signOf rest).2)
      else (false, some 0, text)
    | [] => (false, some 0, [])
  let extent :=
    if !hasDigits then Extent.none
    else if exponent?.isSome && (text.dropWhile isSpace).isEmpty then .all
    else if hasPoint && hasLetter || (hasPoint || hasLetter) && exponent?.isSome then .front
    else .none
  { negative, whole, significand
    exponent := dropped - places + exponent?.getD 0
    isReal := hasPoint || hasLetter
    extent }

namespace Reading

def real (reading : Reading) : SignedBinary64 :=
  SignedBinary64.ofDecimal reading.negative reading.significand reading.exponent

/-- The digits in front of the point as a whole number. -/
def integer (reading : Reading) : Int :=
  let value : Nat := reading.whole.foldl (fun value c ↦ 10 * value + digitValue c) 0
  if reading.negative then -value else value

end Reading

def leastInteger : Int := -0x8000000000000000

def greatestInteger : Int := 0x7FFFFFFFFFFFFFFF

def isInteger (n : Int) : Bool := leastInteger ≤ n && n ≤ greatestInteger

/-- The characters of a text as far as numbers are concerned. -/
def characters (bytes : List UInt8) : List Char := bytes.map fun byte ↦ Char.ofNat byte.toNat

/-- The whole number that a real number is, the two outermost ones excepted. -/
def exactInteger? (x : SignedBinary64) : Option Int :=
  x.toInt?.bind fun n ↦ if leastInteger < n && n < greatestInteger then some n else none

/-- The number that a text as a whole is: a whole number if it is written as one and fits. -/
def number? (bytes : List UInt8) : Option Value :=
  let reading := read (characters bytes)
  if reading.extent = .all then
    if !reading.isReal && isInteger reading.integer then some (.integer reading.integer)
    else some (.real reading.real)
  else none

/-- Digits without zeros at the end, but for one. -/
def trimZeros (digits : List Char) : List Char :=
  match (digits.reverse.dropWhile fun c ↦ c = '0').reverse with
  | [] => ['0']
  | digits => digits

/-- The first `count` significant digits of a positive number, a half rounding up, and how
many of them stand in front of the point. -/
def significantDigits (count significand : Nat) (exponent : Int) : List Char × Int :=
  let magnitude := Numeric.Decimal.magnitude significand exponent
  let (num, den) := Binary64.scaled significand exponent
  let shift : Int := count - magnitude
  let rounded := Numeric.Rounding.nearestUp (num * Nat.pow 10 shift.toNat)
    (den * Nat.pow 10 (-shift).toNat)
  if rounded = Nat.pow 10 count then ('1' :: List.replicate (count - 1) '0', magnitude + 1)
  else (Nat.toDigits 10 rounded, magnitude)

/-- A positive number with fifteen significant digits. -/
def positiveText (significand : Nat) (exponent : Int) : List Char :=
  let (digits, point) := significantDigits 15 significand exponent
  let power := point - 1
  if power < -4 || 15 < power then
    let size := Nat.toDigits 10 power.natAbs
    digits.take 1 ++ ['.'] ++ trimZeros (digits.drop 1) ++
      ['e', if power < 0 then '-' else '+'] ++ (if size.length < 2 then ['0'] else []) ++ size
  else if 0 < point then
    let padded := digits ++ List.replicate (point.toNat - digits.length) '0'
    padded.take point.toNat ++ ['.'] ++ trimZeros (padded.drop point.toNat)
  else ['0', '.'] ++ trimZeros (List.replicate (-point).toNat '0' ++ digits)

def realText (x : SignedBinary64) : String :=
  let sign := if x.negative then ['-'] else []
  match x.magnitude with
  | .finite 0 _ => "0.0"
  | .finite significand exponent => String.ofList (sign ++ positiveText significand exponent)
  | .infinite => String.ofList (sign ++ ['I', 'n', 'f'])
  | .nan => "NaN"

/-- A number as a text; other values are left as they are. -/
def toText : Value → Value
  | .integer n => .ofString (toString n)
  | .real x => .ofString (realText x)
  | value => value

example : number? " 12 ".toUTF8.toList = some (.integer 12) := by cbv
example : number? "1e".toUTF8.toList = none := by cbv
example : realText (.ofRatio 1 10) = "0.1" := by decide +kernel
example : realText (.ofInt 1000000000000000) = "1000000000000000.0" := by decide +kernel
example : realText (.ofDecimal true 1 20) = "-1.0e+20" := by decide +kernel

end TreeAudit.Database.Numeral
