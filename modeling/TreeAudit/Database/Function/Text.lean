import TreeAudit.Database.Conversion

/-!
Functions on texts and binary values. A character of a text is a byte with those behind it
that continue it, so that a text need not be well-formed. Where characters are counted, a
text ends at the first zero.
-/

set_option autoImplicit false
set_option relaxedAutoImplicit false

namespace TreeAudit.Database.Function

def isContinuation (byte : UInt8) : Bool := 0x80 ≤ byte && byte < 0xC0

/-- The characters of a text. -/
def characters : List UInt8 → List (List UInt8)
  | [] => []
  | byte :: rest =>
    match characters rest with
    | (next :: more) :: others =>
      if byte ≥ 0xC0 && isContinuation next then (byte :: next :: more) :: others
      else [byte] :: (next :: more) :: others
    | others => [byte] :: others

/-- A text up to its first zero. -/
def upToZero (bytes : List UInt8) : List UInt8 := bytes.takeWhile fun byte ↦ byte ≠ 0

def upper (byte : UInt8) : UInt8 := if 97 ≤ byte && byte ≤ 122 then byte - 32 else byte

def hexDigit (n : Nat) : Char := (Nat.digitChar n).toUpper

/-- Bytes as pairs of digits of base sixteen. -/
def hex (bytes : List UInt8) : String :=
  String.ofList (bytes.flatMap fun byte ↦
    [hexDigit (byte.toNat / 16), hexDigit (byte.toNat % 16)])

/-- The bytes of pairs of digits, if there is nothing else but characters that may be
skipped between pairs. -/
def unhex? (skipped : List Char) : List Char → Option (List UInt8)
  | [] => some []
  | [c] => if skipped.contains c then some [] else none
  | a :: b :: rest =>
    if isDigit a then
      if isDigit b then (unhex? skipped rest).map (UInt8.ofNat (16 * digit a + digit b) :: ·)
      else none
    else if skipped.contains a then unhex? skipped (b :: rest)
    else none
where
  isDigit (c : Char) : Bool := c.isDigit || ('a' ≤ c.toLower && c.toLower ≤ 'f')
  digit (c : Char) : Nat := if c.isDigit then c.toNat - 48 else c.toLower.toNat - 87

/-- How many characters are in a value, or bytes if it is a binary one. -/
def length : Value → Value
  | .null => .null
  | .blob bytes => .integer bytes.length
  | .text bytes => .integer (characters (upToZero bytes)).length
  | value => .integer ((value.textBytes? .utf8).getD []).length

/-- The part of a list from a place counted from one, or from the end if it is negative, of
some length, or in front of the place if that is negative. -/
def part {α : Type} (start : Int) (length? : Option Int) (list : List α) : List α :=
  let size : Int := list.length
  let backwards := (length?.map fun length ↦ decide (length < 0)).getD false
  let length : Int := (length?.map fun length ↦ (length.natAbs : Int)).getD 1000000000
  let (start, length) :=
    if start < 0 then
      if start + size < 0 then (0, max 0 (length + start + size)) else (start + size, length)
    else if 0 < start then (start - 1, length)
    else (0, max 0 (length - 1))
  let (start, length) :=
    if backwards then
      if start < length then (0, start) else (start - length, length)
    else (start, length)
  (list.drop start.toNat).take length.toNat

/-- A number as a word of 32 bits with a sign. -/
def word (value : Value) : Int := value.toInt.bmod 0x100000000

/-- The part of a value from a place, of a length if one is given. -/
def substr (encoding : Encoding) (value start : Value) (length? : Option Value) : Value :=
  if start.isNull || (length?.map Value.isNull).getD false then .null
  else
    let length? := length?.map word
    match value with
    | .blob bytes => .blob (part (word start) length? bytes)
    | value =>
      match value.textBytes? encoding with
      | none => .null
      | some bytes => .text (part (word start) length? (characters (upToZero bytes))).flatten

/-- At which end of a text something is taken away. -/
structure Ends where
  left : Bool
  right : Bool

/-- A text without the characters at its ends that are in a set, or without spaces. -/
def trim (ends : Ends) (encoding : Encoding) (value : Value) (set? : Option Value) : Value :=
  let set? := match set? with
    | some set => (set.textBytes? encoding).map fun bytes ↦ characters (upToZero bytes)
    | none => some [[0x20]]
  match value.textBytes? encoding, set? with
  | some bytes, some set =>
    let trimmed := (characters bytes)
    let trimmed := if ends.left then trimmed.dropWhile set.contains else trimmed
    let trimmed :=
      if ends.right then (trimmed.reverse.dropWhile set.contains).reverse else trimmed
    .text trimmed.flatten
  | _, _ => .null

/-- The place of the first part of a list that is the other one, counted from one. -/
def place? {α : Type} [BEq α] (sought : List α) : List α → Option Nat
  | [] => if sought.isEmpty then some 1 else none
  | a :: rest =>
    if sought.isPrefixOf (a :: rest) then some 1 else (place? sought rest).map (· + 1)

def instr (encoding : Encoding) (value sought : Value) : Value :=
  match value, sought with
  | .blob bytes, .blob sought => .integer ((place? sought bytes).getD 0)
  | value, sought =>
    match value.textBytes? encoding, sought.textBytes? encoding with
    | some bytes, some sought =>
      .integer ((place? (characters sought) (characters bytes)).getD 0)
    | _, _ => .null

/-- A list in which every part that is the other one, found from the left, has been exchanged.
`skipped` members still belong to the part found last. -/
def exchanged {α : Type} [BEq α] (sought given : List α) : (skipped : Nat) → List α → List α
  | _, [] => []
  | skipped + 1, _ :: rest => exchanged sought given skipped rest
  | 0, a :: rest =>
    if sought.isPrefixOf (a :: rest) then given ++ exchanged sought given (sought.length - 1) rest
    else a :: exchanged sought given 0 rest

def replace (encoding : Encoding) (value sought given : Value) : Value :=
  match value.textBytes? encoding, sought.textBytes? encoding with
  | some bytes, some sought =>
    if (upToZero sought).isEmpty then value
    else
      match given.textBytes? encoding with
      | some given => .text (exchanged sought given 0 bytes)
      | none => .null
  | _, _ => .null

/-- A text between quotes, each quote in it twice. -/
def quoted (bytes : List UInt8) : List UInt8 :=
  0x27 :: (bytes.flatMap fun byte ↦ if byte = 0x27 then [byte, byte] else [byte]) ++ [0x27]

/-- A value as it is written in statements. -/
def quote : Value → Value
  | .null => .ofString "NULL"
  | .text bytes => .text (quoted (upToZero bytes))
  | .blob bytes => .ofString ("X'" ++ hex bytes ++ "'")
  | .real x =>
    match x.magnitude with
    | .infinite => .ofString (if x.negative then "-9.0e+999" else "9.0e+999")
    | _ => Numeral.toText (.real x)
  | value => Numeral.toText value

/-- The text of characters with given numbers, those that are none being the sign for a
broken one. -/
def char (values : List Value) : Value :=
  .text (values.flatMap fun value ↦
    let code := value.toInt
    Encoding.utf8Bytes (if code < 0 || 0x10FFFF < code then 0xFFFD else code.toNat))

/-- The number of the first character of a text. -/
def unicode (encoding : Encoding) (value : Value) : Value :=
  match (value.textBytes? encoding).map upToZero with
  | none | some [] => .null
  | some bytes =>
    match Text.Utf8.decodeLossy bytes with
    | c :: _ => .integer c.toNat
    | [] => .null

/-- Texts joined, with another one between those that are not empty. -/
def joined (encoding : Encoding) (between : List UInt8) (values : List Value) : Value :=
  let texts := values.filterMap (Value.textBytes? encoding)
  .text (between.intercalate (texts.filter fun bytes ↦ !bytes.isEmpty))

/-- How many bytes a value takes as it is stored, numbers being stored as texts here. -/
def octetLength (encoding : Encoding) : Value → Value
  | .null => .null
  | .blob bytes => .integer bytes.length
  | value => .integer (encoding.encode ((value.textBytes? encoding).getD [])).length

example : part 2 (some 2) [1, 2, 3, 4] = [2, 3] := by decide
example : part (-3) none [1, 2, 3, 4] = [2, 3, 4] := by decide
example : part 3 (some (-2)) [1, 2, 3, 4] = [1, 2] := by decide
example : part 0 (some 2) [1, 2, 3, 4] = [1] := by decide
example : exchanged "aa".toList "b".toList 0 "aaaac".toList = "bbc".toList := by decide +kernel
example : place? "lo".toList "hello".toList = some 4 := by decide +kernel

end TreeAudit.Database.Function
