import TreeAudit.Text.Utf8

/-!
The three ways in which a database keeps texts. All texts are read as UTF-8 bytes. Of the
two-byte encodings, a last odd byte is dropped, and half of a character that takes two units
is joined to whatever unit follows.
-/

set_option autoImplicit false
set_option relaxedAutoImplicit false

namespace TreeAudit.Database

inductive Encoding where
  | utf8
  | utf16 (littleEndian : Bool)
deriving DecidableEq

namespace Encoding

/-- The encoding with the given number in the header of a database. -/
def ofNumber (number : Nat) : Encoding :=
  match number % 4 with
  | 2 => .utf16 true
  | 3 => .utf16 false
  | _ => .utf8

/-- The units of two bytes each. -/
def units (littleEndian : Bool) : List UInt8 → List Nat
  | a :: b :: rest =>
    (if littleEndian then a.toNat + 256 * b.toNat else 256 * a.toNat + b.toNat) ::
      units littleEndian rest
  | _ => []

/-- The bytes of one unit. -/
def unitBytes (littleEndian : Bool) (unit : Nat) : List UInt8 :=
  let low := UInt8.ofNat (unit % 256)
  let high := UInt8.ofNat (unit / 256)
  if littleEndian then [low, high] else [high, low]

def isSurrogate (unit : Nat) : Bool := 0xD800 ≤ unit && unit < 0xE000

/-- The code that two units stand for together. -/
def joined (first second : Nat) : Nat :=
  second % 0x400 + (first % 0x40) * 0x400 + (first / 0x40 % 0x10 + 1) * 0x10000

def codes : List Nat → List Nat
  | first :: second :: rest =>
    if isSurrogate first then joined first second :: codes rest
    else first :: codes (second :: rest)
  | units => units

/-- The bytes of a code in UTF-8, half of a character being written like a character. -/
def utf8Bytes (code : Nat) : List UInt8 :=
  let tail (unit : Nat) := UInt8.ofNat (0x80 + code / unit % 0x40)
  if code < 0x80 then [UInt8.ofNat code]
  else if code < 0x800 then [UInt8.ofNat (0xC0 + code / 0x40), tail 1]
  else if code < 0x10000 then [UInt8.ofNat (0xE0 + code / 0x1000), tail 0x40, tail 1]
  else [UInt8.ofNat (0xF0 + code / 0x40000), tail 0x1000, tail 0x40, tail 1]

/-- The text in stored bytes, as UTF-8 bytes. -/
def decode : Encoding → List UInt8 → List UInt8
  | utf8, bytes => bytes
  | utf16 littleEndian, bytes => (codes (units littleEndian bytes)).flatMap utf8Bytes

def codeUnits (c : Char) : List Nat :=
  if c.toNat < 0x10000 then [c.toNat]
  else [0xD800 + (c.toNat - 0x10000) / 0x400, 0xDC00 + (c.toNat - 0x10000) % 0x400]

/-- The bytes in which a text is stored. -/
def encode : Encoding → List UInt8 → List UInt8
  | utf8, bytes => bytes
  | utf16 littleEndian, bytes =>
    ((Text.Utf8.decodeLossy bytes).flatMap codeUnits).flatMap (unitBytes littleEndian)

example : decode (.utf16 true) [0x3D, 0xD8, 0x00, 0xDE] = "😀".toUTF8.toList := by cbv
example : encode (.utf16 false) "é😀".toUTF8.toList = [0, 0xE9, 0xD8, 0x3D, 0xDE, 0] := by cbv

end Encoding

end TreeAudit.Database
