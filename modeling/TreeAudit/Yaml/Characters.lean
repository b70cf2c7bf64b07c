import TreeAudit.Yaml.Fault

/-!
The characters of a YAML text, decoded from UTF-8. Bytes that encode nothing are a
fault of the whole text; a character cut off at the end is noticed only when the reader
comes near it.
-/

set_option autoImplicit false
set_option relaxedAutoImplicit false

namespace TreeAudit.Yaml.Characters

/-- The characters of a text, and what is wrong after them. -/
structure Decoded where
  chars : List Char
  cutOff : Option Fault

def fault (problem : String) (offset : Nat) : Fault where
  problem := problem
  mark := {}
  offset := offset

/-- The characters a text may hold. -/
def isAllowed (n : Nat) : Bool :=
  n = 0x09 || n = 0x0a || n = 0x0d || (0x20 ≤ n && n ≤ 0x7e) || n = 0x85 ||
    (0xa0 ≤ n && n ≤ 0xd7ff) || (0xe000 ≤ n && n ≤ 0xfffd) || (0x10000 ≤ n && n ≤ 0x10ffff)

def checked (offset value : Nat) : Except Fault Char :=
  if isAllowed value then .ok (.ofNat value)
  else .error (fault "control characters are not allowed" offset)

/-- The number of bytes of a character, by the first of them. -/
def width? (byte : UInt8) : Option Nat :=
  if byte < 0x80 then some 1
  else if byte &&& 0xe0 = 0xc0 then some 2
  else if byte &&& 0xf0 = 0xe0 then some 3
  else if byte &&& 0xf8 = 0xf0 then some 4
  else none

/-- What the first byte of a character adds to its value. -/
def leadBits (width : Nat) (byte : UInt8) : Nat :=
  byte.toNat % (1 <<< (if width = 1 then 7 else 7 - width))

/-- Adds the bytes after the first to the value of a character. -/
def trail (value offset : Nat) : List UInt8 → Except Fault Nat
  | [] => .ok value
  | byte :: rest =>
    if byte &&& 0xc0 = 0x80 then trail (value * 64 + byte.toNat % 64) (offset + 1) rest
    else .error (fault "invalid trailing UTF-8 octet" offset)

/-- The least value a character of some width may have. -/
def leastOfWidth : Nat → Nat
  | 2 => 0x80
  | 3 => 0x800
  | 4 => 0x10000
  | _ => 0

/-- The value of the character whose bytes are given. -/
def value8 (offset width : Nat) (first : UInt8) (others : List UInt8) : Except Fault Nat := do
  let value ← trail (leadBits width first) (offset + 1) others
  if value < leastOfWidth width then throw (fault "invalid length of a UTF-8 sequence" offset)
  if (0xd800 ≤ value && value ≤ 0xdfff) || 0x10ffff < value then
    throw (fault "invalid Unicode character" offset)
  return value

/-- Decodes UTF-8 bytes that stand after `offset` others. -/
def decode8 (offset : Nat) : (fuel : Nat) → List UInt8 → Except Fault Decoded
  | 0, _ => .ok ⟨[], none⟩
  | _, [] => .ok ⟨[], none⟩
  | fuel + 1, first :: rest =>
    match width? first with
    | none => .error (fault "invalid leading UTF-8 octet" offset)
    | some width =>
      if (rest.take (width - 1)).length + 1 < width then
        .ok ⟨[], some (fault "incomplete UTF-8 octet sequence" offset)⟩
      else do
        let value ← value8 offset width first (rest.take (width - 1))
        let c ← checked offset value
        let decoded ← decode8 (offset + width) fuel (rest.drop (width - 1))
        return { decoded with chars := c :: decoded.chars }

/-- The characters of a text. -/
def decode (bytes : List UInt8) : Except Fault Decoded := decode8 0 bytes.length bytes

end TreeAudit.Yaml.Characters
