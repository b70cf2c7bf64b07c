
/-!
Texts as bytes in UTF-8. A character is a byte below 128, or a leading byte and one to
three continuation bytes; the second byte is bounded so that each character has one
spelling and surrogates have none. Bytes that are no text are told by the place where the
first fault begins and by how many bytes are at fault, or that the bytes end too early.
-/

set_option autoImplicit false
set_option relaxedAutoImplicit false

namespace TreeAudit.Text.Utf8

/-- What bytes begin with: a character, as many bytes that belong to no character, or a
character that is cut off by the end. -/
inductive Front where
  | character (c : Char) (rest : List UInt8)
  | broken (length : Nat) (rest : List UInt8)
  | cut

def isContinuation (byte : UInt8) : Bool := 0x80 ≤ byte && byte ≤ 0xBF

/-- How many bytes a character has by its leading byte; none begins with the others. -/
def width (lead : UInt8) : Nat :=
  if lead < 0x80 then 1
  else if lead < 0xC2 then 0
  else if lead < 0xE0 then 2
  else if lead < 0xF0 then 3
  else if lead < 0xF5 then 4
  else 0

/-- The least and the greatest byte that may follow a leading byte. -/
def secondBounds (lead : UInt8) : UInt8 × UInt8 :=
  if lead = 0xE0 then (0xA0, 0xBF)
  else if lead = 0xED then (0x80, 0x9F)
  else if lead = 0xF0 then (0x90, 0xBF)
  else if lead = 0xF4 then (0x80, 0x8F)
  else (0x80, 0xBF)

/-- The bits of a continuation byte behind those read before. -/
def shift (code : Nat) (byte : UInt8) : Nat := 64 * code + byte.toNat % 64

/-- Reads what is left of a character, of which `taken` bytes have been read. -/
def continued (code taken : Nat) : (left : Nat) → List UInt8 → Front
  | 0, rest => .character (Char.ofNat code) rest
  | _ + 1, [] => .cut
  | left + 1, byte :: rest =>
    if isContinuation byte then continued (shift code byte) (taken + 1) left rest
    else .broken taken (byte :: rest)

/-- What `lead :: rest` begins with. -/
def front (lead : UInt8) (rest : List UInt8) : Front :=
  match width lead with
  | 0 => .broken 1 rest
  | 1 => .character (Char.ofNat lead.toNat) rest
  | more + 2 =>
    match rest with
    | [] => .cut
    | second :: rest =>
      let (least, greatest) := secondBounds lead
      if least ≤ second && second ≤ greatest then
        continued (shift (lead.toNat % (1 <<< (5 - more))) second) 2 more rest
      else .broken 1 (second :: rest)

/-- Why bytes are no text. -/
inductive Fault where
  | broken (index length : Nat)
  | cut (index : Nat)
deriving DecidableEq

def Fault.message : Fault → String
  | broken index length =>
    "invalid utf-8 sequence of " ++ toString length ++ " bytes from index " ++ toString index
  | cut index => "incomplete utf-8 byte sequence from index " ++ toString index

/-- The characters that bytes spell, which start at `index`. Each step takes at least one
byte, so `fuel` need not be above their number. -/
def decodeFrom : (fuel index : Nat) → List UInt8 → Except Fault (List Char)
  | 0, _, _ => .ok []
  | _ + 1, _, [] => .ok []
  | fuel + 1, index, lead :: rest =>
    match front lead rest with
    | .character c rest => do
      return c :: (← decodeFrom fuel (index + (width lead)) rest)
    | .broken length _ => .error (.broken index length)
    | .cut => .error (.cut index)

def decode (bytes : List UInt8) : Except Fault String :=
  (decodeFrom bytes.length 0 bytes).map String.ofList

def replacement : Char := '\uFFFD'

def decodeLossyFrom : (fuel : Nat) → List UInt8 → List Char
  | 0, _ => []
  | _ + 1, [] => []
  | fuel + 1, lead :: rest =>
    match front lead rest with
    | .character c rest => c :: decodeLossyFrom fuel rest
    | .broken _ rest => replacement :: decodeLossyFrom fuel rest
    | .cut => [replacement]

/-- The characters that bytes spell, with one replacement character for each fault. -/
def decodeLossy (bytes : List UInt8) : List Char := decodeLossyFrom bytes.length bytes

def encode (text : List Char) : List UInt8 := (String.ofList text).toUTF8.toList

example : decode [0x61, 0xC3, 0xA9] = .ok "aé" := by cbv
example : decode [0x61, 0xFF] = .error (.broken 1 1) := by cbv
example : decode [0xE2, 0x82, 0x41] = .error (.broken 0 2) := by cbv
example : decode [0xED, 0xA0, 0x80] = .error (.broken 0 1) := by cbv
example : decode [0xF0, 0x9F, 0x98] = .error (.cut 0) := by cbv

end TreeAudit.Text.Utf8
