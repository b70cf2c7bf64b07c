import TreeAudit.Json.Cursor
import TreeAudit.Numeric.Natural

/-!
Reading the characters of a JSON string, from after its opening quotation mark
to after its closing one. An escape by four hexadecimal digits names a unit of
UTF-16; the two halves of a surrogate pair have to stand next to each other.
-/

set_option autoImplicit false
set_option relaxedAutoImplicit false

namespace TreeAudit.Json.Chars

def hexValue? (c : Char) : Option Nat :=
  if '0' ≤ c ∧ c ≤ '9' then some (c.toNat - '0'.toNat)
  else if 'a' ≤ c ∧ c ≤ 'f' then some (c.toNat - 'a'.toNat + 10)
  else if 'A' ≤ c ∧ c ≤ 'F' then some (c.toNat - 'A'.toNat + 10)
  else none

def hexUnit? (a b c d : Char) : Option Nat :=
  match hexValue? a, hexValue? b, hexValue? c, hexValue? d with
  | some a, some b, some c, some d => some (((a * 16 + b) * 16 + c) * 16 + d)
  | _, _, _, _ => none

/-- The character a one-letter escape stands for. -/
def letterEscape? (c : Char) : Option Char :=
  if c = '"' ∨ c = '\\' ∨ c = '/' then some c
  else if c = 'b' then some '\x08'
  else if c = 'f' then some '\x0c'
  else if c = 'n' then some '\n'
  else if c = 'r' then some '\r'
  else if c = 't' then some '\t'
  else none

def isLeading (unit : Nat) : Bool := 0xd800 ≤ unit && unit ≤ 0xdbff

def isTrailing (unit : Nat) : Bool := 0xdc00 ≤ unit && unit ≤ 0xdfff

def pairValue (leading trailing : Nat) : Nat :=
  (leading - 0xd800) * 0x400 + (trailing - 0xdc00) + 0x10000

def byteCount (text : List Char) : Nat :=
  Numeric.total (text.map Char.utf8Size)

/-- Four bytes are taken for a hexadecimal escape, whatever they are. -/
def hexFault (place : Place) (text : List Char) : Error :=
  if byteCount text < 4 then ⟨.endInString, place.forward (byteCount text) text⟩
  else ⟨.invalidEscape, place.forward 4 text⟩

/-- What is wrong where a trailing surrogate has to follow and does not. -/
def pairFault (place : Place) : List Char → Error
  | [] => ⟨.endInString, place⟩
  | '\\' :: rest =>
    let place := place.after '\\'
    match rest with
    | [] => ⟨.endInString, place⟩
    | 'u' :: digits => hexFault (place.after 'u') digits
    | other => ⟨.endOfHexEscape, place.forward 1 other⟩
  | other => ⟨.endOfHexEscape, place.forward 1 other⟩

/-- Moves past ASCII characters that end no line. -/
def Place.across (place : Place) (count : Nat) : Place :=
  ⟨place.line, place.column + count⟩

/-- The characters read so far are in reverse order in `done`. -/
def readFrom (done : List Char) (place : Place) : List Char → Except Error (List Char × Cursor)
  | [] => .error ⟨.endInString, place⟩
  | '"' :: rest => .ok (done.reverse, ⟨rest, place.after '"'⟩)
  | '\\' :: 'u' :: a :: b :: c :: d :: rest =>
    match hexUnit? a b c d with
    | none => .error (hexFault (Place.across place 2) (a :: b :: c :: d :: rest))
    | some unit =>
      let place := Place.across place 6
      if isTrailing unit then .error ⟨.loneSurrogate, place⟩
      else if isLeading unit then
        match rest with
        | '\\' :: 'u' :: a :: b :: c :: d :: rest =>
          match hexUnit? a b c d with
          | none => .error (hexFault (Place.across place 2) (a :: b :: c :: d :: rest))
          | some second =>
            let place := Place.across place 6
            if isTrailing second then
              readFrom (Char.ofNat (pairValue unit second) :: done) place rest
            else .error ⟨.loneSurrogate, place⟩
        | other => .error (pairFault place other)
      else readFrom (Char.ofNat unit :: done) place rest
  | '\\' :: 'u' :: digits => .error (hexFault (Place.across place 2) digits)
  | '\\' :: letter :: rest =>
    match letterEscape? letter with
    | some c => readFrom (c :: done) (Place.across place 2) rest
    | none => .error ⟨.invalidEscape, (Place.across place 1).forward 1 (letter :: rest)⟩
  | ['\\'] => .error ⟨.endInString, Place.across place 1⟩
  | c :: rest =>
    if c.toNat < 32 then .error ⟨.controlCharacter, place.after c⟩
    else readFrom (c :: done) (place.after c) rest

/-- The string whose opening quotation mark has just been read. -/
def read (cursor : Cursor) : Except Error (String × Cursor) :=
  match readFrom [] cursor.place cursor.rest with
  | .ok (text, cursor) => .ok (String.ofList text, cursor)
  | .error error => .error error

/-- Passes over a string without asking what its escapes stand for. -/
def skipFrom (place : Place) : List Char → Except Error Cursor
  | [] => .error ⟨.endInString, place⟩
  | '"' :: rest => .ok ⟨rest, place.after '"'⟩
  | '\\' :: 'u' :: a :: b :: c :: d :: rest =>
    match hexUnit? a b c d with
    | none => .error (hexFault (Place.across place 2) (a :: b :: c :: d :: rest))
    | some _ => skipFrom (Place.across place 6) rest
  | '\\' :: 'u' :: digits => .error (hexFault (Place.across place 2) digits)
  | '\\' :: letter :: rest =>
    match letterEscape? letter with
    | some _ => skipFrom (Place.across place 2) rest
    | none => .error ⟨.invalidEscape, (Place.across place 1).forward 1 (letter :: rest)⟩
  | ['\\'] => .error ⟨.endInString, Place.across place 1⟩
  | c :: rest =>
    if c.toNat < 32 then .error ⟨.controlCharacter, place⟩
    else skipFrom (place.after c) rest

def skip (cursor : Cursor) : Except Error Cursor := skipFrom cursor.place cursor.rest

end TreeAudit.Json.Chars
