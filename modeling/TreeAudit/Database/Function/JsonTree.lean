import TreeAudit.Database.Numeral

/-!
Trees of arrays and objects as JSON writes them. Characters stand for bytes here. Numbers
and texts are kept the way they are written, so that writing a tree that was read changes
nothing but the blanks.
-/

set_option autoImplicit false
set_option relaxedAutoImplicit false

namespace TreeAudit.Database

inductive JsonTree where
  | null
  | bool (value : Bool)
  | number (isReal : Bool) (text : List Char)
  /-- A text as it stands between its quotes. -/
  | string (written : List Char)
  | array (members : List JsonTree)
  /-- Each label as it stands between its quotes. -/
  | object (members : List (List Char × JsonTree))

namespace JsonTree

/-- A digit of base sixteen. -/
def hexDigit (n : Nat) : Char := Nat.digitChar n

/-- A character with a number of at most sixteen bits, written by that. -/
def numbered (code : Nat) : List Char :=
  ['\\', 'u', hexDigit (code / 4096 % 16), hexDigit (code / 256 % 16), hexDigit (code / 16 % 16),
    hexDigit (code % 16)]

/-- How a control character is written. -/
def control (c : Char) : List Char :=
  match c.toNat with
  | 8 => ['\\', 'b']
  | 9 => ['\\', 't']
  | 10 => ['\\', 'n']
  | 12 => ['\\', 'f']
  | 13 => ['\\', 'r']
  | code => numbered code

/-- A text as it is written between quotes. -/
def escaped (text : List Char) : List Char :=
  text.flatMap fun c ↦
    if c = '"' || c = '\\' then ['\\', c] else if c < ' ' then control c else [c]

def hexValue? (c : Char) : Option Nat :=
  if c.isDigit then some (c.toNat - 48)
  else if 'a' ≤ c.toLower && c.toLower ≤ 'f' then some (c.toLower.toNat - 87)
  else none

/-- The number in four digits of base sixteen. -/
def unit? : List Char → Option Nat
  | [a, b, c, d] => do
    return 4096 * (← hexValue? a) + 256 * (← hexValue? b) + 16 * (← hexValue? c) + (← hexValue? d)
  | _ => none

/-- A character with some number, as bytes. -/
def codeBytes (code : Nat) : List Char := Numeral.characters (Encoding.utf8Bytes code)

/-- What a letter behind a backslash stands for. -/
def meant (c : Char) : Char :=
  match c with
  | 'b' => '\x08'
  | 't' => '\t'
  | 'n' => '\n'
  | 'f' => '\x0c'
  | 'r' => '\r'
  | 'v' => '\x0b'
  | c => c

/-- The text that is written in some way between quotes. -/
def unescaped : (fuel : Nat) → List Char → List Char
  | 0, _ | _, [] => []
  | fuel + 1, '\\' :: 'u' :: rest =>
    match unit? (rest.take 4) with
    | none => unescaped fuel rest
    | some unit =>
      let rest := rest.drop 4
      match rest.take 2, unit? ((rest.drop 2).take 4) with
      | ['\\', 'u'], some second =>
        if unit / 1024 = 54 && second / 1024 = 55 then
          codeBytes (0x10000 + unit % 1024 * 1024 + second % 1024) ++
            unescaped fuel (rest.drop 6)
        else codeBytes unit ++ unescaped fuel rest
      | _, _ => codeBytes unit ++ unescaped fuel rest
  | fuel + 1, '\\' :: c :: rest => meant c :: unescaped fuel rest
  | fuel + 1, c :: rest => c :: unescaped fuel rest

/-- The text that some characters between quotes stand for. -/
def textOf (written : List Char) : List Char := unescaped written.length written

/-- A text as JSON itself writes it. The one letter behind a backslash that is not of JSON
itself comes out as the number of another character. -/
def strict : List Char → List Char
  | '\\' :: 'v' :: rest => numbered 9 ++ strict rest
  | '\\' :: c :: rest => '\\' :: c :: strict rest
  | c :: rest => c :: strict rest
  | [] => []

/-- A text in quotes. -/
def quoted (written : List Char) : List Char := '"' :: strict written ++ ['"']

mutual

/-- A tree as it is written, without blanks. -/
def render : JsonTree → List Char
  | null => "null".toList
  | bool value => (if value then "true" else "false").toList
  | number _ text => text
  | string written => quoted written
  | array members => '[' :: renderAll members ++ [']']
  | object members => '\x7b' :: renderMembers members ++ ['\x7d']

def renderAll : List JsonTree → List Char
  | [] => []
  | [member] => render member
  | member :: rest => render member ++ ',' :: renderAll rest

def renderMembers : List (List Char × JsonTree) → List Char
  | [] => []
  | [(label, value)] => quoted label ++ ':' :: render value
  | (label, value) :: rest => quoted label ++ ':' :: render value ++ ',' :: renderMembers rest

end

/-- Whether a tree has members. -/
def isBranch : JsonTree → Bool
  | array _ | object _ => true
  | _ => false

def kind : JsonTree → String
  | null => "null"
  | bool true => "true"
  | bool false => "false"
  | number false _ => "integer"
  | number true _ => "real"
  | string _ => "text"
  | array _ => "array"
  | object _ => "object"

/-- Characters that stand for bytes, as a value. -/
def toValue (text : List Char) : Value := .text (text.map fun c ↦ UInt8.ofNat c.toNat)

/-- A tree as a plain value, as far as it is one. -/
def value (tree : JsonTree) : Value :=
  match tree with
  | null => .null
  | bool value => .integer (if value then 1 else 0)
  | number isReal text =>
    let reading := Numeral.read text
    if !isReal && Numeral.isInteger reading.integer then .integer reading.integer
    else .real reading.real
  | string written => toValue (textOf written)
  | tree => toValue tree.render

example : (object [(['a'], array [null, string ['\\', 'n']])]).render =
    "\x7b\"a\":[null,\"\\n\"]\x7d".toList := by decide +kernel
example : textOf "\\u00e9\\ud83d\\ude00".toList = Numeral.characters "é😀".toUTF8.toList := by
  cbv

end JsonTree

end TreeAudit.Database
