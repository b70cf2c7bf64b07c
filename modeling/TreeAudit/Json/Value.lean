import TreeAudit.Json.Chars
import TreeAudit.Json.Numeral

/-!
JSON values and their reading. Lists and objects may nest to a limit. Reading
takes a character for every step, which bounds the number of steps by the length
of the text.
-/

set_option autoImplicit false
set_option relaxedAutoImplicit false

namespace TreeAudit.Json

inductive Value where
  | null
  | bool (b : Bool)
  | number (n : Number)
  | string (s : String)
  | list (items : List Value)
  | object (members : List (String × Value))

namespace Value

/-- How many lists and objects may be open at once, and one more. -/
def nestingLimit : Nat := 128

/-- What follows the opening of a list or object, or one of its parts: the
closing bracket, the next part, or a fault. -/
inductive Continuation where
  | close (cursor : Cursor)
  | part (cursor : Cursor)
  | fault (error : Error)

/-- Looks for the next item of a list; `first` before any item was read. -/
def nextItem (first : Bool) (cursor : Cursor) : Continuation :=
  let cursor := cursor.skipBlanks
  match cursor.rest with
  | [] => .fault (cursor.ahead .endInList)
  | ']' :: _ => .close cursor
  | c :: _ =>
    if first then .part cursor
    else if c = ',' then
      let cursor := cursor.next.skipBlanks
      match cursor.rest with
      | [] => .fault (cursor.ahead .endInValue)
      | ']' :: _ => .fault (cursor.ahead .trailingComma)
      | _ => .part cursor
    else .fault (cursor.ahead .expectedListEnd)

/-- Looks for the next name of an object and stops after its opening quotation
mark. -/
def nextName (first : Bool) (cursor : Cursor) : Continuation :=
  let cursor := cursor.skipBlanks
  match cursor.rest with
  | [] => .fault (cursor.ahead .endInObject)
  | '\x7d' :: _ => .close cursor
  | c :: _ =>
    if first then
      if c = '"' then .part cursor.next else .fault (cursor.ahead .keyMustBeString)
    else if c = ',' then
      let cursor := cursor.next.skipBlanks
      match cursor.rest with
      | [] => .fault (cursor.ahead .endInValue)
      | '"' :: _ => .part cursor.next
      | '\x7d' :: _ => .fault (cursor.ahead .trailingComma)
      | _ => .fault (cursor.ahead .keyMustBeString)
    else .fault (cursor.ahead .expectedObjectEnd)

/-- Past the colon between a name and its value. -/
def colon (cursor : Cursor) : Except Error Cursor :=
  let cursor := cursor.skipBlanks
  match cursor.rest with
  | [] => .error (cursor.ahead .endInObject)
  | ':' :: _ => .ok cursor.next
  | _ => .error (cursor.ahead .expectedColon)

mutual

/-- A value; `depth` is how many lists and objects may still be opened, and one
more. -/
def readWithin (steps depth : Nat) (cursor : Cursor) : Except Error (Value × Cursor) :=
  match steps with
  | 0 => .error (cursor.here .endInValue)
  | steps + 1 =>
    let cursor := cursor.skipBlanks
    match cursor.rest with
    | [] => .error (cursor.ahead .endInValue)
    | c :: _ =>
      if c = 'n' then do
        let cursor ← cursor.next.word ['u', 'l', 'l']
        .ok (.null, cursor)
      else if c = 't' then do
        let cursor ← cursor.next.word ['r', 'u', 'e']
        .ok (.bool true, cursor)
      else if c = 'f' then do
        let cursor ← cursor.next.word ['a', 'l', 's', 'e']
        .ok (.bool false, cursor)
      else if c = '-' ∨ Numeral.isDigit c then do
        let (n, cursor) ← Numeral.read cursor
        .ok (.number n, cursor)
      else if c = '"' then do
        let (text, cursor) ← Chars.read cursor.next
        .ok (.string text, cursor)
      else if c = '[' then
        if depth ≤ 1 then .error (cursor.ahead .recursionLimit)
        else do
          let (items, cursor) ← readItems steps (depth - 1) true cursor.next
          .ok (.list items, cursor)
      else if c = '\x7b' then
        if depth ≤ 1 then .error (cursor.ahead .recursionLimit)
        else do
          let (members, cursor) ← readMembers steps (depth - 1) true cursor.next
          .ok (.object members, cursor)
      else .error (cursor.ahead .expectedValue)

/-- The items of a list up to and with its closing bracket. -/
def readItems (steps depth : Nat) (first : Bool) (cursor : Cursor) :
    Except Error (List Value × Cursor) :=
  match steps with
  | 0 => .error (cursor.here .endInValue)
  | steps + 1 =>
    match nextItem first cursor with
    | .fault error => .error error
    | .close cursor => .ok ([], cursor.next)
    | .part cursor => do
      let (item, cursor) ← readWithin steps depth cursor
      let (items, cursor) ← readItems steps depth false cursor
      .ok (item :: items, cursor)

/-- The members of an object up to and with its closing bracket. -/
def readMembers (steps depth : Nat) (first : Bool) (cursor : Cursor) :
    Except Error (List (String × Value) × Cursor) :=
  match steps with
  | 0 => .error (cursor.here .endInValue)
  | steps + 1 =>
    match nextName first cursor with
    | .fault error => .error error
    | .close cursor => .ok ([], cursor.next)
    | .part cursor => do
      let (name, cursor) ← Chars.read cursor
      let cursor ← colon cursor
      let (value, cursor) ← readWithin steps depth cursor
      let (members, cursor) ← readMembers steps depth false cursor
      .ok ((name, value) :: members, cursor)

end

/-- The steps that a text can take: two for each character, and one at its end. -/
def stepsFor (cursor : Cursor) : Nat := 2 * cursor.rest.length + 2

def read (depth : Nat) (cursor : Cursor) : Except Error (Value × Cursor) :=
  readWithin (stepsFor cursor) depth cursor

end Value

/-- A value that is not of the type needed, and where this is noticed: a list or
object before its bracket, any other value after it. -/
def mismatch (expected : String) (cursor : Cursor) : Error :=
  let cursor := cursor.skipBlanks
  let found (unexpected : Unexpected) (cursor : Cursor) : Error :=
    cursor.here (.invalidType unexpected expected)
  let afterWord (letters : List Char) (unexpected : Unexpected) : Error :=
    match cursor.next.word letters with
    | .ok cursor => found unexpected cursor
    | .error error => error
  match cursor.rest with
  | [] => cursor.ahead .expectedValue
  | c :: _ =>
    if c = 'n' then afterWord ['u', 'l', 'l'] .null
    else if c = 't' then afterWord ['r', 'u', 'e'] (.bool true)
    else if c = 'f' then afterWord ['a', 'l', 's', 'e'] (.bool false)
    else if c = '-' ∨ Numeral.isDigit c then
      match Numeral.read cursor with
      | .ok (number, cursor) => found (.number number) cursor
      | .error error => error
    else if c = '"' then
      match Chars.read cursor.next with
      | .ok (text, cursor) => found (.string text) cursor
      | .error error => error
    else if c = '[' then found .sequence cursor
    else if c = '\x7b' then found .map cursor
    else cursor.ahead .expectedValue

end TreeAudit.Json
