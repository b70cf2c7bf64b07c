import TreeAudit.Json.Value

/-!
Passing over a JSON value that nobody asks for. Nothing is kept of it but the
brackets that are open, so there is no limit to its nesting, and numerals of any
size pass.
-/

set_option autoImplicit false
set_option relaxedAutoImplicit false

namespace TreeAudit.Json.Skip

/-- What is open around the place reached, the innermost first. -/
inductive Bracket where
  | list
  | object
deriving DecidableEq

/-- The end of a text inside a bracket. -/
def Bracket.endFault : Bracket → Fault
  | list => .endInList
  | object => .endInObject

def Bracket.partFault : Bracket → Fault
  | list => .expectedListEnd
  | object => .expectedObjectEnd

def Bracket.closing : Bracket → Char
  | list => ']'
  | object => '\x7d'

/-- The name of a member and its colon. -/
def name (cursor : Cursor) : Except Error Cursor :=
  let cursor := cursor.skipBlanks
  match cursor.rest with
  | [] => .error (cursor.ahead .endInObject)
  | '"' :: _ => do
    let cursor ← Chars.skip cursor.next
    Value.colon cursor
  | _ => .error (cursor.ahead .keyMustBeString)

/-- Up to the next part within the innermost bracket. -/
def part (bracket : Bracket) (cursor : Cursor) : Except Error Cursor :=
  match bracket with
  | .list => .ok cursor
  | .object => name cursor

mutual

/-- Past a value and then all that is open. -/
def value (steps : Nat) (opened : List Bracket) (cursor : Cursor) : Except Error Cursor :=
  match steps with
  | 0 => .error (cursor.here .endInValue)
  | steps + 1 =>
    let cursor := cursor.skipBlanks
    match cursor.rest with
    | [] => .error (cursor.ahead .endInValue)
    | c :: _ =>
      if c = 'n' then do
        afterPart steps opened (← cursor.next.word ['u', 'l', 'l'])
      else if c = 't' then do
        afterPart steps opened (← cursor.next.word ['r', 'u', 'e'])
      else if c = 'f' then do
        afterPart steps opened (← cursor.next.word ['a', 'l', 's', 'e'])
      else if c = '-' ∨ Numeral.isDigit c then do
        afterPart steps opened (← Numeral.skip cursor)
      else if c = '"' then do
        afterPart steps opened (← Chars.skip cursor.next)
      else if c = '[' then firstPart steps .list opened cursor.next
      else if c = '\x7b' then firstPart steps .object opened cursor.next
      else .error (cursor.ahead .expectedValue)

/-- After an opening bracket. -/
def firstPart (steps : Nat) (bracket : Bracket) (opened : List Bracket) (cursor : Cursor) :
    Except Error Cursor :=
  match steps with
  | 0 => .error (cursor.here .endInValue)
  | steps + 1 =>
    let cursor := cursor.skipBlanks
    match cursor.rest with
    | [] => .error (cursor.ahead bracket.endFault)
    | c :: _ =>
      if c = bracket.closing then afterPart steps opened cursor.next
      else do
        value steps (bracket :: opened) (← part bracket cursor)

/-- After a value inside the open brackets. -/
def afterPart (steps : Nat) (opened : List Bracket) (cursor : Cursor) : Except Error Cursor :=
  match steps with
  | 0 => .error (cursor.here .endInValue)
  | steps + 1 =>
    match opened with
    | [] => .ok cursor
    | bracket :: outer =>
      let cursor := cursor.skipBlanks
      match cursor.rest with
      | [] => .error (cursor.ahead bracket.endFault)
      | c :: _ =>
        if c = ',' then do
          value steps opened (← part bracket cursor.next)
        else if c = bracket.closing then afterPart steps outer cursor.next
        else .error (cursor.ahead bracket.partFault)

end

/-- Past one value. -/
def skip (cursor : Cursor) : Except Error Cursor :=
  value (3 * cursor.rest.length + 3) [] cursor

end TreeAudit.Json.Skip
