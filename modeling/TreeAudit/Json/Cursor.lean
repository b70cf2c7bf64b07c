import TreeAudit.Json.Error

/-!
Where the reading of a JSON text stands: the rest of the text and its place.
-/

set_option autoImplicit false
set_option relaxedAutoImplicit false

namespace TreeAudit.Json

namespace Place

def start : Place := ⟨1, 0⟩

/-- The place after a character. -/
def after (place : Place) (c : Char) : Place :=
  if c = '\n' then ⟨place.line + 1, 0⟩ else ⟨place.line, place.column + c.utf8Size⟩

/-- The place a number of bytes further into a text, or at its end. -/
def forward (place : Place) : (bytes : Nat) → List Char → Place
  | 0, _ => place
  | _, [] => place
  | bytes + 1, c :: rest =>
    if c.utf8Size ≤ bytes + 1 then (place.after c).forward (bytes + 1 - c.utf8Size) rest
    else ⟨place.line, place.column + bytes + 1⟩
termination_by _ rest => rest.length

end Place

structure Cursor where
  rest : List Char
  place : Place

namespace Cursor

def ofText (text : List Char) : Cursor := ⟨text, .start⟩

/-- A fault at the place reached. -/
def here (cursor : Cursor) (fault : Fault) : Error := ⟨fault, cursor.place⟩

/-- A fault found in the next byte, if there is one. -/
def ahead (cursor : Cursor) (fault : Fault) : Error :=
  ⟨fault, cursor.place.forward 1 cursor.rest⟩

/-- Past the next character, if there is one. -/
def next (cursor : Cursor) : Cursor :=
  match cursor.rest with
  | [] => cursor
  | c :: rest => ⟨rest, cursor.place.after c⟩

def isBlank (c : Char) : Bool := c = ' ' || c = '\n' || c = '\t' || c = '\r'

/-- Past the blanks. -/
def skipBlanks (cursor : Cursor) : Cursor :=
  go cursor.rest cursor.place
where
  go : List Char → Place → Cursor
    | [], place => ⟨[], place⟩
    | c :: rest, place => if isBlank c then go rest (place.after c) else ⟨c :: rest, place⟩

/-- Past the letters of a word whose first letter has been read. -/
def word (cursor : Cursor) : (letters : List Char) → Except Error Cursor
  | [] => .ok cursor
  | letter :: letters =>
    match cursor.rest with
    | [] => .error (cursor.here .endInValue)
    | c :: _ =>
      if c = letter then cursor.next.word letters else .error (cursor.ahead .expectedIdent)

end Cursor

end TreeAudit.Json
