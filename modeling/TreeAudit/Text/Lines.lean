/-!
Physical lines of a sequence of bytes. A line feed ends a line, together with a
carriage return in front of it. Bytes after the last line feed are a line of
their own; without any there is none.
-/

set_option autoImplicit false
set_option relaxedAutoImplicit false

namespace TreeAudit.Text.Lines

def lineFeed : UInt8 := 10

def carriageReturn : UInt8 := 13

/-- A terminated line without the carriage return at its end. The bytes are
given in reverse. -/
def closed (reversed : List UInt8) : List UInt8 :=
  match reversed with
  | last :: rest => if last = carriageReturn then rest.reverse else (last :: rest).reverse
  | [] => []

/-- The lines of some bytes, when the reversed bytes of a line begun earlier
stand before them. -/
def linesFrom (started : List UInt8) : List UInt8 → List (List UInt8)
  | [] => if started.isEmpty then [] else [started.reverse]
  | byte :: rest =>
    if byte = lineFeed then closed started :: linesFrom [] rest
    else linesFrom (byte :: started) rest

def lines (bytes : List UInt8) : List (List UInt8) := linesFrom [] bytes

/-- The text the bytes encode, if they are well-formed UTF-8. -/
def decode? (bytes : List UInt8) : Option String :=
  String.fromUTF8? ⟨bytes.toArray⟩

end TreeAudit.Text.Lines
