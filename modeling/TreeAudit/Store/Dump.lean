import TreeAudit.Store.Basic
import TreeAudit.Text.Blank
import TreeAudit.Text.Lines

/-!
Document dumps: one payload per line. Lines are numbered from one as they stand
in the file. Lines of nothing but white space are passed over, and a line that
gives no document is reported by its number and does not end the scan.
-/

set_option autoImplicit false
set_option relaxedAutoImplicit false

namespace TreeAudit.Store.Dump

/-- What the line with the given number yields, if it is not blank. -/
def item? (number : Nat) (line : List UInt8) : Option Item :=
  match Text.Lines.decode? line with
  | none => some (.error (.file .invalidText))
  | some text =>
    if Text.Blank.isBlank text.toList then none
    else
      match decode none text with
      | .ok document => some (.ok document)
      | .error cause => some (.error (.protocol (.line number cause)))

def itemsFrom (number : Nat) : List (List UInt8) → List Item
  | [] => []
  | line :: rest =>
    match item? number line with
    | some item => item :: itemsFrom (number + 1) rest
    | none => itemsFrom (number + 1) rest

def items (bytes : List UInt8) : List Item := itemsFrom 1 (Text.Lines.lines bytes)

/-- The store of a dump, given the bytes of its file when the scan starts. -/
def store (bytes : Except FileError (List UInt8)) : Store where
  name := "jsonl"
  estimate := none
  scan :=
    match bytes with
    | .ok bytes => .ok (items bytes)
    | .error error => .error (.file error)

end TreeAudit.Store.Dump
