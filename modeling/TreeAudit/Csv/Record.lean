/-!
Records of comma-separated values. A field is written between quotation marks
only if it holds a comma, a quotation mark or a line break, and then each of its
quotation marks is written twice. A line feed ends the record.
-/

set_option autoImplicit false
set_option relaxedAutoImplicit false

namespace TreeAudit.Csv.Record

def needsQuotes (field : List Char) : Bool :=
  field.any fun c ↦ c == ',' || c == '"' || c == '\r' || c == '\n'

def quoted (field : List Char) : List Char :=
  '"' :: (field.flatMap fun c ↦ if c = '"' then ['"', '"'] else [c]) ++ ['"']

def field (text : List Char) : List Char :=
  if needsQuotes text then quoted text else text

def encode (fields : List (List Char)) : List Char :=
  [','].intercalate (fields.map field) ++ ['\n']

/-- The text of a record. -/
def line (fields : List String) : String :=
  String.ofList (encode (fields.map String.toList))

end TreeAudit.Csv.Record
