import TreeAudit.Database.Numeral

/-!
The affinity of a column: the kind of value it prefers, as its declared type tells. Before a
comparison with a column, a value is brought closer to what the column prefers.
-/

set_option autoImplicit false
set_option relaxedAutoImplicit false

namespace TreeAudit.Database

inductive Affinity where
  /-- What is left as it is. -/
  | blob
  | text
  | numeric
  | integer
  | real
deriving DecidableEq

namespace Affinity

/-- A declared type as far as it has been read. -/
structure Reading where
  affinity : Affinity
  /-- What is behind the word that a size belongs to. -/
  sized? : Option (List Char)

/-- Whether the given characters, backwards, end with a word. -/
def endsWith (word : String) (reversed : List Char) : Bool :=
  word.toList.reverse.isPrefixOf reversed

/-- What the word that ends at a character says, `rest` being behind it. -/
def Reading.step (reading : Reading) (reversed rest : List Char) : Reading :=
  if endsWith "char" reversed then ⟨text, some rest⟩
  else if endsWith "clob" reversed || endsWith "text" reversed then
    { reading with affinity := text }
  else if endsWith "blob" reversed && (reading.affinity = numeric || reading.affinity = real) then
    ⟨blob, if rest.head? = some '(' then some rest else reading.sized?⟩
  else if (endsWith "real" reversed || endsWith "floa" reversed || endsWith "doub" reversed) &&
      reading.affinity = numeric then
    { reading with affinity := real }
  else reading

/-- Reads a type to its end, or up to a word that settles it. -/
def readFrom (reading : Reading) (reversed : List Char) : List Char → Reading
  | [] => reading
  | c :: rest =>
    let reversed := c.toLower :: reversed
    if endsWith "int" reversed then { reading with affinity := integer }
    else readFrom (reading.step reversed rest) reversed rest

/-- The affinity of a type. -/
def ofType (type : List Char) : Affinity := (readFrom ⟨numeric, none⟩ [] type).affinity

/-- The size that is expected of a value of some type, that of a number being one. -/
def sizeOfType (type : List Char) : Nat :=
  let reading := readFrom ⟨numeric, none⟩ [] type
  let length := match reading.affinity, reading.sized? with
    | text, some rest | blob, some rest =>
      let digits := (rest.dropWhile fun c ↦ !c.isDigit).takeWhile Char.isDigit
      let length := digits.foldl (fun value c ↦ 10 * value + Numeral.digitValue c) 0
      if length < 0x80000000 then length else 0
    | text, none | blob, none => 16
    | _, _ => 0
  min 255 (length / 4 + 1)

def isNumeric : Affinity → Bool
  | blob | text => false
  | numeric | integer | real => true

/-- A text as a number, if it is one. -/
def toNumber : Value → Value
  | .text bytes => (Numeral.number? bytes).getD (.text bytes)
  | value => value

/-- A real number as a whole one, if it is one. -/
def toInteger : Value → Value
  | .real x => (Numeral.exactInteger? x).elim (.real x) .integer
  | value => value

/-- A value as a column keeps it. -/
def keep (affinity : Affinity) (value : Value) : Value :=
  match affinity with
  | blob => value
  | text => Numeral.toText value
  | numeric | integer => toInteger (toNumber value)
  | real =>
    match toNumber value with
    | .integer n => .real (.ofInt n)
    | value => value

/-- A value as it enters a comparison with another, of which an affinity is asked. -/
def forComparison (affinity : Affinity) (value other : Value) : Value :=
  match affinity with
  | blob => value
  | text => if value.kind = .text || other.kind = .text then Numeral.toText value else value
  | numeric | integer | real => toNumber value

example : ofType "varchar(20)".toList = text := by decide +kernel
example : ofType "charint".toList = integer := by decide +kernel
example : sizeOfType "varchar(20)".toList = 6 := by decide +kernel

end Affinity

end TreeAudit.Database
