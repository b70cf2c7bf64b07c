import TreeAudit.Database.Encoding
import TreeAudit.Database.Fault
import TreeAudit.Numeric.SignedBinary64

/-!
The values of a database and their order: nothing comes first, then the numbers, then the
texts, then the binary values. Texts are ordered by a collation, everything else by size or
by bytes.
-/

set_option autoImplicit false
set_option relaxedAutoImplicit false

namespace TreeAudit.Database

/-- A value. A text is held as UTF-8 bytes, which need not be well-formed. -/
inductive Value where
  | null
  | integer (value : Int)
  | real (value : SignedBinary64)
  | text (bytes : List UInt8)
  | blob (bytes : List UInt8)
deriving DecidableEq

/-- Ways to order texts: by the bytes in which they are stored, by letters whatever their
case, or by bytes but for spaces at the end. -/
inductive Collation where
  | binary
  | noCase
  | rightTrim
deriving DecidableEq

namespace Collation

/-- The letters of the English alphabet in small. -/
def lower (byte : UInt8) : UInt8 := if 65 ≤ byte && byte ≤ 90 then byte + 32 else byte

/-- The collation with a name in any case. -/
def named? (name : String) : Option Collation :=
  match name.toLower with
  | "binary" => some binary
  | "nocase" => some noCase
  | "rtrim" => some rightTrim
  | _ => none

def orderBytes : List UInt8 → List UInt8 → Ordering
  | [], [] => .eq
  | [], _ :: _ => .lt
  | _ :: _, [] => .gt
  | a :: as, b :: bs => (compare a.toNat b.toNat).then (orderBytes as bs)

/-- The order by letters up to the first zero byte that both have. -/
def orderLetters : List UInt8 → List UInt8 → Ordering
  | a :: as, b :: bs =>
    if lower a ≠ lower b then compare (lower a).toNat (lower b).toNat
    else if a = 0 then .eq
    else orderLetters as bs
  | _, _ => .eq

def trimRight (bytes : List UInt8) : List UInt8 :=
  (bytes.reverse.dropWhile fun byte ↦ byte = 0x20).reverse

/-- The order of two texts in a database with some encoding. -/
def order (encoding : Encoding) : Collation → List UInt8 → List UInt8 → Ordering
  | binary, a, b => orderBytes (encoding.encode a) (encoding.encode b)
  | noCase, a, b => (orderLetters a b).then (compare a.length b.length)
  | rightTrim, a, b => orderBytes (trimRight a) (trimRight b)

end Collation

namespace Value

def kind : Value → Kind
  | null => .null
  | integer _ => .integer
  | real _ => .real
  | text _ => .text
  | blob _ => .blob

def ofString (s : String) : Value := .text s.toUTF8.toList

def isNull (value : Value) : Bool := value = .null

/-- The place of a kind in the order. -/
def rank : Value → Nat
  | null => 0
  | integer _ | real _ => 1
  | text _ => 2
  | blob _ => 3

def order (encoding : Encoding) (collation : Collation) : Value → Value → Ordering
  | integer a, integer b => compare a b
  | integer a, real b => SignedBinary64.orderInt a b
  | real a, integer b => (SignedBinary64.orderInt b a).swap
  | real a, real b => SignedBinary64.order a b
  | text a, text b => collation.order encoding a b
  | blob a, blob b => Collation.orderBytes a b
  | a, b => compare a.rank b.rank

/-- The text in a column of an answer, which has to be one. -/
def asText (index : Nat) (name : String) : Value → Except Fault String
  | text bytes =>
    match Text.Utf8.decode bytes with
    | .ok s => .ok s
    | .error cause => .error (.column index (.encoding cause))
  | value => .error (.column index (.kind value.kind name))

end Value

end TreeAudit.Database
