import TreeAudit.Json.Value
import Mathlib.Data.Int.Notation
import Mathlib.Data.List.Basic

/-!
JSON as its grammar has it. A value as it is written (`Written`) holds all that a text is free to
choose: the blanks between tokens, the escapes of each string and the digits of each numeral. It has
a text, how deep its lists and objects nest (`Written.nesting`), and a value where it tells of one
(`Written.value?`). The grammar allows more than tells of a value: an escape may name one half of a
surrogate pair where the other half is missing (`Spelling.chars?`), and a numeral may be too large
(`Literal.number?`).
-/

set_option autoImplicit false
set_option relaxedAutoImplicit false

namespace TreeAudit.Json

/-! ### Blanks -/

inductive Blank where
  | space
  | tab
  | lineFeed
  | carriageReturn

def Blank.char : Blank → Char
  | space => ' '
  | tab => '\t'
  | lineFeed => '\n'
  | carriageReturn => '\r'

/-- The blanks between two tokens. -/
abbrev Gap := List Blank

def Gap.text (gap : Gap) : List Char := gap.map Blank.char

/-! ### Strings -/

/-- The escapes by one letter. -/
inductive Letter where
  | quotationMark
  | backslash
  | slash
  | backspace
  | formFeed
  | lineFeed
  | carriageReturn
  | tab

namespace Letter

def written : Letter → Char
  | quotationMark => '"'
  | backslash => '\\'
  | slash => '/'
  | backspace => 'b'
  | formFeed => 'f'
  | lineFeed => 'n'
  | carriageReturn => 'r'
  | tab => 't'

def meant : Letter → Char
  | quotationMark => '"'
  | backslash => '\\'
  | slash => '/'
  | backspace => '\x08'
  | formFeed => '\x0c'
  | lineFeed => '\n'
  | carriageReturn => '\r'
  | tab => '\t'

end Letter

/-- A hexadecimal digit; the letters have two forms. -/
structure HexDigit where
  value : Fin 16
  isUpper : Bool

def HexDigit.char (digit : HexDigit) : Char :=
  if digit.value < 10 then Char.ofNat (48 + digit.value)
  else if digit.isUpper then Char.ofNat (55 + digit.value)
  else Char.ofNat (87 + digit.value)

/-- What stands for itself in a string. -/
def IsPlain (c : Char) : Prop := c ≠ '"' ∧ c ≠ '\\' ∧ 32 ≤ c.toNat

instance : DecidablePred IsPlain := fun c ↦
  inferInstanceAs (Decidable (c ≠ '"' ∧ c ≠ '\\' ∧ 32 ≤ c.toNat))

/-- A character of a string as it is written, or one half of it. -/
inductive Piece where
  | plain (c : Char) (isPlain : IsPlain c)
  | letter (letter : Letter)
  | unit (a b c d : HexDigit)

namespace Piece

def text : Piece → List Char
  | plain c _ => [c]
  | letter l => ['\\', l.written]
  | unit a b c d => ['\\', 'u', a.char, b.char, c.char, d.char]

/-- The unit of UTF-16 that four digits name. -/
def unitValue (a b c d : HexDigit) : ℕ :=
  ((a.value * 16 + b.value) * 16 + c.value) * 16 + d.value

/-- The character of a piece that is not one half of a surrogate pair. -/
def alone? : Piece → Option Char
  | plain c _ => some c
  | letter l => some l.meant
  | unit a b c d =>
    if Chars.isTrailing (unitValue a b c d) ∨ Chars.isLeading (unitValue a b c d) then none
    else some (Char.ofNat (unitValue a b c d))

end Piece

/-- How the characters of a string are written. -/
abbrev Spelling := List Piece

namespace Spelling

def text (spelling : Spelling) : List Char := spelling.flatMap Piece.text

open Piece in
/-- The characters meant. A leading surrogate needs a trailing one next to it. -/
def chars? : Spelling → Option (List Char)
  | [] => some []
  | plain c _ :: rest => (chars? rest).map (c :: ·)
  | letter l :: rest => (chars? rest).map (l.meant :: ·)
  | unit a b c d :: rest =>
    if Chars.isTrailing (unitValue a b c d) then none
    else if Chars.isLeading (unitValue a b c d) then
      match rest with
      | unit a' b' c' d' :: rest =>
        if Chars.isTrailing (unitValue a' b' c' d') then
          (chars? rest).map
            (Char.ofNat (Chars.pairValue (unitValue a b c d) (unitValue a' b' c' d')) :: ·)
        else none
      | _ => none
    else (chars? rest).map (Char.ofNat (unitValue a b c d) :: ·)

def string? (spelling : Spelling) : Option String := spelling.chars?.map String.ofList

/-- Characters that are written as they are. -/
def plain (chars : List Char) (isPlain : (chars.all fun c ↦ decide (IsPlain c)) = true) :
    Spelling :=
  chars.pmap Piece.plain fun c hc ↦ of_decide_eq_true (List.all_eq_true.mp isPlain c hc)

/-- The string between its quotation marks. -/
def quoted (spelling : Spelling) : List Char := '"' :: (spelling.text ++ ['"'])

end Spelling

/-! ### Numerals -/

/-- A run of digits that is not empty. -/
structure Digits where
  first : Fin 10
  rest : List (Fin 10)

namespace Digits

def toList (digits : Digits) : List (Fin 10) := digits.first :: digits.rest

def char (digit : Fin 10) : Char := Char.ofNat (48 + digit)

def text (digits : List (Fin 10)) : List Char := digits.map char

/-- The number that digits append to one before them. -/
def extend (value : ℕ) (digits : List (Fin 10)) : ℕ :=
  digits.foldl (fun value (digit : Fin 10) ↦ value * 10 + digit) value

/-- The same as long as it fits a word, and how many digits that takes. -/
def fit (value : ℕ) : List (Fin 10) → ℕ × ℕ
  | [] => (value, 0)
  | digit :: rest =>
    if value * 10 + digit < Numeral.wordBound then
      let fitted := fit (value * 10 + digit) rest
      (fitted.1, fitted.2 + 1)
    else (value, 0)

end Digits

inductive Sign where
  | plus
  | minus
deriving DecidableEq

def Sign.char : Sign → Char
  | plus => '+'
  | minus => '-'

structure Exponent where
  isUpper : Bool
  sign : Option Sign
  digits : Digits

namespace Exponent

def text (exponent : Exponent) : List Char :=
  (if exponent.isUpper then 'E' else 'e') ::
    ((exponent.sign.map Sign.char).toList ++ Digits.text exponent.digits.toList)

def value (exponent : Exponent) : ℕ := Digits.extend 0 exponent.digits.toList

end Exponent

/-- A numeral as it is written. A zero in front is not followed by other digits. -/
structure Literal where
  isNegative : Bool
  whole : Digits
  fraction : Option Digits
  exponent : Option Exponent
  rest_eq_nil : whole.first = 0 → whole.rest = []

namespace Literal

def fractionText (fraction : Option Digits) : List Char :=
  fraction.elim [] fun digits ↦ '.' :: Digits.text digits.toList

def exponentText (exponent : Option Exponent) : List Char := exponent.elim [] Exponent.text

def text (literal : Literal) : List Char :=
  (if literal.isNegative then ['-'] else []) ++
    (Digits.text literal.whole.toList ++
      (fractionText literal.fraction ++ exponentText literal.exponent))

/-- A whole number that fits a word. -/
def integer (isNegative : Bool) (n : ℕ) : Number :=
  if isNegative then
    if n = 0 ∨ Numeral.wordBound < 2 * n then .float true (.ofNat n) else .negative n
  else .unsigned n

/-- The number `significand * 10 ^ shift`, if it is not too large. -/
def float? (isNegative : Bool) (significand : ℕ) (shift : ℤ) : Option Number :=
  (Numeral.ofParts? significand shift).map (Number.float isNegative)

/-- The same moved by an exponent. If the exponent itself is too large, the number is zero or too
large as well. -/
def scaled? (isNegative : Bool) (significand : ℕ) (shift : ℤ) (exponent : Option Exponent) :
    Option Number :=
  exponent.elim (float? isNegative significand shift) fun exponent ↦
    if exponent.value < Numeral.exponentBound then
      float? isNegative significand
        (if exponent.sign = some .minus then shift - exponent.value else shift + exponent.value)
    else if significand ≠ 0 ∧ exponent.sign ≠ some .minus then none
    else some (.float isNegative .zero)

/-- The number meant, if it is not too large. The digits that fit a word make up the significand. -/
def number? (literal : Literal) : Option Number :=
  let whole := Digits.fit 0 literal.whole.toList
  let dropped := literal.whole.toList.length - whole.2
  if dropped = 0 ∧ literal.fraction.isNone ∧ literal.exponent.isNone then
    some (integer literal.isNegative whole.1)
  else
    let fitted := Digits.fit whole.1 (literal.fraction.elim [] Digits.toList)
    scaled? literal.isNegative fitted.1 (dropped - fitted.2) literal.exponent

end Literal

/-! ### Values -/

/-- The name of a member with its colon and the blanks around it. -/
structure Label where
  before : Gap
  name : Spelling
  beforeColon : Gap
  afterColon : Gap

def Label.text (label : Label) : List Char :=
  label.before.text ++
    (label.name.quoted ++ (label.beforeColon.text ++ ':' :: label.afterColon.text))

mutual

/-- A value as it is written. -/
inductive Written where
  | null
  | bool (b : Bool)
  | number (literal : Literal)
  | string (spelling : Spelling)
  | list (items : WrittenItems)
  | object (members : WrittenMembers)

/-- The items of a list with the blanks around them. -/
inductive WrittenItems where
  | nil (gap : Gap)
  | cons (before : Gap) (value : Written) (after : Gap) (rest : WrittenItems)

/-- The members of an object with the blanks around them. -/
inductive WrittenMembers where
  | nil (gap : Gap)
  | cons (label : Label) (value : Written) (after : Gap) (rest : WrittenMembers)

end

/-- The comma in front of a part that is not the first. -/
def comma (first : Bool) : List Char := if first then [] else [',']

@[simp]
theorem comma_true : comma true = [] := rfl

@[simp]
theorem comma_false : comma false = [','] := rfl

mutual

def Written.text : Written → List Char
  | .null => ['n', 'u', 'l', 'l']
  | .bool b => if b then ['t', 'r', 'u', 'e'] else ['f', 'a', 'l', 's', 'e']
  | .number literal => literal.text
  | .string spelling => spelling.quoted
  | .list items => '[' :: items.text true
  | .object members => '\x7b' :: members.text true

/-- The items up to and with the closing bracket. -/
def WrittenItems.text (first : Bool) : WrittenItems → List Char
  | .nil gap => gap.text ++ [']']
  | .cons before value after rest =>
    comma first ++ (before.text ++ (value.text ++ (after.text ++ rest.text false)))

/-- The members up to and with the closing bracket. -/
def WrittenMembers.text (first : Bool) : WrittenMembers → List Char
  | .nil gap => gap.text ++ ['\x7d']
  | .cons label value after rest =>
    comma first ++ (label.text ++ (value.text ++ (after.text ++ rest.text false)))

end

mutual

/-- How many lists and objects are around the innermost value. -/
def Written.nesting : Written → ℕ
  | .null | .bool _ | .number _ | .string _ => 0
  | .list items => items.nesting + 1
  | .object members => members.nesting + 1

def WrittenItems.nesting : WrittenItems → ℕ
  | .nil _ => 0
  | .cons _ value _ rest => max value.nesting rest.nesting

def WrittenMembers.nesting : WrittenMembers → ℕ
  | .nil _ => 0
  | .cons _ value _ rest => max value.nesting rest.nesting

end

mutual

/-- The value meant, if every string and numeral in it tells of one. -/
def Written.value? : Written → Option Value
  | .null => some .null
  | .bool b => some (.bool b)
  | .number literal => literal.number?.map .number
  | .string spelling => spelling.string?.map .string
  | .list items => items.values?.map .list
  | .object members => members.values?.map .object

def WrittenItems.values? : WrittenItems → Option (List Value)
  | .nil _ => some []
  | .cons _ value _ rest => value.value?.bind fun v ↦ rest.values?.map (v :: ·)

def WrittenMembers.values? : WrittenMembers → Option (List (String × Value))
  | .nil _ => some []
  | .cons label value _ rest =>
    label.name.string?.bind fun name ↦ value.value?.bind fun v ↦ rest.values?.map ((name, v) :: ·)

end

/-- The members by name, if every name tells of one. -/
def WrittenMembers.named? : WrittenMembers → Option (List (String × Written))
  | .nil _ => some []
  | .cons label value _ rest =>
    label.name.string?.bind fun name ↦ rest.named?.map ((name, value) :: ·)

end TreeAudit.Json
