import TreeAudit.Database.Function.Application
import TreeAudit.Database.Statement.Meaning

/-!
The values of expressions. Where something is compared with a column, it is brought closer
to what the column prefers, and texts are ordered as the column says, unless the expression
says otherwise. What is compared with nothing is neither true nor false.
-/

set_option autoImplicit false
set_option relaxedAutoImplicit false

namespace TreeAudit.Database

open Statement (Expression UnaryOperator BinaryOperator truth?)

/-- What an expression is evaluated with: the columns of a row. -/
structure Scope where
  encoding : Encoding
  table : Table
  column : Nat → Except Fault Value

namespace Evaluation

/-- What a whole number is that is written with digits. -/
def wholeNumber (isNegative : Bool) (text : List Char) : Value :=
  match text with
  | '0' :: 'x' :: digits | '0' :: 'X' :: digits =>
    let value := digits.foldl (fun value c ↦ 16 * value + (JsonTree.hexValue? c).getD 0) 0
    let value : Int := (value : Int).bmod 0x10000000000000000
    .integer (if isNegative then -value else value)
  | text =>
    let value : Int := (text.foldl (fun value c ↦ 10 * value + Numeral.digitValue c) 0 : Nat)
    let value := if isNegative then -value else value
    if Numeral.isInteger value then .integer value else .real (.ofInt value)

def realNumber (isNegative : Bool) (text : List Char) : Value :=
  let x := (Numeral.read text).real
  .real (if isNegative then x.neg else x)

def textValue (text : List Char) : Value := .ofString (String.ofList text)

/-- What a column or a cast prefers. Other expressions have no preference. -/
def affinity? (table : Table) : Expression → Option Affinity
  | .name name _ =>
    (table.columnIndex? name).bind fun column ↦ table.columns[column]?.map Column.affinity
  | .cast _ type => some (.ofType type)
  | .collated operand _ => affinity? table operand
  | _ => none

/-- What two compared expressions prefer: one's preference if it is the only one, and
otherwise numbers, if one of them prefers these. -/
def common (left? right? : Option Affinity) : Affinity :=
  match left?, right? with
  | some left, some right => if left.isNumeric || right.isNumeric then .numeric else .blob
  | some affinity, none | none, some affinity => affinity
  | none, none => .blob

/-- A collation, and whether it is asked for by the expression itself. -/
structure Ordered where
  collation : String
  isAsked : Bool

mutual

/-- How an expression says that texts are ordered. -/
def ordered? (table : Table) : Expression → Option Ordered
  | .name name _ =>
    (table.columnIndex? name).bind fun column ↦
      table.columns[column]?.map fun column ↦ ⟨column.collation, false⟩
  | .collated _ collation => some ⟨collation, true⟩
  | .cast operand _ | .unary .plus operand => ordered? table operand
  | .unary _ operand => asked? table operand
  | .binary _ left right => (asked? table left).or (asked? table right)
  | .between _ operand low high =>
    ((asked? table operand).or (asked? table low)).or (asked? table high)
  | .among _ operand members => (asked? table operand).or (firstAsked? table members)
  | .call _ arguments => firstAsked? table arguments
  | _ => none

/-- How an expression asks for texts to be ordered. -/
def asked? (table : Table) (expression : Expression) : Option Ordered :=
  match expression with
  | .name _ _ => none
  | .collated _ collation => some ⟨collation, true⟩
  | .cast operand _ | .unary _ operand => asked? table operand
  | .binary _ left right => (asked? table left).or (asked? table right)
  | .between _ operand low high =>
    ((asked? table operand).or (asked? table low)).or (asked? table high)
  | .among _ operand members => (asked? table operand).or (firstAsked? table members)
  | .call _ arguments => firstAsked? table arguments
  | _ => none

def firstAsked? (table : Table) : List Expression → Option Ordered
  | [] => none
  | first :: rest => (asked? table first).or (firstAsked? table rest)

end

/-- The collation by which two expressions are compared. -/
def collationOf (table : Table) (left right : Expression) : String :=
  let left? := ordered? table left
  let right? := ordered? table right
  let isAsked (ordered? : Option Ordered) := (ordered?.map Ordered.isAsked).getD false
  let chosen? := if isAsked left? then left? else if isAsked right? then right? else left?.or right?
  (chosen?.map Ordered.collation).getD "BINARY"

/-- The collation by which a function compares its arguments: that of the first to have
one. -/
def collationOfAll (table : Table) (arguments : List Expression) : String :=
  ((arguments.findSome? (ordered? table)).map Ordered.collation).getD "BINARY"

/-- A collation by its name. -/
def collation (name : String) : Except Fault Collation :=
  match Collation.named? name with
  | some collation => .ok collation
  | none => .error (.noCollation name)

/-- The order of two values, unless one is nothing. -/
def compare? (encoding : Encoding) (collation : Collation) (affinity : Affinity)
    (left right : Value) : Option Ordering :=
  if left.isNull || right.isNull then none
  else some (Value.order encoding collation (affinity.forComparison left right)
    (affinity.forComparison right left))

def isOrdered : BinaryOperator → Option (Ordering → Bool)
  | .equal | .is => some fun order ↦ order = .eq
  | .notEqual | .isNot => some fun order ↦ order ≠ .eq
  | .less => some fun order ↦ order = .lt
  | .lessEqual => some fun order ↦ order ≠ .gt
  | .greater => some fun order ↦ order = .gt
  | .greaterEqual => some fun order ↦ order ≠ .lt
  | _ => none

def and? : Option Bool → Option Bool → Option Bool
  | some false, _ | _, some false => some false
  | some true, some true => some true
  | _, _ => none

def or? (a b : Option Bool) : Option Bool := (and? (a.map not) (b.map not)).map not

/-- Arithmetic on whole numbers where that stays whole, and on real ones otherwise. -/
def arithmetic (operator : BinaryOperator) (left right : Value) : Value :=
  let reals (f : SignedBinary64 → SignedBinary64 → Option SignedBinary64) : Value :=
    .ofReal? (f left.toReal right.toReal)
  let whole (n : Int) (f : SignedBinary64 → SignedBinary64 → Option SignedBinary64) : Value :=
    if Numeral.isInteger n then .integer n else reals f
  match operator, left.toNumber, right.toNumber with
  | _, .null, _ | _, _, .null => .null
  | .add, .integer a, .integer b => whole (a + b) SignedBinary64.add?
  | .subtract, .integer a, .integer b => whole (a - b) SignedBinary64.sub?
  | .multiply, .integer a, .integer b => whole (a * b) SignedBinary64.mul?
  | .divide, .integer a, .integer b =>
    if b = 0 then .null else whole (a.tdiv b) SignedBinary64.div?
  | .remainder, .integer a, .integer b => if b = 0 then .null else .integer (a.tmod b)
  | .add, _, _ => reals SignedBinary64.add?
  | .subtract, _, _ => reals SignedBinary64.sub?
  | .multiply, _, _ => reals SignedBinary64.mul?
  | .divide, _, _ => if right.toReal.isZero then .null else reals SignedBinary64.div?
  | _, _, _ =>
    if right.toInt = 0 then .null else .real (.ofInt (left.toInt.tmod right.toInt))

/-- A word of 64 bits without and with a sign. -/
def unsigned (n : Int) : Nat := (n % 0x10000000000000000).toNat

def shifted (n places : Int) : Int :=
  if 64 ≤ places then 0
  else if 0 ≤ places then (n * Nat.pow 2 places.toNat).bmod 0x10000000000000000
  else if places ≤ -64 then (if n < 0 then -1 else 0)
  else n.fdiv (Nat.pow 2 (-places).toNat)

def bits (operator : BinaryOperator) (left right : Value) : Value :=
  if left.isNull || right.isNull then .null
  else
    let a := left.toInt
    let b := right.toInt
    .integer <| match operator with
      | .bitAnd => ((unsigned a &&& unsigned b : Nat) : Int).bmod 0x10000000000000000
      | .bitOr => ((unsigned a ||| unsigned b : Nat) : Int).bmod 0x10000000000000000
      | .shiftLeft => shifted a b
      | _ => shifted a (-b)

def concatenated (encoding : Encoding) (left right : Value) : Value :=
  match left.textBytes? encoding, right.textBytes? encoding with
  | some a, some b => .text (a ++ b)
  | _, _ => .null

def unary (operator : UnaryOperator) (value : Value) : Value :=
  match operator with
  | .minus => arithmetic .subtract (.integer 0) value
  | .plus => value
  | .complement => if value.isNull then .null else .integer (-value.toInt - 1)
  | .not => .ofTruth? (value.truth?.map not)
  | .isNull => .ofBool value.isNull
  | .notNull => .ofBool !value.isNull

/-- Whether a value is one of some others: neither if one of these is nothing. -/
def among? (compared : Value → Option Ordering) (members : List Value) : Option Bool :=
  let found := members.map compared
  if found.contains (some .eq) then some true
  else if found.contains none then none
  else some false

/-- The truth value that an unquoted name stands for if it names no column. -/
def namedTruth? (table : Table) : Expression → Option Bool
  | .name name .bare => if (table.columnIndex? name).isSome then none else truth? name
  | _ => none

/-- The first result whose condition holds, or else the other one. What comes behind it is
not asked for. -/
def firstResult {α : Type} (holds : α → Except Fault Bool) (otherwise : Except Fault Operand) :
    List (α × Except Fault Operand) → Except Fault Operand
  | [] => otherwise
  | (condition, result) :: rest => do
    if ← holds condition then result else firstResult holds otherwise rest

/-- A comparison of two expressions by their values. -/
def compared (scope : Scope) (left right : Expression) (a b : Value) :
    Except Fault (Option Ordering) := do
  let collation ← collation (collationOf scope.table left right)
  let affinity := common (affinity? scope.table left) (affinity? scope.table right)
  return compare? scope.encoding collation affinity a b

mutual

/-- The value of an expression. -/
def evaluate (scope : Scope) : Expression → Except Fault Operand
  | .null | .parameter | .qualified | .query | .raise | .now | .row _ | .callAll _ =>
    return .plain .null
  | .number isReal text =>
    return .plain (if isReal then realNumber false text else wholeNumber false text)
  | .string text => return .plain (textValue text)
  | .blob bytes => return .plain (.blob bytes)
  | .name name spelling =>
    match scope.table.columnIndex? name with
    | some column => do return .plain (← scope.column column)
    | none =>
      return .plain (if spelling = .bare then .ofTruth? (truth? name) else .ofString name)
  | .unary .minus (.number true text) => return .plain (realNumber true text)
  | .unary .minus (.number false text) => return .plain (wholeNumber true text)
  | .unary operator operand => do
    let value := (← evaluate scope operand).value
    let isKept := operator = .plus
    return .plain (unary operator (if isKept then value else value.readable scope.encoding))
  | .binary operator left right => do
    let a ← evaluate scope left
    if operator = .is || operator = .isNot then
      if let some truth := namedTruth? scope.table right then
        let given? := (a.value.readable scope.encoding).truth?
        return .plain (.ofBool ((given? == some truth) != (operator == .isNot)))
    let b ← evaluate scope right
    let x := a.value.readable scope.encoding
    let y := b.value.readable scope.encoding
    match operator with
    | .member => Function.Json.arrow scope.encoding false a.value b.value
    | .memberValue => Function.Json.arrow scope.encoding true a.value b.value
    | .and => return .plain (.ofTruth? (and? x.truth? y.truth?))
    | .or => return .plain (.ofTruth? (or? x.truth? y.truth?))
    | .concatenate => return .plain (concatenated scope.encoding a.value b.value)
    | .bitAnd | .bitOr | .shiftLeft | .shiftRight =>
      return .plain (bits operator x y)
    | operator =>
      match isOrdered operator with
      | none => return .plain (arithmetic operator x y)
      | some holds =>
        let order? ← compared scope left right a.value b.value
        match operator, order? with
        | .is, none => return .plain (.ofBool (a.value.isNull && b.value.isNull))
        | .isNot, none => return .plain (.ofBool !(a.value.isNull && b.value.isNull))
        | _, order? => return .plain (.ofTruth? (order?.map holds))
  | .collated operand _ => evaluate scope operand
  | .cast operand type => do
    return .plain ((← evaluate scope operand).value.cast scope.encoding (.ofType type))
  | .call function arguments => do
    let collation ← collation (collationOfAll scope.table arguments)
    Function.apply ⟨scope.encoding, collation⟩ function.toLower (evaluateAll scope arguments)
  | .between isNegated operand low high => do
    let value := (← evaluate scope operand).value
    let low? ← compared scope operand low value (← evaluate scope low).value
    let high? ← compared scope operand high value (← evaluate scope high).value
    let inside? := and? (low?.map fun order ↦ order ≠ .lt) (high?.map fun order ↦ order ≠ .gt)
    return .plain (.ofTruth? (if isNegated then inside?.map not else inside?))
  | .among isNegated operand members => do
    let value := (← evaluate scope operand).value
    let members ← (evaluateAll scope members).mapM id
    if members.isEmpty then return .plain (.ofBool isNegated)
    let collation ← collation (collationOf scope.table operand .null)
    let affinity := (affinity? scope.table operand).getD .blob
    let found? := among? (fun member ↦ compare? scope.encoding collation affinity value member)
      (members.map Operand.value)
    return .plain (.ofTruth? (if isNegated then found?.map not else found?))
  | .choice base? conditions results otherwise? => do
    let otherwise := (evaluateOption scope otherwise?).getD (.ok (.plain .null))
    let arms := (conditions.zip (evaluateAll scope conditions)).zip (evaluateAll scope results)
    match base?, evaluateOption scope base? with
    | some expression, some base =>
      let base ← base
      firstResult (fun (condition, value) ↦ do
        return (← compared scope expression condition base.value (← value).value) = some .eq)
        otherwise arms
    | _, _ =>
      firstResult (fun (_, value) ↦ do
        return ((← value).value.readable scope.encoding).truth?.getD false) otherwise arms

def evaluateAll (scope : Scope) : List Expression → List (Except Fault Operand)
  | [] => []
  | first :: rest => evaluate scope first :: evaluateAll scope rest

def evaluateOption (scope : Scope) : Option Expression → Option (Except Fault Operand)
  | none => none
  | some expression => some (evaluate scope expression)

end

end Evaluation

end TreeAudit.Database
