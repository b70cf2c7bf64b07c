import TreeAudit.Database.Statement.Expression
import TreeAudit.Database.Statement.Reader

/-!
Reading expressions. Operators bind in levels: first the signs in front of an operand, then
collations, joining of texts, products, sums, operators on bits, comparisons by size,
comparisons for equality and what counts as such, negation, and at last the two
connectives.
-/

set_option autoImplicit false
set_option relaxedAutoImplicit false

namespace TreeAudit.Database.Statement.Reader

/-- The levels of binding from the weakest on. -/
inductive Level where
  | or
  | and
  | not
  | equality
  | size
  | escape
  | bits
  | sum
  | product
  | joining
  | collation
  | front
deriving DecidableEq

/-- How strongly a level binds. -/
def Level.strength : Level → Nat
  | or => 1
  | and => 2
  | not => 3
  | equality => 4
  | size => 5
  | escape => 6
  | bits => 7
  | sum => 8
  | product => 9
  | joining => 10
  | collation => 11
  | front => 12

/-- The operators between two operands that are signs. -/
def signs : List (String × Level × BinaryOperator) :=
  [("=", .equality, .equal), ("==", .equality, .equal), ("<>", .equality, .notEqual),
    ("!=", .equality, .notEqual), ("<", .size, .less), ("<=", .size, .lessEqual),
    (">", .size, .greater), (">=", .size, .greaterEqual), ("&", .bits, .bitAnd),
    ("|", .bits, .bitOr), ("<<", .bits, .shiftLeft), (">>", .bits, .shiftRight),
    ("+", .sum, .add), ("-", .sum, .subtract), ("*", .product, .multiply),
    ("/", .product, .divide), ("%", .product, .remainder), ("||", .joining, .concatenate),
    ("->", .joining, .member), ("->>", .joining, .memberValue)]

/-- Functions that are written between their arguments. -/
def patterns : List String := ["LIKE", "GLOB", "REGEXP", "MATCH"]

/-- Whether digits are grouped by signs that each stand between two of them. -/
def isWellGrouped (isDigit : Char → Bool) : List Char → Bool
  | a :: '_' :: b :: rest => isDigit a && isDigit b && isWellGrouped isDigit (b :: rest)
  | _ :: rest => isWellGrouped isDigit rest
  | [] => true

/-- A number whose digits are grouped. -/
def grouped (text : List Char) : Reader Expression := do
  let isHex := (text.drop 1).take 1 = ['x'] || (text.drop 1).take 1 = ['X']
  let isDigit := if isHex then Token.isHexDigit else Char.isDigit
  if !isWellGrouped isDigit (text ++ [' ']) then
    object ("unrecognized token: \"" ++ String.ofList text ++ "\"")
  let digits := text.filter fun c ↦ c ≠ '_'
  let isReal := !isHex && digits.any fun c ↦ c = '.' || c = 'e' || c = 'E'
  return .number isReal digits

def hexValue (c : Char) : Nat :=
  if c.isDigit then c.toNat - 48 else c.toLower.toNat - 87

def hexBytes : List Char → List UInt8
  | a :: b :: rest => UInt8.ofNat (16 * hexValue a + hexValue b) :: hexBytes rest
  | _ => []

/-- A value as it is written. -/
def literal? : Reader (Option Expression) := do
  match ← peek? with
  | none => return none
  | some token =>
    let taken (value : Expression) : Reader (Option Expression) := do
      let _ ← next
      return some value
    match token.kind with
    | .integer => taken (.number false token.text)
    | .real => taken (.number true token.text)
    | .grouped => do
      let _ ← next
      return some (← grouped token.text)
    | .string => taken (.string token.unquoted)
    | .blob => taken (.blob (hexBytes ((token.text.drop 2).dropLast)))
    | _ =>
      if token.keyword = "NULL" then taken .null
      else if ["CURRENT_DATE", "CURRENT_TIME", "CURRENT_TIMESTAMP"].contains token.keyword then
        taken .now
      else return none

/-- A number with a sign in a declaration of a type. -/
def signedNumber : Reader Unit := do
  if !(← sign? "+") then
    let _ ← sign? "-"
  let _ ← demand fun token ↦ token.kind = .integer || token.kind = .real

/-- A type: any words, and up to two sizes. Gives its tokens. -/
def type : Reader (List Token) := do
  let words ← many do
    if ← sees isTypeWord then return some (← next)
    return none
  if words.isEmpty then return []
  if !(← seesSign "(") then return words
  let before ← get
  sign "("
  signedNumber
  if ← sign? "," then signedNumber
  sign ")"
  let taken := before.tokens.length - (← left)
  return words ++ before.tokens.take taken

/-- The text of tokens that stand next to each other in a statement, with what is between
them as it was written. -/
def spelled (statement : List Char) (tokens : List Token) : List Char :=
  match tokens.head?, tokens.getLast? with
  | some first, some last =>
    (statement.drop first.start).take (last.start + last.text.length - first.start)
  | _, _ => []

/-- The reader of expressions on some level and above. -/
abbrev Sub := Level → Reader Expression

/-- What is in parentheses behind the opening one, or after another comma. -/
def list (sub : Sub) : Reader (List Expression) := separated "," (sub .or)

/-- Whether a query begins here. -/
def seesQuery : Reader Bool :=
  sees fun token ↦ ["SELECT", "VALUES", "WITH"].contains token.keyword

/-- What is in parentheses, which have been opened. -/
def enclosed (sub : Sub) : Reader Expression := do
  if ← seesQuery then
    skipEnclosed
    return .query
  let members ← list sub
  sign ")"
  match members with
  | [member] => return member
  | _ => return .row members

/-- The arguments of a function, whose parenthesis has been opened. -/
def arguments (sub : Sub) (function : Token) : Reader Expression := do
  let called := nameOf function
  if ← sign? "*" then
    sign ")"
    return .callAll called
  if !(← keyword? "DISTINCT") then
    let _ ← keyword? "ALL"
  if ← sign? ")" then return .call called []
  let arguments ← list sub
  if ← keyword? "ORDER" then
    keyword "BY"
    skipEnclosed
  else sign ")"
  return .call called arguments

def choices (sub : Sub) : Reader Expression := do
  let base? ← if ← seesKeyword "WHEN" then pure none else pure (some (← sub .or))
  let arms ← many do
    if ← keyword? "WHEN" then
      let condition ← sub .or
      keyword "THEN"
      return some (condition, ← sub .or)
    return none
  if arms.isEmpty then unexpected
  let otherwise? ← if ← keyword? "ELSE" then pure (some (← sub .or)) else pure none
  keyword "END"
  return .choice base? (arms.map Prod.fst) (arms.map Prod.snd) otherwise?

/-- An operand with what stands in front of it. `statement` is the text that is read. -/
def operand (statement : List Char) (sub : Sub) : Reader Expression := do
  if ← sign? "(" then return ← enclosed sub
  if ← sign? "-" then return .unary .minus (← sub .front)
  if ← sign? "+" then return .unary .plus (← sub .front)
  if ← sign? "~" then return .unary .complement (← sub .front)
  if ← keyword? "NOT" then return .unary .not (← sub .not)
  if ← keyword? "CASE" then return ← choices sub
  if ← keyword? "EXISTS" then
    sign "("
    if !(← seesQuery) then unexpected
    skipEnclosed
    return .query
  if ← keyword? "CAST" then
    sign "("
    let value ← sub .or
    keyword "AS"
    let words ← type
    sign ")"
    return .cast value (spelled statement words)
  if ← keyword? "RAISE" then
    sign "("
    skipEnclosed
    return .raise
  if ← accept fun token ↦ token.kind = .parameter then return .parameter
  let isQuoted ← sees fun token ↦ token.kind = .string
  if isQuoted then
    let token ← next
    if ← sign? "." then
      let _ ← name
      return .qualified
    return .string token.unquoted
  match ← literal? with
  | some value => return value
  | none =>
    let token ← demand isPlainName
    if ← sign? "(" then return ← arguments sub token
    if ← sign? "." then
      let _ ← name
      if ← sign? "." then
        let _ ← name
      return .qualified
    let spelling : Spelling :=
      if token.kind ≠ .quotedName then .bare
      else if token.text.head? = some '"' then .likeText
      else .quoted
    return .name (nameOf token) spelling

/-- What may follow an operand on some level: an operator with its other operands. -/
def continuation? (sub : Sub) (admits : Level → Bool) (left : Expression) :
    Reader (Option Expression) := do
  match ← peek? with
  | none => return none
  | some token =>
    match signs.find? fun entry ↦ token.isSign entry.1 with
    | some (_, level, operator) =>
      if !admits level then return none
      let _ ← next
      return some (.binary operator left (← sub (above level)))
    | none =>
      match token.keyword with
      | "OR" =>
        if !admits .or then return none
        let _ ← next
        return some (.binary .or left (← sub .and))
      | "AND" =>
        if !admits .and then return none
        let _ ← next
        return some (.binary .and left (← sub .not))
      | "COLLATE" =>
        if !admits .collation then return none
        let _ ← next
        return some (.collated left (nameOf (← demand isTypeWord)))
      | word =>
        if !admits .equality then return none
        if word = "ISNULL" || word = "NOTNULL" then
          let _ ← next
          return some (.unary (if word = "ISNULL" then .isNull else .notNull) left)
        if word = "IS" then
          let _ ← next
          let isNegated ← keyword? "NOT"
          if ← keyword? "DISTINCT" then
            keyword "FROM"
            return some (.binary (if isNegated then .is else .isNot) left (← sub .size))
          return some (.binary (if isNegated then .isNot else .is) left (← sub .size))
        if word = "NOT" then
          let _ ← next
          if ← keyword? "NULL" then return some (.unary .notNull left)
          return some (← relation true)
        if word = "BETWEEN" || word = "IN" || patterns.contains word then
          return some (← relation false)
        return none
where
  above : Level → Level
    | .equality => .size
    | .size => .escape
    | .bits => .sum
    | .sum => .product
    | .product => .joining
    | _ => .collation
  /-- A relation with a name of its own, possibly behind a negation. -/
  relation (isNegated : Bool) : Reader Expression := do
    if ← keyword? "BETWEEN" then
      let low ← sub .not
      keyword "AND"
      return .between isNegated left low (← sub .size)
    if ← keyword? "IN" then
      if ← sign? "(" then
        if ← sign? ")" then return .among isNegated left []
        if ← seesQuery then
          skipEnclosed
          return .query
        let members ← list sub
        sign ")"
        return .among isNegated left members
      let _ ← name
      if ← sign? "." then
        let _ ← name
      if ← sign? "(" then skipEnclosed
      return .query
    let token ← demand fun token ↦ patterns.contains token.keyword
    let pattern ← sub .size
    let escape ← if ← keyword? "ESCAPE" then pure [← sub .bits] else pure []
    let matching := Expression.call token.keyword.toLower (pattern :: left :: escape)
    return if isNegated then .unary .not matching else matching

/-- Reads on as long as an operator of some level or above follows. -/
def continued (sub : Sub) (level : Level) : (fuel : Nat) → Expression → Reader Expression
  | 0, left => return left
  | fuel + 1, left => do
    match ← continuation? sub (fun other ↦ level.strength ≤ other.strength) left with
    | some longer => continued sub level fuel longer
    | none => return left

/-- An expression on some level and above. Each level of nesting takes a token, so `fuel`
need not be above their number. -/
def nested (statement : List Char) : (fuel : Nat) → Sub
  | 0, _ => unexpected
  | fuel + 1, level => do
    let first ← operand statement (nested statement fuel)
    continued (nested statement fuel) level (← left) first

/-- The expression that comes next in a statement. -/
def expression (statement : List Char) : Reader Expression := do
  nested statement ((← left) + 1) .or

end TreeAudit.Database.Statement.Reader
