/-!
Expressions as statements have them. What a name means is left open.
-/

set_option autoImplicit false
set_option relaxedAutoImplicit false

namespace TreeAudit.Database.Statement

inductive UnaryOperator where
  | minus
  | plus
  | complement
  | not
  | isNull
  | notNull
deriving DecidableEq

inductive BinaryOperator where
  | or
  | and
  | equal
  | notEqual
  | is
  | isNot
  | less
  | lessEqual
  | greater
  | greaterEqual
  | bitAnd
  | bitOr
  | shiftLeft
  | shiftRight
  | add
  | subtract
  | multiply
  | divide
  | remainder
  | concatenate
  /-- Looking into a text of the notation for objects, with the answer in that notation. -/
  | member
  /-- The same with the answer as a plain value. -/
  | memberValue
deriving DecidableEq

/-- How a name is written. -/
inductive Spelling where
  | bare
  /-- In signs that are there for names only. -/
  | quoted
  /-- In double quotes, which may stand for those of a text. -/
  | likeText
deriving DecidableEq

inductive Expression where
  | null
  | number (isReal : Bool) (text : List Char)
  | string (text : List Char)
  | blob (bytes : List UInt8)
  /-- The time of the evaluation. -/
  | now
  | parameter
  | name (name : String) (spelling : Spelling)
  /-- A name with the name of its table in front. -/
  | qualified
  | unary (operator : UnaryOperator) (operand : Expression)
  | binary (operator : BinaryOperator) (left right : Expression)
  | collated (operand : Expression) (collation : String)
  | cast (operand : Expression) (type : List Char)
  | call (function : String) (arguments : List Expression)
  /-- A function of everything. -/
  | callAll (function : String)
  | between (isNegated : Bool) (operand low high : Expression)
  | among (isNegated : Bool) (operand : Expression) (members : List Expression)
  | choice (base? : Option Expression) (conditions results : List Expression)
    (otherwise? : Option Expression)
  | row (members : List Expression)
  | query
  | raise

end TreeAudit.Database.Statement
