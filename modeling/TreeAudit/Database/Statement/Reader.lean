import TreeAudit.Database.Statement.Token

/-!
Reading statements token by token. A token is asked for only when it is needed, so that what
is wrong behind the place where the reading ends does not matter. A statement that is well
formed may still be wrong in what it says; that comes to light with the next token, if the
statement can go on with it.
-/

set_option autoImplicit false
set_option relaxedAutoImplicit false

namespace TreeAudit.Database.Statement

structure ReaderState where
  tokens : List Token
  /-- What is wrong with what has been read, but is not told yet. -/
  pending? : Option String

/-- A way of reading on, which may fail with a message. -/
abbrev Reader := StateT ReaderState (Except String)

namespace Reader

/-- The next token, if there is any. -/
def peek? : Reader (Option Token) := do
  match (← get).tokens with
  | [] => return none
  | token :: _ =>
    if token.kind = .illegal then
      throw ("unrecognized token: \"" ++ String.ofList token.text ++ "\"")
    return some token

/-- Fails at the next token. -/
def unexpected {α : Type} : Reader α := do
  match ← peek? with
  | some token => throw ("near \"" ++ String.ofList token.text ++ "\": syntax error")
  | none => throw "incomplete input"

/-- Takes the next token. -/
def next : Reader Token := do
  match ← peek? with
  | none => unexpected
  | some token =>
    match (← get).pending? with
    | some reason => throw reason
    | none =>
      modify fun state ↦ { state with tokens := state.tokens.tail }
      return token

/-- Says that something is wrong with what has been read. -/
def object (reason : String) : Reader Unit :=
  modify fun state ↦ { state with pending? := some reason }

/-- How many tokens are left. -/
def left : Reader Nat := return (← get).tokens.length

/-- Whether the next token has a property. -/
def sees (p : Token → Bool) : Reader Bool := return ((← peek?).map p).getD false

def seesKeyword (word : String) : Reader Bool := sees fun token ↦ token.keyword = word

def seesSign (sign : String) : Reader Bool := sees fun token ↦ token.isSign sign

/-- Takes the next token if it has a property. -/
def accept (p : Token → Bool) : Reader Bool := do
  if ← sees p then
    let _ ← next
    return true
  return false

def keyword? (word : String) : Reader Bool := accept fun token ↦ token.keyword = word

def sign? (sign : String) : Reader Bool := accept fun token ↦ token.isSign sign

/-- Takes the next token, which has to have a property. -/
def demand (p : Token → Bool) : Reader Token := do
  if ← sees p then next else unexpected

def keyword (word : String) : Reader Unit := discard (demand fun token ↦ token.keyword = word)

def keywords (words : List String) : Reader Unit := words.forM keyword

def sign (sign : String) : Reader Unit := discard (demand fun token ↦ token.isSign sign)

/-- Keywords that never name anything. -/
def reserved : List String := ["ADD", "ALL", "ALTER", "AND", "AS", "AUTOINCREMENT", "BETWEEN",
  "CASE", "CHECK", "COLLATE", "COMMIT", "CONSTRAINT", "CREATE", "DEFAULT", "DEFERRABLE",
  "DELETE", "DISTINCT", "DROP", "ELSE", "ESCAPE", "EXCEPT", "EXISTS", "FOREIGN", "FROM",
  "GROUP", "HAVING", "IN", "INDEX", "INSERT", "INTERSECT", "INTO", "IS", "ISNULL", "JOIN",
  "LIMIT", "NOT", "NOTHING", "NOTNULL", "NULL", "ON", "OR", "ORDER", "PRIMARY", "REFERENCES",
  "RETURNING", "SELECT", "SET", "TABLE", "THEN", "TO", "TRANSACTION", "UNION", "UNIQUE",
  "UPDATE", "USING", "VALUES", "WHEN", "WHERE"]

/-- Keywords of joins, which name columns and tables but no types. -/
def joining : List String :=
  ["CROSS", "FULL", "INDEXED", "INNER", "LEFT", "NATURAL", "OUTER", "RIGHT"]

/-- Whether a token is a name outside of quotes or in those of names. -/
def isPlainName (token : Token) : Bool :=
  token.kind = .quotedName || (token.kind = .word && !reserved.contains token.keyword)

/-- Whether a token names a column or a table. -/
def isName (token : Token) : Bool := isPlainName token || token.kind = .string

/-- Whether a token can be part of a type. -/
def isTypeWord (token : Token) : Bool := isName token && !joining.contains token.keyword

def nameOf (token : Token) : String := String.ofList token.unquoted

def name : Reader String := return nameOf (← demand isName)

/-- Reads as many as there are, with something in front of each but the first. -/
def separated {α : Type} (separator : String) (item : Reader α) : Reader (List α) := do
  let first ← item
  return first :: (← more (← left))
where
  more : Nat → Reader (List α)
    | 0 => return []
    | fuel + 1 => do
      if ← sign? separator then
        let following ← item
        return following :: (← more fuel)
      return []

/-- Reads on as long as a reader finds something. -/
def many {α : Type} (item? : Reader (Option α)) : Reader (List α) := do
  more (← left)
where
  more : Nat → Reader (List α)
    | 0 => return []
    | fuel + 1 => do
      match ← item? with
      | some found => return found :: (← more fuel)
      | none => return []

/-- Passes over what is in parentheses that have been opened, whatever it is. -/
def skipEnclosed : Reader Unit := do
  skip (← left) 0
where
  skip : (fuel depth : Nat) → Reader Unit
    | 0, _ => unexpected
    | fuel + 1, depth => do
      let token ← next
      if token.isSign "(" then skip fuel (depth + 1)
      else if token.isSign ")" then (if depth = 0 then return () else skip fuel (depth - 1))
      else skip fuel depth

/-- Passes over the rest of a statement. -/
def skipStatement : Reader Unit := do
  let _ ← many do
    if ← sees fun token ↦ !token.isSign ";" then return some (← next)
    return none

/-- Passes over everything there is. -/
def skipStatements : Reader Unit := do
  let _ ← many do
    if (← peek?).isSome then return some (← next)
    return none

/-- The end of a statement. -/
def finish : Reader Unit := do
  match ← peek? with
  | none => pure ()
  | some token => if !token.isSign ";" then unexpected
  match (← get).pending? with
  | some reason => throw reason
  | none => pure ()

/-- What a reader makes of a text. -/
def run {α : Type} (reader : Reader α) (text : List Char) : Except String α :=
  (StateT.run reader ⟨Token.ofText text, none⟩).map Prod.fst

end Reader

end TreeAudit.Database.Statement
