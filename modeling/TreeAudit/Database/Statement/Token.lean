/-!
The tokens of statements: words, names and texts in quotes, numbers, binary values, parameters
and signs. Between them are blanks and comments. Every token knows where it stands, and what
begins no token is one of its own kind.
-/

set_option autoImplicit false
set_option relaxedAutoImplicit false

namespace TreeAudit.Database.Statement

namespace Token

inductive Kind where
  | word
  | quotedName
  | string
  | integer
  | real
  /-- A number with signs between its digits that only group them. -/
  | grouped
  | blob
  | parameter
  | sign
  | illegal
deriving DecidableEq

end Token

structure Token where
  kind : Token.Kind
  /-- The token as written. -/
  text : List Char
  /-- How many characters stand in front of it. -/
  start : Nat
deriving DecidableEq

namespace Token

def isBlank (c : Char) : Bool := c = ' ' || ('\t' ≤ c && c ≤ '\r')

/-- Whether a character can stand in a word. -/
def isWordChar (c : Char) : Bool := c.isAlphanum || c = '_' || c = '$' || 128 ≤ c.toNat

def isHexDigit (c : Char) : Bool := c.isDigit || ('a' ≤ c.toLower && c.toLower ≤ 'f')

def run (p : Char → Bool) (text : List Char) : Nat := (text.takeWhile p).length

/-- The length of what is up to the quote that closes it, that quote included; a doubled quote
closes nothing. Tells too whether there is such a quote. -/
def quotedLength (quote : Char) : List Char → Nat × Bool
  | [] => (0, false)
  | c :: rest =>
    if c ≠ quote then
      let (length, closed) := quotedLength quote rest
      (length + 1, closed)
    else
      match rest with
      | [] => (1, true)
      | d :: rest =>
        if d = quote then
          let (length, closed) := quotedLength quote rest
          (length + 2, closed)
        else (1, true)

/-- The length of a comment up to its closing marks, behind the opening ones. -/
def commentLength : List Char → Nat
  | '*' :: '/' :: _ => 2
  | _ :: rest => commentLength rest + 1
  | [] => 0

def isGroupedDigit (isDigit : Char → Bool) (c : Char) : Bool := isDigit c || c = '_'

/-- The length of an exponent with its letter, if there is a digit in it. -/
def exponentLength : List Char → Nat
  | e :: c :: rest =>
    if e ≠ 'e' && e ≠ 'E' then 0
    else if c.isDigit then run (isGroupedDigit Char.isDigit) (c :: rest) + 1
    else if (c = '+' || c = '-') && (rest.head?.map Char.isDigit).getD false then
      run (isGroupedDigit Char.isDigit) rest + 2
    else 0
  | _ => 0

/-- The length of a number in digits of base sixteen, behind a mark, if there is one. -/
def hexLength? : List Char → Option Nat
  | '0' :: x :: digit :: rest =>
    if (x = 'x' || x = 'X') && isHexDigit digit then
      some (3 + run (isGroupedDigit isHexDigit) rest)
    else none
  | _ => none

/-- The length of a number in decimal digits, and that of its digits in front of a point. -/
def decimalLengths (text : List Char) : Nat × Nat :=
  let whole := run (isGroupedDigit Char.isDigit) text
  let fraction := match text.drop whole with
    | '.' :: rest => 1 + run (isGroupedDigit Char.isDigit) rest
    | _ => 0
  (whole + fraction + exponentLength (text.drop (whole + fraction)), whole)

/-- The kind and the length of a number. One that runs into a word is none. -/
def number (text : List Char) : Kind × Nat :=
  let (length, isInteger) := match hexLength? text with
    | some length => (length, true)
    | none =>
      let (length, whole) := decimalLengths text
      (length, length = whole)
  let more := run isWordChar (text.drop length)
  if 0 < more then (.illegal, length + more)
  else if (text.take length).contains '_' then (.grouped, length)
  else (if isInteger then .integer else .real, length)

/-- The length of the name of a parameter, which may have pairs of colons in it and words in
parentheses at its end, and whether it is a good one. `count` characters are in front. -/
def parameterLength : (count : Nat) → List Char → Nat × Bool
  | count, ':' :: ':' :: rest =>
    let (length, isGood) := parameterLength count rest
    (length + 2, isGood)
  | count, '(' :: rest =>
    if count = 0 then (0, false)
    else
      let length := run (fun c ↦ !isBlank c && c ≠ ')') rest
      if rest[length]? = some ')' then (length + 2, true) else (length + 1, false)
  | count, c :: rest =>
    if isWordChar c then
      let (length, isGood) := parameterLength (count + 1) rest
      (length + 1, isGood)
    else (0, 0 < count)
  | count, [] => (0, 0 < count)

/-- The kind and the length of a parameter with a name. -/
def parameter (text : List Char) : Kind × Nat :=
  let (length, isGood) := parameterLength 0 (text.drop 1)
  (if isGood then .parameter else .illegal, length + 1)

/-- What a text begins with: a token of some kind, or a blank or comment, and its length. -/
def scan : List Char → Option Kind × Nat
  | [] => (none, 0)
  | c :: rest =>
    if c = ' ' || c = '\t' || c = '\n' || c = '\x0c' || c = '\r' then
      (none, 1 + run isBlank rest)
    else if c = '\uFEFF' then (none, 1)
    else if c.isDigit then pair (number (c :: rest))
    else
      match c, rest with
      | '-', '-' :: rest => (none, 2 + run (fun c ↦ c ≠ '\n') rest)
      | '-', '>' :: '>' :: _ => (some .sign, 3)
      | '-', '>' :: _ => (some .sign, 2)
      | '/', '*' :: [] => (some .sign, 1)
      | '/', '*' :: rest => (none, 2 + commentLength rest)
      | '=', '=' :: _ | '<', '=' :: _ | '<', '>' :: _ | '<', '<' :: _ | '>', '=' :: _
      | '>', '>' :: _ | '!', '=' :: _ | '|', '|' :: _ => (some .sign, 2)
      | '!', _ => (some .illegal, 1)
      | '\'', rest =>
        let (length, closed) := quotedLength '\'' rest
        (some (if closed then .string else .illegal), length + 1)
      | '"', rest | '\x60', rest =>
        let (length, closed) := quotedLength c rest
        (some (if closed then .quotedName else .illegal), length + 1)
      | '[', rest =>
        let length := run (fun c ↦ c ≠ ']') rest
        if length < rest.length then (some .quotedName, length + 2)
        else (some .illegal, length + 1)
      | '.', rest =>
        if rest.head?.map Char.isDigit = some true then pair (number ('.' :: rest))
        else (some .sign, 1)
      | '?', rest => (some .parameter, 1 + run Char.isDigit rest)
      | '$', _ | '@', _ | '#', _ | ':', _ => pair (parameter (c :: rest))
      | 'x', '\'' :: rest | 'X', '\'' :: rest =>
        let digits := run isHexDigit rest
        let quoted := run (fun c ↦ c ≠ '\'') rest
        let length := 2 + quoted + (if quoted < rest.length then 1 else 0)
        if digits = quoted && digits % 2 = 0 && quoted < rest.length then (some .blob, length)
        else (some .illegal, length)
      | _, _ =>
        if "-()+*/%=<>|,;&~".contains c then (some .sign, 1)
        else if isWordChar c then (some .word, 1 + run isWordChar rest)
        else (some .illegal, 1)
where
  pair (token : Kind × Nat) : Option Kind × Nat := (some token.1, token.2)

/-- The tokens of a text with `start` characters in front of it. As each takes one character
at least, `fuel` need not be above their number. -/
def scanFrom : (fuel start : Nat) → List Char → List Token
  | 0, _, _ => []
  | _ + 1, _, [] => []
  | fuel + 1, start, text =>
    let (kind?, length) := scan text
    let rest := scanFrom fuel (start + length) (text.drop length)
    match kind? with
    | some kind => ⟨kind, text.take length, start⟩ :: rest
    | none => rest

/-- The tokens of a statement, which ends at the first zero character. -/
def ofText (text : List Char) : List Token :=
  let text := text.takeWhile fun c ↦ c ≠ '\x00'
  scanFrom text.length 0 text

/-- A text in quotes without them, a doubled closing quote being one. -/
def unquoted (token : Token) : List Char :=
  match token.text with
  | '[' :: rest => rest.dropLast
  | quote :: rest =>
    if quote = '\'' || quote = '"' || quote = '\x60' then single quote rest.dropLast
    else token.text
  | [] => []
where
  single (quote : Char) : List Char → List Char
    | c :: d :: rest =>
      if c = quote && d = quote then c :: single quote rest else c :: single quote (d :: rest)
    | text => text

/-- A word in capitals. Nothing else is a keyword. -/
def keyword (token : Token) : String :=
  if token.kind = .word then (String.ofList token.text).toUpper else ""

def isSign (token : Token) (sign : String) : Bool :=
  token.kind = .sign && token.text = sign.toList

example : (ofText "create table \"a\"\"b\"(x'0g',--c\n1_0)".toList).map Token.kind =
    [.word, .word, .quotedName, .sign, .illegal, .sign, .grouped, .sign] := by cbv

end Token

end TreeAudit.Database.Statement
