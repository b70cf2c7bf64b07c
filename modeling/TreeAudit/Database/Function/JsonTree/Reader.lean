import TreeAudit.Database.Function.JsonTree

/-!
Reading trees. Besides JSON itself, its looser form is read: comments, texts in single
quotes, labels without quotes, commas behind the last member, and more ways to write
numbers. Whether a text keeps to JSON itself is noted.
-/

set_option autoImplicit false
set_option relaxedAutoImplicit false

namespace TreeAudit.Database.JsonTree

/-- What is left to read, and whether all so far keeps to JSON itself. -/
structure Rest where
  text : List Char
  isStrict : Bool

abbrev Reader := StateT Rest Option

namespace Reader

/-- Notes that a text does not keep to JSON itself. -/
def loosen : Reader Unit := modify fun rest ↦ { rest with isStrict := false }

def skip (count : Nat) : Reader Unit :=
  modify fun rest ↦ { rest with text := rest.text.drop count }

def isAlphanumeric (c : Char) : Bool := c.isAlphanum && c.toNat < 128

/-- Blanks beyond those of JSON itself, by their bytes. -/
def looseBlanks : List (List Nat) :=
  [[0x0B], [0x0C], [0xC2, 0xA0], [0xE1, 0x9A, 0x80], [0xE2, 0x80, 0xA8], [0xE2, 0x80, 0xA9],
    [0xE2, 0x80, 0xAF], [0xE2, 0x81, 0x9F], [0xE3, 0x80, 0x80], [0xEF, 0xBB, 0xBF]] ++
  (List.range 11).map fun place ↦ [0xE2, 0x80, 0x80 + place]

/-- Characters that end a line, by their bytes. -/
def lineEnds : List (List Char) :=
  [['\n'], ['\r'], ['\xe2', '\x80', '\xa8'], ['\xe2', '\x80', '\xa9']]

/-- Behind the end of a comment. -/
def behindComment? : List Char → Option (List Char)
  | [] => none
  | '*' :: '/' :: rest => some rest
  | _ :: rest => behindComment? rest

def behindLine : List Char → List Char
  | [] => []
  | c :: rest =>
    match lineEnds.find? fun ending ↦ ending.isPrefixOf (c :: rest) with
    | some ending => (c :: rest).drop ending.length
    | none => behindLine rest

/-- What is behind a blank or a comment that JSON itself does not have. -/
def behindLooseBlank? (text : List Char) : Option (List Char) :=
  match text with
  | '/' :: '*' :: c :: rest => behindComment? (c :: rest)
  | '/' :: '/' :: rest => some (behindLine rest)
  | text =>
    (looseBlanks.find? fun blank ↦ blank.map Char.ofNat = text.take blank.length).map
      fun blank ↦ text.drop blank.length

def isBlank (c : Char) : Bool := c = ' ' || c = '\t' || c = '\n' || c = '\r'

def blanks : (fuel : Nat) → Reader Unit
  | 0 => return
  | fuel + 1 => do
    modify fun rest ↦ { rest with text := rest.text.dropWhile isBlank }
    match behindLooseBlank? (← get).text with
    | none => return
    | some text =>
      set (⟨text, false⟩ : Rest)
      blanks fuel

/-- Skips blanks, and shows what is left. -/
def peek : Reader (List Char) := do
  blanks ((← get).text.length + 1)
  return (← get).text

/-- Takes a sign if it comes next. -/
def sign? (c : Char) : Reader Bool := do
  if (← peek).head? = some c then
    skip 1
    return true
  return false

def sign (c : Char) : Reader Unit := do
  if !(← sign? c) then failure

/-- Characters behind a backslash that JSON itself has. -/
def plainEscapes : List Char := ['"', '\\', '/', 'b', 'f', 'n', 'r', 't']

/-- The rest of a text that ends with the given quote, as JSON itself writes it. -/
def quotedText (quote : Char) : (fuel : Nat) → Reader (List Char)
  | 0 => failure
  | fuel + 1 => do
    match (← get).text with
    | [] => failure
    | '\\' :: rest =>
      match rest with
      | 'u' :: rest =>
        if (unit? (rest.take 4)).isNone then failure
        skip 6
        return ['\\', 'u'] ++ rest.take 4 ++ (← quotedText quote fuel)
      | c :: rest =>
        if plainEscapes.contains c then
          skip 2
          return '\\' :: c :: (← quotedText quote fuel)
        loosen
        if c = '\'' then
          skip 2
          return c :: (← quotedText quote fuel)
        if c = 'v' then
          skip 2
          return '\\' :: c :: (← quotedText quote fuel)
        if c = '0' && !((rest.head?.map Char.isDigit).getD false) then
          skip 2
          return numbered 0 ++ (← quotedText quote fuel)
        if c = 'x' then
          match unit? ('0' :: '0' :: rest.take 2) with
          | some code =>
            skip 4
            return numbered code ++ (← quotedText quote fuel)
          | none => failure
        let ends := ['\r', '\n'] :: lineEnds
        match ends.find? fun ending ↦ ending.isPrefixOf (c :: rest) with
        | some ending =>
          skip (1 + ending.length)
          quotedText quote fuel
        | none => failure
      | [] => failure
    | c :: _ =>
      skip 1
      if c = quote then return []
      if c = '\x00' then failure
      if c < ' ' then
        loosen
        return control c ++ (← quotedText quote fuel)
      if c = '"' then return '\\' :: c :: (← quotedText quote fuel)
      return c :: (← quotedText quote fuel)

/-- A text in quotes of either kind, if one begins here. -/
def string? : Reader (Option (List Char)) := do
  match (← peek).head? with
  | some '"' =>
    skip 1
    return some (← quotedText '"' ((← get).text.length + 1))
  | some '\'' =>
    skip 1
    loosen
    return some (← quotedText '\'' ((← get).text.length + 1))
  | _ => return none

/-- The label of a member. -/
def label : Reader (List Char) := do
  match ← string? with
  | some written => return written
  | none =>
    let isFirst (c : Char) := isAlphanumeric c && !c.isDigit || c = '_' || c = '$' || '\x80' ≤ c
    let text := (← get).text
    let isIn (text : List Char) := (behindLooseBlank? text).isNone
    let rec name : List Char → List Char
      | [] => []
      | c :: rest =>
        if (isFirst c || c.isDigit) && isIn (c :: rest) then c :: name rest else []
    match text with
    | c :: rest =>
      if !isFirst c then failure
      loosen
      let label := c :: name rest
      skip label.length
      return label
    | [] => failure

/-- A number that has a point or an exponent, with digits on either side of the point. -/
def padded : (isAfterDigit : Bool) → List Char → List Char
  | _, [] => []
  | isAfterDigit, '.' :: rest =>
    (if isAfterDigit then ['.'] else ['0', '.']) ++
      (if (rest.head?.map Char.isDigit).getD false then [] else ['0']) ++ padded false rest
  | _, c :: rest => c :: padded c.isDigit rest

/-- The texts for a number that has no end. -/
def endless : List String := ["infinity", "inf"]

/-- A number with its sign, if one begins here. -/
def number? : Reader (Option JsonTree) := do
  let text ← peek
  let (sign, body) := match text with
    | '-' :: rest => (['-'], rest)
    | '+' :: rest => (['+'], rest)
    | rest => ([], rest)
  let shown := if sign = ['-'] then sign else []
  if sign = ['+'] then loosen
  let begins (word : String) : Bool := (body.take word.length).map Char.toLower = word.toList
  if !sign.isEmpty then
    if let some word := endless.find? begins then
      loosen
      skip (1 + word.length)
      return some (.number true (shown ++ "9e999".toList))
  let digits := body.takeWhile Char.isDigit
  match body with
  | '0' :: x :: h :: _ =>
    if (x = 'x' || x = 'X') && (hexValue? h).isSome then
      loosen
      let digits := (body.drop 2).takeWhile fun c ↦ (hexValue? c).isSome
      skip (sign.length + 2 + digits.length)
      let value := digits.foldl (fun value c ↦ 16 * value + (hexValue? c).getD 0) 0
      let text := if value < 0x10000000000000000 then Nat.toDigits 10 value else "9.0e999".toList
      return some (.number false (shown ++ text))
  | _ => pure ()
  let fraction? := match body.drop digits.length with
    | '.' :: rest => some (rest.takeWhile Char.isDigit)
    | _ => none
  let fraction := fraction?.getD []
  if digits.isEmpty && fraction.isEmpty then
    if sign.isEmpty && body.head? ≠ some '.' then return none
    failure
  if 1 < digits.length && digits.head? = some '0' then failure
  if fraction?.isSome && (digits.isEmpty || fraction.isEmpty) then loosen
  let mantissa := digits ++ (fraction?.map ('.' :: ·)).getD []
  let rest := body.drop mantissa.length
  let (power, isBroken) := match rest with
    | e :: rest =>
      if e = 'e' || e = 'E' then
        let (sign, rest) := match rest with
          | '+' :: rest => (['+'], rest)
          | '-' :: rest => (['-'], rest)
          | rest => ([], rest)
        let digits := rest.takeWhile Char.isDigit
        (e :: sign ++ digits, digits.isEmpty)
      else ([], false)
    | [] => ([], false)
  let following := (rest.drop power.length).head?
  let isPowerAgain := following = some 'e' || following = some 'E'
  if isBroken || following = some '.' || !power.isEmpty && isPowerAgain then failure
  skip (sign.length + mantissa.length + power.length)
  return some (.number (fraction?.isSome || !power.isEmpty)
    (shown ++ padded false (mantissa ++ power)))

/-- Words that are values, with whether only looser texts have them, in any case. -/
def words : List (String × JsonTree × Bool) :=
  [("true", .bool true, false), ("false", .bool false, false), ("null", .null, false),
    ("inf", .number true "9e999".toList, true), ("infinity", .number true "9e999".toList, true),
    ("nan", .null, true), ("qnan", .null, true), ("snan", .null, true)]

def word : Reader JsonTree := do
  let text ← peek
  let isHere (entry : String × JsonTree × Bool) : Bool :=
    let found := text.take entry.1.length
    (if entry.2.2 then found.map Char.toLower else found) = entry.1.toList &&
      !(((text.drop entry.1.length).head?.map isAlphanumeric).getD false)
  match words.find? isHere with
  | none => failure
  | some (name, tree, isLoose) =>
    if isLoose then loosen
    skip name.length
    return tree

/-- Members behind an opened bracket, up to the closing one. -/
def members {α : Type} (close : Char) (member : Reader α) : (fuel : Nat) → Reader (List α)
  | 0 => failure
  | fuel + 1 => do
    let first ← member
    if ← sign? ',' then
      if ← sign? close then
        loosen
        return [first]
      return first :: (← members close member fuel)
    sign close
    return [first]

/-- How deep a tree may be. -/
def greatestDepth : Nat := 1000

def tree : (depth : Nat) → Reader JsonTree
  | 0 => word
  | depth + 1 => do
    let fuel := (← get).text.length + 1
    if ← sign? '[' then
      if depth = 0 then failure
      if ← sign? ']' then return .array []
      return .array (← members ']' (tree depth) fuel)
    if ← sign? '\x7b' then
      if depth = 0 then failure
      if ← sign? '\x7d' then return .object []
      let member : Reader (List Char × JsonTree) := do
        let label ← label
        sign ':'
        return (label, ← tree depth)
      return .object (← members '\x7d' member fuel)
    match ← string? with
    | some written => return .string written
    | none =>
      match ← number? with
      | some found => return found
      | none => word

end Reader

/-- The tree that a text as a whole is, and whether the text keeps to JSON itself. -/
def read? (text : List Char) : Option (JsonTree × Bool) :=
  let text := text.takeWhile fun c ↦ c ≠ '\x00'
  let whole : Reader JsonTree := do
    let tree ← Reader.tree (Reader.greatestDepth + 1)
    if (← Reader.peek).isEmpty then return tree else failure
  (whole.run ⟨text, true⟩).map fun (tree, rest) ↦ (tree, rest.isStrict)

end TreeAudit.Database.JsonTree
