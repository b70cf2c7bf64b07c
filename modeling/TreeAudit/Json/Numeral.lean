import TreeAudit.Json.Cursor

/-!
Reading the numerals of JSON. A whole number that fits a word keeps its exact
value; any other is a floating point number, made from as many leading digits as
fit a word and a power of ten, and must not exceed the largest such number.
-/

set_option autoImplicit false
set_option relaxedAutoImplicit false

namespace TreeAudit.Json.Numeral

/-- Two to the sixty-fourth. -/
def wordBound : Nat := 0x10000000000000000

def isDigit (c : Char) : Bool := '0' ≤ c && c ≤ '9'

def digitValue (c : Char) : Nat := c.toNat - '0'.toNat

/-- Past a run of digits. -/
def skipDigits (cursor : Cursor) : Cursor :=
  go cursor.rest cursor.place
where
  go : List Char → Place → Cursor
    | [], place => ⟨[], place⟩
    | c :: rest, place =>
      if isDigit c then go rest (place.after c) else ⟨c :: rest, place⟩

def startsWithDigit (cursor : Cursor) : Bool :=
  match cursor.rest with
  | c :: _ => isDigit c
  | [] => false

def startsWith (cursor : Cursor) (letters : List Char) : Bool :=
  match cursor.rest with
  | c :: _ => letters.contains c
  | [] => false

/-- The leading digits as far as they fit a word after `significand`, how many
they are, and where the first digit that does not fit or the first other
character stands. -/
def fittingDigits (significand : Nat) (cursor : Cursor) : Nat × Nat × Cursor :=
  go significand 0 cursor.rest cursor.place
where
  go (significand count : Nat) : List Char → Place → Nat × Nat × Cursor
    | [], place => (significand, count, ⟨[], place⟩)
    | c :: rest, place =>
      let extended := significand * 10 + digitValue c
      if isDigit c ∧ extended < wordBound then go extended (count + 1) rest (place.after c)
      else (significand, count, ⟨c :: rest, place⟩)

def powerOfTen (n : Nat) : Binary64 := .ofNat (Nat.pow 10 n)

/-- The largest power of ten that is a floating point number has exponent 308. -/
def largestPower : Nat := 308

/-- The number `significand * 10 ^ exponent`, if it is not too large. Each
multiplication or division rounds on its own. -/
def ofParts? (significand : Nat) (exponent : Int) : Option Binary64 :=
  if significand = 0 then some .zero
  else if 0 ≤ exponent then
    if largestPower < exponent.toNat then none
    else
      match Binary64.ofNat significand * powerOfTen exponent.toNat with
      | .finite m e => some (.finite m e)
      | _ => none
  else
    let n := exponent.natAbs
    if n ≤ largestPower then some (.ofNat significand / powerOfTen n)
    else if n ≤ 2 * largestPower then
      some (.ofNat significand / powerOfTen largestPower / powerOfTen (n - largestPower))
    else some .zero

def float (minus : Bool) (significand : Nat) (exponent : Int) (cursor : Cursor) :
    Except Error (Number × Cursor) :=
  match ofParts? significand exponent with
  | some magnitude => .ok (.float minus magnitude, cursor)
  | none => .error (cursor.here .numberOutOfRange)

/-- Exponents stay below two to the thirty-first; past that a number is zero or
too large. -/
def exponentBound : Nat := 0x80000000

/-- The value of a run of digits as far as it stays below the bound, whether the
run went on past it, and where reading stopped: after the run, or after the
digit that passed the bound. -/
def boundedDigits (value : Nat) (cursor : Cursor) : Nat × Bool × Cursor :=
  go value cursor.rest cursor.place
where
  go (value : Nat) : List Char → Place → Nat × Bool × Cursor
    | [], place => (value, false, ⟨[], place⟩)
    | c :: rest, place =>
      if isDigit c then
        let extended := value * 10 + digitValue c
        if extended < exponentBound then go extended rest (place.after c)
        else (value, true, ⟨rest, place.after c⟩)
      else (value, false, ⟨c :: rest, place⟩)

/-- From the letter that opens the exponent. -/
def withExponent (minus : Bool) (significand : Nat) (exponent : Int) (cursor : Cursor) :
    Except Error (Number × Cursor) :=
  let cursor := cursor.next
  let down := startsWith cursor ['-']
  let cursor := if startsWith cursor ['+', '-'] then cursor.next else cursor
  match cursor.rest with
  | [] => .error (cursor.here .endInValue)
  | c :: _ =>
    if isDigit c then
      let (shift, passed, cursor) := boundedDigits (digitValue c) cursor.next
      if passed then
        if significand ≠ 0 ∧ down = false then .error (cursor.here .numberOutOfRange)
        else .ok (.float minus .zero, skipDigits cursor)
      else float minus significand (if down then exponent - shift else exponent + shift) cursor
    else .error (cursor.ahead .invalidNumber)

/-- From after the digits in front of an exponent. -/
def exponentOrEnd (minus : Bool) (significand : Nat) (exponent : Int) (cursor : Cursor) :
    Except Error (Number × Cursor) :=
  if startsWith cursor ['e', 'E'] then withExponent minus significand exponent cursor
  else float minus significand exponent cursor

/-- From the point. Digits after those that fit a word do not count. -/
def withFraction (minus : Bool) (significand : Nat) (exponent : Int) (cursor : Cursor) :
    Except Error (Number × Cursor) :=
  let start := cursor.next
  if startsWithDigit start then
    let (significand, places, rest) := fittingDigits significand start
    exponentOrEnd minus significand (exponent - places) (skipDigits rest)
  else if start.rest.isEmpty then .error (start.ahead .endInValue)
  else .error (start.ahead .invalidNumber)

/-- From after the digits in front of a point, all of which are in the
significand. -/
def afterWhole (minus : Bool) (significand : Nat) (cursor : Cursor) :
    Except Error (Number × Cursor) :=
  if startsWith cursor ['.'] then withFraction minus significand 0 cursor
  else if startsWith cursor ['e', 'E'] then withExponent minus significand 0 cursor
  else if minus then
    if significand = 0 ∨ 0x8000000000000000 < significand then
      .ok (.float true (.ofNat significand), cursor)
    else .ok (.negative significand, cursor)
  else .ok (.unsigned significand, cursor)

/-- How many digits follow. -/
def digitCount (cursor : Cursor) : Nat := (cursor.rest.takeWhile isDigit).length

/-- From the first digit, after the sign if there was one. -/
def readUnsigned (minus : Bool) (cursor : Cursor) : Except Error (Number × Cursor) :=
  match cursor.rest with
  | [] => .error (cursor.here .endInValue)
  | c :: _ =>
    if c = '0' then
      if startsWithDigit cursor.next then .error (cursor.next.ahead .invalidNumber)
      else afterWhole minus 0 cursor.next
    else if isDigit c then
      let (significand, _, rest) := fittingDigits 0 cursor
      if startsWithDigit rest then
        let dropped := digitCount rest
        let rest := skipDigits rest
        if startsWith rest ['.'] then withFraction minus significand dropped rest
        else exponentOrEnd minus significand dropped rest
      else afterWhole minus significand rest
    else .error (cursor.ahead .invalidNumber)

/-- A numeral whose first character is a digit or a minus sign. -/
def read (cursor : Cursor) : Except Error (Number × Cursor) :=
  if startsWith cursor ['-'] then readUnsigned true cursor.next else readUnsigned false cursor

/-- Past a sign and the digits of an exponent, from its letter. -/
def skipExponent (cursor : Cursor) : Except Error Cursor :=
  let cursor := cursor.next
  let cursor := if startsWith cursor ['+', '-'] then cursor.next else cursor
  if startsWithDigit cursor then .ok (skipDigits cursor)
  else .error (cursor.ahead .invalidNumber)

/-- Past a numeral, whatever its size. -/
def skip (cursor : Cursor) : Except Error Cursor :=
  let cursor := if startsWith cursor ['-'] then cursor.next else cursor
  if startsWithDigit cursor then
    let zero := startsWith cursor ['0']
    let whole := if zero then cursor.next else skipDigits cursor
    if zero && startsWithDigit whole then .error (whole.ahead .invalidNumber)
    else if startsWith whole ['.'] then
      if startsWithDigit whole.next then
        let rest := skipDigits whole.next
        if startsWith rest ['e', 'E'] then skipExponent rest else .ok rest
      else .error (whole.next.ahead .invalidNumber)
    else if startsWith whole ['e', 'E'] then skipExponent whole
    else .ok whole
  else .error (cursor.ahead .invalidNumber)

end TreeAudit.Json.Numeral
