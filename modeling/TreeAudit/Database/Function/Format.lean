import TreeAudit.Database.Function.Text

/-!
Values put into a text that says where and how. What is to be put in is marked by a percent
sign, flags, a width, a precision and a letter for the kind. Arguments that are missing count
as zero or as nothing.
-/

set_option autoImplicit false
set_option relaxedAutoImplicit false

namespace TreeAudit.Database.Function.Format

/-- How a value is put in. -/
structure Style where
  isLeft : Bool
  /-- What stands in front of numbers that are not negative. -/
  sign : List Char
  isAlternate : Bool
  /-- Whether characters are counted, and digits are not cut. -/
  isExact : Bool
  isZeroPadded : Bool
  isGrouped : Bool
  width : Nat
  precision? : Option Nat

def Style.plain : Style := ⟨false, [], false, false, false, false, 0, none⟩

/-- The state of writing: the arguments that are left, and what has been written, both as
characters that stand for bytes. -/
structure Writing where
  arguments : List Value
  written : List Char

def number (digits : List Char) : Nat :=
  digits.foldl (fun value c ↦ 10 * value + Numeral.digitValue c) 0

/-- The next argument, if there is one. -/
def Writing.next (writing : Writing) : Option Value × Writing :=
  (writing.arguments.head?, { writing with arguments := writing.arguments.tail })

def Writing.nextInt (writing : Writing) : Int × Writing :=
  let (value?, writing) := writing.next
  ((value?.map Value.toInt).getD 0, writing)

/-- A width, which may be an argument; a negative one asks for the left side. -/
def width (style : Style) (writing : Writing) : List Char → Style × Writing × List Char
  | '*' :: rest =>
    let (n, writing) := writing.nextInt
    let n := n.bmod 0x100000000
    ({ style with width := n.natAbs, isLeft := style.isLeft || n < 0 }, writing, rest)
  | text =>
    let digits := text.takeWhile Char.isDigit
    ({ style with width := if digits.isEmpty then style.width else number digits }, writing,
      text.drop digits.length)

def precision (style : Style) (writing : Writing) : List Char → Style × Writing × List Char
  | '.' :: '*' :: rest =>
    let (n, writing) := writing.nextInt
    ({ style with precision? := some (n.bmod 0x100000000).natAbs }, writing, rest)
  | '.' :: rest =>
    let digits := rest.takeWhile Char.isDigit
    ({ style with precision? := some (number digits) }, writing, rest.drop digits.length)
  | text => (style, writing, text)

def flags : Style → List Char → Style × List Char
  | style, '-' :: rest => flags { style with isLeft := true } rest
  | style, '+' :: rest => flags { style with sign := ['+'] } rest
  | style, ' ' :: rest => flags { style with sign := [' '] } rest
  | style, '#' :: rest => flags { style with isAlternate := true } rest
  | style, '!' :: rest => flags { style with isExact := true } rest
  | style, '0' :: rest => flags { style with isZeroPadded := true } rest
  | style, ',' :: rest => flags { style with isGrouped := true } rest
  | style, rest => (style, rest)

/-- Marks for the size of numbers, which say nothing here. -/
def sizes : List Char → List Char
  | 'l' :: 'l' :: rest | 'l' :: rest => rest
  | rest => rest

/-- Digits with a comma in front of every three from the end. -/
def grouped (digits : List Char) : List Char :=
  let first := digits.length % 3
  let rec triples : (fuel : Nat) → List Char → List (List Char)
    | 0, _ | _, [] => []
    | fuel + 1, digits => digits.take 3 :: triples fuel (digits.drop 3)
  let groups := (if first = 0 then [] else [digits.take first]) ++
    triples digits.length (digits.drop first)
  [','].intercalate groups

/-- A text in a field. -/
def padded (style : Style) (text : List Char) : List Char :=
  let length := if style.isExact then
    (text.filter fun c ↦ !isContinuation (UInt8.ofNat c.toNat)).length else text.length
  let padding := List.replicate (style.width - length) ' '
  if style.isLeft then text ++ padding else padding ++ text

/-- A whole number by its digits, with what stands in front. -/
def digitsText (style : Style) (sign before digits : List Char) : List Char :=
  let least := style.precision?.getD 0
  let least :=
    if style.isZeroPadded then max least (style.width - sign.length) else least
  let digits := List.replicate (least - digits.length) '0' ++ digits
  before ++ sign ++ (if style.isGrouped then grouped digits else digits)

def integerText (style : Style) (n : Int) : List Char :=
  let sign := if n < 0 then ['-'] else style.sign
  padded { style with isExact := false } (digitsText style sign [] (Nat.toDigits 10 n.natAbs))

/-- A word of 64 bits in digits of some base. -/
def wordText (style : Style) (base : Nat) (before : List Char) (isUpper : Bool) (n : Int) :
    List Char :=
  let word : Nat := (n % 0x10000000000000000).toNat
  let digits := (Nat.toDigits base word).map fun c ↦ if isUpper then c.toUpper else c
  let before := if style.isAlternate && word ≠ 0 then before else []
  padded { style with isExact := false }
    (digitsText { style with isGrouped := style.isGrouped && base = 10 } [] before digits)

/-- How a real number is written. -/
inductive RealKind where
  | fixed
  | scientific (letter : Char)
  | general (letter : Char)

/-- The digits of a number that count, without zeros at the end, and how many of them stand in
front of the point. -/
structure Digits where
  digits : List Char
  point : Int

/-- A positive number to so many digits, or to so many behind the point. -/
def digitsOf (significand : Nat) (exponent : Int) (most : Nat) (count : Int → Int) : Digits :=
  let stripped (digits : List Char) : List Char :=
    (digits.reverse.dropWhile fun c ↦ c = '0').reverse
  let (all, point) := Numeral.significantDigits 20 significand exponent
  let wanted := count point
  if wanted < 0 then ⟨stripped all, point⟩
  else if wanted = 0 then
    if '5' ≤ all.head?.getD '0' then ⟨['1'], point + 1⟩ else ⟨[], point⟩
  else
    let (digits, point) :=
      Numeral.significantDigits (min most (min 20 wanted.toNat)) significand exponent
    ⟨stripped digits, point⟩

/-- A number that is not negative, before any padding. -/
def positiveReal (style : Style) (kind : RealKind) (significand : Nat) (exponent : Int) :
    List Char :=
  let most := if style.isExact then 26 else 16
  let precision := style.precision?.getD 6
  let precision : Nat := match kind with
    | .general _ => max 1 precision
    | _ => precision
  let decoded : Digits :=
    if significand = 0 then ⟨[], 1⟩
    else digitsOf significand exponent most fun point ↦
      match kind with
      | .fixed => point + precision
      | .scientific _ => precision + 1
      | .general _ => precision
  let power := decoded.point - 1
  let (letter?, precision, isTrimmed) : Option Char × Nat × Bool := match kind with
    | .fixed => (none, precision, style.isExact)
    | .scientific letter => (some letter, precision, style.isExact)
    | .general letter =>
      if power < -4 || ((precision : Int) - 1) < power then
        (some letter, precision - 1, !style.isAlternate)
      else (none, ((precision : Int) - 1 - power).toNat, !style.isAlternate)
  let whole := if letter?.isSome then 1 else decoded.point
  let digitAt (place : Int) : Char :=
    if place < 0 then '0' else decoded.digits[place.toNat]?.getD '0'
  let front :=
    if whole ≤ 0 then ['0']
    else (List.range whole.toNat).map fun (place : Nat) ↦ digitAt place
  let front := if style.isGrouped && letter?.isNone then grouped front else front
  let fraction := (List.range precision).map fun (place : Nat) ↦ digitAt (whole + place)
  let fraction :=
    if isTrimmed then (fraction.reverse.dropWhile fun c ↦ c = '0').reverse else fraction
  let hasPoint :=
    if isTrimmed then !fraction.isEmpty || style.isExact
    else 0 < precision || style.isAlternate || style.isExact
  let fraction := if isTrimmed && fraction.isEmpty && style.isExact then ['0'] else fraction
  let tail := match letter? with
    | none => []
    | some letter =>
      let size := Nat.toDigits 10 power.natAbs
      letter :: (if power < 0 then '-' else '+') ::
        ((if size.length < 2 then ['0'] else []) ++ size)
  front ++ (if hasPoint then ['.'] else []) ++ fraction ++ tail

def realText (style : Style) (kind : RealKind) (x : SignedBinary64) : List Char :=
  let isZero := x.isZero
  let sign := if x.negative && !isZero then ['-'] else style.sign
  let style' := { style with isExact := false }
  match x.magnitude with
  | .finite significand exponent =>
    let text := positiveReal style kind significand exponent
    let padding :=
      if style.isZeroPadded && !style.isLeft then
        List.replicate (style.width - (sign.length + text.length)) '0'
      else []
    padded style' (sign ++ padding ++ text)
  | .infinite => padded style' (sign ++ "Inf".toList)
  | .nan => padded style' "NaN".toList

/-- The front of a text, by bytes or by characters. -/
def cut (style : Style) (text : List Char) : List Char :=
  match style.precision? with
  | none => text
  | some count =>
    if style.isExact then
      Numeral.characters ((characters (text.map fun c ↦ UInt8.ofNat c.toNat)).take count).flatten
    else text.take count

/-- A text with every quote in it twice. -/
def doubled (quote : Char) (text : List Char) : List Char :=
  text.flatMap fun c ↦ if c = quote then [c, c] else [c]

def textOf (encoding : Encoding) (value? : Option Value) : Option (List Char) :=
  (value?.bind (Value.textBytes? encoding)).map fun bytes ↦ Numeral.characters (upToZero bytes)

/-- What the letter of a mark asks for, if there is such a letter. -/
def put? (encoding : Encoding) (style : Style) (letter : Char) (value? : Option Value) :
    Option (List Char) :=
  let n := (value?.map Value.toInt).getD 0
  let x := (value?.map Value.toReal).getD (.ofInt 0)
  let text? := textOf encoding value?
  match letter with
  | 'd' | 'i' => some (integerText style n)
  | 'u' => some (wordText style 10 [] false n)
  | 'x' => some (wordText style 16 ['0', 'x'] false n)
  | 'X' => some (wordText style 16 ['0', 'X'] true n)
  | 'o' => some (wordText style 8 ['0'] false n)
  | 'f' => some (realText style .fixed x)
  | 'e' => some (realText style (.scientific 'e') x)
  | 'E' => some (realText style (.scientific 'E') x)
  | 'g' => some (realText style (.general 'e') x)
  | 'G' => some (realText style (.general 'E') x)
  | 's' | 'z' => some (padded style (cut style (text?.getD [])))
  | 'q' =>
    some (padded style (text?.elim "(NULL)".toList fun text ↦ doubled '\'' (cut style text)))
  | 'w' =>
    some (padded style (text?.elim "(NULL)".toList fun text ↦ doubled '"' (cut style text)))
  | 'Q' =>
    some (padded style (text?.elim "NULL".toList fun text ↦
      '\'' :: doubled '\'' (cut style text) ++ ['\'']))
  | 'c' =>
    let first := (characters ((text?.getD []).map fun c ↦ UInt8.ofNat c.toNat)).head?.getD [0]
    let times := max 1 (style.precision?.getD 1)
    some (padded { style with isExact := true }
      (List.replicate times (Numeral.characters first)).flatten)
  | _ => none

/-- Writes a text with what is marked in it. -/
def write (encoding : Encoding) : (fuel : Nat) → List Char → Writing → List Char
  | 0, _, writing | _, [], writing => writing.written
  | fuel + 1, '%' :: rest, writing =>
    let (style, rest) := flags .plain rest
    let (style, writing, rest) := width style writing rest
    let (style, writing, rest) := precision style writing rest
    match sizes rest with
    | [] => writing.written ++ ['%']
    | '%' :: rest =>
      write encoding fuel rest { writing with written := writing.written ++ ['%'] }
    | letter :: rest =>
      let (value?, following) := writing.next
      match put? encoding style letter value? with
      | some text =>
        write encoding fuel rest { following with written := following.written ++ text }
      | none => writing.written
  | fuel + 1, c :: rest, writing =>
    write encoding fuel rest { writing with written := writing.written ++ [c] }

/-- The text that values make. -/
def apply (encoding : Encoding) : List Value → Value
  | [] => .null
  | pattern :: arguments =>
    match textOf encoding (some pattern) with
    | none => .null
    | some text =>
      let written := write encoding (text.length + 1) text ⟨arguments, []⟩
      .text (written.map fun c ↦ UInt8.ofNat c.toNat)

example : apply .utf8 [.ofString "%-3d|%q", .integer 7, .ofString "a'b"] =
    .ofString "7  |a''b" := by cbv

end TreeAudit.Database.Function.Format
