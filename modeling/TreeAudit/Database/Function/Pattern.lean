/-!
Patterns that texts are matched with. One notation has a percent sign for any characters, an
underscore for any one, and takes the letters of the English alphabet in either case; the
other has a star and a question mark for them, and sets of characters in brackets.
-/

set_option autoImplicit false
set_option relaxedAutoImplicit false

namespace TreeAudit.Database

/-- A part of a pattern. -/
inductive PatternPart where
  | many
  | one
  | exactly (c : Char)
  /-- Any character from one of some ranges, or from none of them. -/
  | among (isNegated : Bool) (ranges : List (Char × Char))
  /-- What no character is. -/
  | never

abbrev Pattern := List PatternPart

namespace Pattern

/-- The pattern written with percent signs and underscores, and perhaps with a character that
takes away the meaning of the one behind it. -/
def like (escape? : Option Char) : List Char → Pattern
  | [] => []
  | c :: rest =>
    if some c = escape? then
      match rest with
      | [] => [.never]
      | d :: rest => .exactly d :: like escape? rest
    else
      (if c = '%' then .many else if c = '_' then .one else .exactly c) :: like escape? rest

/-- The ranges of a set whose bracket is open, up to the closing one, and what is behind it.
`last?` is the character before, if a range may start there. -/
def ranges? : (last? : Option Char) → List Char → Option (List (Char × Char) × List Char)
  | _, [] => none
  | _, ']' :: rest => some ([], rest)
  | some first, '-' :: ']' :: rest => some ([(first, first), ('-', '-')], rest)
  | some first, '-' :: last :: rest =>
    (ranges? none rest).map fun (ranges, rest) ↦ ((first, last) :: ranges, rest)
  | _, c :: rest => (ranges? (some c) rest).map fun (ranges, rest) ↦ ((c, c) :: ranges, rest)

/-- A set whose bracket is open. A closing bracket at its start is a member. -/
def set? (text : List Char) : Option (PatternPart × List Char) :=
  let (isNegated, text) := match text with
    | '^' :: rest => (true, rest)
    | text => (false, text)
  let (first, text) := match text with
    | ']' :: rest => ([(']', ']')], rest)
    | text => ([], text)
  (ranges? none text).map fun (ranges, rest) ↦ (.among isNegated (first ++ ranges), rest)

/-- The pattern written with stars, question marks and sets. -/
def glob : (fuel : Nat) → List Char → Pattern
  | 0, _ | _, [] => []
  | fuel + 1, c :: rest =>
    if c = '[' then
      match set? rest with
      | some (part, rest) => part :: glob fuel rest
      | none => [.never]
    else
      (if c = '*' then .many else if c = '?' then .one else .exactly c) :: glob fuel rest

def ofGlob (text : List Char) : Pattern := glob text.length text

/-- Whether two characters are the same, or the same letter. -/
def sameLetter (a b : Char) : Bool :=
  a = b || a.toNat < 128 && b.toNat < 128 && a.toLower = b.toLower

/-- Whether something holds of a text or of what is left of it behind some characters. -/
def somewhere (holds : List Char → Bool) : List Char → Bool
  | [] => holds []
  | c :: rest => holds (c :: rest) || somewhere holds rest

/-- Whether a text as a whole fits a pattern. -/
def fits (same : Char → Char → Bool) : Pattern → List Char → Bool
  | [], text => text.isEmpty
  | .many :: rest, text => somewhere (fits same rest) text
  | _ :: _, [] => false
  | .one :: rest, _ :: text => fits same rest text
  | .exactly c :: rest, d :: text => same c d && fits same rest text
  | .among isNegated ranges :: rest, d :: text =>
    (ranges.any fun (low, high) ↦ low ≤ d && d ≤ high) != isNegated && fits same rest text
  | .never :: _, _ :: _ => false

example : fits sameLetter (like none "%_Ab%".toList) "xaBc".toList := by decide +kernel
example : fits sameLetter (like (some 'x') "ax%".toList) "a%".toList := by decide +kernel
example : fits (· = ·) (ofGlob "[^a-c]*".toList) "dog".toList := by decide +kernel

end Pattern

end TreeAudit.Database
