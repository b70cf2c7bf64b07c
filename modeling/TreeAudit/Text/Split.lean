/-!
Cutting a text at a separator character: before and after its first
occurrence, and before its last.
-/

set_option autoImplicit false
set_option relaxedAutoImplicit false

namespace TreeAudit.Text.Split

/-- What stands before and after the first `separator`, if there is one. -/
def atFirst? (separator : Char) : List Char → Option (List Char × List Char)
  | [] => none
  | c :: rest =>
    if c = separator then some ([], rest)
    else (atFirst? separator rest).map fun (before, after) ↦ (c :: before, after)

/-- What stands before the last `separator`, if there is one. -/
def beforeLast? (separator : Char) : List Char → Option (List Char)
  | [] => none
  | c :: rest =>
    match beforeLast? separator rest with
    | some before => some (c :: before)
    | none => if c = separator then some [] else none

/-- The text without one trailing `c`, if it ends in one. -/
def dropTrailing (c : Char) (text : List Char) : List Char :=
  if text.getLast? = some c then text.dropLast else text

/-- The pieces between separators; a text without one is a single piece. -/
def pieces (separator : Char) : List Char → List (List Char)
  | [] => [[]]
  | c :: rest =>
    if c = separator then [] :: pieces separator rest
    else
      match pieces separator rest with
      | [] => [[c]]
      | piece :: others => (c :: piece) :: others

end TreeAudit.Text.Split
