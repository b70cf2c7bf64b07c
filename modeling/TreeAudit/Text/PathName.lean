import TreeAudit.Text.Split

/-!
Names of files: names joined by slashes, where empty names and dots in the middle
say nothing.
-/

set_option autoImplicit false
set_option relaxedAutoImplicit false

namespace TreeAudit.Text.PathName

/-- The names of a path between its slashes. -/
def names (path : String) : List String := (Split.pieces '/' path.toList).map String.ofList

def isAbsolute (path : String) : Bool := path.toList.head? = some '/'

/-- Whether a name says nothing where it stands behind another. -/
def isIdle (name : String) : Bool := name = "" || name = "."

/-- The names that have to be followed from the start of a path. -/
def steps (path : String) : List String := (names path).filter fun name ↦ !isIdle name

/-- The names of a path up to the last one that says something, the first name
always kept. The names are given in reverse. -/
def trim : List String → List String
  | name :: first :: rest => if isIdle name then trim (first :: rest) else name :: first :: rest
  | names => names

/-- The path that the given names spell, the first of an absolute path being
empty. -/
def spell (absolute : Bool) (reversed : List String) : String :=
  if absolute && reversed.length ≤ 1 then "/"
  else String.ofList (['/'].intercalate (reversed.reverse.map String.toList))

/-- The directory a path is in, as far as its spelling tells: none for the top, and
nothing for a single name. -/
def parent? (path : String) : Option String :=
  match trim (names path).reverse with
  | [] => none
  | [name] => if isAbsolute path || name = "" then none else some ""
  | _ :: rest => some (spell (isAbsolute path) (trim rest))

example : parent? "d/./x" = some "d" := by decide +kernel
example : parent? "./ro//o/" = some "./ro" := by decide +kernel
example : parent? "nope/../out.txt" = some "nope/.." := by decide +kernel
example : parent? "/x" = some "/" := by decide +kernel
example : parent? "//" = none := by decide +kernel
example : parent? "out.txt/" = some "" := by decide +kernel

end TreeAudit.Text.PathName
