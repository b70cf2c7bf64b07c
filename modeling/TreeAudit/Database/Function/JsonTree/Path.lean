import TreeAudit.Database.Function.JsonTree

/-!
Paths into trees: labels of members and places of elements, the latter from the start or
from the end. A path that is written wrongly is noticed only by who follows it so far.
-/

set_option autoImplicit false
set_option relaxedAutoImplicit false

namespace TreeAudit.Database.JsonTree

inductive Step where
  | member (written : List Char)
  | element (index : Nat)
  | fromEnd (distance : Nat)
  /-- What is no step, and whether an array is needed to notice. -/
  | broken (inArray : Bool)

abbrev Path := List Step

namespace Path

/-- A place between brackets, the opening one taken, and what is behind it. -/
def place? (text : List Char) : Option (Step × List Char) :=
  let digits := text.takeWhile Char.isDigit
  let number (digits : List Char) : Nat :=
    digits.foldl (fun value c ↦ 10 * value + Numeral.digitValue c) 0
  if !digits.isEmpty then
    match text.drop digits.length with
    | ']' :: rest => some (.element (number digits), rest)
    | _ => none
  else
    match text with
    | '#' :: ']' :: rest => some (.fromEnd 0, rest)
    | '#' :: '-' :: rest =>
      let digits := rest.takeWhile Char.isDigit
      match digits, rest.drop digits.length with
      | _ :: _, ']' :: rest => some (.fromEnd (number digits), rest)
      | _, _ => none
    | _ => none

/-- The steps that are written behind the sign for the whole tree. -/
def steps : (fuel : Nat) → List Char → Path
  | 0, _ | _, [] => []
  | fuel + 1, '.' :: '"' :: rest =>
    let written := rest.takeWhile fun c ↦ c ≠ '"'
    match rest.drop written.length with
    | [] => [.broken false]
    | _ :: rest => .member written :: steps fuel rest
  | fuel + 1, '.' :: rest =>
    let written := rest.takeWhile fun c ↦ c ≠ '.' && c ≠ '['
    if written.isEmpty then [.broken false]
    else .member written :: steps fuel (rest.drop written.length)
  | fuel + 1, '[' :: rest =>
    match place? rest with
    | some (step, rest) => step :: steps fuel rest
    | none => [.broken true]
  | _ + 1, _ :: _ => [.broken false]

/-- The path that is written by some text, if the text begins as one. -/
def read? : List Char → Option Path
  | '$' :: rest => some (steps rest.length rest)
  | _ => none

end Path

/-- What a path leads to. -/
inductive Finding where
  | tree (found : JsonTree)
  | missing
  | badPath

/-- Whether two labels are the same. -/
def sameLabel (a b : List Char) : Bool := textOf a = textOf b

/-- The place of an element among a number of them. -/
def indexOf? (count : Nat) : Step → Option Nat
  | .element index => some index
  | .fromEnd distance => if distance ≤ count then some (count - distance) else none
  | _ => none

/-- Follows a path. -/
def find : Path → JsonTree → Finding
  | [], tree => .tree tree
  | .member written :: path, .object members =>
    match members.find? fun entry ↦ sameLabel entry.1 written with
    | some (_, value) => find path value
    | none => .missing
  | .broken true :: _, .array _ => .badPath
  | .broken true :: _, _ => .missing
  | .broken false :: _, _ => .badPath
  | step :: path, .array members =>
    match (indexOf? members.length step).bind fun index ↦ members[index]? with
    | some value => find path value
    | none => .missing
  | _ :: _, _ => .missing

/-- Ways to change what is at the end of a path. -/
inductive Edit where
  | remove
  | replace (given : JsonTree)
  /-- What is there is kept. -/
  | insert (given : JsonTree)
  | set (given : JsonTree)

/-- What becomes of a tree at the end of a path. -/
def Edit.apply : Edit → JsonTree → Option JsonTree
  | remove, _ => none
  | replace given, _ | set given, _ => some given
  | insert _, tree => some tree

/-- What comes into a place that is free. -/
def Edit.given? : Edit → Option JsonTree
  | insert given | set given => some given
  | _ => none

/-- A tree with a change at the end of a path; nothing if it is removed as a whole. An error
if the path cannot be followed because of how it is written. -/
def edit (change : Edit) : Path → JsonTree → Except Unit (Option JsonTree)
  | [], tree => .ok (change.apply tree)
  | .member written :: path, .object members =>
    match members.findIdx? fun entry ↦ sameLabel entry.1 written with
    | some index =>
      match members[index]? with
      | some (label, value) =>
        (edit change path value).map fun value? ↦
          match value? with
          | some value => some (.object (members.set index (label, value)))
          | none => some (.object (members.eraseIdx index))
      | none => .ok (some (.object members))
    | none =>
      (fresh path).map fun value? ↦
        some (.object (members ++ (value?.map fun value ↦ (written, value)).toList))
  | .broken true :: _, .array _ | .broken false :: _, _ => .error ()
  | .broken true :: _, tree => .ok (some tree)
  | step :: path, .array members =>
    match indexOf? members.length step with
    | none => .ok (some (.array members))
    | some index =>
      match members[index]? with
      | some value =>
        (edit change path value).map fun value? ↦
          match value? with
          | some value => some (.array (members.set index value))
          | none => some (.array (members.eraseIdx index))
      | none =>
        if index ≠ members.length then .ok (some (.array members))
        else (fresh path).map fun value? ↦ some (.array (members ++ value?.toList))
  | _ :: _, tree => .ok (some tree)
where
  /-- What comes into a free place for the rest of a path to be followed from there. -/
  fresh (path : Path) : Except Unit (Option JsonTree) :=
    match change.given? with
    | none => .ok none
    | some given => build given path
  /-- The smallest tree with something at the end of a path, if there is one. -/
  build (given : JsonTree) : Path → Except Unit (Option JsonTree)
    | [] => .ok (some given)
    | .member written :: path =>
      (build given path).map fun value? ↦ value?.map fun value ↦ .object [(written, value)]
    | .broken _ :: _ => .error ()
    | step :: path =>
      if indexOf? 0 step = some 0 then
        (build given path).map fun value? ↦ value?.map fun value ↦ .array [value]
      else .ok none

mutual

/-- A tree changed as another one says: members that are null there go, others are put in
place or changed in turn. -/
def patch (target : JsonTree) : JsonTree → JsonTree
  | .object changes =>
    let members := match target with
      | .object members => members
      | _ => []
    .object (patchMembers members changes)
  | tree => tree

def patchMembers (members : List (List Char × JsonTree)) :
    List (List Char × JsonTree) → List (List Char × JsonTree)
  | [] => members
  | (label, change) :: rest =>
    match members.findIdx? fun entry ↦ sameLabel entry.1 label with
    | none =>
      match change with
      | .null => patchMembers members rest
      | change => patchMembers (members ++ [(label, patch .null change)]) rest
    | some index =>
      match change with
      | .null => patchMembers (members.eraseIdx index) rest
      | change =>
        let value := ((members[index]?).map Prod.snd).getD .null
        patchMembers (members.set index (label, patch value change)) rest

end

end TreeAudit.Database.JsonTree
