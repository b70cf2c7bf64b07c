import TreeAudit.Database.Conversion
import TreeAudit.Database.Function.JsonTree.Path
import TreeAudit.Database.Function.JsonTree.Reader

/-!
Functions on trees that are written in texts. A text that one of them has made counts as a
tree where another builds one from values; any other text is a text there.
-/

set_option autoImplicit false
set_option relaxedAutoImplicit false

namespace TreeAudit.Database

/-- A value, and whether it is a text that was made to be a tree. -/
structure Operand where
  value : Value
  isTree : Bool

namespace Operand

def plain (value : Value) : Operand := ⟨value, false⟩

def ofTree (tree : JsonTree) : Operand := ⟨JsonTree.toValue tree.render, true⟩

/-- A tree as a plain value, if it is one, or else as its text. -/
def ofTreeValue (tree : JsonTree) : Operand := ⟨tree.value, tree.isBranch⟩

end Operand

namespace Function.Json

def textOf? (encoding : Encoding) (value : Value) : Option (List Char) :=
  (value.textBytes? encoding).map Numeral.characters

def malformed : Fault := .rejected "malformed JSON"

def badPath (text : List Char) : Fault :=
  .rejected ("bad JSON path: '" ++
    String.ofList (Text.Utf8.decodeLossy (text.flatMap fun c ↦
      let byte := UInt8.ofNat c.toNat
      if c = '\'' then [byte, byte] else [byte])) ++ "'")

/-- The tree that a value is the text of. Nothing is no tree. -/
def tree? (encoding : Encoding) (value : Value) : Except Fault (Option JsonTree) :=
  match textOf? encoding value with
  | none => .ok none
  | some text =>
    match JsonTree.read? text with
    | some (tree, _) => .ok (some tree)
    | none => .error malformed

/-- A value as a part of a tree. -/
def part (encoding : Encoding) (operand : Operand) : Except Fault JsonTree :=
  match operand.value with
  | .null => .ok .null
  | .integer n => .ok (.number false (toString n).toList)
  | .real x => .ok (.number true (Numeral.realText x).toList)
  | .blob _ => .error (.rejected "JSON cannot hold BLOB values")
  | .text bytes => do
    let text := Numeral.characters bytes
    if operand.isTree then
      match ← tree? encoding operand.value with
      | some tree => return tree
      | none => return .null
    return .string (JsonTree.escaped text)

/-- The path in a text as it may be abbreviated behind an arrow: a place or a label stands
for itself. -/
def abbreviated (value : Value) (text : List Char) : List Char :=
  if text.head? = some '$' then text
  else
    match value with
    | .integer _ => ['$', '['] ++ text ++ [']']
    | _ =>
      if !text.isEmpty && text.all fun c ↦ c.isAlphanum && c.toNat < 128 then '$' :: '.' :: text
      else if text.head? = some '[' && 3 ≤ text.length && text.getLast? = some ']' then '$' :: text
      else ['$', '.', '"'] ++ text ++ ['"']

/-- What the path in a text leads to. -/
def find (tree : JsonTree) (path text : List Char) : Except Fault (Option JsonTree) :=
  match JsonTree.Path.read? path with
  | none => .error (badPath text)
  | some path =>
    match JsonTree.find path tree with
    | .tree found => .ok (some found)
    | .missing => .ok none
    | .badPath => .error (badPath text)

def null : Operand := .plain .null

/-- What a path behind an arrow leads to. -/
def arrow (encoding : Encoding) (isPlain : Bool) (document path : Value) :
    Except Fault Operand := do
  match ← tree? encoding document, textOf? encoding path with
  | some tree, some text =>
    match ← find tree (abbreviated path text) text with
    | some found => return if isPlain then .plain found.value else .ofTree found
    | none => return null
  | _, _ => return null

/-- What one path leads to, or all that several ones do. -/
def extract (encoding : Encoding) (document : Value) (paths : List Value) :
    Except Fault Operand := do
  match ← tree? encoding document, paths.mapM (textOf? encoding) with
  | some tree, some texts =>
    let found ← texts.mapM fun text ↦ find tree text text
    match found with
    | [] => return null
    | [found?] => return found?.elim null .ofTreeValue
    | found => return .ofTree (.array (found.map fun found? ↦ found?.getD .null))
  | _, _ => return null

/-- The tree at a path, or the whole one. -/
def subtree? (encoding : Encoding) (document : Value) (path? : Option Value) :
    Except Fault (Option JsonTree) := do
  match ← tree? encoding document, path? with
  | some tree, some path =>
    match textOf? encoding path with
    | some text => find tree text text
    | none => return none
  | tree?, none => return tree?
  | none, _ => return none

def arrayLength : JsonTree → Nat
  | .array members => members.length
  | _ => 0

def isValid (encoding : Encoding) (value : Value) (flags : Int) : Except Fault Operand :=
  if flags < 1 || 15 < flags then
    .error (.rejected "FLAGS parameter to json_valid() must be between 1 and 15")
  else
    match textOf? encoding value with
    | none => .ok null
    | some text =>
      let isGood := match JsonTree.read? text with
        | some (_, isStrict) => flags % 4 / 2 = 1 || flags % 2 = 1 && isStrict
        | none => false
      .ok (.plain (.ofBool isGood))

/-- Labels and values in turn. -/
def objectMembers (encoding : Encoding) :
    List Operand → Except Fault (List (List Char × JsonTree))
  | label :: value :: rest => do
    match label.value with
    | .text bytes =>
      let member := (JsonTree.escaped (Numeral.characters bytes), ← part encoding value)
      return member :: (← objectMembers encoding rest)
    | _ => throw (.rejected "json_object() labels must be TEXT")
  | _ => return []

/-- Makes changes at paths one after the other. -/
def edited (encoding : Encoding) (change : JsonTree → JsonTree.Edit) (tree : JsonTree) :
    List Operand → Except Fault JsonTree
  | path :: value :: rest => do
    match textOf? encoding path.value with
    | none => edited encoding change tree rest
    | some text =>
      match JsonTree.Path.read? text with
      | none => throw (badPath text)
      | some path =>
        let given ← part encoding value
        match JsonTree.edit (change given) path tree with
        | .ok next? => edited encoding change (next?.getD tree) rest
        | .error () => throw (badPath text)
  | _ => return tree

/-- A tree without what some paths lead to. Without all of it there is nothing. -/
def removed (encoding : Encoding) (tree : JsonTree) : List Operand → Except Fault Operand
  | [] => return .ofTree tree
  | path :: rest => do
    match textOf? encoding path.value with
    | none => return null
    | some text =>
      match JsonTree.Path.read? text with
      | none => throw (badPath text)
      | some path =>
        match JsonTree.edit .remove path tree with
        | .ok (some next) => removed encoding next rest
        | .ok none => return null
        | .error () => throw (badPath text)

def changed (encoding : Encoding) (name : String) (change : JsonTree → JsonTree.Edit)
    (document : Operand) (changes : List Operand) : Except Fault Operand := do
  if changes.length % 2 = 1 then
    throw (.rejected ("json_" ++ name ++ "() needs an odd number of arguments"))
  match ← tree? encoding document.value with
  | none => return null
  | some tree => return .ofTree (← edited encoding change tree changes)

/-- The value of a call, if the function is one of those here. -/
def call? (encoding : Encoding) (name : String) (operands : List Operand) :
    Option (Except Fault Operand) :=
  match name, operands with
  | "->", [document, path] => some (arrow encoding false document.value path.value)
  | "->>", [document, path] => some (arrow encoding true document.value path.value)
  | "json", [document] => some do
    return ((← tree? encoding document.value).map Operand.ofTree).getD null
  | "json_extract", document :: paths =>
    some (if paths.isEmpty then .ok null
      else extract encoding document.value (paths.map Operand.value))
  | "json_extract", [] => some (.ok null)
  | "json_type", document :: path => some do
    let found? ← subtree? encoding document.value (path.head?.map Operand.value)
    return found?.elim null fun tree ↦ .plain (.ofString tree.kind)
  | "json_array_length", document :: path => some do
    let found? ← subtree? encoding document.value (path.head?.map Operand.value)
    return found?.elim null fun tree ↦ .plain (.integer (arrayLength tree))
  | "json_valid", [document] => some (isValid encoding document.value 1)
  | "json_valid", [document, flags] => some (isValid encoding document.value flags.value.toInt)
  | "json_quote", [operand] => some do return .ofTree (← part encoding operand)
  | "json_array", operands => some do
    return .ofTree (.array (← operands.mapM (part encoding)))
  | "json_object", operands => some do
    if operands.length % 2 = 1 then
      throw (.rejected "json_object() requires an even number of arguments")
    return .ofTree (.object (← objectMembers encoding operands))
  | "json_set", document :: changes => some (changed encoding "set" .set document changes)
  | "json_insert", document :: changes =>
    some (changed encoding "insert" .insert document changes)
  | "json_replace", document :: changes =>
    some (changed encoding "replace" .replace document changes)
  | "json_remove", document :: paths => some do
    match ← tree? encoding document.value with
    | none => return null
    | some tree => removed encoding tree paths
  | "json_patch", [document, changes] => some do
    match ← tree? encoding document.value with
    | none => return null
    | some tree =>
      let changes? ← tree? encoding changes.value
      return changes?.elim null fun changes ↦ .ofTree (JsonTree.patch tree changes)
  | _, _ => none

end Function.Json

end TreeAudit.Database
