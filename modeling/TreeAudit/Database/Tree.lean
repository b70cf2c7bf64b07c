import TreeAudit.Database.Image
import TreeAudit.Database.Walk

/-!
The trees in an image. A page of a tree is a leaf or a branch. A tree by row numbers has its
cells in the leaves, and those of its branches only tell the way; a tree by keys has cells
with a key in every page, those of a branch between the subtrees that it joins. A tree has
at most twenty levels, and no page of it but the root may be without cells.
-/

set_option autoImplicit false
set_option relaxedAutoImplicit false

namespace TreeAudit.Database

open Bytes

/-- A page of a tree. -/
structure TreePage where
  number : Nat
  content : ByteArray
  /-- Whether the tree is one by keys. -/
  isKeyed : Bool
  isLeaf : Bool
  cellCount : Nat

/-- A cell of a tree, by its page and its place there. -/
structure TreeCell where
  page : TreePage
  index : Nat

namespace TreePage

/-- Where the header of a page starts: the first page has that of the image before it. -/
def headerOf (number : Nat) : Nat := if number = 1 then 100 else 0

def header (page : TreePage) : Nat := headerOf page.number

/-- The subtree behind all cells of a branch. -/
def lastChild (page : TreePage) : Nat := numberAt page.content (page.header + 8) 4

/-- Where a cell starts. -/
def cellOffset (page : TreePage) (index : Nat) : Nat :=
  let pointers := page.header + (if page.isLeaf then 8 else 12)
  numberAt page.content (pointers + 2 * index) 2 % page.content.size

/-- The subtree in front of a cell of a branch, or behind all of them. -/
def child (page : TreePage) (index : Nat) : Nat :=
  if index < page.cellCount then numberAt page.content (page.cellOffset index) 4
  else page.lastChild

def cells (page : TreePage) (start : Nat) : List TreeCell :=
  (List.range' start (page.cellCount - start)).map fun index ↦ ⟨page, index⟩

/-- Whether a page is keyed and a leaf, by the number of its kind. -/
def kind? : Nat → Option (Bool × Bool)
  | 2 => some (true, false)
  | 5 => some (false, false)
  | 10 => some (true, true)
  | 13 => some (false, true)
  | _ => none

end TreePage

namespace Image

/-- The page of a tree with some number. -/
def treePage (image : Image) (number : Nat) : Except Fault TreePage :=
  if number = 0 || image.pageCount < number then .error .malformed
  else
    let content := image.content number
    let header := TreePage.headerOf number
    let cellCount := numberAt content (header + 3) 2
    match TreePage.kind? (byteAt content header) with
    | some (isKeyed, isLeaf) =>
      if (image.pageSize - 8) / 6 < cellCount then .error .malformed
      else .ok ⟨number, content, isKeyed, isLeaf, cellCount⟩
    | none => .error .malformed

/-- The root of a tree of the given kind. -/
def root (image : Image) (isKeyed : Bool) (number : Nat) : Except Fault TreePage := do
  let page ← image.treePage number
  if page.isKeyed ≠ isKeyed then throw .malformed
  if page.cellCount = 0 && !page.isLeaf && number ≠ 1 then throw .malformed
  return page

/-- A page below the root of a tree. -/
def inner (image : Image) (isKeyed : Bool) (number : Nat) : Except Fault TreePage := do
  let page ← image.treePage number
  if page.cellCount = 0 || page.isKeyed ≠ isKeyed then throw .malformed
  return page

/-- The greatest number of levels of a tree. -/
def greatestDepth : Nat := 20

/-- The cells from a page down, in the order of the tree, from where `start` says in each
page on the way to the first. -/
def cellsBelow (image : Image) : (depth : Nat) → (TreePage → Except Fault Nat) → TreePage →
    Walk TreeCell
  | 0, _, _ => .fail .malformed
  | depth + 1, start, page =>
    match start page with
    | .error fault => .fail fault
    | .ok first =>
      if page.isLeaf then .ofList (page.cells first)
      else
        let subtree (start : TreePage → Except Fault Nat) (index : Nat) : Walk TreeCell :=
          if depth = 0 then .fail .malformed
          else
            match image.inner page.isKeyed (page.child index) with
            | .error fault => .fail fault
            | .ok below => cellsBelow image depth start below
        let behind (cell : TreeCell) : Walk TreeCell :=
          (if page.isKeyed then Walk.ofList [cell] else .nil).followedBy fun _ ↦
            subtree (fun _ ↦ .ok 0) (cell.index + 1)
        (subtree start first).followedBy fun _ ↦ Walk.flatMap behind (page.cells first)

/-- The cells of a tree from where `start` says. A database without pages has empty trees
only. -/
def cellsFrom (image : Image) (isKeyed : Bool) (number : Nat)
    (start : TreePage → Except Fault Nat) : Walk TreeCell :=
  if image.pageCount = 0 && number = 1 then .nil
  else
    match image.root isKeyed number with
    | .error fault => .fail fault
    | .ok page =>
      if page.cellCount = 0 && page.isLeaf then .nil
      else image.cellsBelow greatestDepth start page

/-- The cells from a page down, backwards, from in front of where `stop` says in each page on
the way to the last. -/
def cellsBackBelow (image : Image) : (depth : Nat) → (TreePage → Except Fault Nat) → TreePage →
    Walk TreeCell
  | 0, _, _ => .fail .malformed
  | depth + 1, stop, page =>
    match stop page with
    | .error fault => .fail fault
    | .ok last =>
      let before := (page.cells 0).take last
      if page.isLeaf then .ofList before.reverse
      else
        let subtree (stop : TreePage → Except Fault Nat) (index : Nat) : Walk TreeCell :=
          if depth = 0 then .fail .malformed
          else
            match image.inner page.isKeyed (page.child index) with
            | .error fault => .fail fault
            | .ok below => cellsBackBelow image depth stop below
        let inFront (cell : TreeCell) : Walk TreeCell :=
          (if page.isKeyed then Walk.ofList [cell] else .nil).followedBy fun _ ↦
            subtree (fun page ↦ .ok page.cellCount) cell.index
        (subtree stop last).followedBy fun _ ↦ Walk.flatMap inFront before.reverse

/-- The cells of a tree backwards, from in front of where `stop` says. -/
def cellsBackFrom (image : Image) (isKeyed : Bool) (number : Nat)
    (stop : TreePage → Except Fault Nat) : Walk TreeCell :=
  match image.root isKeyed number with
  | .error fault => .fail fault
  | .ok page =>
    if page.cellCount = 0 && page.isLeaf then .nil
    else image.cellsBackBelow greatestDepth stop page

/-- All cells of a tree. -/
def cells (image : Image) (isKeyed : Bool) (number : Nat) : Walk TreeCell :=
  image.cellsFrom isKeyed number fun _ ↦ .ok 0

/-- The last cell from a page down. -/
def lastBelow (image : Image) : (depth : Nat) → TreePage → Except Fault TreeCell
  | 0, _ => .error .malformed
  | depth + 1, page => do
    if page.isLeaf then return ⟨page, page.cellCount - 1⟩
    if depth = 0 then throw .malformed
    lastBelow image depth (← image.inner page.isKeyed page.lastChild)

/-- The last cell of a tree by row numbers, if it has any. -/
def lastRow? (image : Image) (number : Nat) : Except Fault (Option TreeCell) := do
  let page ← image.root false number
  if page.cellCount = 0 && page.isLeaf then return none
  return some (← image.lastBelow greatestDepth page)

/-- Looks for a cell of a page by halving the range of those that come into question. Gives
the first cell that is not in front of what is sought, and whether it is just that, which ends
the search at once. -/
def locate (order : TreeCell → Except Fault Ordering) (page : TreePage) :
    (fuel low high : Nat) → Except Fault (Nat × Bool)
  | 0, low, _ => .ok (low, false)
  | fuel + 1, low, high => do
    if high ≤ low then return (low, false)
    let middle := (low + high - 1) / 2
    match ← order ⟨page, middle⟩ with
    | .lt => locate order page fuel (middle + 1) high
    | .gt => locate order page fuel low middle
    | .eq => return (middle, true)

/-- Looks for a cell among all of a page. -/
def locateIn (order : TreeCell → Except Fault Ordering) (page : TreePage) :
    Except Fault (Nat × Bool) :=
  locate order page page.cellCount 0 page.cellCount

/-- The cell that is sought from a page down. A cell of a branch of a tree by row numbers only
tells the way. -/
def seekBelow (image : Image) (order : TreeCell → Except Fault Ordering) :
    (depth : Nat) → TreePage → Except Fault (Option TreeCell)
  | 0, _ => .error .malformed
  | depth + 1, page => do
    let (index, isFound) ← locateIn order page
    if isFound && (page.isLeaf || page.isKeyed) then return some ⟨page, index⟩
    if page.isLeaf then return none
    if depth = 0 then throw .malformed
    seekBelow image order depth (← image.inner page.isKeyed (page.child index))

/-- The cell of a tree that is sought, if there is one. -/
def seek (image : Image) (isKeyed : Bool) (number : Nat)
    (order : TreeCell → Except Fault Ordering) : Except Fault (Option TreeCell) := do
  let page ← image.root isKeyed number
  if page.cellCount = 0 && page.isLeaf then return none
  image.seekBelow order greatestDepth page

end Image

end TreeAudit.Database
