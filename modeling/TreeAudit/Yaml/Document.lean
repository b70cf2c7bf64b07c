import TreeAudit.Yaml.Event

/-!
Documents of a YAML text: the nodes of each as a sequence of items, with the place of
each item and the items that anchors name. A fault in the text does not take away what
was read before it; it lies after the last item.
-/

set_option autoImplicit false
set_option relaxedAutoImplicit false

namespace TreeAudit.Yaml

/-- The items of a document. An alias is resolved to the number of its anchor. -/
inductive Item where
  | alias (anchor : Nat)
  | scalar (tag : Option (List Char)) (text : List Char) (style : ScalarStyle)
  | sequenceStart
  | sequenceEnd
  | mappingStart
  | mappingEnd
  /-- Stands for a text without any document. -/
  | void
deriving DecidableEq

/-- Why the items of a document end early. -/
inductive Stop where
  | fault (fault : Fault)
  | unknownAnchor (mark : Mark)
deriving DecidableEq

namespace Stop

def message : Stop → String
  | fault f => f.message
  | unknownAnchor mark => "unknown anchor" ++ mark.suffix

end Stop

structure Document where
  items : Array (Item × Mark)
  stop : Option Stop
  /-- The place among the items of the node an anchor number stands for. A number given
  anew hides the former node. -/
  anchors : List (Nat × Nat)

namespace Document

def empty : Document := ⟨#[], none, []⟩

def add (document : Document) (item : Item) (mark : Mark) : Document :=
  { document with items := document.items.push (item, mark) }

def item? (document : Document) (place : Nat) : Option (Item × Mark) := document.items[place]?

/-- The place of the node with an anchor number. -/
def anchored? (document : Document) (anchor : Nat) : Option Nat :=
  (document.anchors.find? fun a ↦ a.1 = anchor).map Prod.snd

/-- The names of the anchors of a document so far, each with the number it got last. -/
abbrev Names := List (List Char × Nat)

/-- Names the next item. Its number is that of the different names before it. -/
def name (document : Document) (names : Names) (anchor : Option (List Char)) :
    Document × Names :=
  match anchor with
  | none => (document, names)
  | some anchor =>
    let number := names.length
    let others := names.filter fun n ↦ n.1 ≠ anchor
    ({ document with anchors := (number, document.items.size) :: document.anchors },
      (anchor, number) :: others)

/-- How reading a document ended: at its own end, at the end of the text, or at a
fault. -/
inductive Ending where
  | document (events : Events)
  | text
  | stopped

/-- Reads the items of a document up to its end. -/
def readFrom : (fuel : Nat) → Events → Names → Document → Document × Ending × Mark
  | 0, _, _, document => (document, .stopped, {})
  | fuel + 1, events, names, document =>
    match events.next with
    | .error fault => ({ document with stop := some (.fault fault) }, .stopped, {})
    | .ok ((event, mark), events) =>
      match event with
      | .streamStart => readFrom fuel events names document
      | .documentStart => readFrom fuel events names document
      | .streamEnd => (document, .text, mark)
      | .documentEnd => (document, .document events, mark)
      | .alias anchor =>
        match names.find? fun n ↦ n.1 = anchor with
        | some (_, number) => readFrom fuel events names (document.add (.alias number) mark)
        | none => ({ document with stop := some (.unknownAnchor mark) }, .stopped, {})
      | .scalar properties text style =>
        let (document, names) := document.name names properties.anchor
        readFrom fuel events names (document.add (.scalar properties.tag text style) mark)
      | .sequenceStart properties =>
        let (document, names) := document.name names properties.anchor
        readFrom fuel events names (document.add .sequenceStart mark)
      | .sequenceEnd => readFrom fuel events names (document.add .sequenceEnd mark)
      | .mappingStart properties =>
        let (document, names) := document.name names properties.anchor
        readFrom fuel events names (document.add .mappingStart mark)
      | .mappingEnd => readFrom fuel events names (document.add .mappingEnd mark)

/-- More than the events that so many characters can make up: each takes up a token, or
stands for a node that is not written, of which there are at most two beside a token. -/
def fuelFor (characters : Nat) : Nat := 8 * (characters + 8)

/-- The first document of a text, and whether anything but the end of the text follows
it. -/
structure First where
  document : Document
  followed : Bool

/-- Whether there is another document, be it a broken one. -/
def isFollowed (fuel : Nat) : Ending → Bool
  | .document events =>
    match readFrom fuel events [] empty with
    | (_, .text, _) => false
    | _ => true
  | .text => false
  | .stopped => true

/-- Reads the first document. A text without documents has an empty one. -/
def readFirst (decoded : Characters.Decoded) : First :=
  let fuel := fuelFor decoded.chars.length
  match readFrom fuel (.ofSource (.ofDecoded decoded)) [] empty with
  | (document, .text, mark) =>
    ⟨if document.items.isEmpty then document.add .void mark else document, false⟩
  | (document, ending, _) => ⟨document, isFollowed fuel ending⟩

/-- Reads the first document from the bytes of a text. -/
def ofBytes (bytes : List UInt8) : First :=
  match Characters.decode bytes with
  | .ok decoded => readFirst decoded
  | .error fault => ⟨{ empty with stop := some (.fault fault) }, true⟩

end Document

end TreeAudit.Yaml
