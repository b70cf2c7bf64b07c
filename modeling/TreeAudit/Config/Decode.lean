import TreeAudit.Config.Basic
import TreeAudit.Yaml.Resolved

/-!
Reading a configuration from a YAML text: one document, a mapping of field names to
values, each field at most once. Names that are no fields are passed over with their
values. A text without content leaves everything at its default.
-/

set_option autoImplicit false
set_option relaxedAutoImplicit false

namespace TreeAudit.Config

open Yaml (Item Mark Mismatch ScalarStyle ScalarTag Resolved)

/-- Why a text gives no configuration. Of a value that does not fit, the names that lead
to it are told, and where it stands. -/
inductive Fault where
  | text (stop : Yaml.Stop)
  | endOfText
  | manyDocuments
  | misfit (path problem : String) (mark : Mark)
deriving DecidableEq

namespace Fault

def message : Fault → String
  | text stop => stop.message
  | endOfText => "EOF while parsing a value"
  | manyDocuments =>
    "deserializing from YAML containing more than one document is not supported"
  | misfit path problem mark =>
    (if path = "" then "" else path ++ ": ") ++ problem ++ mark.suffix

end Fault

/-- What lies after the last item of a document. -/
def pastEnd (document : Yaml.Document) : Fault :=
  match document.stop with
  | some stop => .text stop
  | none => .endOfText

/-- The item at a place, or the one that an alias there stands for. -/
def nodeAt (document : Yaml.Document) (place : Nat) : Except Fault (Item × Mark) :=
  match document.item? place with
  | none => .error (pastEnd document)
  | some (.alias anchor, _) =>
    match (document.anchored? anchor).bind document.item? with
    | some node => .ok node
    | none => .error (pastEnd document)
  | some node => .ok node

/-- How an item is described that was not expected. -/
def mismatch : Item → Mismatch
  | .scalar tag text style => .ofScalar tag text style
  | .sequenceStart => .type "sequence"
  | _ => .type "map"

def misfit {α : Type} (path : String) (node : Item × Mark) (expected : String) :
    Except Fault α :=
  .error (.misfit path ((mismatch node.1).message expected) node.2)

/-- A text: any scalar as it is written. -/
def stringAt (document : Yaml.Document) (place : Nat) (path expected : String) :
    Except Fault String := do
  match ← nodeAt document place with
  | (.scalar _ text _, _) => return String.ofList text
  | node => misfit path node expected

/-- Whether a scalar may stand for a value of the type a tag asks for: a plain one, or a
literal block with that tag. -/
def mayStandFor (wanted : ScalarTag) (tag : Option (List Char)) (style : ScalarStyle) : Bool :=
  style = .plain || (style = .literal && tag.bind ScalarTag.ofTag? = some wanted)

def wordAt (document : Yaml.Document) (place : Nat) (path expected : String) :
    Except Fault Nat := do
  let node ← nodeAt document place
  let read? : Option Nat := match node.1 with
    | .scalar tag text style =>
      if mayStandFor .integer tag style then Resolved.unsigned? 0x10000000000000000 text else none
    | _ => none
  match read? with
  | some n => return n
  | none => misfit path node expected

def boolAt (document : Yaml.Document) (place : Nat) (path : String) : Except Fault Bool := do
  let node ← nodeAt document place
  let read? : Option Bool := match node.1 with
    | .scalar tag text style =>
      if mayStandFor .bool tag style then Resolved.bool? text else none
    | _ => none
  match read? with
  | some b => return b
  | none => misfit path node "a boolean"

/-- The place after the node at a place, `depth` collections being open there. -/
def afterNode (document : Yaml.Document) (depth place : Nat) : Except Fault Nat :=
  if h : place < document.items.size then
    match document.items[place].1 with
    | .sequenceStart => afterNode document (depth + 1) (place + 1)
    | .mappingStart => afterNode document (depth + 1) (place + 1)
    | .sequenceEnd =>
      if depth ≤ 1 then .ok (place + 1) else afterNode document (depth - 1) (place + 1)
    | .mappingEnd =>
      if depth ≤ 1 then .ok (place + 1) else afterNode document (depth - 1) (place + 1)
    | _ => if depth = 0 then .ok (place + 1) else afterNode document depth (place + 1)
  else .error (pastEnd document)
termination_by document.items.size - place

inductive Field where
  | runId
  | rootId
  | queueCapacity
  | progressEveryDocuments
  | progressIntervalSeconds
  | scanBatch
  | orphanQueueCapacity
  | trustChildrenFlag
deriving DecidableEq

namespace Field

def all : List Field :=
  [runId, rootId, queueCapacity, progressEveryDocuments, progressIntervalSeconds, scanBatch,
    orphanQueueCapacity, trustChildrenFlag]

def name : Field → String
  | runId => "run_id"
  | rootId => "root_id"
  | queueCapacity => "queue_capacity"
  | progressEveryDocuments => "progress_every_docs"
  | progressIntervalSeconds => "progress_interval_secs"
  | scanBatch => "scan_batch_size"
  | orphanQueueCapacity => "orphan_queue_capacity"
  | trustChildrenFlag => "trust_children_flag"

def ofName? (name : String) : Option Field := all.find? fun field ↦ field.name = name

/-- The configuration with the field as the node at a place says. -/
def readAt (field : Field) (document : Yaml.Document) (place : Nat) (path : String)
    (config : Config) : Except Fault Config := do
  match field with
  | runId => return { config with runId := ← stringAt document place path "a string" }
  | rootId => return { config with root := ⟨← stringAt document place path "a string"⟩ }
  | queueCapacity => return { config with queueCapacity := ← wordAt document place path "usize" }
  | progressEveryDocuments =>
    return { config with progressEveryDocuments := ← wordAt document place path "u64" }
  | progressIntervalSeconds =>
    return { config with progressIntervalSeconds := ← wordAt document place path "u64" }
  | scanBatch => return { config with scanBatch := ← wordAt document place path "usize" }
  | orphanQueueCapacity =>
    return { config with orphanQueueCapacity := ← wordAt document place path "usize" }
  | trustChildrenFlag =>
    return { config with trustChildrenFlag := ← boolAt document place path }

end Field

/-- How the key at a place is named in messages; one that is only referred to has no
name there. -/
def keyPath (document : Yaml.Document) (place : Nat) : String :=
  match document.item? place with
  | some (.scalar _ text _, _) => String.ofList text
  | _ => "?"

def repeatedField (field : Field) (start : Mark) : Fault :=
  .misfit "" ("duplicate field `" ++ field.name ++ "`") start

/-- Reads the members of the mapping that began at `start`, from a place on. The value of a
field is a single item. -/
def membersFrom (document : Yaml.Document) (start : Mark) :
    (fuel : Nat) → (given : List Field) → (place : Nat) → Config → Except Fault Config
  | 0, _, _, config => .ok config
  | fuel + 1, given, place, config => do
    match document.item? place with
    | none => throw (pastEnd document)
    | some (.mappingEnd, _) => return config
    | some _ =>
      let key ← stringAt document place "" "field identifier"
      match Field.ofName? key with
      | none => membersFrom document start fuel given (← afterNode document 0 (place + 1)) config
      | some field =>
        if field ∈ given then throw (repeatedField field start)
        let config ← field.readAt document (place + 1) (keyPath document place) config
        membersFrom document start fuel (field :: given) (place + 2) config

/-- The configuration in the nodes of a document. -/
def ofDocument (document : Yaml.Document) : Except Fault Config :=
  match document.item? 0 with
  | none => .error (pastEnd document)
  | some (.void, _) => .ok {}
  | some (.mappingStart, mark) => membersFrom document mark (document.items.size + 1) [] 1 {}
  | some (.scalar _ [] .plain, _) => .ok {}
  | some node => misfit "" node "struct Config"

/-- The configuration in the bytes of a text. What is wrong with the fields goes before
what is wrong with the text after them. -/
def decode (bytes : List UInt8) : Except Fault Config := do
  let first := Yaml.Document.ofBytes bytes
  let config ← ofDocument first.document
  match first.document.stop with
  | some stop => throw (.text stop)
  | none => if first.followed then throw .manyDocuments else return config

end TreeAudit.Config
