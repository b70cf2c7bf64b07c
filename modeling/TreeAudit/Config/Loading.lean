import TreeAudit.Config.Decode
import TreeAudit.Config.RunId
import TreeAudit.FileSystem
import TreeAudit.Text.Blank

/-!
Loading the configuration of a run: from a file, or from the text that holds if none is
named. A run without a name gets one made up. The fingerprint is that of the text.
-/

set_option autoImplicit false
set_option relaxedAutoImplicit false

namespace TreeAudit.Config

open Store (FileError)

/-- The lines of the configuration that holds if none is named. -/
def defaultLines : List String :=
  [
    "# Default configuration for docstore-check.",
    "# Leave run_id empty to generate one per run.",
    "run_id: \"\"",
    "",
    "# Id of the tree root the reachability check is evaluated against.",
    "root_id: \"0:/\"",
    "",
    "# Capacity of the result queue between the checks and the writer.",
    "queue_capacity: 1000",
    "",
    "# Emit a progress update every N documents or every interval, whichever first.",
    "progress_every_docs: 100000",
    "progress_interval_secs: 10",
    "",
    "# Documents fetched per page by paginating stores (sqlite).",
    "scan_batch_size: 1000",
    "",
    "# Capacity of the hand-off channel feeding the orphan check workers.",
    "orphan_queue_capacity: 4096",
    "",
    "# Only retain reachable ids flagged with _children in the reachability set.",
    "# Cuts memory to one entry per parent, but trusts the flag to be accurate.",
    "trust_children_flag: false"
  ]

def defaultText : String := String.join (defaultLines.map fun line ↦ line ++ "\n")

/-- Why a configuration cannot be loaded. -/
inductive LoadingFault where
  | file (error : FileError)
  | content (fault : Fault)
deriving DecidableEq

def LoadingFault.message : LoadingFault → String
  | file error => error.message
  | content fault => fault.message

structure Loaded where
  config : Config
  fingerprint : String
deriving DecidableEq

/-- The configuration with the name, if it has none that shows. -/
def named (runId : String) (config : Config) : Config :=
  if Text.Blank.isBlank config.runId.toList then { config with runId := runId } else config

/-- The configuration in some bytes, for a run that begins at a moment. -/
def ofBytes (moment : RunId.Moment) (bytes : List UInt8) : Except LoadingFault Loaded :=
  match decode bytes with
  | .ok config => .ok ⟨config.named (RunId.ofMoment moment), Digest.Sha256.hex bytes⟩
  | .error fault => .error (.content fault)

def load (moment : RunId.Moment) (files : FileSystem) (path : Option String) :
    Except LoadingFault Loaded :=
  match path with
  | none => ofBytes moment defaultText.toUTF8.toList
  | some path =>
    match files.read path with
    | .ok content => ofBytes moment content.head
    | .error error => .error (.file error)

end TreeAudit.Config
