import TreeAudit.Document.Id
import TreeAudit.Duration

/-!
What can be configured about a run, with the values that hold for whatever a
configuration leaves out.
-/

set_option autoImplicit false
set_option relaxedAutoImplicit false

namespace TreeAudit

structure Config where
  /-- The name of the run; blank for one made up when the run begins. -/
  runId : String := ""
  root : DocumentId := .treeRoot
  /-- How many entries may wait to be written. -/
  queueCapacity : Nat := 1000
  progressEveryDocuments : Nat := 100000
  progressIntervalSeconds : Nat := 10
  /-- How many rows of a table are read at once. -/
  scanBatch : Nat := 1000
  /-- How many edges may wait for the workers of the orphan check. -/
  orphanQueueCapacity : Nat := 4096
  trustChildrenFlag : Bool := false
deriving DecidableEq

namespace Config

def progressInterval (config : Config) : Duration := .ofSeconds config.progressIntervalSeconds 0

end Config

end TreeAudit
