import TreeAudit.Check.Composite
import TreeAudit.Check.Orphan
import TreeAudit.Check.Progress
import TreeAudit.Check.Summary
import TreeAudit.Config.Basic

/-!
Which checks a run is asked for, and the checks it then makes: summary, progress
and orphans, in this order. Progress comes with a projected end if that is asked
for, and needs the store's estimate then.
-/

set_option autoImplicit false
set_option relaxedAutoImplicit false

namespace TreeAudit.Check

open Report

/-- One of the checks a run can be asked for. -/
inductive Builtin where
  | summary (check : Summary)
  | progress (check : Check.Progress)
  | orphan (check : Orphan)

namespace Builtin

def name : Builtin → String
  | summary check => Summary.machine.name check
  | progress check => Progress.machine.name check
  | orphan check => Orphan.machine.name check

def process (now : Duration) (document : Document) : Builtin → Outlet → Answer Builtin
  | summary check, outlet => (Summary.machine.process now document check outlet).map summary
  | progress check, outlet => (Progress.machine.process now document check outlet).map progress
  | orphan check, outlet => (Orphan.machine.process now document check outlet).map orphan

def finish (now : Duration) : Builtin → Outlet → Answer Builtin
  | summary check, outlet => (Summary.machine.finish now check outlet).map summary
  | progress check, outlet => (Progress.machine.finish now check outlet).map progress
  | orphan check, outlet => (Orphan.machine.finish now check outlet).map orphan

def machine : Machine Builtin where
  name := name
  process := process
  finish := finish

end Builtin

/-- The checks asked for, and how many workers share the edges of the orphan check. How these take
turns shows in what the check reports only if they are several and children flags are trusted that
are wrong. -/
structure Selection where
  summary : Bool := false
  progress : Bool := false
  eta : Bool := false
  orphan : Bool := false
  workers : Nat := 1
deriving DecidableEq

/-- Why a selection makes no sense. -/
inductive Selection.Fault where
  | etaWithoutProgress
  | noWorkers
deriving DecidableEq

namespace Selection

def Fault.message : Fault → String
  | etaWithoutProgress => "--eta requires --progress"
  | noWorkers => "worker count must be positive"

def fault? (selection : Selection) : Option Fault :=
  if selection.eta && !selection.progress then some .etaWithoutProgress
  else if selection.workers = 0 then some .noWorkers
  else none

/-- Whether any check is asked for; a projected end alone is none. -/
def any (selection : Selection) : Bool :=
  selection.summary || selection.progress || selection.orphan

/-- The selection, or the summary with it if it has no check. -/
def orSummary (selection : Selection) : Selection :=
  if selection.any then selection else { selection with summary := true }

/-- The estimate to project from, given the store's. -/
def estimate (selection : Selection) (total : Option Nat) : Option Estimate :=
  if selection.eta then some ⟨total⟩ else none

/-- Who enters the edges of the orphan check. -/
def staff (selection : Selection) (config : Config) (chance : Reachability.Chance) :
    Reachability.Staff :=
  ⟨selection.workers, config.orphanQueueCapacity, chance⟩

/-- The checks selected, ready for the first document. -/
def builtins (selection : Selection) (config : Config) (total : Option Nat) (now : Duration)
    (chance : Reachability.Chance := .prompt) : List Builtin :=
  (if selection.summary then [.summary (.start now)] else []) ++
    (if selection.progress then
      [.progress (.start now config.progressEveryDocuments config.progressInterval
        (selection.estimate total))]
    else []) ++
    if selection.orphan then
      [.orphan (.start config.root config.trustChildrenFlag (selection.staff config chance))]
    else []

/-- The checks selected, as one. -/
def composite (selection : Selection) (config : Config) (total : Option Nat) (now : Duration)
    (chance : Reachability.Chance := .prompt) : Composite Builtin :=
  .group ((selection.builtins config total now chance).map .single)

end Selection

end TreeAudit.Check
