import TreeAudit.Check.Builtin
import TreeAudit.Output.Writer
import TreeAudit.Store.Basic

/-!
A run: one scan of a store, every document given to the checks selected, and
everything they report written to the sinks. A report begins with a line that
names the run, the store and the root. It ends with a line that tells how the run
ended. A run can be stopped before any document; the checks then report on what
they have seen. After a failed scan they report nothing more, since a partial
view would show orphans that are none.
-/

set_option autoImplicit false
set_option relaxedAutoImplicit false

namespace TreeAudit.Run

open Report Check

/-- How a run ended that did not fail. -/
inductive Outcome where
  | completed
  | cancelled
deriving DecidableEq

def Outcome.label : Outcome → String
  | completed => "completed"
  | cancelled => "cancelled"

/-- The point of a run at which an entry was refused or a check failed. -/
inductive Stage where
  | header
  | document (id : DocumentId)
  | finishing
  | ending
deriving DecidableEq

def Stage.message : Stage → String
  | header => "result queue closed before scan"
  | document id => "result delivery failed at " ++ id.text
  | finishing => "result delivery failed while finalizing checks"
  | ending => "result queue closed before run status"

/-- Why a run failed. -/
inductive Error where
  | selection (fault : Selection.Fault)
  | notStarted (store : String) (cause : Store.Error)
  | interrupted (store : String) (documents : Nat) (cause : Store.Error)
  | undelivered (stage : Stage) (cause : Failure)
  | writerCrashed
deriving DecidableEq

namespace Error

/-- What went wrong, and then why. -/
def message : Error → String
  | selection fault => fault.message
  | notStarted store cause => "failed to start " ++ store ++ " scan: " ++ cause.fullMessage
  | interrupted store documents cause =>
    store ++ " scan failed after " ++ toString documents ++ " documents: " ++ cause.fullMessage
  | undelivered stage cause => stage.message ++ ": " ++ cause.message
  | writerCrashed => "result writer panicked"

end Error

/-- When the steps of a run take place: its start, its documents in order, the end
of the scan and the end of the run. In between its workers take turns as chance will have it. -/
structure Clock where
  start : Duration
  document : Nat → Duration
  scanned : Duration
  finish : Duration
  chance : Reachability.Chance := .prompt

/-- What a run is asked to do. -/
structure Request where
  config : Config
  selection : Selection

def headerLine (config : Config) (store : String) : String :=
  "check run_id=" ++ config.runId ++ " store=" ++ store ++ " root=" ++ config.root.text

def failureLine (error : Error) : String := "run failed: " ++ error.message

def outcomeLine (outcome : Outcome) (documents : Nat) (elapsed : Duration) : String :=
  "run " ++ outcome.label ++ " documents=" ++ toString documents ++ " elapsed=" ++ elapsed.text

section Scanning

variable {σ : Type} (machine : Machine σ)

/-- A scan under way: the checks, what they have sent, and how many documents they were
given. -/
structure Scan (σ : Type) where
  checks : σ
  outlet : Outlet
  documents : Nat

/-- Takes an item of the store named `store`: a document is given to the checks, an error
ends the scan. -/
def Scan.take (now : Duration) (store : String) (item : Store.Item) (scan : Scan σ) :
    Scan σ × Option Error :=
  match item with
  | .error cause => (scan, some (.interrupted store scan.documents cause))
  | .ok document =>
    let answer := machine.process now document scan.checks scan.outlet
    (⟨answer.state, answer.outlet, scan.documents + 1⟩,
      answer.failure.map (.undelivered (.document document.id)))

/-- How far a scan came, and how it ended. -/
structure Scanned (σ : Type) where
  scan : Scan σ
  ended : Except Error Outcome

/-- Takes items until they end, one of them ends the scan, or the run is stopped. That is
looked at before each item, so many documents having been taken before. -/
def Scan.run (now : Nat → Duration) (stopped : Nat → Bool) (store : String) (scan : Scan σ) :
    List Store.Item → Scanned σ
  | [] => ⟨scan, .ok (if stopped scan.documents then .cancelled else .completed)⟩
  | item :: rest =>
    if stopped scan.documents then ⟨scan, .ok .cancelled⟩
    else
      match scan.take machine (now scan.documents) store item with
      | (scan, none) => scan.run now stopped store rest
      | (scan, some error) => ⟨scan, .error error⟩

/-- What was sent for a report, and how the run ended after how many documents. -/
structure Conducted where
  outlet : Outlet
  ended : Except Error (Outcome × Nat)

/-- Sends the line that tells why a run failed. -/
def fail (error : Error) (outlet : Outlet) : Conducted :=
  ⟨(outlet.send (.status (failureLine error))).1, .error error⟩

/-- Lets the checks report after a scan that did not fail. -/
def conclude (clock : Clock) (outcome : Outcome) (scan : Scan σ) : Conducted :=
  let answer := machine.finish clock.scanned scan.checks scan.outlet
  match answer.failure with
  | some failure => ⟨answer.outlet, .error (.undelivered .finishing failure)⟩
  | none =>
    let line := outcomeLine outcome scan.documents (clock.finish.since clock.start)
    match answer.outlet.send (.status line) with
    | (outlet, true) => ⟨outlet, .ok (outcome, scan.documents)⟩
    | (outlet, false) => ⟨outlet, .error (.undelivered .ending .receiverGone)⟩

def settleScan (clock : Clock) (scanned : Scanned σ) : Conducted :=
  match scanned.ended with
  | .error error => fail error scanned.scan.outlet
  | .ok outcome => conclude machine clock outcome scanned.scan

/-- Everything a run sends before the mark that closes the report. -/
def conduct (clock : Clock) (stopped : Nat → Bool) (config : Config) (store : Store)
    (checks : σ) (outlet : Outlet) : Conducted :=
  match outlet.send (.status (headerLine config store.name)) with
  | (outlet, false) => fail (.undelivered .header .receiverGone) outlet
  | (outlet, true) =>
    match store.scan with
    | .error cause => fail (.notStarted store.name cause) outlet
    | .ok items =>
      settleScan machine clock
        (Scan.run machine clock.document stopped store.name ⟨checks, outlet, 0⟩ items)

end Scanning

/-- What a run that did not fail has to say about itself. -/
structure Report where
  outcome : Outcome
  documents : Nat
  findings : Nat
  sinkErrors : Nat
deriving DecidableEq

/-- The sinks after a run, and its result. -/
structure Finished (τ : Type) where
  sinks : List τ
  result : Except Error Report

section Running

variable {τ : Type} (sink : Output.Sink τ)

/-- The result of a run, given how its two sides ended. A crash of the writer hides
everything else. -/
def settle (ended : Except Error (Outcome × Nat)) (tally : Option Output.Tally) :
    Except Error Report :=
  match tally with
  | none => .error .writerCrashed
  | some tally =>
    match ended with
    | .error error => .error error
    | .ok (outcome, documents) =>
      .ok ⟨outcome, documents, tally.findings, tally.sinkErrors⟩

/-- The entries of a report, the closing mark included. -/
def entries (clock : Clock) (stopped : Nat → Bool) (request : Request) (store : Store) :
    List Entry × Except Error (Outcome × Nat) :=
  let checks := request.selection.composite request.config store.estimate clock.start
    clock.chance
  let conducted := conduct (Composite.machineOf Builtin.machine) clock stopped request.config
    store checks .unbounded
  (conducted.outlet.sent.toList ++ [.closing], conducted.ended)

/-- Runs the checks selected over a store. A selection that makes no sense is refused
before any sink is touched. -/
def run (clock : Clock) (stopped : Nat → Bool) (request : Request) (store : Store)
    (sinks : List τ) : Finished τ :=
  match request.selection.fault? with
  | some fault => ⟨sinks, .error (.selection fault)⟩
  | none =>
    let (entries, ended) := entries clock stopped request store
    let written := Output.Writer.write sink sinks entries
    ⟨written.sinks, settle ended written.tally⟩

end Running

end TreeAudit.Run
