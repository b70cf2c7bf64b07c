import TreeAudit.CommandLine.Arguments
import TreeAudit.Config.Loading
import TreeAudit.Run

/-!
The program: from a command line to a report. The configuration is loaded first, then
the checks asked for are looked at, the store is opened, and the report file is made.
Only then does the run begin, which scans the store as it is by then.
-/

set_option autoImplicit false
set_option relaxedAutoImplicit false

namespace TreeAudit.Program

open Store (FileError)

/-- What the program finds where it is started. -/
structure Environment where
  files : FileSystem
  processors : Nat
  moment : RunId.Moment
  clock : Run.Clock
  /-- Whether the run is to be stopped after so many items. -/
  stopped : Nat → Bool

/-- Why the program failed. -/
inductive Failure where
  | config (fault : Config.LoadingFault)
  | selection (fault : Check.Selection.Fault)
  | store (path : String) (error : Store.Error)
  | outputPath (fault : Output.PathFault)
  | sinks (error : FileError)
  | run (error : Run.Error)
deriving DecidableEq

def Failure.message : Failure → String
  | config fault => fault.message
  | selection fault => fault.message
  | store path error => "failed to open store " ++ path ++ ": " ++ error.fullMessage
  | outputPath fault => fault.message
  | sinks error =>
    "failed to open result sinks: " ++ Output.openingFailure error ++ ": " ++ error.message
  | run error => error.message

/-- A run that is ready to begin, and the files by then. -/
structure Plan where
  request : Run.Request
  store : Store.Opened
  channels : List Output.Channel
  files : FileSystem

/-- The checks to run; without any asked for, the summary. -/
def selectionOf (arguments : CommandLine.Arguments) (processors : Nat) : Check.Selection :=
  (arguments.selection processors).orSummary

/-- Opens where the report goes, if the path of a report file is fit for one. -/
def openTarget (files : FileSystem) (target : Output.Target) :
    Except Failure (FileSystem × List Output.Channel) :=
  match target.path.bind (Output.pathFault? files) with
  | some fault => .error (.outputPath fault)
  | none =>
    match target.channels files with
    | .ok opened => .ok opened
    | .error error => .error (.sinks error)

def plan (environment : Environment) (arguments : CommandLine.Arguments) :
    Except Failure Plan := do
  let files := environment.files
  match Config.load environment.moment files arguments.configPath with
  | .error fault => throw (.config fault)
  | .ok loaded =>
    let config := arguments.override loaded.config
    let selection := selectionOf arguments environment.processors
    match selection.fault? with
    | some fault => throw (.selection fault)
    | none =>
      match Store.openPath files arguments.storeKind arguments.store config.scanBatch with
      | .error error => throw (.store arguments.store error)
      | .ok store =>
        let (files, channels) ← openTarget files arguments.target
        return ⟨⟨config, selection⟩, store, channels, files⟩

/-- How the program ended. -/
inductive Ending where
  | done (outcome : Run.Outcome)
  | failed (failure : Failure)
  | misused (fault : CommandLine.Fault)

namespace Ending

/-- The exit status: a run that was stopped has the status of a misused program. -/
def status : Ending → Nat
  | done .completed => 0
  | done .cancelled => 2
  | failed _ => 1
  | misused .helpAsked => 0
  | misused .versionAsked => 0
  | misused _ => 2

end Ending

/-- What the program leaves behind. -/
structure Result where
  files : FileSystem
  console : String
  ending : Ending

/-- Carries out a plan. -/
def Plan.run (plan : Plan) (environment : Environment) : Result :=
  let store := plan.store plan.files
  let finished := Run.run Output.Channel.sink environment.clock environment.stopped plan.request
    store plan.channels
  { files := finished.sinks.foldl Output.Channel.deliver plan.files
    console := String.join (finished.sinks.map Output.Channel.shown)
    ending := match finished.result with
      | .ok report => .done report.outcome
      | .error error => .failed (.run error) }

/-- Runs the program for the words of a command line. -/
def run (environment : Environment) (words : List String) : Result :=
  match CommandLine.read words with
  | .error fault => ⟨environment.files, fault.shown, .misused fault⟩
  | .ok arguments =>
    match plan environment arguments with
    | .error failure => ⟨environment.files, "", .failed failure⟩
    | .ok plan => plan.run environment

end TreeAudit.Program
