import Std.Time.DateTime.Timestamp
import TreeAudit.Program

/-!
The program as a command. The files that the command line names are looked up, the plan
made from them is carried out step by step, and what the checks send is written as soon
as they have sent it.
-/

set_option autoImplicit false
set_option relaxedAutoImplicit false

namespace TreeAudit.Command

open Report

/-- What is at a path, if anything can be seen there. -/
def nodeAt (path : String) (contents : Bool) : IO (Option FileSystem.Node) := do
  try
    let metadata ← ((← IO.currentDir) / path).metadata
    match metadata.type with
    | .dir => return some (.directory true)
    | .file =>
      if contents then
        return some (.file (.bytes (← IO.FS.readBinFile path).toList))
      else return some (.file (.bytes []))
    | _ => return some (.device true)
  catch _ => return none

/-- Looks up a path and everything on the way to it. -/
def lookUp (files : FileSystem) (path : String) : IO FileSystem := do
  let steps := Text.PathName.steps path
  let top := if Text.PathName.isAbsolute path then "/" else ""
  let mut files := files
  for count in [0 : steps.length] do
    let taken := steps.take (count + 1)
    let place := taken.foldl
      (fun place step ↦ if step = ".." then place.dropLast else place ++ [step])
      (files.start path)
    match ← nodeAt (top ++ "/".intercalate taken) (count + 1 = steps.length) with
    | some node => files := files.put place node
    | none => pure ()
  return files

/-- The file system as far as some paths lead. -/
def lookUpAll (paths : List String) : IO FileSystem := do
  let workingDirectory := Text.PathName.steps (← IO.currentDir).toString
  let above := (List.range workingDirectory.length).map fun count ↦
    (workingDirectory.take (count + 1), FileSystem.Node.directory true)
  paths.foldlM lookUp ⟨above, workingDirectory⟩

/-- An open way for entries to leave the program. -/
structure Exit where
  format : Output.Format
  stream : IO.FS.Stream
  /-- Whether every entry is to be seen at once. -/
  prompt : Bool

def Exit.write (text : String) (leaving : Exit) : IO Unit := do
  try
    leaving.stream.putStr text
    if leaving.prompt then leaving.stream.flush
  catch _ => pure ()

def openExit (path : Option String) : Output.Channel → IO Exit
  | .console _ => return ⟨.text, ← IO.getStdout, true⟩
  | .file _ file => do
    let handle ← IO.FS.Handle.mk (path.getD "") .write
    let leaving : Exit := ⟨file.format, .ofHandle handle, false⟩
    leaving.write file.format.opening
    return leaving

/-- Writes what has been sent, and forgets it. -/
def pass (exits : List Exit) (outlet : Check.Outlet) : IO Check.Outlet := do
  for entry in outlet.sent do
    for leaving in exits do
      leaving.write (leaving.format.line entry)
  return { outlet with sent := #[] }

/-- The time since the start of the run. -/
def elapsed (start : Nat) : IO Duration := return ⟨(← IO.monoNanosNow) - start⟩

abbrev machine : Check.Machine (Check.Composite Check.Builtin) :=
  Check.Composite.machineOf Check.Builtin.machine

/-- Takes the items of a store one by one. -/
def scan (start : Nat) (exits : List Exit) (store : String)
    (checks : Run.Scan (Check.Composite Check.Builtin)) (items : List Store.Item) :
    IO (Run.Scanned (Check.Composite Check.Builtin)) := do
  let mut reached := checks
  for item in items do
    let (next, failed) := reached.take machine (← elapsed start) store item
    reached := { next with outlet := ← pass exits next.outlet }
    if let some error := failed then return ⟨reached, .error error⟩
  return ⟨reached, .ok .completed⟩

/-- Carries out a plan, and tells why it failed if it did. -/
def carryOut (plan : Program.Plan) (exits : List Exit) : IO (Option Run.Error) := do
  let start ← IO.monoNanosNow
  let store := plan.store plan.files
  let checks := plan.request.selection.composite plan.request.config store.estimate .zero
  let header := Run.headerLine plan.request.config store.name
  let outlet ← pass exits (Check.Outlet.unbounded.send (.status header)).1
  let conducted ← match store.scan with
    | .error cause => pure (Run.fail (.notStarted store.name cause) outlet)
    | .ok items => do
      let scanned ← scan start exits store.name ⟨checks, outlet, 0⟩ items
      let now ← elapsed start
      pure (Run.settleScan machine ⟨.zero, fun _ ↦ now, now, now, .prompt⟩ scanned)
  let _ ← pass exits conducted.outlet
  match conducted.ended with
  | .ok _ => return none
  | .error error => return some error

def complain (message : String) : IO Unit := IO.eprintln ("error: " ++ message)

/-- Runs the program as the command line says, and returns its exit status. -/
def perform (arguments : CommandLine.Arguments) : IO UInt32 := do
  let named := [some arguments.store, arguments.configPath, arguments.output].filterMap id
  let now ← Std.Time.Timestamp.now
  let nanoseconds := now.toNanosecondsSinceUnixEpoch.val.toNat
  let environment : Program.Environment := {
    files := ← lookUpAll named
    processors := 1
    moment := ⟨nanoseconds / Duration.perSecond, nanoseconds % Duration.perSecond⟩
    clock := ⟨.zero, fun _ ↦ .zero, .zero, .zero, .prompt⟩
    stopped := fun _ ↦ false }
  match Program.plan environment arguments with
  | .error failure =>
    complain failure.message
    return 1
  | .ok plan =>
    let exits ← plan.channels.mapM (openExit arguments.output)
    match ← carryOut plan exits with
    | none => return 0
    | some error =>
      complain (Program.Failure.run error).message
      return 1

end TreeAudit.Command

open TreeAudit in
def main (words : List String) : IO UInt32 := do
  match CommandLine.read words with
  | .ok arguments => Command.perform arguments
  | .error .versionAsked =>
    IO.print CommandLine.versionLine
    return 0
  | .error .helpAsked =>
    IO.print CommandLine.help
    return 0
  | .error fault =>
    Command.complain (fault.message ++ "\n\n" ++ CommandLine.usageLine)
    return 2
