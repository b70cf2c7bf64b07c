import TreeAudit.FileSystem
import TreeAudit.Output.Sink

/-!
Where a report is to go: to the console unless it is kept silent, and to a file if
one is named. The path of that file is looked at before anything is written.
-/

set_option autoImplicit false
set_option relaxedAutoImplicit false

namespace TreeAudit.Output

open Store (FileError)

/-- Why a path cannot name a report file. -/
inductive PathFault where
  | isDirectory (path : String)
  | noDirectory (parent : String)
  | notWritable (parent : String)
deriving DecidableEq

def PathFault.message : PathFault → String
  | isDirectory path => "output path is a directory: " ++ path
  | noDirectory parent => "output directory does not exist: " ++ parent
  | notWritable parent => "output directory is not writable: " ++ parent

/-- What is wrong with the path of a report file. Only the directory a path spells out
is looked at, so the working directory need not be writable. -/
def pathFault? (files : FileSystem) (path : String) : Option PathFault :=
  if files.isDirectory path then some (.isDirectory path)
  else
    match Text.PathName.parent? path with
    | none => none
    | some parent =>
      if parent = "" then none
      else
        match files.find parent with
        | .ok (_, .directory true) => none
        | .ok (_, .directory false) => some (.notWritable parent)
        | _ => some (.noDirectory parent)

/-- Where the entries of a report go. -/
structure Target where
  silent : Bool
  path : Option String
  format : Format
deriving DecidableEq

/-- A console or a report file, the latter with its place. -/
inductive Channel where
  | console (console : Console)
  | file (place : FileSystem.Place) (file : ReportFile)

namespace Channel

def sink : Sink Channel where
  name := fun
    | console c => Console.sink.name c
    | file _ f => ReportFile.sink.name f
  write := fun entry channel ↦
    match channel with
    | console c => let (c, written) := Console.sink.write entry c; (console c, written)
    | file place f => let (f, written) := ReportFile.sink.write entry f; (file place f, written)
  close := fun
    | console c => let (c, well) := Console.sink.close c; (console c, well)
    | file place f => let (f, well) := ReportFile.sink.close f; (file place f, well)

/-- Puts what a channel was given where it belongs. -/
def deliver (files : FileSystem) : Channel → FileSystem
  | console _ => files
  | file place f => files.write place f.held.toUTF8.toList

/-- What a channel has shown on the console. -/
def shown : Channel → String
  | console c => c.shown
  | file _ _ => ""

end Channel

namespace Target

/-- Opens the channels of a report. The file is made, or emptied, at once. -/
def channels (target : Target) (files : FileSystem) :
    Except FileError (FileSystem × List Channel) := do
  let console := if target.silent then [] else [Channel.console .blank]
  match target.path with
  | none => .ok (files, console)
  | some path =>
    let (files, place) ← files.create path
    .ok (files, console ++ [.file place (.create target.format (files.hasRoom place))])

end Target

/-- How the failure to open a report file is put. -/
def openingFailure (error : FileError) : String := "io error: " ++ error.message

end TreeAudit.Output
