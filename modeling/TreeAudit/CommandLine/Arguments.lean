import TreeAudit.CommandLine.Switch
import TreeAudit.Output.Target
import TreeAudit.Store.Opening
import TreeAudit.Check.Builtin

/-!
Reading the command line. Words are taken one by one. A setting without a value
attached takes the next word as its value, unless that word is itself a switch, and
is looked at only when the next switch comes or the words end. So of two mistakes it
may be the later word's that is reported. Nothing can be given twice, and plain words
belong to settings only.
-/

set_option autoImplicit false
set_option relaxedAutoImplicit false

namespace TreeAudit.CommandLine

/-- Why a command line is not carried out. -/
inductive Fault where
  | missingRequired
  | unknown
  | repeated
  | tooManyValues
  | invalidValue
  | unreadableValue
  | helpAsked
  | versionAsked
deriving DecidableEq

def Fault.message : Fault → String
  | missingRequired => "the required argument --store is missing"
  | unknown => "unexpected argument"
  | repeated => "an argument cannot be used multiple times"
  | tooManyValues => "unexpected value for an argument that takes none"
  | invalidValue => "invalid or missing value for an argument"
  | unreadableValue => "invalid digit found in a value"
  | helpAsked => help
  | versionAsked => versionLine

/-- What is shown on the console instead of a report. -/
def Fault.shown : Fault → String
  | helpAsked => help
  | versionAsked => versionLine
  | _ => ""

/-- What the command line says. Without a number of workers there is one for each
processor. -/
structure Arguments where
  store : String := ""
  storeKind : Store.Backend := .dump
  configPath : Option String := none
  summary : Bool := false
  progress : Bool := false
  eta : Bool := false
  orphan : Bool := false
  workers : Option Nat := none
  output : Option String := none
  format : Output.Format := .text
  silent : Bool := false
  rootId : Option String := none
deriving DecidableEq

namespace Arguments

def enable (arguments : Arguments) : Flag → Arguments
  | .summary => { arguments with summary := true }
  | .progress => { arguments with progress := true }
  | .eta => { arguments with eta := true }
  | .orphan => { arguments with orphan := true }
  | .silent => { arguments with silent := true }

def path (value : String) : Except Fault String :=
  if value = "" then .error .invalidValue else .ok value

def oneOf {α : Type} (choices : List α) (label : α → String) (value : String) :
    Except Fault α :=
  match choices.find? fun choice ↦ label choice = value with
  | some choice => .ok choice
  | none => .error .invalidValue

def number (value : String) : Except Fault Nat :=
  match Text.Unsigned.unsigned? value.toList with
  | some n => .ok n
  | none => .error .unreadableValue

def assign (arguments : Arguments) (setting : Setting) (value : String) :
    Except Fault Arguments := do
  match setting with
  | .store => return { arguments with store := ← path value }
  | .storeKind =>
    return { arguments with storeKind := ← oneOf Store.Backend.all Store.Backend.label value }
  | .configPath => return { arguments with configPath := some (← path value) }
  | .workers => return { arguments with workers := some (← number value) }
  | .output => return { arguments with output := some (← path value) }
  | .format =>
    return { arguments with format := ← oneOf Output.Format.all Output.Format.label value }
  | .rootId => return { arguments with rootId := some value }

/-- The checks asked for, when `processors` are there to work. -/
def selection (arguments : Arguments) (processors : Nat) : Check.Selection where
  summary := arguments.summary
  progress := arguments.progress
  eta := arguments.eta
  orphan := arguments.orphan
  workers := arguments.workers.getD processors

def target (arguments : Arguments) : Output.Target where
  silent := arguments.silent
  path := arguments.output
  format := arguments.format

/-- What the command line says prevails over the configuration. -/
def override (arguments : Arguments) (config : Config) : Config :=
  match arguments.rootId with
  | some root => { config with root := ⟨root⟩ }
  | none => config

end Arguments

/-- What was read of a command line. -/
structure Reading where
  arguments : Arguments
  given : List Switch
  /-- A setting not looked at yet, with its value if there was one. -/
  held : Option (Setting × Option String)

namespace Reading

def start : Reading := ⟨{}, [], none⟩

/-- Notes that a switch was given, once. -/
def mark (reading : Reading) (switch : Switch) : Except Fault Reading :=
  if switch ∈ reading.given then .error .repeated
  else .ok { reading with given := switch :: reading.given }

def take (reading : Reading) (setting : Setting) (value : String) : Except Fault Reading := do
  let reading ← reading.mark (.setting setting)
  return { reading with arguments := ← reading.arguments.assign setting value }

/-- Looks at the setting held back. -/
def settle (reading : Reading) : Except Fault Reading :=
  match reading.held with
  | none => .ok reading
  | some (_, none) => .error .invalidValue
  | some (setting, some value) => { reading with held := none }.take setting value

/-- A switch without a value attached. -/
def alone (reading : Reading) (switch : Switch) : Except Fault Reading := do
  let reading ← reading.settle
  match switch with
  | .help => .error .helpAsked
  | .version => .error .versionAsked
  | .flag flag =>
    let reading ← reading.mark switch
    return { reading with arguments := reading.arguments.enable flag }
  | .setting setting => return { reading with held := some (setting, none) }

def attached (reading : Reading) (setting : Setting) (value : String) :
    Except Fault Reading := do
  (← reading.settle).take setting value

def long (reading : Reading) (name : String) (value : Option String) :
    Except Fault Reading :=
  match Switch.ofLongName? name, value with
  | none, _ => .error .unknown
  | some switch, none => reading.alone switch
  | some (.setting setting), some value => reading.attached setting value
  | some _, some _ => .error .tooManyValues

/-- The value that follows the letter of a setting; an equals sign before it is left
out. -/
def letterValue : List Char → List Char
  | '=' :: value => value
  | value => value

/-- Letters stand for flags until one stands for a setting, which takes what is left as
its value. -/
def letters (reading : Reading) : List Char → Except Fault Reading
  | [] => .ok reading
  | letter :: rest =>
    match Switch.ofLetter? letter with
    | none => .error .unknown
    | some (.setting setting) =>
      if rest.isEmpty then reading.alone (.setting setting)
      else reading.attached setting (String.ofList (letterValue rest))
    | some switch => do (← reading.alone switch).letters rest

/-- A plain word, which can only be the value of a setting. -/
def plain (reading : Reading) (word : String) : Except Fault Reading :=
  match reading.held with
  | some (setting, none) => .ok { reading with held := some (setting, some word) }
  | _ => .error .unknown

def words (reading : Reading) : List String → Except Fault Reading
  | [] => reading.settle
  | word :: rest =>
    match Word.ofString word with
    | .stop => if rest.isEmpty then reading.settle else .error .unknown
    | .long name value => do (← reading.long name value).words rest
    | .letters letters => do (← reading.letters letters).words rest
    | .plain => do (← reading.plain word).words rest

end Reading

/-- Reads the words of a command line. The store has to be given. -/
def read (words : List String) : Except Fault Arguments := do
  let reading ← Reading.start.words words
  if .setting .store ∈ reading.given then return reading.arguments
  else throw .missingRequired

end TreeAudit.CommandLine
