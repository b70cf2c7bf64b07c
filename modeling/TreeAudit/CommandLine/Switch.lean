/-!
The switches of the command line: flags, which stand alone, and settings, which take
one value. Each has a long name and some have a letter.
-/

set_option autoImplicit false
set_option relaxedAutoImplicit false

namespace TreeAudit.CommandLine

inductive Flag where
  | summary
  | progress
  | eta
  | orphan
  | silent
deriving DecidableEq

inductive Setting where
  | store
  | storeKind
  | configPath
  | workers
  | output
  | format
  | rootId
deriving DecidableEq

/-- Help and version end the reading of the command line. -/
inductive Switch where
  | flag (flag : Flag)
  | setting (setting : Setting)
  | help
  | version
deriving DecidableEq

namespace Switch

def all : List Switch :=
  [.setting .store, .setting .storeKind, .setting .configPath, .flag .summary,
    .flag .progress, .flag .eta, .flag .orphan, .setting .workers, .setting .output,
    .setting .format, .flag .silent, .setting .rootId, .help, .version]

def longName : Switch → String
  | setting .store => "store"
  | setting .storeKind => "store-kind"
  | setting .configPath => "config-path"
  | setting .workers => "workers"
  | setting .output => "output"
  | setting .format => "format"
  | setting .rootId => "root-id"
  | flag .summary => "summary"
  | flag .progress => "progress"
  | flag .eta => "eta"
  | flag .orphan => "orphan"
  | flag .silent => "silent"
  | help => "help"
  | version => "version"

def letter? : Switch → Option Char
  | setting .store => some 's'
  | setting .output => some 'o'
  | help => some 'h'
  | version => some 'V'
  | _ => none

/-- Names are not completed and their case counts. -/
def ofLongName? (name : String) : Option Switch := all.find? fun s ↦ s.longName = name

def ofLetter? (letter : Char) : Option Switch := all.find? fun s ↦ s.letter? = some letter

end Switch

/-- How the value of a setting is called. -/
def Setting.placeholder : Setting → String
  | .store => "<STORE>"
  | .storeKind => "<STORE_KIND>"
  | .configPath => "<CONFIG_PATH>"
  | .workers => "<WORKERS>"
  | .output => "<OUTPUT>"
  | .format => "<FORMAT>"
  | .rootId => "<ROOT_ID>"

namespace Switch

def placeholder : Switch → String
  | setting s => " " ++ s.placeholder
  | _ => ""

def purpose : Switch → String
  | setting .store => "Document store to check (JSONL dump or SQLite database)"
  | setting .storeKind => "Store backend: jsonl (the default) or sqlite"
  | setting .configPath => "Optional path to config file (YAML)"
  | setting .workers => "Number of orphan check worker threads"
  | setting .output => "Write results to this file as well"
  | setting .format => "Result file format: text (the default), jsonl or csv"
  | setting .rootId => "Root id (overrides config)"
  | flag .summary => "Report document counts by kind"
  | flag .progress => "Report progress while scanning"
  | flag .eta => "Project remaining time from the store's estimated count (needs --progress)"
  | flag .orphan => "Detect nodes whose parent is not reachable from the root"
  | flag .silent => "Do not print results to the console"
  | help => "Print help"
  | version => "Print version"

def helpLine (switch : Switch) : String :=
  let letter := match switch.letter? with
    | some c => "-" ++ c.toString ++ ", "
    | none => "    "
  "  " ++ letter ++ "--" ++ switch.longName ++ switch.placeholder ++ "  " ++
    switch.purpose ++ "\n"

end Switch

/-- The name the program goes by on the command line. -/
def programName : String := "docstore-check"

def usageLine : String := "Usage: " ++ programName ++ " [OPTIONS] --store <STORE>"

def help : String :=
  usageLine ++ "\n\nOptions:\n" ++ String.join (Switch.all.map Switch.helpLine)

def versionLine : String := programName ++ " 0.2.1\n"

/-- A word of the command line by its spelling. -/
inductive Word where
  /-- Two hyphens alone: only plain words follow. -/
  | stop
  | long (name : String) (value : Option String)
  /-- One hyphen and letters; a hyphen alone is a plain word. -/
  | letters (letters : List Char)
  | plain

namespace Word

/-- A long name ends at the first equals sign. -/
def splitValue : List Char → List Char × Option (List Char)
  | [] => ([], none)
  | c :: rest =>
    if c = '=' then ([], some rest)
    else let (name, value) := splitValue rest; (c :: name, value)

def ofChars : List Char → Word
  | ['-', '-'] => stop
  | '-' :: '-' :: rest =>
    let (name, value) := splitValue rest
    long (String.ofList name) (value.map String.ofList)
  | '-' :: first :: rest => letters (first :: rest)
  | _ => plain

def ofString (word : String) : Word := ofChars word.toList

end Word

end TreeAudit.CommandLine
