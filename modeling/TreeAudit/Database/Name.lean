import TreeAudit.Database.Fault

/-!
Names of databases. A name is the path of a file, or begins with a scheme and may then have
options behind a question mark, with bytes written by two digits of base sixteen. What is
empty, or asks for memory, names a database of its own that is empty.
-/

set_option autoImplicit false
set_option relaxedAutoImplicit false

namespace TreeAudit.Database

/-- What a name says. -/
structure Name where
  /-- The file, if there is one. -/
  path? : Option String
  /-- Whether nothing but the file itself is to be looked at. -/
  isImmutable : Bool
  /-- Whether newer pages may be in a log. -/
  admitsLog : Bool

namespace Name

/-- A name with its options, in order. -/
structure Parts where
  path : List UInt8
  options : List (String × String)

def hexValue? (byte : UInt8) : Option UInt8 :=
  if 48 ≤ byte && byte ≤ 57 then some (byte - 48)
  else if 97 ≤ byte && byte ≤ 102 then some (byte - 87)
  else if 65 ≤ byte && byte ≤ 70 then some (byte - 55)
  else none

/-- Reads up to a character that ends the part, written bytes being read as what they are. A
zero that is written so drops what follows it. Gives the part and what is left, with the
character that ends it. -/
def part (ends : UInt8 → Bool) (isDropped : Bool) : List UInt8 → List UInt8 × List UInt8
  | [] => ([], [])
  | 0x25 :: a :: b :: rest =>
    match hexValue? a, hexValue? b with
    | some high, some low =>
      let byte := 16 * high + low
      let (found, rest) := part ends (isDropped || byte = 0) rest
      (if isDropped || byte = 0 then found else byte :: found, rest)
    | _, _ =>
      let (found, rest) := part ends isDropped (a :: b :: rest)
      (if isDropped then found else 0x25 :: found, rest)
  | byte :: rest =>
    if ends byte then ([], byte :: rest)
    else
      let (found, rest) := part ends isDropped rest
      (if isDropped then found else byte :: found, rest)

def isBetween (byte : UInt8) : Bool := byte = 0x26

def text (bytes : List UInt8) : String := String.ofList (Text.Utf8.decodeLossy bytes)

/-- The options behind the question mark. Those without a name do not count. -/
def options : (fuel : Nat) → List UInt8 → List (String × String)
  | 0, _ | _, [] => []
  | fuel + 1, bytes =>
    let (name, rest) := part (fun byte ↦ byte = 0x3D || isBetween byte) false bytes
    if name.isEmpty then
      options fuel ((rest.dropWhile fun byte ↦ !isBetween byte).drop 1)
    else
      match rest with
      | 0x3D :: rest =>
        let (value, rest) := part isBetween false rest
        (text name, text value) :: options fuel (rest.drop 1)
      | rest => (text name, "") :: options fuel (rest.drop 1)

/-- Reads what is behind the scheme. A host can only be this one. -/
def parts (bytes : List UInt8) : Except Fault Parts := do
  let bytes ← match bytes with
    | 0x2F :: 0x2F :: rest =>
      let host := text (rest.takeWhile fun byte ↦ byte ≠ 0x2F)
      if host ≠ "" && host ≠ "localhost" then
        throw (.rejected ("invalid uri authority: " ++ host))
      pure (rest.dropWhile fun byte ↦ byte ≠ 0x2F)
    | bytes => pure bytes
  let bytes := bytes.takeWhile fun byte ↦ byte ≠ 0x23
  let (path, rest) := part (fun byte ↦ byte = 0x3F) false bytes
  return ⟨path, options rest.length (rest.drop 1)⟩

/-- Ways of access, with how much they ask for. -/
inductive Access where
  | read
  | readWrite
  | readWriteCreate
  | memory
deriving DecidableEq

def Access.rank : Access → Nat
  | read => 1
  | readWrite => 2
  | readWriteCreate => 6
  | memory => 128

def access? : String → Option Access
  | "ro" => some .read
  | "rw" => some .readWrite
  | "rwc" => some .readWriteCreate
  | "memory" => some .memory
  | _ => none

/-- The access that is left after an option, which must not ask for more than is given. -/
def withOption (given : Access) (option : String × String) : Except Fault Access :=
  match option with
  | ("mode", value) =>
    match access? value with
    | none => .error (.rejected ("no such access mode: " ++ value))
    | some .memory => .ok .memory
    | some access => if given.rank < access.rank then .error (.accessRefused value) else .ok access
  | ("cache", value) =>
    if value = "shared" || value = "private" then .ok given
    else .error (.rejected ("no such cache mode: " ++ value))
  | _ => .ok given

/-- The ways in which files can be reached. -/
def systems : List String := ["unix", "unix-none", "unix-dotfile", "unix-excl", "memdb"]

/-- Those of them that do not admit a log. -/
def simpleSystems : List String := ["unix-none", "unix-dotfile"]

/-- Whether the first option of some name is switched on. -/
def isOn (options : List (String × String)) (name : String) : Bool :=
  match options.lookup name with
  | none => false
  | some value =>
    let digits := value.toList.takeWhile Char.isDigit
    if digits.isEmpty then ["on", "yes", "true"].contains value.toLower
    else digits.foldl (fun n c ↦ 10 * n + (c.toNat - 48)) 0 % 256 ≠ 0

def scheme : String := "file:"

/-- Whether a path asks for memory. -/
def isMemory (path : String) : Bool := path = "" || path = ":memory:"

def ofPath (path : String) : Name := ⟨if isMemory path then none else some path, false, true⟩

/-- Reads a name. -/
def read (name : String) : Except Fault Name := do
  if !name.startsWith scheme then return ofPath name
  let parts ← parts (name.toUTF8.toList.drop scheme.utf8ByteSize)
  let access ← parts.options.foldlM withOption .read
  let system := ((parts.options.filter fun option ↦ option.1 = "vfs").getLast?.map Prod.snd).getD
    "unix"
  if !systems.contains system then throw (.rejected ("no such vfs: " ++ system))
  let path := text parts.path
  return {
    path? := if isMemory path || access = .memory || system = "memdb" then none else some path
    isImmutable := isOn parts.options "immutable"
    admitsLog := !simpleSystems.contains system && !isOn parts.options "nolock" }

end Name

end TreeAudit.Database
