import TreeAudit.Database.Function.Format
import TreeAudit.Database.Function.Json
import TreeAudit.Database.Function.Pattern
import TreeAudit.Database.Function.Text

/-!
The functions that what is stored may depend on, applied to their arguments. Most of them ask
for all of their arguments; those that choose among them pass over the faults of the others.
-/

set_option autoImplicit false
set_option relaxedAutoImplicit false

namespace TreeAudit.Database.Function

/-- What a function needs to know besides its arguments. -/
structure Setting where
  encoding : Encoding
  collation : Collation

/-- The arguments of a call, as far as they can be had. -/
abbrev Arguments := List (Except Fault Operand)

/-- The first argument that is something. -/
def coalesce : Arguments → Except Fault Operand
  | [] => .ok (.plain .null)
  | .error fault :: _ => .error fault
  | .ok operand :: rest => if operand.value.isNull then coalesce rest else .ok operand

/-- The magnitude of a number. -/
def abs : Value → Except Fault Value
  | .null => .ok .null
  | .integer n =>
    if n = Numeral.leastInteger then .error (.rejected "integer overflow")
    else .ok (.integer n.natAbs)
  | value => .ok (.real { value.toReal with negative := false })

/-- Numbers beyond which all are whole. -/
def wholeBound : Int := 0x10000000000000

def halfUp (num den : Nat) : Nat := (2 * num + den) / (2 * den)

/-- A number to some places, a half going away from zero. -/
def round (value : Value) (places? : Option Value) : Value :=
  if value.isNull || (places?.map Value.isNull).getD false then .null
  else
    let places := (max 0 (min 30 ((places?.map Value.toInt).getD 0))).toNat
    let x := value.toReal
    match x.ratio? with
    | none => .real x
    | some (num, den) =>
      if num.natAbs > wholeBound.natAbs * den then .real x
      else if places = 0 then
        match (x.add? (.ofRatio (if num < 0 then -1 else 1) 2)).bind SignedBinary64.truncate? with
        | some n => .real (.ofInt n)
        | none => .real x
      else
        .real (.ofDecimal x.negative (halfUp (num.natAbs * Nat.pow 10 places) den) (-places))

/-- The last of the values that none comes before, or the first that comes before none. -/
def extreme (setting : Setting) (isGreatest : Bool) : List Value → Value
  | [] => .null
  | first :: rest =>
    if (first :: rest).contains .null then .null
    else
      rest.foldl (fun best value ↦
        let order := Value.order setting.encoding setting.collation best value
        if (if isGreatest then order = .lt else order ≠ .lt) then value else best) first

/-- Whether a text fits a pattern. -/
def matching (same : Char → Char → Bool) (pattern? : List Char → Pattern)
    (encoding : Encoding) (pattern value : Value) : Value :=
  let text (value : Value) : Option (List Char) :=
    (value.textBytes? encoding).map fun bytes ↦ Text.Utf8.decodeLossy (upToZero bytes)
  match text pattern, text value with
  | some pattern, some value => .ofBool (Pattern.fits same (pattern? pattern) value)
  | _, _ => .null

/-- Whether a text fits a pattern in which a character takes away the meaning of others. -/
def likeWith (encoding : Encoding) (pattern value escape : Value) : Except Fault Value :=
  match escape.textBytes? encoding with
  | none => .ok .null
  | some bytes =>
    match Text.Utf8.decodeLossy (upToZero bytes) with
    | [c] => .ok (matching Pattern.sameLetter (Pattern.like (some c)) encoding pattern value)
    | _ => .error (.rejected "ESCAPE expression must be a single character")

/-- The letter by which a text sounds, and the digits for the next three sounds. -/
def soundex (encoding : Encoding) (value : Value) : Value :=
  let code (c : Char) : Nat := "01230120022455012623010202".toList[c.toLower.toNat - 97]?.elim 0
    fun d ↦ d.toNat - 48
  let isLetter (c : Char) : Bool := c.isAlpha
  let text := Numeral.characters (upToZero ((value.textBytes? encoding).getD []))
  match text.dropWhile fun c ↦ !isLetter c with
  | [] => .ofString "?000"
  | c :: rest =>
    let step (state : Nat × List Char) (c : Char) : Nat × List Char :=
      if !isLetter c then (0, state.2)
      else
        let code := code c
        (code, if 0 < code && code ≠ state.1 then state.2 ++ [Nat.digitChar code] else state.2)
    let digits := (rest.foldl step (code c, [])).2
    .ofString (String.ofList (c.toUpper :: (digits ++ ['0', '0', '0']).take 3))

/-- The largest value that a function may make. -/
def largestSize : Int := 1000000000

def zeros (size : Int) : Except Fault Value :=
  if largestSize < size then .error .tooBig else .ok (.blob (List.replicate size.toNat 0))

def unhex (encoding : Encoding) (value : Value) (skipped : List UInt8) : Value :=
  match value.textBytes? encoding with
  | none => .null
  | some bytes =>
    let characters := (Text.Utf8.decodeLossy bytes)
    ((unhex? (Text.Utf8.decodeLossy skipped) characters).map Value.blob).getD .null

/-- The value of a call to a function whose arguments can all be had. -/
def applyAll (setting : Setting) (name : String) (values : List Value) : Except Fault Value :=
  let encoding := setting.encoding
  let letters (change : UInt8 → UInt8) (value : Value) : Value :=
    ((value.textBytes? encoding).map fun bytes ↦ Value.text (bytes.map change)).getD .null
  match name, values with
  | "upper", [value] => return letters upper value
  | "lower", [value] => return letters Collation.lower value
  | "likely", [value] | "unlikely", [value] | "likelihood", [value, _] => return value
  | "typeof", [value] => return .ofString value.kind.label.toLower
  | "subtype", [_] => return .integer 0
  | "length", [value] => return length value
  | "octet_length", [value] => return octetLength encoding value
  | "unicode", [value] => return unicode encoding value
  | "abs", [value] => abs (value.readable encoding)
  | "hex", [value] => return .ofString (hex (value.blobBytes encoding))
  | "unhex", [value] => return unhex encoding value []
  | "unhex", [value, skipped] =>
    match skipped.textBytes? encoding with
    | none => return .null
    | some skipped => return unhex encoding value skipped
  | "quote", [value] => return quote value
  | "zeroblob", [value] => zeros value.toInt
  | "soundex", [value] => return soundex encoding value
  | "char", values => return char values
  | "substr", [value, start] | "substring", [value, start] =>
    return substr encoding value start none
  | "substr", [value, start, length] | "substring", [value, start, length] =>
    return substr encoding value start (some length)
  | "trim", value :: set => return trim ⟨true, true⟩ encoding value set.head?
  | "ltrim", value :: set => return trim ⟨true, false⟩ encoding value set.head?
  | "rtrim", value :: set => return trim ⟨false, true⟩ encoding value set.head?
  | "instr", [value, sought] => return instr encoding value sought
  | "replace", [value, sought, given] => return replace encoding value sought given
  | "round", value :: places => return round (value.readable encoding) places.head?
  | "min", values => return extreme setting false values
  | "max", values => return extreme setting true values
  | "nullif", [value, other] =>
    return if Value.order encoding setting.collation value other = .eq then .null else value
  | "concat", values => return joined encoding [] values
  | "concat_ws", between :: values =>
    return ((between.textBytes? encoding).map fun bytes ↦ joined encoding bytes values).getD .null
  | "printf", values | "format", values => return Format.apply encoding values
  | "like", [pattern, value] =>
    return matching Pattern.sameLetter (Pattern.like none) encoding pattern value
  | "like", [pattern, value, escape] => likeWith encoding pattern value escape
  | "glob", [pattern, value] =>
    return matching (fun a b ↦ a = b) Pattern.ofGlob encoding pattern value
  | _, _ => return .null

/-- The value of a call to a function. -/
def apply (setting : Setting) (name : String) (arguments : Arguments) :
    Except Fault Operand :=
  match name, arguments with
  | "coalesce", arguments | "ifnull", arguments => coalesce arguments
  | "iif", [condition, value, otherwise] => do
    if ((← condition).value.readable setting.encoding).truth?.getD false then value else otherwise
  | name, arguments => do
    let operands ← arguments.mapM id
    match Json.call? setting.encoding name operands with
    | some answer => answer
    | none => return .plain (← applyAll setting name (operands.map Operand.value))

end TreeAudit.Database.Function
