import TreeAudit.Numeric.Decimal

/-!
Spans of time in whole nanoseconds, their text, and their value in seconds as a
floating point number.
-/

set_option autoImplicit false
set_option relaxedAutoImplicit false

namespace TreeAudit

structure Duration where
  nanoseconds : Nat
deriving DecidableEq

namespace Duration

def perSecond : Nat := 1000000000

def ofSeconds (seconds nanoseconds : Nat) : Duration :=
  ⟨seconds * perSecond + nanoseconds⟩

def zero : Duration := ⟨0⟩

/-- The time passed since an earlier moment of the same clock. -/
def since (now earlier : Duration) : Duration :=
  ⟨now.nanoseconds - earlier.nanoseconds⟩

def wholeSeconds (d : Duration) : Nat := d.nanoseconds / perSecond

def subsecond (d : Duration) : Nat := d.nanoseconds % perSecond

/-- Seconds and fraction are converted each on their own and then added. -/
def toSeconds (d : Duration) : Binary64 :=
  .ofNat d.wholeSeconds + .ofNat d.subsecond / .ofNat perSecond

/-- The nearest whole number of nanoseconds; none if the seconds do not fit a
machine word. -/
def ofSeconds? (seconds : Binary64) : Option Duration :=
  match seconds.toUnits? perSecond with
  | some nanoseconds =>
    if nanoseconds / perSecond < 0x10000000000000000 then some ⟨nanoseconds⟩ else none
  | none => none

def twoDigits (n : Nat) : String :=
  if n < 10 then "0" ++ toString n else toString n

/-- Hours, minutes and seconds from a minute on; below that, seconds with one
place. -/
def text (d : Duration) : String :=
  let seconds := d.wholeSeconds
  if 60 ≤ seconds then
    toString (seconds / 3600) ++ ":" ++ twoDigits (seconds / 60 % 60) ++ ":" ++
      twoDigits (seconds % 60)
  else Numeric.Decimal.fixed 1 d.toSeconds ++ "s"

theorem text_zero : zero.text = "0.0s" := by decide +kernel

end Duration

end TreeAudit
