import TreeAudit.Digest.Sha256

/-!
Names made up for runs: the time of day in universal time, down to the second, and the
nanoseconds of that second.
-/

set_option autoImplicit false
set_option relaxedAutoImplicit false

namespace TreeAudit.RunId

/-- A moment, as seconds since the beginning of 1970 and nanoseconds of the second. -/
structure Moment where
  seconds : Nat
  nanoseconds : Nat

/-- A day of the calendar. -/
structure Date where
  year : Nat
  month : Nat
  day : Nat

def daysPerEra : Nat := 146097

/-- The date of a day counted from the beginning of 1970. Years are counted from March, so
that a leap day ends its year, in eras of four centuries. -/
def dateOfDay (day : Nat) : Date :=
  let shifted := day + 719468
  let ofEra := shifted % daysPerEra
  let yearOfEra := (ofEra - ofEra / 1460 + ofEra / 36524 - ofEra / 146096) / 365
  let ofYear := ofEra - (365 * yearOfEra + yearOfEra / 4 - yearOfEra / 100)
  let monthFromMarch := (5 * ofYear + 2) / 153
  let month := if monthFromMarch < 10 then monthFromMarch + 3 else monthFromMarch - 9
  let year := shifted / daysPerEra * 400 + yearOfEra
  ⟨if month ≤ 2 then year + 1 else year, month, ofYear - (153 * monthFromMarch + 2) / 5 + 1⟩

def padded (width n : Nat) : String :=
  let digits := toString n
  "".pushn '0' (width - digits.length) ++ digits

def hexWord (n : Nat) : String :=
  String.ofList ((Digest.Sha256.bigEndian n 4).flatMap Digest.Sha256.hexByte)

def ofMoment (moment : Moment) : String :=
  let date := dateOfDay (moment.seconds / 86400)
  let second := moment.seconds % 86400
  padded 4 date.year ++ padded 2 date.month ++ padded 2 date.day ++ "T" ++
    padded 2 (second / 3600) ++ padded 2 (second / 60 % 60) ++ padded 2 (second % 60) ++
    "Z_" ++ hexWord moment.nanoseconds

end TreeAudit.RunId
