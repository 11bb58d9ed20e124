/-!
# Timestamps

Milliseconds since 1970-01-01T00:00:00Z as an RFC 3339 text in UTC. Years are counted from March, so that the leap
day ends one; eras of 400 years repeat exactly.
-/

namespace ResponseCache.Text

/-- A day of the civil calendar. -/
structure Date where
  year : Nat
  month : Nat
  day : Nat
  deriving Repr, DecidableEq

/-- The date of a day counted from 1970-01-01. -/
def Date.ofDays (days : Nat) : Date :=
  let z := days + 719468
  let era := z / 146097
  let dayOfEra := z % 146097
  let yearOfEra := (dayOfEra - dayOfEra / 1460 + dayOfEra / 36524 - dayOfEra / 146096) / 365
  let dayOfYear := dayOfEra - (365 * yearOfEra + yearOfEra / 4 - yearOfEra / 100)
  let shifted := (5 * dayOfYear + 2) / 153
  let month := if shifted < 10 then shifted + 3 else shifted - 9
  ⟨yearOfEra + era * 400 + (if month ≤ 2 then 1 else 0), month, dayOfYear - (153 * shifted + 2) / 5 + 1⟩

/-- A number with at least `width` digits. -/
def padded (width n : Nat) : String :=
  let ds := Nat.toDigits 10 n
  String.ofList (List.replicate (width - ds.length) '0' ++ ds)

def timestamp (milliseconds : Nat) : String :=
  let date := Date.ofDays (milliseconds / 86400000)
  let rest := milliseconds % 86400000
  let fraction := if rest % 1000 = 0 then "" else "." ++ padded 3 (rest % 1000)
  padded 4 date.year ++ "-" ++ padded 2 date.month ++ "-" ++ padded 2 date.day ++ "T" ++ padded 2 (rest / 3600000) ++
    ":" ++ padded 2 (rest / 60000 % 60) ++ ":" ++ padded 2 (rest / 1000 % 60) ++ fraction ++ "+00:00"

example : Date.ofDays 0 = ⟨1970, 1, 1⟩ ∧ Date.ofDays 59 = ⟨1970, 3, 1⟩ ∧ Date.ofDays 11016 = ⟨2000, 2, 29⟩ := by
  decide

end ResponseCache.Text
