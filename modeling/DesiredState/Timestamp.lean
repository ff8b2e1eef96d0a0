/-!
Points in time as texts. A time is a number of seconds since the start of 1970 in UTC; its text has
the date of the proleptic Gregorian calendar, the time of day, and the letter Z.
-/
namespace DesiredState.Timestamp

structure Date where
  year : Int
  month : Int
  day : Int
  deriving DecidableEq, Repr

/-- The date that lies `days` after 1970-01-01. Years are counted from March, so that the leap day
is the last of its year, in eras of 400 years. -/
def dateOfDays (days : Int) : Date :=
  let shifted := days + 719468
  let era := shifted / 146097
  let dayOfEra := shifted % 146097
  let yearOfEra := (dayOfEra - dayOfEra / 1460 + dayOfEra / 36524 - dayOfEra / 146096) / 365
  let dayOfYear := dayOfEra - (365 * yearOfEra + yearOfEra / 4 - yearOfEra / 100)
  let marchMonth := (5 * dayOfYear + 2) / 153
  let month := if marchMonth < 10 then marchMonth + 3 else marchMonth - 9
  { year := yearOfEra + era * 400 + if month ≤ 2 then 1 else 0
    month := month
    day := dayOfYear - (153 * marchMonth + 2) / 5 + 1 }

def padded (width n : Nat) : String :=
  let ds := Nat.toDigits 10 n
  String.ofList (List.replicate (width - ds.length) '0' ++ ds)

def yearText (year : Int) : String :=
  if 0 ≤ year ∧ year ≤ 9999 then padded 4 year.toNat
  else if 0 ≤ year then "+" ++ padded 4 year.toNat
  else "-" ++ padded 4 year.natAbs

def text (since : Int) : String :=
  let date := dateOfDays (since / 86400)
  let second := (since % 86400).toNat
  let two := padded 2
  s!"{yearText date.year}-{two date.month.toNat}-{two date.day.toNat}" ++
    s!"T{two (second / 3600)}:{two (second / 60 % 60)}:{two (second % 60)}Z"

end DesiredState.Timestamp
