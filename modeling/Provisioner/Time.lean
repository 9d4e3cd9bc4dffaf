/-!
# Points in time and their text

A point in time is counted in seconds from the beginning of 1970 in UTC, with nanoseconds beside
them; nanoseconds from one second on stand for a leap second. The text is that of RFC 3339 with
`Z` for UTC, with as few groups of three decimals as the nanoseconds need.
-/

namespace Provisioner

/-- A point in time. -/
structure Timestamp where
  seconds : Int
  nanoseconds : Nat
deriving DecidableEq, Repr

namespace Timestamp

/-- The first second of the year -262143, the earliest that there is. -/
def earliest : Int := -8334601228800

/-- The last second of the year 262142, the latest that there is. -/
def latest : Int := 8210266876799

/--
The point in time of some seconds and nanoseconds, if there is one. A leap second stands at the end
of a minute.
-/
def of? (seconds : Int) (nanoseconds : Nat) : Option Timestamp :=
  let fits := nanoseconds < 1000000000 ∨ (nanoseconds < 2000000000 ∧ seconds % 60 = 59)
  if earliest ≤ seconds ∧ seconds ≤ latest ∧ fits then some ⟨seconds, nanoseconds⟩ else none

end Timestamp

/-- A day of the Gregorian calendar. -/
structure Date where
  year : Int
  month : Nat
  day : Nat
deriving DecidableEq, Repr

/--
The date of the day `days` days after the first of January 1970. The calendar repeats after 400
years, which have 146097 days. Years are counted from the first of March here, so that a leap
day is the last day of its year.
-/
def Date.ofDays (days : Int) : Date :=
  let shifted := days + 719468
  let era := shifted / 146097
  let dayOfEra := (shifted % 146097).toNat
  let yearOfEra := (dayOfEra - dayOfEra / 1460 + dayOfEra / 36524 - dayOfEra / 146096) / 365
  let dayOfYear := dayOfEra - (365 * yearOfEra + yearOfEra / 4 - yearOfEra / 100)
  let monthFromMarch := (5 * dayOfYear + 2) / 153
  let day := dayOfYear - (153 * monthFromMarch + 2) / 5 + 1
  let month := if monthFromMarch < 10 then monthFromMarch + 3 else monthFromMarch - 9
  let year := era * 400 + yearOfEra + (if month ≤ 2 then 1 else 0)
  ⟨year, month, day⟩

namespace Timestamp

/-- The digits of `n`, at least `width` of them. -/
def padded (width n : Nat) : List Char :=
  let digits := Nat.toDigits 10 n
  List.replicate (width - digits.length) '0' ++ digits

/-- A year: four digits, and outside 0 to 9999 with a sign in front. -/
def yearChars (year : Int) : List Char :=
  if 0 ≤ year ∧ year ≤ 9999 then padded 4 year.natAbs
  else (if year < 0 then '-' else '+') :: padded 4 year.natAbs

/-- The decimals of a second. -/
def fractionChars (nanoseconds : Nat) : List Char :=
  if nanoseconds = 0 then []
  else if nanoseconds % 1000000 = 0 then '.' :: padded 3 (nanoseconds / 1000000)
  else if nanoseconds % 1000 = 0 then '.' :: padded 6 (nanoseconds / 1000)
  else '.' :: padded 9 nanoseconds

/-- The text of a point in time. -/
def text (t : Timestamp) : String :=
  let date := Date.ofDays (t.seconds / 86400)
  let secondOfDay := (t.seconds % 86400).toNat
  let second := secondOfDay % 60 + t.nanoseconds / 1000000000
  String.ofList (yearChars date.year ++ '-' :: padded 2 date.month ++ '-' :: padded 2 date.day ++
    'T' :: padded 2 (secondOfDay / 3600) ++ ':' :: padded 2 (secondOfDay / 60 % 60) ++
    ':' :: padded 2 second ++ fractionChars (t.nanoseconds % 1000000000) ++ ['Z'])

end Timestamp

end Provisioner
