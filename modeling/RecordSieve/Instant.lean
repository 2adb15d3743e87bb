import RecordSieve.Number

namespace RecordSieve

namespace Calendar

def cycleDays : Int := 146097

/-- The year, month and day that lie `days` after 1970-01-01. Counted from the first of March of the
year zero, so that a leap day ends its year. -/
def civil (days : Int) : Int × Nat × Nat :=
  let shifted := days + 719468
  let cycle := Int.fdiv shifted cycleDays
  let day := (Int.fmod shifted cycleDays).toNat
  let year := (day - day / 1460 + day / 36524 - day / 146096) / 365
  let dayOfYear := day - (365 * year + year / 4 - year / 100)
  let month := (5 * dayOfYear + 2) / 153
  let dayOfMonth := dayOfYear - (153 * month + 2) / 5 + 1
  let calendarMonth := if month < 10 then month + 3 else month - 9
  let calendarYear := cycle * 400 + year + (if calendarMonth ≤ 2 then 1 else 0)
  (calendarYear, calendarMonth, dayOfMonth)

end Calendar

def padded (places n : Nat) : List Char :=
  let digits := digitsOf n
  List.replicate (places - digits.length) '0' ++ digits

namespace Instant

def greatest : Nat := 8640000000000000

def ofMillis? (x : Binary64) : Option Int := x.truncate?.filter (·.natAbs ≤ greatest)

def yearText (year : Int) : List Char :=
  if 0 ≤ year ∧ year ≤ 9999 then padded 4 year.toNat
  else (if year < 0 then '-' else '+') :: padded 6 year.natAbs

def text (millis : Int) : List Char :=
  let (year, month, day) := Calendar.civil (Int.fdiv millis 86400000)
  let rest := (Int.fmod millis 86400000).toNat
  yearText year ++ '-' :: padded 2 month ++ '-' :: padded 2 day
    ++ 'T' :: padded 2 (rest / 3600000) ++ ':' :: padded 2 (rest / 60000 % 60)
    ++ ':' :: padded 2 (rest / 1000 % 60) ++ '.' :: padded 3 (rest % 1000) ++ ['Z']

end Instant

end RecordSieve
