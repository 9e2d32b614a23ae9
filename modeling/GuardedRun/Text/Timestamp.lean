/-!
Moments of the calendar written as text: year, month, day, and the time of the day in milliseconds,
all in the same zone as the epoch.
-/

namespace GuardedRun.Text

/-- Year, month and day that lie a number of days after the first of January 1970. Years are taken
to begin in March, so that a leap day is the last day of its year. -/
def civil (days : Int) : Int × Nat × Nat :=
  let day := days + 719468
  -- the calendar repeats every 400 years
  let era := day / 146097
  let ofEra := (day % 146097).toNat
  let yearOfEra := (ofEra - ofEra / 1460 + ofEra / 36524 - ofEra / 146096) / 365
  let ofYear := ofEra - (365 * yearOfEra + yearOfEra / 4 - yearOfEra / 100)
  let month := (5 * ofYear + 2) / 153
  let year : Int := yearOfEra + era * 400
  (if month < 10 then year else year + 1, if month < 10 then month + 3 else month - 9,
    ofYear - (153 * month + 2) / 5 + 1)

/-- Decimal digits, with zeros in front up to a width. -/
def padded (width n : Nat) : List Char :=
  let digits := Nat.toDigits 10 n
  List.replicate (width - digits.length) '0' ++ digits

/-- The text of the moment a number of milliseconds after the epoch. -/
def timestamp (milliseconds : Int) : String :=
  let (year, month, day) := civil (milliseconds / 86400000)
  let ofDay := (milliseconds % 86400000).toNat
  String.ofList (padded 4 year.toNat ++ '-' :: padded 2 month ++ '-' :: padded 2 day ++
    'T' :: padded 2 (ofDay / 3600000) ++ ':' :: padded 2 (ofDay / 60000 % 60) ++
    ':' :: padded 2 (ofDay / 1000 % 60) ++ '.' :: padded 3 (ofDay % 1000) ++ ['Z'])

end GuardedRun.Text
