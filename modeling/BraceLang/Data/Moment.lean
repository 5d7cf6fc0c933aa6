/-!
# Dates and moments

A moment is a date with a time of day, which may have an offset from universal time. Dates follow
the Gregorian calendar in the years from 1 on.
-/

namespace BraceLang

/-- A day. -/
structure Date where
  year : Nat
  month : Nat
  day : Nat
  deriving DecidableEq, Repr

/-- A time of day. -/
structure TimeOfDay where
  hour : Nat
  minute : Nat
  second : Nat
  microsecond : Nat
  deriving DecidableEq, Repr

/-- A time on a day, with the minutes that it is ahead of universal time if that is known. -/
structure Moment where
  date : Date
  time : TimeOfDay
  offset : Option Int
  deriving DecidableEq, Repr

/-- Why there is no such moment. -/
inductive MomentError where
  | offset (minutes : Int)
  | year (year : Nat)
  | month
  | day
  | hour
  | minute
  | second
  deriving DecidableEq, Repr

/-- A span of minutes as days, which may be negative, and seconds of a day; a part that is zero is
not shown. -/
def minutesText (minutes : Int) : String :=
  let days := minutes / 1440
  let seconds := minutes % 1440 * 60
  let parts := (if days = 0 then [] else ["days=" ++ toString days]) ++
    (if seconds = 0 then [] else ["seconds=" ++ toString seconds])
  "datetime.timedelta(" ++ ", ".intercalate parts ++ ")"

/-- The wording of an error. -/
def MomentError.message : MomentError → String
  | .offset minutes =>
    "offset must be a timedelta strictly between -timedelta(hours=24) and timedelta(hours=24), " ++
      "not " ++ minutesText minutes ++ "."
  | .year number => s!"year {number} is out of range"
  | .month => "month must be in 1..12"
  | .day => "day is out of range for month"
  | .hour => "hour must be in 0..23"
  | .minute => "minute must be in 0..59"
  | .second => "second must be in 0..59"

namespace Date

/-- Every fourth year is a leap year, but of the full centuries only every fourth. -/
def isLeapYear (year : Nat) : Bool :=
  year % 4 == 0 && (year % 100 != 0 || year % 400 == 0)

/-- The days of a month. -/
def daysInMonth (year month : Nat) : Nat :=
  if month == 2 then (if isLeapYear year then 29 else 28)
  else if month == 4 || month == 6 || month == 9 || month == 11 then 30
  else 31

/-- The days before a year, from the start of year 1. -/
def daysBeforeYear (year : Nat) : Nat :=
  let past := year - 1
  365 * past + past / 4 - past / 100 + past / 400

/-- The days before a date, from the start of year 1. -/
def daysBefore (date : Date) : Nat :=
  let months := (List.range (date.month - 1)).foldl
    (fun days past => days + daysInMonth date.year (past + 1)) 0
  daysBeforeYear date.year + months + (date.day - 1)

/-- Refuses a day that no calendar has. -/
def check (date : Date) : Except MomentError Unit :=
  if date.year = 0 then .error (.year date.year)
  else if date.month = 0 ∨ 12 < date.month then .error .month
  else if date.day = 0 ∨ daysInMonth date.year date.month < date.day then .error .day
  else .ok ()

/-- The numbers of a date. -/
def parts (date : Date) : List Nat := [date.year, date.month, date.day]

/-- A date as it is written inside other data. -/
def written (date : Date) : String :=
  "datetime.date(" ++ ", ".intercalate (date.parts.map toString) ++ ")"

end Date

/-- Refuses a time that no day has. -/
def TimeOfDay.check (time : TimeOfDay) : Except MomentError Unit :=
  if 23 < time.hour then .error .hour
  else if 59 < time.minute then .error .minute
  else if 59 < time.second then .error .second
  else .ok ()

namespace TimeOfDay

/-- The microseconds since the start of the day. -/
def microseconds (time : TimeOfDay) : Nat :=
  ((time.hour * 60 + time.minute) * 60 + time.second) * 1000000 + time.microsecond

/-- The numbers of a time, without seconds and microseconds at its end that are zero. -/
def parts (time : TimeOfDay) : List Nat :=
  if time.microsecond ≠ 0 then [time.hour, time.minute, time.second, time.microsecond]
  else if time.second ≠ 0 then [time.hour, time.minute, time.second]
  else [time.hour, time.minute]

end TimeOfDay

namespace Moment

/-- Refuses a moment that does not exist. An offset is less than a day. -/
def check (moment : Moment) : Except MomentError Unit := do
  match moment.offset with
  | some minutes => if 1440 ≤ minutes.natAbs then throw (.offset minutes)
  | none => pure ()
  moment.date.check
  moment.time.check

/-- The microseconds by which a moment comes after the start of year 1 in universal time, given
its offset. -/
def universal (moment : Moment) (minutes : Int) : Int :=
  moment.date.daysBefore * 86400000000 + moment.time.microseconds - minutes * 60000000

/-- Whether two moments are the same. Those with an offset are compared in universal time; one
without an offset is the same as no other. -/
def same (left right : Moment) : Bool :=
  match left.offset, right.offset with
  | some m, some n => left.universal m == right.universal n
  | _, _ => left == right

/-- An offset as it is written behind a moment. -/
def offsetText (minutes : Int) : String :=
  ", tzinfo=datetime.timezone" ++
    if minutes = 0 then ".utc" else "(" ++ minutesText minutes ++ ")"

/-- A moment as it is written inside other data. -/
def written (moment : Moment) : String :=
  "datetime.datetime(" ++
    ", ".intercalate ((moment.date.parts ++ moment.time.parts).map toString) ++
    (moment.offset.map offsetText).getD "" ++ ")"

end Moment

end BraceLang
