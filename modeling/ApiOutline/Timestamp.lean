/-
ApiOutline/Timestamp.lean

Days, and times of day with or without a time zone.

Design.  A timestamp is kept as it is written, zone and all.  Two timestamps
with zones are the same when they name the same instant (`moment`); without
zones they are the same when all numbers are, and one with a zone is never the
same as one without.  A timestamp need not exist: `fault?` says what is wrong
with it.
-/

namespace ApiOutline

/-- A time of day, with the distance of its zone from universal time in minutes if it is in
one. -/
structure TimeOfDay where
  hour : Nat
  minute : Nat
  second : Nat
  micro : Nat
  zone? : Option Int := none
deriving DecidableEq, Repr, Inhabited

/-- A day, and the time of day if one is given. -/
structure Timestamp where
  year : Nat
  month : Nat
  day : Nat
  time? : Option TimeOfDay := none
deriving DecidableEq, Repr, Inhabited

/-! ### The calendar -/

/-- A year has 366 days. -/
def isLeap (year : Nat) : Bool := year % 4 = 0 && (year % 100 ≠ 0 || year % 400 = 0)

/-- The number of days of a month. -/
def daysIn (year month : Nat) : Nat :=
  if month = 2 then (if isLeap year then 29 else 28)
  else if month = 4 ∨ month = 6 ∨ month = 9 ∨ month = 11 then 30
  else 31

/-- The number of days before a year. -/
def daysBefore (year : Nat) : Nat :=
  let past := year - 1
  365 * past + past / 4 - past / 100 + past / 400

namespace Timestamp

/-- The number of a day, counted from the first day of the first year. -/
def dayNumber (t : Timestamp) : Nat :=
  let past := (List.range (t.month - 1)).foldl (fun days m => days + daysIn t.year (m + 1)) 0
  daysBefore t.year + past + t.day

/-- The microseconds from the beginning of the calendar to a time of day in a zone, counted in
universal time. -/
def moment (t : Timestamp) (time : TimeOfDay) (zone : Int) : Int :=
  let minutes : Int := 1440 * t.dayNumber + 60 * time.hour + time.minute - zone
  1000000 * (60 * minutes + time.second) + time.micro

/-- Two timestamps are the same. -/
def same (t u : Timestamp) : Bool :=
  match t.time?, u.time? with
  | some a, some b =>
    match a.zone?, b.zone? with
    | some y, some z => t.moment a y = u.moment b z
    | _, _ => t = u
  | _, _ => t = u

/-! ### Text -/

/-- The text that shows a length of time given in minutes. -/
def durationShown (minutes : Int) : String :=
  let days := minutes.fdiv 1440
  let seconds := 60 * minutes.fmod 1440
  let parts := (if days = 0 then [] else ["days=" ++ toString days]) ++
    (if seconds = 0 then [] else ["seconds=" ++ toString seconds])
  "datetime.timedelta(" ++ (if parts = [] then "0" else ", ".intercalate parts) ++ ")"

/-- The text that shows a time zone. -/
def zoneShown (zone : Int) : String :=
  if zone = 0 then "datetime.timezone.utc"
  else "datetime.timezone(" ++ durationShown zone ++ ")"

/-- What a time of day adds to the text of a timestamp; seconds that are zero are left out. -/
def timeShown (t : TimeOfDay) : List String :=
  let seconds :=
    if t.micro ≠ 0 then [t.second, t.micro] else if t.second ≠ 0 then [t.second] else []
  ([t.hour, t.minute] ++ seconds).map toString ++
    t.zone?.toList.map fun zone => "tzinfo=" ++ zoneShown zone

/-- The text that shows a timestamp. -/
def shown (t : Timestamp) : String :=
  (if t.time?.isSome then "datetime.datetime(" else "datetime.date(") ++
    ", ".intercalate
      ([t.year, t.month, t.day].map toString ++ t.time?.toList.flatMap timeShown) ++ ")"

/-! ### Faults -/

/-- The first thing that is wrong with a timestamp. -/
inductive Fault where
  /-- the zone is a day or more from universal time -/
  | zone (minutes : Int)
  | year (number : Nat)
  | month
  | day
  | hour
  | minute
  | second
deriving DecidableEq, Repr

/-- The text of a fault. -/
def Fault.message : Fault → String
  | zone minutes =>
    "offset must be a timedelta strictly between -timedelta(hours=24) and " ++
      "timedelta(hours=24), not " ++ durationShown minutes ++ "."
  | year number => "year " ++ toString number ++ " is out of range"
  | month => "month must be in 1..12"
  | day => "day is out of range for month"
  | hour => "hour must be in 0..23"
  | minute => "minute must be in 0..59"
  | second => "second must be in 0..59"

/-- What is wrong with a time zone. -/
def zoneFault? (zone : Int) : Option Fault :=
  if -1440 < zone ∧ zone < 1440 then none else some (.zone zone)

/-- What is wrong with a day. -/
def dayFault? (t : Timestamp) : Option Fault :=
  if t.year = 0 then some (.year t.year)
  else if t.month = 0 ∨ 12 < t.month then some .month
  else if t.day = 0 ∨ daysIn t.year t.month < t.day then some .day
  else none

/-- What is wrong with a time of day. -/
def timeFault? (t : TimeOfDay) : Option Fault :=
  if 23 < t.hour then some .hour
  else if 59 < t.minute then some .minute
  else if 59 < t.second then some .second
  else none

/-- What is wrong with a timestamp: its zone is looked at first. -/
def fault? (t : Timestamp) : Option Fault :=
  (t.time?.bind fun time => time.zone?.bind zoneFault?) <|> t.dayFault? <|>
    t.time?.bind timeFault?

end Timestamp

end ApiOutline
