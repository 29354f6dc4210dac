/-!
Calendar days, instants with an optional offset from universal time, and their written forms.
-/
namespace Ripple

structure Date where
  year : Nat
  month : Nat
  day : Nat
  deriving DecidableEq, Repr, Inhabited

/-- A day and a time of day, with the offset from universal time in seconds if it is known. -/
structure Timestamp where
  date : Date
  hour : Nat
  minute : Nat
  second : Nat
  micro : Nat
  offset : Option Int
  deriving DecidableEq, Repr, Inhabited

namespace Date

def isLeapYear (year : Nat) : Bool :=
  year % 4 == 0 && (year % 100 != 0 || year % 400 == 0)

def monthLength (year month : Nat) : Nat :=
  match month with
  | 2 => if isLeapYear year then 29 else 28
  | 4 | 6 | 9 | 11 => 30
  | _ => 31

def daysBefore (year : Nat) : Nat :=
  let y := year - 1
  y * 365 + y / 4 - y / 100 + y / 400

/-- The day that lies a number of days after 1 January of a year, month by month. -/
def ofYearDay (year : Nat) : Nat → Nat → Nat → Date
  | 0, month, day => ⟨year, month, day + 1⟩
  | fuel + 1, month, day =>
    let length := monthLength year month
    if day < length then ⟨year, month, day + 1⟩ else ofYearDay year fuel (month + 1) (day - length)

/-- The last year, from a given one on, that starts at most `n` days after 1 January of year 1. -/
def climb (n : Nat) : Nat → Nat → Nat
  | 0, year => year
  | fuel + 1, year => if daysBefore (year + 1) ≤ n then climb n fuel (year + 1) else year

/-- The day that lies a number of days after 1 January of year 1. A year has at most 366 days, which
gives the year to start from. -/
def ofDayNumber (n : Nat) : Date :=
  let year := climb n (n / 366 + 1) (n / 366 + 1)
  ofYearDay year 12 1 (n - daysBefore year)

end Date

def zeroPadded (width n : Nat) : String :=
  let s := toString n
  String.ofList (List.replicate (width - s.length) '0') ++ s

/-- The number of days from 1 January of year 1 to 1 January 1970. -/
def Timestamp.epochDay : Int := 719162

/-- The instant in universal time a number of microseconds after 1 January 1970, within the years
1 to 9999. -/
def Timestamp.ofEpochMicros? (micros : Int) : Option Timestamp :=
  let perDay : Int := 86400000000
  let day := micros.fdiv perDay + epochDay
  let rest := (micros.fmod perDay).toNat
  if day < 0 ∨ 3652058 < day then none
  else
    let seconds := rest / 1000000
    some ⟨Date.ofDayNumber day.toNat, seconds / 3600, seconds / 60 % 60, seconds % 60,
      rest % 1000000, some 0⟩

/-- Day and time of day, with microseconds when they are not zero. -/
def Timestamp.clockText (t : Timestamp) : String :=
  zeroPadded 4 t.date.year ++ "-" ++ zeroPadded 2 t.date.month ++ "-" ++ zeroPadded 2 t.date.day ++
    "T" ++ zeroPadded 2 t.hour ++ ":" ++ zeroPadded 2 t.minute ++ ":" ++ zeroPadded 2 t.second ++
    (if t.micro = 0 then "" else "." ++ zeroPadded 6 t.micro)

def Timestamp.offsetText (offset : Int) : String :=
  let minutes := offset.natAbs / 60
  (if offset < 0 then "-" else "+") ++ zeroPadded 2 (minutes / 60) ++ ":" ++
    zeroPadded 2 (minutes % 60)

/-- The form used in documents: universal time is marked by a Z. -/
def Timestamp.text (t : Timestamp) : String :=
  t.clockText ++
    match t.offset with
    | none => ""
    | some 0 => "Z"
    | some offset => offsetText offset

/-- The form used in running text: every offset is written out, with its seconds if it has any. -/
def Timestamp.longText (t : Timestamp) : String :=
  t.clockText ++
    match t.offset with
    | none => ""
    | some offset =>
      let seconds := offset.natAbs % 60
      offsetText offset ++ if seconds = 0 then "" else ":" ++ zeroPadded 2 seconds

end Ripple
