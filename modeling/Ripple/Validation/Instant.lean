import Ripple.Validation.Check

/-!
Instants in a document: a text with a day and a time of day, a text with a day alone, or a number of
seconds since 1 January 1970, of milliseconds if it is beyond twenty thousand million.
-/
namespace Ripple.Checker

def fixedDigits? : Nat → Nat → List Char → Option (Nat × List Char)
  | 0, n, s => some (n, s)
  | _ + 1, _, [] => none
  | count + 1, n, c :: rest =>
    if c.isDigit then fixedDigits? count (n * 10 + (c.toNat - 48)) rest else none

def dayAtStart (s : List Char) : Except String (Date × List Char) := do
  if (String.ofList s).utf8ByteSize < 10 then throw "input is too short"
  let some (year, s) := fixedDigits? 4 0 s | throw "invalid character in year"
  let '-' :: s := s | throw "invalid date separator, expected `-`"
  let some (month, s) := fixedDigits? 2 0 s | throw "invalid character in month"
  let '-' :: s := s | throw "invalid date separator, expected `-`"
  let some (day, s) := fixedDigits? 2 0 s | throw "invalid character in day"
  if month < 1 ∨ 12 < month then throw "month value is outside expected range of 1-12"
  if day < 1 ∨ Date.monthLength year month < day then throw "day value is outside expected range"
  return (⟨year, month, day⟩, s)

/-- A time of day at the start of a text: hour and minute, then seconds and a fraction of them. -/
def clockAtStart (s : List Char) : Except String (Nat × Nat × Nat × Nat × List Char) := do
  if s.length < 5 then throw "input is too short"
  let some (hour, s) := fixedDigits? 2 0 s | throw "invalid character in hour"
  let ':' :: s := s | throw "invalid time separator, expected `:`"
  let some (minute, s) := fixedDigits? 2 0 s | throw "invalid character in minute"
  if 23 < hour then throw "hour value is outside expected range of 0-23"
  if 59 < minute then throw "minute value is outside expected range of 0-59"
  let ':' :: s := s | return (hour, minute, 0, 0, s)
  let some (second, s) := fixedDigits? 2 0 s | throw "invalid character in second"
  if 59 < second then throw "second value is outside expected range of 0-59"
  match s with
  | c :: rest =>
    if c == '.' || c == ',' then
      let fraction := rest.takeWhile Char.isDigit
      if fraction.isEmpty then throw "second fraction value is missing"
      let micros := (fraction ++ List.replicate 6 '0').take 6
      let micro := micros.foldl (fun n c => n * 10 + (c.toNat - 48)) 0
      return (hour, minute, second, micro, rest.drop fraction.length)
    return (hour, minute, second, 0, s)
  | [] => return (hour, minute, second, 0, [])

def offsetAtEnd (s : List Char) : Except String (Option Int) := do
  match s with
  | [] => return none
  | [c] => if c == 'Z' || c == 'z' then return some 0 else throw "invalid timezone sign"
  | sign :: rest =>
    if sign == '+' || sign == '-' || sign == '\u2212' then
      let some (hours, rest) := fixedDigits? 2 0 rest | throw "invalid timezone hour"
      let rest := if rest.head? = some ':' then rest.drop 1 else rest
      let some (minutes, rest) := fixedDigits? 2 0 rest | throw "invalid timezone minute"
      if 59 < minutes then throw "timezone minute value is outside expected range of 0-59"
      if 23 < hours then throw "timezone offset must be less than 24 hours"
      unless rest.isEmpty do throw "unexpected extra characters at the end of the input"
      let seconds : Int := (hours * 60 + minutes) * 60
      return some (if sign == '+' then seconds else -seconds)
    else throw "unexpected extra characters at the end of the input"

def instantOfText (s : List Char) : Except String Timestamp := do
  let (date, rest) ← dayAtStart s
  let separator :: rest := rest | throw "input is too short"
  unless separator == 'T' || separator == 't' || separator == ' ' || separator == '_' do
    throw "invalid datetime separator, expected `T`, `t`, `_` or space"
  let (hour, minute, second, micro, rest) ← clockAtStart rest
  let offset ← offsetAtEnd rest
  return ⟨date, hour, minute, second, micro, offset⟩

def dayOfText (s : List Char) : Except String Date := do
  let (date, rest) ← dayAtStart s
  unless rest.isEmpty do throw "unexpected extra characters at the end of the input"
  return date

/-- Numbers of seconds beyond this one count milliseconds. -/
def millisecondThreshold : Nat := 20000000000

/-- The instant that a number of seconds or milliseconds and some millionths of a second stand
for. -/
def instantOfCount (count : Int) (micro : Nat) : Except String Timestamp :=
  let unit := if millisecondThreshold < count.natAbs then 1000 else 1000000
  let micros := count * unit + micro
  if micros < -11676096000000000 then
    .error "dates before 1600 are not supported as unix timestamps"
  else
    match Timestamp.ofEpochMicros? micros with
    | some t => .ok t
    | none => .error "dates after 9999 are not supported as unix timestamps"

/-- A number split into the next lower integer and the size of its fraction in millionths. -/
def wholeAndMillionths (negative : Bool) (numerator denominator : Nat) : Int × Nat :=
  let whole : Int := (numerator / denominator : Nat)
  let rest := numerator % denominator
  (if negative then (if rest = 0 then -whole else -whole - 1) else whole,
    (2 * rest * 1000000 + denominator) / (2 * denominator))

/-- What a decimal number of seconds or milliseconds stands for. -/
def instantOfFloat : Binary64 → Except String Timestamp
  | .finite negative mantissa exponent =>
    let (n, d) := Binary64.quotient mantissa exponent
    let (count, micro) := wholeAndMillionths negative n d
    instantOfCount count micro
  | .infinite negative => instantOfCount (if negative then -Int.pow 10 20 else Int.pow 10 20) 0
  | .nan => .error "NaN values not permitted"

def signed (s : List Char) : Bool × List Char :=
  match s with
  | '-' :: rest => (true, rest)
  | '+' :: rest => (false, rest)
  | rest => (false, rest)

/-- What a text of decimal digits stands for, if it is one of at most 64 bits. -/
def instantOfDigits? (s : List Char) : Option (Except String Timestamp) :=
  let (negative, digits) := signed s
  let n : Int := digits.foldl (fun n c => n * 10 + (c.toNat - 48 : Nat)) (0 : Int)
  if digits.isEmpty ∨ digits.any (!·.isDigit) ∨ Nat.pow 2 63 ≤ n.natAbs then none
  else some (instantOfCount (if negative then -n else n) 0)

def instantOfNumeral? (s : List Char) : Option Timestamp :=
  let (negative, body) := signed s
  let whole := body.takeWhile Char.isDigit
  let fraction := (body.drop (whole.length + 1)).takeWhile Char.isDigit
  if whole.isEmpty ∨ body ≠ whole ++ '.' :: fraction then none
  else
    let value (digits : List Char) : Nat := digits.foldl (fun n c => n * 10 + (c.toNat - 48)) 0
    let (count, micro) :=
      wholeAndMillionths negative (value (whole ++ fraction)) (Nat.pow 10 fraction.length)
    (instantOfCount count micro).toOption

/-- An instant as a text gives it: with a time of day, as a number, or as a day alone. -/
def instantInText (s : List Char) : Check Timestamp :=
  let found : Except String Timestamp :=
    match instantOfText s, instantOfDigits? s with
    | .ok t, _ => .ok t
    | .error _, some read => read
    | .error _, none =>
      match instantOfNumeral? s with
      | some t => .ok t
      | none => (dayOfText s).map fun d => ⟨d, 0, 0, 0, 0, none⟩
  match found with
  | .error why => .fail (.dayUnreadable why)
  | .ok t =>
    if t.date.year = 0 then .fail (.stampUnreadable "year 0 is out of range") else .valid t

def instant : Checker Timestamp
  | .stamp t => .valid t
  | .date d => .valid ⟨d, 0, 0, 0, 0, none⟩
  | .int i =>
    if Binary64.ofInt i = .infinite (i < 0) then .fail .stampExpected
    else numbered (instantOfCount i 0)
  | .float x => numbered (instantOfFloat x)
  | .text s => instantInText s.toList
  | .brokenText => .fail (.stampUnreadable "input is too short")
  | _ => .fail .stampExpected
where
  numbered : Except String Timestamp → Check Timestamp
    | .ok t => .valid t
    | .error why => .fail (.stampUnreadable why)

end Ripple.Checker
