import Ripple.Regex.Reader
import Ripple.Text.Basic

/-!
The settings for rotating and keeping log files: sizes, durations, frequencies, and days or times of
day. Only whether a setting can be understood matters here.
-/
namespace Ripple.Log

-- The forms below name no character.
attribute [local instance] Regex.Names.none

inductive RotationFault where
  | rotation (text : String)
  | retention (text : String)
  | sizeNumber (text : String)
  | durationNumber (text : String)
  | durationUnit (text : String)
  | day (text : String)
  | time (text : String)
  deriving DecidableEq, Repr

def RotationFault.message : RotationFault → String
  | .rotation s => "Cannot parse rotation from: '" ++ s ++ "'"
  | .retention s => "Cannot parse retention from: '" ++ s ++ "'"
  | .sizeNumber s => "Invalid float value while parsing size: '" ++ s ++ "'"
  | .durationNumber s => "Invalid float value while parsing duration: '" ++ s ++ "'"
  | .durationUnit s => "Invalid unit value while parsing duration: '" ++ s ++ "'"
  | .day s => "Invalid day while parsing daytime: '" ++ s ++ "'"
  | .time s => "Invalid time while parsing daytime: '" ++ s ++ "'"

namespace Rotation

/-- The match of a written form at the start of a text, whatever its case, up to its end. -/
def whole? (form text : String) : Option Regex.Cursor :=
  match Regex.parse form.toList with
  | .ok r => (Regex.seq r .textEnd).match? (Text.lower text).toList
  | .error _ => none

def hasForm (form text : String) : Bool := (whole? form text).isSome

/-- A decimal number, perhaps with a sign, a fraction and an exponent. -/
def isNumber (text : String) : Bool :=
  hasForm "[-+]?(\\d+(\\.\\d*)?|\\.\\d+)(e[-+]?\\d+)?" text

def isSize (text : String) : Except RotationFault Bool :=
  match whole? "([-e+.\\d]+)\\s*[kmgtpezy]?i?b" (Text.strip text) with
  | none => .ok false
  | some found =>
    let number := (found.text? 1).getD ""
    if isNumber number then .ok true else .error (.sizeNumber number)

def unitForms : List String :=
  ["(y|years?)", "months?", "(w|weeks?)", "(d|days?)", "(h|hours?)", "min(ute)?s?",
    "(s|sec(ond)?s?)", "(ms|milliseconds?)", "(us|microseconds?)"]

def durationPart : String := "([-e+.\\d]+)\\s*([a-z]+)[\\s,]*"

def durationParts (text : String) : List (String × String) :=
  match Regex.parse durationPart.toList with
  | .ok r => (r.findAll (Text.lower text).toList).map fun found =>
      ((found.text? 1).getD "", (found.text? 2).getD "")
  | .error _ => []

def isDuration (text : String) : Except RotationFault Bool := do
  let text := Text.strip text
  if !hasForm ("(" ++ durationPart ++ ")+") text then return false
  for (number, unit) in durationParts text do
    if !isNumber number then throw (.durationNumber number)
    if !unitForms.any (hasForm · unit) then throw (.durationUnit unit)
  return true

def isFrequency (text : String) : Bool :=
  ["hourly", "daily", "weekly", "monthly", "yearly"].contains (Text.lower (Text.strip text))

def weekdays : List String :=
  ["monday", "tuesday", "wednesday", "thursday", "friday", "saturday", "sunday"]

def isDay (text : String) : Except RotationFault Bool :=
  let name := Text.lower (Text.strip text)
  if weekdays.contains name then .ok true
  else if hasForm "w\\d+" name then
    if hasForm "w0*[0-6]" name then .ok true else .error (.day text)
  else .ok false

/-- The written forms of a time of day, of twenty-four hours or of twelve. -/
def timeForms : List String :=
  let hour := "(2[0-3]|[0-1]\\d|\\d)"
  let half := "(1[0-2]|0[1-9]| [1-9]|[1-9])"
  let minute := "([0-5]\\d|\\d)"
  let second := "(6[0-1]|[0-5]\\d|\\d)"
  let micro := "[0-9][0-9]?[0-9]?[0-9]?[0-9]?[0-9]?"
  let side := "\\s+(am|pm)"
  [hour, hour ++ ":" ++ minute, hour ++ ":" ++ minute ++ ":" ++ second,
    hour ++ ":" ++ minute ++ ":" ++ second ++ "\\." ++ micro,
    half ++ side, half ++ ":" ++ minute ++ "\\s+" ++ second,
    half ++ ":" ++ minute ++ ":" ++ second ++ side,
    half ++ ":" ++ minute ++ ":" ++ second ++ "\\." ++ micro ++ side]

def isTime (text : String) : Except RotationFault Bool :=
  let trimmed := Text.strip text
  if !hasForm "[\\d.:]+\\s*([ap]m)?" trimmed then .ok false
  else if timeForms.any (hasForm · trimmed) then .ok true
  else .error (.time text)

/-- The texts before and behind the first `at` between blanks. -/
def splitAt? (behind : List Char) : List Char → Option (String × String)
  | [] => none
  | c :: rest =>
    let after := (c :: rest).dropWhile Text.isBlank
    match (String.ofList (after.take 2)).toLower, after.drop 2 with
    | "at", next :: more =>
      if Text.isBlank c && Text.isBlank next then
        some (String.ofList behind.reverse, String.ofList (more.dropWhile Text.isBlank))
      else splitAt? (c :: behind) rest
    | _, _ => splitAt? (c :: behind) rest

def isMoment (text : String) : Except RotationFault Bool := do
  let text := Text.strip text
  match splitAt? [] text.toList with
  | some (day, time) =>
    if !(← isDay day) then throw (.day "None")
    if !(← isTime time) then throw (.time "None")
    return true
  | none =>
    let day ← isDay text
    let time ← isTime text
    return day || time

/-- Whether log files can be rotated as a setting says. -/
def checkRotation (text : String) : Except RotationFault Unit := do
  if ← isSize text then return
  if ← isDuration text then return
  if isFrequency text then return
  if ← isMoment text then return
  throw (.rotation text)

/-- Whether log files can be kept as long as a setting says. -/
def checkRetention (text : String) : Except RotationFault Unit := do
  if ← isDuration text then return
  throw (.retention text)

end Rotation

end Ripple.Log
