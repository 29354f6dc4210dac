import Ripple.Text.Basic
import Ripple.Text.Word
import Ripple.Text.Printable
import Ripple.Value.Basic
import Ripple.Yaml.Token

/-!
The meaning of scalars: which kind of value a plain scalar is, and the value that a scalar of a kind
stands for.
-/
namespace Ripple.Yaml

/-- The kinds of nodes that YAML knows; `other` stands for all the rest. -/
inductive Tag where
  | null | bool | int | float | binary | timestamp | omap | pairs | set | str | seq | map
  | merge | value | other
  deriving DecidableEq, Repr

def Tag.ofText (s : String) : Tag :=
  let known := [("null", Tag.null), ("bool", .bool), ("int", .int), ("float", .float),
    ("binary", .binary), ("timestamp", .timestamp), ("omap", .omap), ("pairs", .pairs),
    ("set", .set), ("str", .str), ("seq", .seq), ("map", .map), ("merge", .merge),
    ("value", .value)]
  ((known.map fun (name, tag) => ("tag:yaml.org,2002:" ++ name, tag)).lookup s).getD .other

namespace Scalar

def truthWords : List String :=
  ["yes", "Yes", "YES", "no", "No", "NO", "true", "True", "TRUE", "false", "False", "FALSE",
    "on", "On", "ON", "off", "Off", "OFF"]

def nullWords : List String := ["", "~", "null", "Null", "NULL"]

/-- A text without a sign at its start. -/
def unsigned (s : List Char) : List Char :=
  match s with
  | '+' :: rest | '-' :: rest => rest
  | _ => s

def isGrouped (c : Char) : Bool := c.isDigit || c == '_'

/-- The text behind a digit and further digits and underscores. -/
def behindDigits? (s : List Char) : Option (List Char) :=
  if startsWith Char.isDigit s then some (s.dropWhile isGrouped) else none

/-- The text behind groups of a colon and a number below sixty, with the number of groups. -/
def behindSixties : Nat → List Char → Nat × List Char
  | 0, s => (0, s)
  | fuel + 1, s =>
    match s with
    | ':' :: rest =>
      let ds := rest.takeWhile Char.isDigit
      let proper :=
        match ds with
        | [_] => true
        | [a, _] => a ≤ '5'
        | _ => false
      if proper then
        let (n, rest) := behindSixties fuel (rest.drop ds.length)
        (n + 1, rest)
      else (0, s)
    | _ => (0, s)

def isExponent (s : List Char) : Bool :=
  match s with
  | [] => true
  | e :: sign :: digits =>
    (e == 'e' || e == 'E') && (sign == '+' || sign == '-') && !digits.isEmpty &&
      digits.all Char.isDigit
  | _ => false

def isFloat (s : List Char) : Bool :=
  let pointed :=
    match behindDigits? (unsigned s) with
    | some ('.' :: rest) => isExponent (rest.dropWhile isGrouped)
    | some rest =>
      match behindSixties rest.length rest with
      | (_ + 1, '.' :: fraction) => fraction.all isGrouped
      | _ => false
    | none => false
  let bare :=
    match s with
    | '.' :: rest => ((behindDigits? rest).map isExponent).getD false
    | _ => false
  pointed || bare || [".inf", ".Inf", ".INF"].contains (String.ofList (unsigned s)) ||
    [".nan", ".NaN", ".NAN"].contains (String.ofList s)

def isNumeral (isDigit : Char → Bool) (s : List Char) : Bool :=
  !s.isEmpty && s.all fun c => isDigit c || c == '_'

def isInt (s : List Char) : Bool :=
  match unsigned s with
  | ['0'] => true
  | '0' :: 'b' :: rest => isNumeral (fun c => c == '0' || c == '1') rest
  | '0' :: 'x' :: rest => isNumeral (fun c => (Scanner.hexValue? c).isSome) rest
  | '0' :: rest => isNumeral (fun c => '0' ≤ c && c ≤ '7') rest
  | rest =>
    match behindDigits? rest with
    | some tail => (behindSixties tail.length tail).2.isEmpty
    | none => false

/-- A day, and a time of day and an offset in seconds if they are given. -/
structure Instant where
  year : Nat
  month : Nat
  day : Nat
  clock? : Option (Nat × Nat × Nat × Nat)
  offset? : Option Int

/-- A number of at least `least` and at most `most` digits at the start of a text. -/
def digits? (least most : Nat) (s : List Char) : Option (Nat × List Char) :=
  let ds := (s.takeWhile Char.isDigit).take most
  if ds.length < least then none
  else some (ds.foldl (fun n c => n * 10 + (c.toNat - 48)) 0, s.drop ds.length)

def behind? (c : Char) (s : List Char) : Option (List Char) :=
  match s with
  | d :: rest => if c = d then some rest else none
  | [] => none

/-- The offset at the end of a text; `none` if there is none, which is not a failure. -/
def offset? (s : List Char) : Option (Option Int) :=
  match s.dropWhile isBlank with
  | [] => if s.isEmpty then some none else none
  | ['Z'] => some (some 0)
  | sign :: rest =>
    if sign = '+' ∨ sign = '-' then do
      let (hours, rest) ← digits? 1 2 rest
      let minutes ←
        match rest with
        | [] => some 0
        | _ => do
          let (minutes, rest) ← digits? 2 2 (← behind? ':' rest)
          if rest.isEmpty then some minutes else none
      let seconds : Int := (hours * 60 + minutes : Nat) * 60
      return some (if sign = '-' then -seconds else seconds)
    else none

def instant? (s : List Char) : Option Instant := do
  let (year, rest) ← digits? 4 4 s
  let (month, rest) ← digits? 1 2 (← behind? '-' rest)
  let (day, rest) ← digits? 1 2 (← behind? '-' rest)
  if rest.isEmpty then return ⟨year, month, day, none, none⟩
  let rest ←
    match rest with
    | 'T' :: rest | 't' :: rest => some rest
    | _ => if startsWith isBlank rest then some (rest.dropWhile isBlank) else none
  let (hour, rest) ← digits? 1 2 rest
  let (minute, rest) ← digits? 2 2 (← behind? ':' rest)
  let (second, rest) ← digits? 2 2 (← behind? ':' rest)
  let (fraction, rest) :=
    match rest with
    | '.' :: rest => (rest.takeWhile Char.isDigit, rest.dropWhile Char.isDigit)
    | _ => ([], rest)
  let micros := ((fraction ++ List.replicate 6 '0').take 6).foldl
    (fun n c => n * 10 + (c.toNat - 48)) 0
  return ⟨year, month, day, some (hour, minute, second, micros), ← offset? rest⟩

/-- Whether a plain scalar is an instant: a day alone needs all its digits. -/
def isInstant (s : List Char) : Bool :=
  match instant? s with
  | some i => i.clock?.isSome || s.length == 10
  | none => false

/-- The kind of a plain scalar. -/
def plainTag (s : List Char) : Tag :=
  let text := String.ofList s
  if truthWords.contains text then .bool
  else if isFloat s then .float
  else if isInt s then .int
  else if text = "<<" then .merge
  else if nullWords.contains text then .null
  else if isInstant s then .timestamp
  else if text = "=" then .value
  else if ["!", "&", "*"].contains text then .other
  else .str

def truth (s : List Char) : Except Fault Value :=
  let word := String.ofList s
  match [("yes", true), ("no", false), ("true", true), ("false", false), ("on", true),
      ("off", false)].lookup word.toLower with
  | some b => .ok (.bool b)
  | none => .error (.badBoolean word.toLower)

/-- More digits than this are refused in a decimal integer. -/
def digitLimit : Nat := 4300

def digitOf? (base : Nat) (c : Char) : Option Nat :=
  ((Text.digitValue? c).or (Scanner.hexValue? c)).bind fun d => if d < base then some d else none

def integerIn (base : Nat) (s : List Char) : Except Fault Int := do
  let body := Text.stripBy Text.isBlank s
  let negative := startsWith (· == '-') body
  let ds := unsigned body
  let values := ds.filterMap (digitOf? base)
  if ds.isEmpty ∨ values.length ≠ ds.length then throw (.badInteger (String.ofList s) base)
  if base = 10 ∧ digitLimit < ds.length then throw (.longInteger ds.length)
  let n : Int := (values.foldl (fun n d => n * base + d) 0 : Nat)
  return if negative then -n else n

def pieces : List Char → List (List Char)
  | [] => [[]]
  | ':' :: rest => [] :: pieces rest
  | c :: rest =>
    match pieces rest with
    | [] => [[c]]
    | piece :: more => (c :: piece) :: more

/-- A text without underscores and sign, and whether the sign is a minus. -/
def magnitude (s : List Char) : Except Fault (Bool × List Char) :=
  match s.filter (· != '_') with
  | [] => .error .emptyNumber
  | '-' :: rest => .ok (true, rest)
  | '+' :: rest => .ok (false, rest)
  | rest => .ok (false, rest)

def integer (s : List Char) : Except Fault Int := do
  let (negative, body) ← magnitude s
  let n ←
    match body with
    | [] => throw .emptyNumber
    | ['0'] => pure 0
    | '0' :: 'b' :: rest => integerIn 2 rest
    | '0' :: 'x' :: rest => integerIn 16 rest
    | '0' :: _ => integerIn 8 body
    | _ => do
      let parts ← (pieces body).mapM (integerIn 10)
      pure (parts.foldl (fun n d => n * 60 + d) 0)
  return if negative then -n else n

/-- A decimal number with an optional point and exponent, as digits and exponent. -/
def decimal? (s : List Char) : Option (Nat × Int) :=
  let whole := s.takeWhile Char.isDigit
  let rest := s.drop whole.length
  let (fraction, rest) :=
    match rest with
    | '.' :: r => (r.takeWhile Char.isDigit, r.dropWhile Char.isDigit)
    | _ => ([], rest)
  let number := (whole ++ fraction).foldl (fun n c => n * 10 + (c.toNat - 48)) 0
  if (whole ++ fraction).isEmpty then none
  else
    match rest with
    | [] => some (number, -(fraction.length : Int))
    | e :: r =>
      let ds := unsigned r
      if (e = 'e' ∨ e = 'E') ∧ !ds.isEmpty ∧ ds.all Char.isDigit then
        let n : Int := ds.foldl (fun n c => n * 10 + (c.toNat - 48)) (0 : Nat)
        some (number, (if startsWith (· == '-') r then -n else n) - fraction.length)
      else none

/-- One piece of a decimal number. -/
def binary64 (s : List Char) : Except Fault Binary64 :=
  let body := Text.stripBy Text.isBlank s
  let negative := startsWith (· == '-') body
  match decimal? (unsigned body) with
  | some (n, e) => .ok (.ofDecimal negative n e)
  | none =>
    match String.ofList (unsigned body) with
    | "inf" | "infinity" => .ok (.infinite negative)
    | "nan" => .ok .nan
    | _ => .error (.badFloat (String.ofList s))

def negate : Binary64 → Binary64
  | .finite negative m e => .finite (!negative) m e
  | .infinite negative => .infinite (!negative)
  | .nan => .nan

/-- A number of sixties, of which the last piece may have a fraction. -/
def sixties (parts : List (List Char)) : Binary64 :=
  let (n, e) := parts.foldl
    (fun (total : Nat × Int) part =>
      let (m, f) := (decimal? part).getD (0, 0)
      let least := min total.2 f
      (total.1 * 60 * Nat.pow 10 (total.2 - least).toNat + m * Nat.pow 10 (f - least).toNat, least))
    (0, 0)
  .ofDecimal false n e

def float (s : List Char) : Except Fault Binary64 := do
  let (negative, body) ← magnitude (s.map Char.toLower)
  let x ←
    match String.ofList body with
    | ".inf" => pure (Binary64.infinite false)
    | ".nan" => pure Binary64.nan
    | _ =>
      match pieces body with
      | [single] => binary64 single
      | parts => do
        let _ ← parts.mapM binary64
        pure (sixties parts)
  return if negative then negate x else x

/-- The values of the letters in which octets are written, six bits each. -/
def sextet? (c : Char) : Option Nat :=
  if c.isUpper then some (c.toNat - 65)
  else if c.isLower then some (c.toNat - 71)
  else if c.isDigit then some (c.toNat + 4)
  else if c == '+' then some 62
  else if c == '/' then some 63
  else none

/-- The octets of groups of four letters, the last of which may be filled up with signs. -/
def octetsOf : List Nat → List UInt8
  | a :: b :: c :: d :: rest =>
    let n := ((a * 64 + b) * 64 + c) * 64 + d
    UInt8.ofNat (n / 65536) :: UInt8.ofNat (n / 256) :: UInt8.ofNat n :: octetsOf rest
  | [a, b, c] =>
    let n := (a * 64 + b) * 64 + c
    [UInt8.ofNat (n / 1024), UInt8.ofNat (n / 4)]
  | [a, b] => [UInt8.ofNat ((a * 64 + b) / 16)]
  | _ => []

/-- The six-bit numbers of a text; other characters are skipped, and signs that fill up a group
end the text. Fails if the last group is too short. -/
def sextets? : List Nat → List Char → Option (List Nat)
  | done, [] => if done.length % 4 = 0 then some done.reverse else none
  | done, c :: rest =>
    match sextet? c with
    | some n => sextets? (n :: done) rest
    | none =>
      if c = '=' then
        let filling := (rest.takeWhile fun d => (sextet? d).isNone).count '=' + 1
        if 2 ≤ done.length % 4 ∧ 4 ≤ done.length % 4 + filling then some done.reverse
        else sextets? done rest
      else sextets? done rest

def bytes (s : List Char) : Except Fault Value :=
  if s.any fun c => 128 ≤ c.toNat then .error .malformed
  else
    match sextets? [] s with
    | some ns => .ok (.bytes (octetsOf ns))
    | none => .error .malformed

/-- A span of time in words, as days and the seconds left over. -/
def spanText (seconds : Int) : String :=
  let days := seconds.fdiv 86400
  let left := seconds.fmod 86400
  let parts := (if days = 0 then [] else ["days=" ++ toString days]) ++
    (if left = 0 then [] else ["seconds=" ++ toString left])
  "datetime.timedelta(" ++ ", ".intercalate parts ++ ")"

def instantProblem? (i : Instant) : Option String :=
  let (hour, minute, second, _) := i.clock?.getD (0, 0, 0, 0)
  let offset := i.offset?.getD 0
  if 86400 ≤ offset.natAbs then
    some ("offset must be a timedelta strictly between -timedelta(hours=24) and " ++
      "timedelta(hours=24), not " ++ spanText offset ++ ".")
  else if i.year = 0 then some "year 0 is out of range"
  else if i.month < 1 ∨ 12 < i.month then some "month must be in 1..12"
  else if i.day < 1 ∨ Date.monthLength i.year i.month < i.day then
    some "day is out of range for month"
  else if 23 < hour then some "hour must be in 0..23"
  else if 59 < minute then some "minute must be in 0..59"
  else if 59 < second then some "second must be in 0..59"
  else none

def instant (s : List Char) : Except Fault Value :=
  match instant? s with
  | none => .error .badTimestamp
  | some i =>
    match instantProblem? i, i.clock? with
    | some problem, _ => .error (.badInstant problem)
    | none, none => .ok (.date ⟨i.year, i.month, i.day⟩)
    | none, some (hour, minute, second, micro) =>
      .ok (.stamp ⟨⟨i.year, i.month, i.day⟩, hour, minute, second, micro, i.offset?⟩)

def value (tag : Tag) (content : Content) : Except Fault Value :=
  match content with
  | none => if tag = .str then .ok .brokenText else .error .malformed
  | some s =>
    match tag with
    | .null => .ok .null
    | .bool => truth s
    | .int => (integer s).map .int
    | .float => (float s).map .float
    | .binary => bytes s
    | .timestamp => instant s
    | .str => .ok (.text (String.ofList s))
    | _ => .error .malformed

end Scalar

end Ripple.Yaml
