import Ripple.Value.Basic

/-!
Reading JSON documents. A reader returns a value and the text behind it, or a fault that keeps the
text from the faulty place on, so that the place can be reported by line and column.

Besides the standard, `NaN`, `Infinity` and `-Infinity` are numbers; of several members with one
name the last one counts, at the place of the first.
-/
namespace Ripple.Json

inductive Problem where
  | expectedValue
  | expectedName
  | expectedColon
  | expectedComma
  | extraData
  | unterminatedString
  | controlCharacter
  | badEscape
  | badUnicodeEscape
  | byteOrderMark
  /-- An integer with more digits than are converted. -/
  | longInteger (digits : Nat)
  deriving DecidableEq, Repr

structure Fault where
  problem : Problem
  rest : List Char
  deriving DecidableEq, Repr

def isSpace (c : Char) : Bool := c == ' ' || c == '\t' || c == '\n' || c == '\r'

def skipSpace (s : List Char) : List Char := s.dropWhile isSpace

def hexValue? (c : Char) : Option Nat :=
  if '0' ≤ c ∧ c ≤ '9' then some (c.toNat - 48)
  else if 'a' ≤ c ∧ c ≤ 'f' then some (c.toNat - 87)
  else if 'A' ≤ c ∧ c ≤ 'F' then some (c.toNat - 55)
  else none

/-- The number written by four hexadecimal digits, if there are four and something follows them. -/
def fourHex? : List Char → Option (Nat × List Char)
  | a :: b :: c :: d :: rest => do
    if rest.isEmpty then none
    let a ← hexValue? a
    let b ← hexValue? b
    let c ← hexValue? c
    let d ← hexValue? d
    return (((a * 16 + b) * 16 + c) * 16 + d, rest)
  | _ => none

/-- A code unit that is the first half of a surrogate pair. -/
def isHighHalf (n : Nat) : Bool := 0xd800 ≤ n && n ≤ 0xdbff

/-- A code unit that is the second half of a surrogate pair. -/
def isLowHalf (n : Nat) : Bool := 0xdc00 ≤ n && n ≤ 0xdfff

def shortEscape? (c : Char) : Option Char :=
  [('"', '"'), ('\\', '\\'), ('/', '/'), ('b', '\x08'), ('f', '\x0c'), ('n', '\n'), ('r', '\r'),
    ('t', '\t')].lookup c

/-- A text under construction, the last character first; `none` once it holds half a pair. -/
abbrev Draft := Option (List Char)

def Draft.finish : Draft → Value
  | some cs => .text (String.ofList cs.reverse)
  | none => .brokenText

/-- The code unit behind an escape's `u`, joined with the second half of a pair if one follows. -/
def readUnicode (escape s : List Char) : Except Fault (Option Char × List Char) :=
  match fourHex? s with
  | none => .error ⟨.badUnicodeEscape, escape⟩
  | some (n, rest) =>
    if isHighHalf n then
      match rest with
      | '\\' :: 'u' :: digits =>
        if digits.length ≤ 4 then .ok (none, rest)
        else
          match fourHex? digits with
          | none => .error ⟨.badUnicodeEscape, 'u' :: digits⟩
          | some (m, rest') =>
            if isLowHalf m then
              .ok (some (Char.ofNat (0x10000 + (n - 0xd800) * 0x400 + (m - 0xdc00))), rest')
            else .ok (none, rest)
      | _ => .ok (none, rest)
    else if isLowHalf n then .ok (none, rest)
    else .ok (some (Char.ofNat n), rest)

/-- The rest of a string, whose opening quote starts `opening`. -/
def readString (opening : List Char) : Nat → Draft → List Char → Except Fault (Value × List Char)
  | 0, _, _ => .error ⟨.unterminatedString, opening⟩
  | fuel + 1, draft, s =>
    match s with
    | [] => .error ⟨.unterminatedString, opening⟩
    | '"' :: rest => .ok (draft.finish, rest)
    | '\\' :: [] => .error ⟨.unterminatedString, opening⟩
    | '\\' :: 'u' :: rest => do
      let (c, rest) ← readUnicode ('u' :: rest) rest
      let draft : Draft := do
        let cs ← draft
        let c ← c
        return c :: cs
      readString opening fuel draft rest
    | '\\' :: c :: rest =>
      match shortEscape? c with
      | some d => readString opening fuel (draft.map (d :: ·)) rest
      | none => .error ⟨.badEscape, '\\' :: c :: rest⟩
    | c :: rest =>
      if c.toNat < 32 then .error ⟨.controlCharacter, c :: rest⟩
      else readString opening fuel (draft.map (c :: ·)) rest

/-- More digits than this are refused in an integer. -/
def digitLimit : Nat := 4300

def ofDigits (ds : List Char) : Nat := ds.foldl (fun n c => n * 10 + (c.toNat - 48)) 0

def takeExponent? : List Char → Option (Int × List Char)
  | e :: s =>
    if e == 'e' || e == 'E' then
      let (negative, digits) :=
        match s with
        | '-' :: r => (true, r)
        | '+' :: r => (false, r)
        | r => (false, r)
      let ds := digits.takeWhile Char.isDigit
      if ds.isEmpty then none
      else
        let n : Int := ofDigits ds
        some (if negative then -n else n, digits.dropWhile Char.isDigit)
    else none
  | [] => none

/-- Whether a minus stands at the start of a text, and what is behind it. -/
def takeSign : List Char → Bool × List Char
  | '-' :: rest => (true, rest)
  | s => (false, s)

/-- The digits of a whole number at the start of a text; a zero stands alone. -/
def takeWhole : List Char → List Char
  | '0' :: _ => ['0']
  | s => s.takeWhile Char.isDigit

def takeFraction : List Char → List Char × List Char
  | '.' :: rest =>
    let ds := rest.takeWhile Char.isDigit
    if ds.isEmpty then ([], '.' :: rest) else (ds, rest.drop ds.length)
  | s => ([], s)

def readNumber (start : List Char) : Except Fault (Value × List Char) :=
  let (negative, s) := takeSign start
  let whole := takeWhole s
  if whole.isEmpty then .error ⟨.expectedValue, start⟩
  else
    let (fraction, rest) := takeFraction (s.drop whole.length)
    match fraction, takeExponent? rest with
    | [], none =>
      if digitLimit < whole.length then .error ⟨.longInteger whole.length, start⟩
      else
        let n : Int := ofDigits whole
        .ok (.int (if negative then -n else n), rest)
    | _, exponent =>
      let (e, rest) := exponent.getD (0, rest)
      .ok (.float
        (Binary64.ofDecimal negative (ofDigits (whole ++ fraction)) (e - fraction.length)),
        rest)

def words : List (List Char × Value) :=
  [("null".toList, .null), ("true".toList, .bool true), ("false".toList, .bool false),
    ("NaN".toList, .float .nan), ("Infinity".toList, .float (.infinite false)),
    ("-Infinity".toList, .float (.infinite true))]

mutual

def readValue : Nat → List Char → Except Fault (Value × List Char)
  | 0, s => .error ⟨.expectedValue, s⟩
  | fuel + 1, s =>
    match s with
    | '"' :: rest => readString s (rest.length + 1) (some []) rest
    | '[' :: rest =>
      match skipSpace rest with
      | ']' :: rest => .ok (.list [], rest)
      | rest => readItems fuel [] rest
    | '\x7b' :: rest =>
      match skipSpace rest with
      | '\x7d' :: rest => .ok (.map [], rest)
      | rest => readMembers fuel [] rest
    | _ =>
      match words.find? fun w => w.1.isPrefixOf s with
      | some (w, v) => .ok (v, s.drop w.length)
      | none => readNumber s

def readItems : Nat → List Value → List Char → Except Fault (Value × List Char)
  | 0, _, s => .error ⟨.expectedValue, s⟩
  | fuel + 1, items, s => do
    let (v, rest) ← readValue fuel s
    match skipSpace rest with
    | ']' :: rest => return (.list (v :: items).reverse, rest)
    | ',' :: rest => readItems fuel (v :: items) (skipSpace rest)
    | rest => throw ⟨.expectedComma, rest⟩

/-- The members of a mapping, the first of which starts here. -/
def readMembers : Nat → List (Value × Value) → List Char → Except Fault (Value × List Char)
  | 0, _, s => .error ⟨.expectedName, s⟩
  | fuel + 1, entries, s =>
    match s with
    | '"' :: rest => do
      let (name, rest) ← readString s (rest.length + 1) (some []) rest
      match skipSpace rest with
      | ':' :: rest =>
        let (v, rest) ← readValue fuel (skipSpace rest)
        let entries := Value.put name v entries
        match skipSpace rest with
        | '\x7d' :: rest => return (.map entries, rest)
        | ',' :: rest => readMembers fuel entries (skipSpace rest)
        | rest => throw ⟨.expectedComma, rest⟩
      | rest => throw ⟨.expectedColon, rest⟩
    | _ => .error ⟨.expectedName, s⟩

end

/-- A whole document: one value with nothing but space around it. -/
def parse (s : List Char) : Except Fault Value :=
  match s with
  | '\ufeff' :: _ => .error ⟨.byteOrderMark, s⟩
  | _ => do
    let (v, rest) ← readValue (s.length + 1) (skipSpace s)
    match skipSpace rest with
    | [] => return v
    | rest => throw ⟨.extraData, rest⟩

def Problem.text : Problem → String
  | .expectedValue => "Expecting value"
  | .expectedName => "Expecting property name enclosed in double quotes"
  | .expectedColon => "Expecting ':' delimiter"
  | .expectedComma => "Expecting ',' delimiter"
  | .extraData => "Extra data"
  | .unterminatedString => "Unterminated string starting at"
  | .controlCharacter => "Invalid control character at"
  | .badEscape => "Invalid \\escape"
  | .badUnicodeEscape => "Invalid \\uXXXX escape"
  | .byteOrderMark => "Unexpected UTF-8 BOM (decode using utf-8-sig)"
  | .longInteger digits =>
    "Exceeds the limit (" ++ toString digitLimit ++
      " digits) for integer string conversion: value has " ++ toString digits ++
      " digits; use sys.set_int_max_str_digits() to increase the limit"

/-- A fault of a document in words, with the line, the column and the number of characters before
its place. -/
def Fault.message (document : List Char) (f : Fault) : String :=
  let position := document.length - f.rest.length
  let before := document.take position
  let line := before.count '\n' + 1
  let column := (before.reverse.takeWhile (· != '\n')).length + 1
  f.problem.text ++ ": line " ++ toString line ++ " column " ++ toString column ++ " (char " ++
    toString position ++ ")"

end Ripple.Json
