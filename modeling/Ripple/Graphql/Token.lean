/-!
Tokens of GraphQL documents. Blanks, commas, byte order marks, line ends and comments separate
tokens. A lexical fault becomes a token of its own, so that a reader meets it only where it gets to.
-/
namespace Ripple.Graphql

inductive TokenKind where
  | mark (text : String)
  | name
  | int
  | float
  | string
  | blockString
  | ending
  deriving DecidableEq, Repr

structure SyntaxFault where
  position : Nat
  description : String
  deriving DecidableEq, Repr

structure Token where
  kind : TokenKind
  /-- The number of characters before the token. -/
  start : Nat
  /-- The name, the number as written, or the value of a string. -/
  value : String
  /-- Set if there is no token here but a fault. -/
  fault : Option SyntaxFault
  deriving DecidableEq, Repr

namespace Token

def kindText : TokenKind → String
  | .mark text => "'" ++ text ++ "'"
  | .name => "Name"
  | .int => "Int"
  | .float => "Float"
  | .string => "String"
  | .blockString => "BlockString"
  | .ending => "<EOF>"

def text (t : Token) : String :=
  match t.kind with
  | .mark _ | .ending => kindText t.kind
  | kind => kindText kind ++ " '" ++ t.value ++ "'"

end Token

namespace Lexer

def isNameStart (c : Char) : Bool := c.isAlpha || c == '_'

def isNameChar (c : Char) : Bool := c.isAlphanum || c == '_'

/-- Four or more upper-case hexadecimal digits. -/
def hexUpper (n : Nat) : String :=
  let digits := (Nat.toDigits 16 n).map Char.toUpper
  String.ofList (List.replicate (4 - digits.length) '0' ++ digits)

/-- The character at the start of a text as messages show it. -/
def shown : List Char → String
  | [] => "<EOF>"
  | c :: _ =>
    if c = '"' then "'\"'"
    else if 32 ≤ c.toNat ∧ c.toNat ≤ 126 then "'" ++ String.ofList [c] ++ "'"
    else "U+" ++ hexUpper c.toNat

/-- A lexed piece: the token's kind and value and the number of its characters, or a fault with its
distance from the start. -/
abbrev Piece := Except SyntaxFault (TokenKind × String × Nat)

def faultAt {α : Type} (position : Nat) (description : String) : Except SyntaxFault α :=
  .error ⟨position, description⟩

/-- Decimal digits, of which there has to be one. -/
def digits (position : Nat) (s : List Char) : Except SyntaxFault (List Char) :=
  match s.takeWhile Char.isDigit with
  | [] => faultAt position ("Invalid number, expected digit but got: " ++ shown s ++ ".")
  | ds => .ok ds

/-- The digits in front of a point; a zero stands alone. -/
def wholePart (position : Nat) (s : List Char) : Except SyntaxFault (List Char) :=
  match s with
  | '0' :: after =>
    if (after.head?.map Char.isDigit).getD false then
      faultAt (position + 1) ("Invalid number, unexpected digit after 0: " ++ shown after ++ ".")
    else .ok ['0']
  | _ => digits position s

def fractionPart (position : Nat) (s : List Char) : Except SyntaxFault (List Char) :=
  match s with
  | '.' :: after => (digits (position + 1) after).map ('.' :: ·)
  | _ => .ok []

def exponentPart (position : Nat) (s : List Char) : Except SyntaxFault (List Char) :=
  match s with
  | e :: after =>
    if e == 'e' || e == 'E' then
      let sign := (after.takeWhile fun c => c == '+' || c == '-').take 1
      (digits (position + 1 + sign.length) (after.drop sign.length)).map fun ds => e :: (sign ++ ds)
    else .ok []
  | [] => .ok []

/-- Neither a point nor a name may follow a number. -/
def numberEnd (position : Nat) (s : List Char) : Except SyntaxFault Unit :=
  match s with
  | c :: _ =>
    if c == '.' || isNameStart c then
      faultAt position ("Invalid number, expected digit but got: " ++ shown s ++ ".")
    else .ok ()
  | [] => .ok ()

/-- A number: an integer without leading zeros, then a fraction and an exponent if there are any. -/
def number (start : Nat) (s : List Char) : Piece := do
  let sign := s.takeWhile (· == '-') |>.take 1
  let whole ← wholePart (start + sign.length) (s.drop sign.length)
  let integer := sign ++ whole
  let fraction ← fractionPart (start + integer.length) (s.drop integer.length)
  let decimal := integer ++ fraction
  let exponent ← exponentPart (start + decimal.length) (s.drop decimal.length)
  let text := decimal ++ exponent
  numberEnd (start + text.length) (s.drop text.length)
  let kind := if fraction.isEmpty && exponent.isEmpty then TokenKind.int else .float
  return (kind, String.ofList text, text.length)

def hexValue? (c : Char) : Option Nat :=
  if '0' ≤ c ∧ c ≤ '9' then some (c.toNat - 48)
  else if 'a' ≤ c ∧ c ≤ 'f' then some (c.toNat - 87)
  else if 'A' ≤ c ∧ c ≤ 'F' then some (c.toNat - 55)
  else none

def hexNumber? (ds : List Char) : Option Nat :=
  ds.foldl (fun n? d => do
    let n ← n?
    let v ← hexValue? d
    return n * 16 + v) (some 0)

def fourHex? (s : List Char) : Option Nat :=
  if (s.take 4).length = 4 then hexNumber? (s.take 4) else none

def isScalar (n : Nat) : Bool := n < 0xd800 || (0xe000 ≤ n && n ≤ 0x10ffff)

/-- The length of a braced escape that is not a proper one: up to the first character that is no
digit or makes the number too long, and never more than twelve. -/
def braceFaultLength (s : List Char) : Nat :=
  let inside := (s.drop 3).take 9
  let hex := inside.takeWhile fun c => (hexValue? c).isSome
  min s.length (3 + min 9 (hex.length + 1))

/-- An escape in a string, which starts at its backslash: its character and its length. -/
def escape (position : Nat) (s : List Char) : Except SyntaxFault (Char × Nat) :=
  let invalid (length : Nat) : Except SyntaxFault (Char × Nat) :=
    faultAt position ("Invalid Unicode escape sequence: '" ++ String.ofList (s.take length) ++ "'.")
  match s with
  | _ :: 'u' :: '\x7b' :: rest =>
    let ds := rest.takeWhile fun c => (hexValue? c).isSome
    match rest.drop ds.length, hexNumber? ds with
    | '\x7d' :: _, some n =>
      if ds.isEmpty ∨ 8 < ds.length ∨ !isScalar n then invalid (min 12 (ds.length + 4))
      else .ok (Char.ofNat n, ds.length + 4)
    | _, _ => invalid (braceFaultLength s)
  | _ :: 'u' :: rest =>
    match fourHex? rest with
    | none => invalid 6
    | some n =>
      if isScalar n then .ok (Char.ofNat n, 6)
      else
        match rest.drop 4 with
        | '\\' :: 'u' :: low =>
          match fourHex? low with
          | some m =>
            if n < 0xdc00 ∧ 0xdc00 ≤ m ∧ m ≤ 0xdfff then
              .ok (Char.ofNat (0x10000 + (n - 0xd800) * 0x400 + (m - 0xdc00)), 12)
            else invalid 6
          | none => invalid 6
        | _ => invalid 6
  | _ :: c :: _ =>
    match [('"', '"'), ('\\', '\\'), ('/', '/'), ('b', '\x08'), ('f', '\x0c'), ('n', '\n'),
        ('r', '\r'), ('t', '\t')].lookup c with
    | some d => .ok (d, 2)
    | none =>
      faultAt position ("Invalid character escape sequence: '" ++ String.ofList (s.take 2) ++ "'.")
  | _ =>
    faultAt position ("Invalid character escape sequence: '" ++ String.ofList (s.take 2) ++ "'.")

/-- The rest of a string on one line; `value` is the reversed value so far, `used` the number of
characters read. -/
def string (start : Nat) : Nat → List Char → Nat → List Char → Piece
  | 0, _, used, _ => faultAt (start + used) "Unterminated string."
  | fuel + 1, value, used, s =>
    match s with
    | '"' :: _ => .ok (.string, String.ofList value.reverse, used + 1)
    | '\\' :: _ => do
      let (c, length) ← escape (start + used) s
      string start fuel (c :: value) (used + length) (s.drop length)
    | [] => faultAt (start + used) "Unterminated string."
    | c :: rest =>
      if c == '\n' || c == '\r' then faultAt (start + used) "Unterminated string."
      else string start fuel (c :: value) (used + 1) rest

def isIndent (c : Char) : Bool := c == ' ' || c == '\t'

/-- The lines of a block string without their common indentation, which the first line does not
count for, and without the blank lines at both ends. -/
def dedent (lines : List (List Char)) : List (List Char) :=
  let isBlankLine (l : List Char) := l.all isIndent
  let indents := (lines.drop 1).filterMap fun l =>
    if isBlankLine l then none else some (l.takeWhile isIndent).length
  let cut :=
    match indents.min? with
    | some n => n
    | none => (lines.map List.length).foldl max 0
  let lines :=
    match lines with
    | [] => []
    | first :: rest => first :: rest.map fun (l : List Char) => l.drop cut
  let flagged := lines.dropWhile isBlankLine
  (flagged.reverse.dropWhile isBlankLine).reverse

/-- The rest of a block string; `lines` are the reversed lines so far, `line` the reversed line. -/
def block (start : Nat) : Nat → List (List Char) → List Char → Nat → List Char → Piece
  | 0, _, _, used, _ => faultAt (start + used) "Unterminated string."
  | fuel + 1, lines, line, used, s =>
    match s with
    | [] => faultAt (start + used) "Unterminated string."
    | '"' :: '"' :: '"' :: _ =>
      let all := (line.reverse :: lines).reverse
      .ok (.blockString, String.ofList (List.intercalate ['\n'] (dedent all)), used + 3)
    | '\\' :: '"' :: '"' :: '"' :: rest =>
      block start fuel lines ('"' :: '"' :: '"' :: line) (used + 4) rest
    | '\r' :: '\n' :: rest => block start fuel (line.reverse :: lines) [] (used + 2) rest
    | c :: rest =>
      if c == '\n' || c == '\r' then block start fuel (line.reverse :: lines) [] (used + 1) rest
      else block start fuel lines (c :: line) (used + 1) rest

def marks : List Char := "!$&():=@[]\x7b|\x7d".toList

/-- The piece at the start of a text that starts with no separator. -/
def piece (start : Nat) (s : List Char) : Piece :=
  match s with
  | [] => .ok (.ending, "", 0)
  | '"' :: '"' :: '"' :: rest => block start (rest.length + 1) [] [] 3 rest
  | '"' :: rest => string start (rest.length + 1) [] 1 rest
  | '.' :: '.' :: '.' :: _ => .ok (.mark "...", "", 3)
  | '.' :: '.' :: _ => faultAt start "Unexpected '..', did you mean '...'?"
  | c :: rest =>
    if c.isDigit || c == '-' then number start s
    else if isNameStart c then
      let name := s.takeWhile isNameChar
      .ok (.name, String.ofList name, name.length)
    else if marks.contains c then .ok (.mark (String.ofList [c]), "", 1)
    else if c == '.' && (rest.head?.map Char.isDigit).getD false then
      let ds := rest.takeWhile Char.isDigit
      faultAt start ("Invalid number, expected digit before '.', did you mean '0." ++
        String.ofList ds ++ "'?")
    else if c == '\'' then
      faultAt start
        "Unexpected single quote character ('), did you mean to use a double quote (\")?"
    else faultAt start ("Unexpected character: " ++ shown s ++ ".")

/-- The number of separating characters at the start of a text. -/
def separators : Bool → List Char → Nat
  | _, [] => 0
  | inComment, c :: rest =>
    if c == '\n' || c == '\r' then separators false rest + 1
    else if inComment then separators true rest + 1
    else if c == ' ' || c == '\t' || c == ',' || c == '\ufeff' then separators false rest + 1
    else if c == '#' then separators true rest + 1
    else 0

/-- All tokens from a place on, up to the end of the text or the first fault. -/
def tokensFrom : Nat → Nat → List Char → List Token
  | 0, start, _ => [⟨.ending, start, "", none⟩]
  | fuel + 1, start, s =>
    let skipped := separators false s
    let start := start + skipped
    let s := s.drop skipped
    match piece start s with
    | .error f => [⟨.ending, start, "", some f⟩]
    | .ok (.ending, _, _) => [⟨.ending, start, "", none⟩]
    | .ok (kind, value, length) =>
      ⟨kind, start, value, none⟩ :: tokensFrom fuel (start + length) (s.drop length)

/-- The tokens of a document; the last one is its end or a fault. -/
def tokens (s : List Char) : List Token := tokensFrom (s.length + 1) 0 s

end Lexer

/-- The line and the column of a place in a document, both counted from one. -/
def location (document : List Char) (position : Nat) : Nat × Nat :=
  let rec go : Nat → Nat → Nat → List Char → Nat × Nat
    | 0, line, column, _ => (line, column)
    | _, line, column, [] => (line, column)
    | 1, line, column, '\r' :: '\n' :: _ => (line, column + 1)
    | n + 2, line, _, '\r' :: '\n' :: rest => go n (line + 1) 1 rest
    | n + 1, line, column, c :: rest =>
      if c == '\n' || c == '\r' then go n (line + 1) 1 rest else go n line (column + 1) rest
  go position 1 1 document

end Ripple.Graphql
